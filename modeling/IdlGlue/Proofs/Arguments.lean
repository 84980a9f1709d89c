/-
# IdlGlue.Proofs.Arguments -- every declared parameter is read from its own place

A script calls a generated function with an array of arguments, whose place zero is the
receiver. The number of a parameter is given when its list is read, the places that a
function reads come from those numbers, and the count that it asserts from the length of the
list; all three have to fit together:

| function            | asserted count | places read, in order | handed to native code       |
|---------------------|----------------|-----------------------|-----------------------------|
| constructor, n long | n + 1          | 1 ... n               | n locals, one per parameter |
| method, n long      | n + 1          | 0, 1 ... n            | n locals, one per parameter |
| getter              | 1              | 0                     |                             |
| setter              | 2              | 0, 1                  |                             |

That a place is read says little unless the value arrives somewhere. `flow` follows values
through the locals of a body, and `ReadsParam` asks that the local of a parameter holds in
the end what stood in its place.
-/
import IdlGlue.Proofs.Entries
import IdlGlue.Proofs.Names
import Mathlib.Logic.Function.Basic

namespace IdlGlue

namespace Native

/-! ## Where values come from -/

/-- For each local, the place of the argument array that its value came from, if it came
from there. -/
abbrev Origins := String → Option Nat

/-- The place that the value of an operand came from. -/
def Operand.origin? (o : Origins) : Operand → Option Nat
  | .argument place => some place
  | .value name | .cast _ name => o name
  | .address _ | .pointerAddress _ | .null | .prototype _ => none

/-- The local that the callee fills in through an operand. -/
def Operand.filled? : Operand → Option String
  | .address name | .pointerAddress name => some name
  | .argument _ | .value _ | .cast _ _ | .null | .prototype _ => none

/-- What one statement does to the origins. A callee fills in what it makes of the operand
that came from the argument array. -/
def Stmt.pass (o : Origins) : Stmt → Origins
  | .declare decl => Function.update o decl.name none
  | .openOutput => Function.update o outputName none
  | .checkReceiver => Function.update o objectName (some 0)
  | .castReceiver _ => Function.update o receiverName (o objectName)
  | .create _ _ => Function.update o objectName none
  | .store target _ _ => Function.update o target none
  | .assign target _ operands =>
    Function.update o target (operands.findSome? (Operand.origin? o))
  | .invoke _ operands => fun name =>
    if some name ∈ operands.map Operand.filled? then operands.findSome? (Operand.origin? o)
    else o name
  | .expectCall _ _ | .perform _ | .writeField _ _ | .returnOutput => o

/-- The origins after all statements of a body. -/
def flow (o : Origins) (body : List Stmt) : Origins := body.foldl Stmt.pass o

/-! ## Counts and native calls -/

/-- The number of arguments that a statement asserts. -/
def Stmt.asserted? : Stmt → Option Nat
  | .expectCall _ count => some count
  | _ => none

/-- The operands of a call of native code, be it of a method or of a constructor. -/
def Stmt.nativeOperands? : Stmt → Option (List Operand)
  | .store _ _ (.call _ operands) | .perform (.call _ operands) | .create _ operands =>
    some operands
  | _ => none

/-- The local whose value an operand hands on. -/
def Operand.local? : Operand → Option String
  | .value name | .cast _ name => some name
  | _ => none

end Native

open IdlGlue.Native

namespace Glue

/-! ## What a function has to do -/

/-- The statements read one place, once, and leave in the local what they have read. -/
structure ReadsInto (name : String) (place : Nat) (part : List Stmt) : Prop where
  reads : part.flatMap Stmt.argumentsRead = [place]
  arrives : ∀ o, flow o part name = some place

/-- The statements declare the local of a parameter and read it from its place. -/
structure ReadsParam (p : Param) (place : Nat) (part : List Stmt) : Prop
    extends ReadsInto (localName p.name) place part where
  declared : ∃ type, part.head? = some (.declare { type, name := localName p.name })

/-- The body reads its receiver, if it has one, then each parameter from its own place, in
the order of declaration, and nothing afterwards. -/
inductive ReadsAll (kind : EntryKind) (params : List Param) (body : List Stmt) : Prop
  | mk (opening : List Stmt) (parts : List (List Stmt)) (closing : List Stmt) :
      body = opening ++ parts.flatten ++ closing →
      (kind = .constructor → opening.flatMap Stmt.argumentsRead = []) →
      (kind ≠ .constructor → ReadsInto receiverName 0 opening) →
      List.Forall₂ (fun p part => ReadsParam p.1 p.2 part) (params.zipIdx 1) parts →
      closing.flatMap Stmt.argumentsRead = [] → ReadsAll kind params body

/-- The function is called and calls as its declaration says. -/
structure Keeps (e : Entry) (f : Function) : Prop where
  symbol : f.symbol = e.symbol
  /-- The count is asserted before anything else is done, -/
  first : f.body.head? = some (.expectCall (e.kind = .constructor) (e.params.length + 1))
  /-- and once. -/
  asserted : f.body.filterMap Stmt.asserted? = [e.params.length + 1]
  reads : ReadsAll e.kind e.params f.body
  places : f.argumentsRead =
    (if e.kind = .constructor then [] else [0]) ++ List.range' 1 e.params.length
  inBounds : ∀ place ∈ f.argumentsRead, place < e.params.length + 1
  /-- Native code is called once, or not at all, with the locals of the parameters. -/
  native : (f.body.filterMap Stmt.nativeOperands?).map (List.map Operand.local?) =
    if e.kind = .accessor then [] else [e.params.map fun p => some (localName p.name)]

/-! ## Reading -/

/-- The statement asserts nothing and calls no native code. -/
def Quiet (s : Stmt) : Prop := s.asserted? = none ∧ s.nativeOperands? = none

/-- A callee that is handed a place of the array fills in what stands there. -/
theorem readsInto_invoke (callee : String) (place : Nat) {x : Operand} {name : String}
    (hx : x.filled? = some name) (hplace : argumentIndices [x] = []) :
    ReadsInto name place [.invoke callee [.argument place, x]] where
  reads := by
    show argumentIndices [.argument place] ++ argumentIndices [x] ++ [] = [place]
    rw [hplace]
    rfl
  arrives o := if_pos (by simp [hx])

/-- The text of a value goes through three locals of its own before it arrives. -/
theorem readsInto_readText (name : String) (place : Nat) :
    ReadsInto name place (Rules.readText name place) := by
  refine ⟨rfl, fun o => ?_⟩
  have hvalue : name ++ "StringValue" ≠ name ++ "WideString" := by simp
  have hvalue' : name ++ "StringValue" ≠ name ++ "WideLength" := by simp
  simp [flow, Rules.readText, Stmt.pass, Operand.filled?, List.findSome?, Operand.origin?,
    hvalue, hvalue']

theorem readsInto_readArgument {type : IdlType} {name : String} {place : Nat} {part : List Stmt}
    (h : Rules.readArgument type name place = .ok part) : ReadsInto name place part := by
  cases type with
  | primitive kind =>
      cases kind with
      | long => cases h
      | int | float | double =>
          cases h
          exact readsInto_invoke _ place rfl rfl
      | string =>
          cases h
          exact readsInto_readText name place
  | object className =>
      cases h
      exact readsInto_invoke _ place rfl rfl
  | void | reference | anyOf => cases h

theorem quiet_readArgument {type : IdlType} {name : String} {place : Nat} {part : List Stmt}
    (h : Rules.readArgument type name place = .ok part) : ∀ s ∈ part, Quiet s := by
  cases type with
  | primitive kind =>
      cases kind with
      | long => cases h
      | int | float | double | string =>
          cases h
          simp [Rules.readText, Quiet, Stmt.asserted?, Stmt.nativeOperands?]
  | object className =>
      cases h
      simp [Quiet, Stmt.asserted?, Stmt.nativeOperands?]
  | void | reference | anyOf => cases h

theorem storage_name {r : Rules} {type : IdlType} {name : String} {decl : Local}
    (h : r.storage type name = .ok decl) : decl.name = name := by
  cases type with
  | primitive kind =>
      cases kind with
      | long => cases h
      | int | float | double | string =>
          cases h
          rfl
  | object | reference | anyOf =>
      cases h
      rfl
  | void => cases h

theorem readsParam_readLocal {r : Rules} {p : Param} {place : Nat} {part : List Stmt}
    (h : readLocal r p.type (localName p.name) place = .ok part) : ReadsParam p place part := by
  obtain ⟨decl, hdecl, h⟩ := Traversal.bind_eq_ok_iff.mp h
  obtain ⟨read, hread, h⟩ := Traversal.bind_eq_ok_iff.mp h
  cases h
  have hinto := readsInto_readArgument hread
  have hname := storage_name hdecl
  refine ⟨⟨?_, fun o => ?_⟩, decl.type, ?_⟩
  · exact hinto.reads
  · exact hinto.arrives _
  · rw [← hname]
    rfl

theorem quiet_readLocal {r : Rules} {type : IdlType} {name : String} {place : Nat}
    {part : List Stmt} (h : readLocal r type name place = .ok part) : ∀ s ∈ part, Quiet s := by
  obtain ⟨decl, _, h⟩ := Traversal.bind_eq_ok_iff.mp h
  obtain ⟨read, hread, h⟩ := Traversal.bind_eq_ok_iff.mp h
  cases h
  exact List.forall_mem_cons.mpr ⟨⟨rfl, rfl⟩, quiet_readArgument hread⟩

/-- Parameters with numbers from `n` on are read from the places behind `n`. -/
theorem readParams_parts {r : Rules} {params : List Param} {n : Nat}
    (hindex : params.map Param.index = List.range' n params.length) {body : List Stmt}
    (h : readParams r params = .ok body) :
    ∃ parts, body = parts.flatten ∧ (∀ part ∈ parts, ∀ s ∈ part, Quiet s) ∧
      List.Forall₂ (fun p part => ReadsParam p.1 p.2 part) (params.zipIdx (n + 1)) parts := by
  induction params generalizing n body with
  | nil =>
      cases h
      exact ⟨[], rfl, List.forall_mem_nil _, .nil⟩
  | cons p ps ih =>
      obtain ⟨first, hfirst, h⟩ := Traversal.bind_eq_ok_iff.mp h
      obtain ⟨others, hothers, h⟩ := Traversal.bind_eq_ok_iff.mp h
      cases h
      rw [List.map_cons, List.length_cons, List.range'_succ] at hindex
      obtain ⟨hp, hps⟩ := List.cons.inj hindex
      obtain ⟨parts, rfl, hquiet, hparts⟩ := ih hps hothers
      rw [Param.scriptIndex, hp] at hfirst
      exact ⟨first :: parts, rfl, List.forall_mem_cons.mpr ⟨quiet_readLocal hfirst, hquiet⟩,
        .cons (readsParam_readLocal hfirst) hparts⟩

/-! ## Native calls and results -/

theorem local_operand {type : IdlType} {name : String} {x : Operand}
    (h : Rules.operand type name = .ok x) : x.local? = some name := by
  cases type with
  | primitive kind =>
      cases kind with
      | long => cases h
      | int | float | double | string =>
          cases h
          rfl
  | object className =>
      cases h
      rfl
  | void | reference | anyOf => cases h

/-- What hands on a local reads no place itself. -/
theorem argumentIndices_of_local {xs : List Operand} (h : ∀ x ∈ xs, x.local?.isSome) :
    argumentIndices xs = [] := by
  refine List.filterMap_eq_nil_iff.mpr fun x hx => ?_
  cases x with
  | argument place => exact absurd (h _ hx) (by simp [Operand.local?])
  | value | address | pointerAddress | cast | null | prototype => rfl

theorem local_callOperands {params : List Param} {operands : List Operand}
    (h : callOperands params = .ok operands) :
    operands.map Operand.local? = params.map fun p => some (localName p.name) := by
  have hall := Traversal.mapM_eq_ok_iff.mp h
  induction hall with
  | nil => rfl
  | cons hx hxs ih =>
      rw [List.map_cons, List.map_cons, local_operand hx, ih (Traversal.mapM_eq_ok_iff.mpr hxs)]

theorem argumentIndices_callOperands {params : List Param} {operands : List Operand}
    (h : callOperands params = .ok operands) : argumentIndices operands = [] := by
  refine argumentIndices_of_local fun x hx => ?_
  have hlocal : x.local? ∈ params.map fun p => some (localName p.name) := by
    rw [← local_callOperands h]
    exact List.mem_map_of_mem hx
  obtain ⟨p, _, hp⟩ := List.mem_map.mp hlocal
  rw [← hp]
  rfl

/-- The statements read no place, assert nothing and call no native code. -/
structure Idle (part : List Stmt) : Prop where
  reads : part.flatMap Stmt.argumentsRead = []
  quiet : ∀ s ∈ part, Quiet s

theorem idle_giveResult {r : Rules} {type : IdlType} {selector : String} {part : List Stmt}
    (h : r.giveResult type selector = .ok part) : Idle part := by
  cases type with
  | primitive kind =>
      cases kind with
      | long => cases h
      | int | float | double | string =>
          cases h
          exact ⟨rfl, by simp [Rules.giveText, Quiet, Stmt.asserted?, Stmt.nativeOperands?]⟩
  | object className | reference className =>
      cases h
      exact ⟨rfl, by simp [Rules.wrapObject, Quiet, Stmt.asserted?, Stmt.nativeOperands?]⟩
  | anyOf set =>
      obtain ⟨expression, _, h⟩ := Traversal.bind_eq_ok_iff.mp h
      cases h
      exact ⟨rfl, by simp [Rules.wrapObject, Quiet, Stmt.asserted?, Stmt.nativeOperands?]⟩
  | void => cases h

/-- The statements ask for `source`, and do no more than that with the arguments. -/
structure Asks (source : Access) (part : List Stmt) : Prop where
  reads : part.flatMap Stmt.argumentsRead = []
  asserted : part.filterMap Stmt.asserted? = []
  native : part.filterMap Stmt.nativeOperands? = (Stmt.perform source).nativeOperands?.toList

theorem asserted_eq_nil {part : List Stmt} (h : ∀ s ∈ part, Quiet s) :
    part.filterMap Stmt.asserted? = [] :=
  List.filterMap_eq_nil_iff.mpr fun s hs => (h s hs).1

theorem nativeOperands_eq_nil {part : List Stmt} (h : ∀ s ∈ part, Quiet s) :
    part.filterMap Stmt.nativeOperands? = [] :=
  List.filterMap_eq_nil_iff.mpr fun s hs => (h s hs).2

theorem asks_giveAccess {r : Rules} {type : IdlType} {source : Access} {selector : String}
    {part : List Stmt} (h : giveAccess r type source selector = .ok part)
    (hsource : argumentIndices source.operands = []) : Asks source part := by
  obtain ⟨decl, _, h⟩ := Traversal.bind_eq_ok_iff.mp h
  obtain ⟨conversion, _, h⟩ := Traversal.bind_eq_ok_iff.mp h
  obtain ⟨give, hgive, h⟩ := Traversal.bind_eq_ok_iff.mp h
  cases h
  have hidle := idle_giveResult hgive
  refine ⟨?_, ?_, ?_⟩
  · show argumentIndices source.operands ++ give.flatMap Stmt.argumentsRead = []
    rw [hsource, hidle.reads]
    rfl
  · show give.filterMap Stmt.asserted? = []
    exact asserted_eq_nil hidle.quiet
  · have hnative := nativeOperands_eq_nil hidle.quiet
    cases source with
    | call member operands => exact congrArg (operands :: ·) hnative
    | field | other => exact hnative

theorem asks_methodAsk {r : Rules} {m : Method} {source : Access} {part : List Stmt}
    (h : methodAsk r m source = .ok part) (hsource : argumentIndices source.operands = []) :
    Asks source part := by
  unfold methodAsk at h
  split at h
  · cases h
    refine ⟨?_, rfl, ?_⟩
    · show argumentIndices source.operands ++ [] = []
      rw [hsource]
      rfl
    · cases source with
      | call | field | other => rfl
  · exact asks_giveAccess h hsource

/-! ## Functions -/

theorem places_of_parts {params : List Param} {n : Nat} {parts : List (List Stmt)}
    (h : List.Forall₂ (fun p part => ReadsParam p.1 p.2 part) (params.zipIdx n) parts) :
    parts.flatten.flatMap Stmt.argumentsRead = List.range' n params.length := by
  induction params generalizing n parts with
  | nil =>
      rw [List.zipIdx_nil, List.forall₂_nil_left_iff] at h
      rw [h]
      rfl
  | cons p ps ih =>
      rw [List.zipIdx_cons, List.forall₂_cons_left_iff] at h
      obtain ⟨part, rest, hp, hrest, rfl⟩ := h
      rw [List.flatten_cons, List.flatMap_append, hp.reads, ih hrest]
      rfl

/-- A function is as declared if its parts are: what stands before the parameters, the
parameters, and what stands behind them. -/
theorem keeps_of_parts {e : Entry} {f : Function} (opening : List Stmt)
    (parts : List (List Stmt)) (closing : List Stmt) (hsymbol : f.symbol = e.symbol)
    (hbody : f.body = .expectCall (e.kind = .constructor) (e.params.length + 1) :: opening ++
      parts.flatten ++ closing)
    (hopening : ∀ s ∈ opening, Quiet s)
    (hnone : e.kind = .constructor → opening.flatMap Stmt.argumentsRead = [])
    (hreceiver : e.kind ≠ .constructor → ReadsInto receiverName 0 opening)
    (hquiet : ∀ part ∈ parts, ∀ s ∈ part, Quiet s)
    (hparts : List.Forall₂ (fun p part => ReadsParam p.1 p.2 part) (e.params.zipIdx 1) parts)
    (hreads : closing.flatMap Stmt.argumentsRead = [])
    (hasserted : closing.filterMap Stmt.asserted? = [])
    (hnative : (closing.filterMap Stmt.nativeOperands?).map (List.map Operand.local?) =
      if e.kind = .accessor then [] else [e.params.map fun p => some (localName p.name)]) :
    Keeps e f := by
  have hflatten : ∀ s ∈ parts.flatten, Quiet s := by
    intro s hs
    obtain ⟨part, hpart, hs⟩ := List.mem_flatten.mp hs
    exact hquiet part hpart s hs
  have hplaces : f.argumentsRead =
      (if e.kind = .constructor then [] else [0]) ++ List.range' 1 e.params.length := by
    have hopen : opening.flatMap Stmt.argumentsRead =
        if e.kind = .constructor then [] else [0] := by
      split
      · next hkind => exact hnone hkind
      · next hkind => exact (hreceiver hkind).reads
    have hfirst : (Stmt.expectCall (e.kind = .constructor) (e.params.length + 1)).argumentsRead =
        [] := rfl
    rw [Function.argumentsRead, hbody, List.flatMap_append, List.flatMap_append, List.flatMap_cons,
      hfirst, hopen, places_of_parts hparts, hreads, List.nil_append, List.append_nil]
  refine ⟨hsymbol, ?_, ?_, ?_, hplaces, ?_, ?_⟩
  · rw [hbody]
    rfl
  · rw [hbody, List.filterMap_append, List.filterMap_append, hasserted, asserted_eq_nil hflatten,
      List.append_nil, List.append_nil]
    show (e.params.length + 1) :: opening.filterMap Stmt.asserted? = [e.params.length + 1]
    rw [asserted_eq_nil hopening]
  · refine .mk _ parts closing hbody (fun hkind => ?_) (fun hkind => ?_) hparts hreads
    · exact hnone hkind
    · exact ⟨(hreceiver hkind).reads, (hreceiver hkind).arrives⟩
  · intro place hplace
    rw [hplaces, List.mem_append, List.mem_range'_1] at hplace
    split at hplace
    · have := hplace.resolve_left List.not_mem_nil
      omega
    · rcases hplace with h | h
      · rw [List.mem_singleton.mp h]
        omega
      · omega
  · rw [← hnative, hbody, List.filterMap_append, List.filterMap_append,
      nativeOperands_eq_nil hflatten, List.append_nil]
    show ((opening.filterMap Stmt.nativeOperands? ++ _).map _) = _
    rw [nativeOperands_eq_nil hopening, List.nil_append]

/-- The receiver is checked where it is read, and cast to its class. -/
theorem readsInto_receiver (className : String) :
    ReadsInto receiverName 0 (receiver className) :=
  ⟨rfl, fun _ => rfl⟩

theorem quiet_receiver (className : String) : ∀ s ∈ receiver className, Quiet s := by
  simp [receiver, Quiet, Stmt.asserted?, Stmt.nativeOperands?]

theorem keeps_methodFunction {c : Context} {m : Method} {f : Function} (hm : Numbered m.params)
    (h : methodFunction c m = .ok f) : Keeps (.method c.flat m) f := by
  rw [methodFunction_eq] at h
  obtain ⟨reads, hreads, h⟩ := Traversal.bind_eq_ok_iff.mp h
  obtain ⟨operands, hoperands, h⟩ := Traversal.bind_eq_ok_iff.mp h
  obtain ⟨ask, hask, h⟩ := Traversal.bind_eq_ok_iff.mp h
  cases h
  rw [Numbered, List.range_eq_range'] at hm
  obtain ⟨parts, rfl, hquiet, hparts⟩ := readParams_parts hm hreads
  have hasks := asks_methodAsk hask (argumentIndices_callOperands hoperands)
  refine keeps_of_parts (receiver c.name) parts (ask ++ [.returnOutput]) rfl ?_
    (quiet_receiver c.name) (fun h => by cases h) (fun _ => readsInto_receiver c.name) hquiet
    hparts ?_ ?_ ?_
  · simp only [List.cons_append, List.append_assoc]
    rfl
  · rw [List.flatMap_append, hasks.reads]
    rfl
  · rw [List.filterMap_append, hasks.asserted]
    rfl
  · rw [List.filterMap_append, hasks.native]
    show [operands.map Operand.local?] = [_]
    rw [local_callOperands hoperands]
    rfl

theorem keeps_getterFunction {c : Context} {p : Property} {f : Function}
    (h : getterFunction c p = .ok f) : Keeps (.getter c.flat p) f := by
  obtain ⟨give, hgive, h⟩ := Traversal.bind_eq_ok_iff.mp h
  cases h
  have hasks := asks_giveAccess hgive rfl
  refine keeps_of_parts (receiver c.name) [] (give ++ [.returnOutput]) rfl rfl
    (quiet_receiver c.name) (fun h => by cases h) (fun _ => readsInto_receiver c.name)
    (List.forall_mem_nil _) .nil ?_ ?_ ?_
  · rw [List.flatMap_append, hasks.reads]
    rfl
  · rw [List.filterMap_append, hasks.asserted]
    rfl
  · rw [List.filterMap_append, hasks.native]
    rfl

theorem keeps_setterFunction {c : Context} {p : Property} {f : Function}
    (h : setterFunction c p = .ok f) :
    Keeps (.setter c.flat p) f := by
  obtain ⟨read, hread, h⟩ := Traversal.bind_eq_ok_iff.mp h
  obtain ⟨value, hvalue, h⟩ := Traversal.bind_eq_ok_iff.mp h
  cases h
  have hreads : argumentIndices [value] = [] := by
    refine argumentIndices_of_local fun x hx => ?_
    rw [List.mem_singleton.mp hx, local_operand hvalue]
    rfl
  refine keeps_of_parts (receiver c.name) [read]
    [.writeField (memberName p.name p.nameAsIs) value, .returnOutput] rfl ?_
    (quiet_receiver c.name) (fun h => by cases h) (fun _ => readsInto_receiver c.name) ?_ ?_ ?_
    rfl rfl
  · rw [List.flatten_singleton]
    rfl
  · exact List.forall_mem_singleton.mpr (quiet_readLocal hread)
  · exact .cons (readsParam_readLocal hread) .nil
  · show argumentIndices [value] ++ [] = []
    rw [hreads]
    rfl

theorem keeps_constructorFunction {c : Context} {params : List Param} {f : Function}
    (hparams : Numbered params) (h : constructorFunction c params = .ok f) :
    Keeps (.constructor c.flat params) f := by
  obtain ⟨reads, hreads, h⟩ := Traversal.bind_eq_ok_iff.mp h
  obtain ⟨operands, hoperands, h⟩ := Traversal.bind_eq_ok_iff.mp h
  cases h
  rw [Numbered, List.range_eq_range'] at hparams
  obtain ⟨parts, rfl, hquiet, hparts⟩ := readParams_parts hparams hreads
  refine keeps_of_parts [.openOutput] parts
    ([.create c.name operands] ++ Rules.wrapObject objectName (.slot c.flat) ++
      [.invoke (Symbol.registration c.flat).spelling [.value outputName], .returnOutput])
    rfl ?_ ?_ (fun _ => rfl) ?_ hquiet hparts ?_ rfl ?_
  · simp only [List.cons_append, List.append_assoc]
    rfl
  · exact List.forall_mem_singleton.mpr ⟨rfl, rfl⟩
  · exact fun hkind => absurd rfl hkind
  · show argumentIndices operands ++ [] = []
    rw [argumentIndices_callOperands hoperands]
    rfl
  · show [operands.map Operand.local?] = [_]
    rw [local_callOperands hoperands]
    rfl

/-- A function that is made of a member with numbered parameters is as the member declares. -/
theorem MadeOf.keeps {c : Context} {m : Member} {e : Entry} {f : Function}
    (h : MadeOf c m e f) (hm : m.Numbered) : Keeps e f := by
  cases h with
  | constructor h => exact keeps_constructorFunction hm h
  | method h => exact keeps_methodFunction hm h
  | getter h => exact keeps_getterFunction h
  | setter h => exact keeps_setterFunction h

/-- **The functions of an interface are those of its members, and each is called and calls as
it is declared.** -/
theorem keeps_interfaceGlue {rules : Rules} {i : Interface} {g : InterfaceGlue}
    (hi : ∀ m ∈ i.members, m.Numbered) (h : (interfaceGlue rules i).outcome = .ok g) :
    List.Forall₂ Keeps i.entries g.functions :=
  (madeOf_interfaceGlue h).imp fun _ _ ⟨m, hm, hmade⟩ => hmade.keeps (hi m hm)

end Glue

end IdlGlue
