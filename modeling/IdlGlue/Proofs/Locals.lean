/-
# IdlGlue.Proofs.Locals -- the locals of generated functions

The locals of a function come from rules that know nothing of each other:

| from          | locals                                                       |
|---------------|--------------------------------------------------------------|
| the function  | output, object and, in a member function, ptr                |
| a parameter p | _p; if it is a text, also _pStringValue, _pWideString and    |
|               | _pWideLength                                                 |
| a result      | _result; if it is a text, also _resultWideString and         |
|               | _resultWideLength                                            |

The mark `_` keeps the names of parameters from those of the function, but it stands before the
locals of the result and before temporaries as well. What is behind it is the *word* of a local
here. Two words are the same only where a parameter is named like the temporary of another, or like
a local of the result (`Exchange.nodup_locals_iff`); and nothing stops a file from that: the
function of `int f(int result)` declares `_result` twice.
-/
import IdlGlue.Proofs.Compilation
import Mathlib.Data.List.Pairwise

namespace IdlGlue

open IdlGlue.Native

/-! ## Words of locals -/

namespace IdlType

/-- What stands behind the name of a parameter in the words of its temporaries. -/
def readEndings : IdlType → List String
  | .primitive .string => ["StringValue", "WideString", "WideLength"]
  | _ => []

/-- What stands behind the word of a result in the words of its temporaries. -/
def giveEndings : IdlType → List String
  | .primitive .string => ["WideString", "WideLength"]
  | _ => []

/-- The words of the locals of a result, if there is one. -/
def resultWords (type : IdlType) : List String :=
  if type = .void then [] else "result" :: type.giveEndings.map ("result" ++ ·)

end IdlType

/-- The words of the locals of a parameter. -/
def Param.words (p : Param) : List String := p.name :: p.type.readEndings.map (p.name ++ ·)

/-- A temporary of the one parameter has the name of the other. -/
def Param.Shadows (p q : Param) : Prop := ∃ ending ∈ p.type.readEndings, q.name = p.name ++ ending

/-- What a function has from the script and gives back to it. -/
structure Exchange where
  /-- It makes the native object, rather than being handed it. -/
  constructs : Bool
  params : List Param
  result : IdlType

namespace Exchange

/-- The function of a constructor, which gives no native value to the script. -/
def constructor (params : List Param) : Exchange := ⟨true, params, .void⟩

/-- The function of a method. -/
def method (m : Method) : Exchange := ⟨false, m.params, m.result⟩

/-- The function that gives a property. -/
def getter (p : Property) : Exchange := ⟨false, [], p.type⟩

/-- The function that sets a property. -/
def setter (p : Property) : Exchange := ⟨false, [⟨p.type, p.name, 0⟩], .void⟩

/-- The locals before those of the parameters. -/
def opening (x : Exchange) : List String :=
  if x.constructs then [outputName] else [outputName, objectName, receiverName]

/-- The locals behind those of the result. -/
def closing (x : Exchange) : List String := if x.constructs then [objectName] else []

/-- The words of the locals of parameters and result, in their order. -/
def words (x : Exchange) : List String := x.params.flatMap Param.words ++ x.result.resultWords

/-- All locals of the function, in their order. -/
def locals (x : Exchange) : List String := x.opening ++ x.words.map localName ++ x.closing

/-- No parameter is named like the temporary of a parameter or like a local of the result. -/
structure Apart (x : Exchange) : Prop where
  temporaries : ∀ p ∈ x.params, ∀ q ∈ x.params, ¬p.Shadows q
  result : ∀ p ∈ x.params, p.name ∉ x.result.resultWords

end Exchange

/-! ## Endings -/

theorem endings_subset (type : IdlType) :
    type.readEndings ⊆ IdlType.readEndings (.primitive .string) ∧
      type.giveEndings ⊆ IdlType.readEndings (.primitive .string) := by
  cases type with
  | primitive kind => cases kind <;> decide
  | object | reference | anyOf | void => exact ⟨List.nil_subset _, List.nil_subset _⟩

theorem getLast?_append (name ending : String) (h : ending ≠ "") :
    (name ++ ending).toList.getLast? = ending.toList.getLast? := by
  rw [String.toList_append]
  exact List.getLast?_append_of_ne_nil _ fun hnil => h (String.toList_eq_nil_iff.mp hnil)

/-- A text has one ending at most: the last character tells which. -/
theorem append_ending_inj {a b s s' : String}
    (hs : s ∈ IdlType.readEndings (.primitive .string))
    (hs' : s' ∈ IdlType.readEndings (.primitive .string)) (h : a ++ s = b ++ s') :
    a = b ∧ s = s' := by
  have hne : ∀ s ∈ IdlType.readEndings (.primitive .string), s ≠ "" := by decide
  have htell : ∀ s ∈ IdlType.readEndings (.primitive .string),
      ∀ s' ∈ IdlType.readEndings (.primitive .string),
      s.toList.getLast? = s'.toList.getLast? → s = s' := by decide
  have hlast : s.toList.getLast? = s'.toList.getLast? := by
    rw [← getLast?_append a s (hne s hs), h, getLast?_append b s' (hne s' hs')]
  obtain rfl := htell s hs s' hs' hlast
  exact ⟨String.append_left_inj _ |>.mp h, rfl⟩

/-- `result` is no name with an ending. -/
theorem append_ending_ne_result {a s : String}
    (hs : s ∈ IdlType.readEndings (.primitive .string)) : a ++ s ≠ "result" := by
  intro h
  have htell : ∀ s ∈ IdlType.readEndings (.primitive .string),
      s ≠ "" ∧ s.toList.getLast? ≠ "result".toList.getLast? := by decide
  exact (htell s hs).2 (by rw [← getLast?_append a s (htell s hs).1, h])

theorem ne_append_ending {a s : String} (hs : s ∈ IdlType.readEndings (.primitive .string)) :
    a ≠ a ++ s := by
  have hne : ∀ s ∈ IdlType.readEndings (.primitive .string), s ≠ "" := by decide
  exact fun h => hne s hs (String.append_eq_left_iff.mp h.symm)

/-! ## Different words -/

namespace Param

variable {p q : Param} {params : List Param} {word : String}

theorem mem_words : word ∈ p.words ↔
    word = p.name ∨ ∃ ending ∈ p.type.readEndings, word = p.name ++ ending := by
  rw [words, List.mem_cons, List.mem_map]
  exact or_congr_right (exists_congr fun _ => and_congr_right fun _ => eq_comm)

theorem nodup_words (p : Param) : p.words.Nodup := by
  have hendings : p.type.readEndings.Nodup := by
    cases p.type with
    | primitive kind => cases kind <;> decide
    | object | reference | anyOf | void => exact List.nodup_nil
  refine List.nodup_cons.mpr ⟨fun h => ?_, hendings.map ?_⟩
  · obtain ⟨ending, hending, heq⟩ := List.mem_map.mp h
    exact ne_append_ending ((endings_subset p.type).1 hending) heq.symm
  · exact fun _ _ h => String.append_right_inj _ |>.mp h

/-- The locals of two parameters with different names are different, if the name of neither is that
of a temporary of the other: temporaries of both are different in any case. -/
theorem disjoint_words_iff (h : p.name ≠ q.name) :
    p.words.Disjoint q.words ↔ ¬p.Shadows q ∧ ¬q.Shadows p := by
  constructor
  · refine fun hdisjoint => ⟨fun hshadows => ?_, fun hshadows => ?_⟩
    · exact hdisjoint (mem_words.mpr (.inr hshadows)) (mem_words.mpr (.inl rfl))
    · exact hdisjoint (mem_words.mpr (.inl rfl)) (mem_words.mpr (.inr hshadows))
  · rintro ⟨hp, hq⟩ word hword hword'
    rcases mem_words.mp hword with rfl | ⟨s, hs, rfl⟩
    · exact (mem_words.mp hword').elim h fun hshadows => hq hshadows
    · rcases mem_words.mp hword' with hname | ⟨s', hs', heq⟩
      · exact hp ⟨s, hs, hname.symm⟩
      · exact h (append_ending_inj ((endings_subset _).1 hs) ((endings_subset _).1 hs') heq).1

theorem not_shadows_self (p : Param) : ¬p.Shadows p := fun ⟨_, hending, heq⟩ =>
  ne_append_ending ((endings_subset p.type).1 hending) heq

theorem nodup_flatMap_words (h : (params.map Param.name).Nodup) :
    (params.flatMap Param.words).Nodup ↔ ∀ p ∈ params, ∀ q ∈ params, ¬p.Shadows q := by
  have hnames : params.Pairwise fun p q => p.name ≠ q.name := List.pairwise_map.mp h
  rw [List.nodup_flatMap, and_iff_right fun p _ => nodup_words p]
  constructor
  · intro hpairs p hp q hq hshadows
    have hboth := (hnames.and hpairs).imp fun {a b} hab => (disjoint_words_iff hab.1).mp hab.2
    have : Std.Symm fun a b : Param => ¬a.Shadows b ∧ ¬b.Shadows a := ⟨fun _ _ => And.symm⟩
    have hself : ∀ a ∈ params, ¬a.Shadows a ∧ ¬a.Shadows a := fun a _ =>
      ⟨a.not_shadows_self, a.not_shadows_self⟩
    exact (hboth.forall_of_forall hself hp hq).1 hshadows
  · intro hall
    refine (List.Pairwise.and_mem.mp hnames).imp fun {a b} hab => ?_
    exact (disjoint_words_iff hab.2.2).mpr ⟨hall a hab.1 b hab.2.1, hall b hab.2.1 a hab.1⟩

end Param

namespace IdlType

variable {type : IdlType} {word : String}

theorem mem_resultWords : word ∈ type.resultWords ↔
    type ≠ .void ∧ (word = "result" ∨ ∃ ending ∈ type.giveEndings, word = "result" ++ ending) := by
  unfold resultWords
  split
  · next hvoid => exact iff_of_false List.not_mem_nil fun h => h.1 hvoid
  · next hvalue =>
      rw [List.mem_cons, List.mem_map, and_iff_right hvalue]
      exact or_congr_right (exists_congr fun _ => and_congr_right fun _ => eq_comm)

theorem nodup_resultWords (type : IdlType) : type.resultWords.Nodup := by
  cases type with
  | primitive kind => cases kind <;> decide
  | object | reference | anyOf => exact List.nodup_singleton _
  | void => exact List.nodup_nil

/-- The locals of a parameter are none of the result, if the name of the parameter is not. -/
theorem disjoint_resultWords_iff {p : Param} :
    p.words.Disjoint type.resultWords ↔ p.name ∉ type.resultWords := by
  refine ⟨fun h => h (Param.mem_words.mpr (.inl rfl)), fun h word hword hresult => ?_⟩
  obtain ⟨hvalue, hshape⟩ := mem_resultWords.mp hresult
  rcases Param.mem_words.mp hword with rfl | ⟨s, hs, rfl⟩
  · exact h hresult
  have hs := (endings_subset p.type).1 hs
  rcases hshape with heq | ⟨s', hs', heq⟩
  · exact append_ending_ne_result hs heq
  · have hname := (append_ending_inj hs ((endings_subset type).2 hs') heq).1
    exact h (mem_resultWords.mpr ⟨hvalue, .inl hname⟩)

end IdlType

namespace Exchange

variable {x : Exchange}

theorem nodup_words_iff (h : (x.params.map Param.name).Nodup) : x.words.Nodup ↔ x.Apart := by
  have hdisjoint : (x.params.flatMap Param.words).Disjoint x.result.resultWords ↔
      ∀ p ∈ x.params, p.name ∉ x.result.resultWords := by
    refine ⟨fun hall p hp => ?_, fun hall word hword => ?_⟩
    · exact IdlType.disjoint_resultWords_iff.mp fun _ hword =>
        hall (List.mem_flatMap.mpr ⟨p, hp, hword⟩)
    · obtain ⟨p, hp, hword⟩ := List.mem_flatMap.mp hword
      exact IdlType.disjoint_resultWords_iff.mpr (hall p hp) hword
  rw [words, List.nodup_append', Param.nodup_flatMap_words h, hdisjoint,
    and_iff_right x.result.nodup_resultWords]
  exact ⟨fun h => ⟨h.1, h.2⟩, fun h => ⟨h.temporaries, h.result⟩⟩

/-- The mark tells the locals of parameters and result from those that the function has in any
case. -/
theorem fixed_ne_localName {name : String} (h : name ∈ x.opening ++ x.closing)
    (declared : String) : name ≠ localName declared := by
  have hfixed : x.opening ++ x.closing ⊆ [outputName, objectName, receiverName] := by
    unfold opening closing
    cases x.constructs <;> decide
  have hhead : ∀ name ∈ [outputName, objectName, receiverName],
      name.toList.head? ≠ "_".toList.head? := by decide
  rintro rfl
  apply hhead _ (hfixed h)
  rw [localName, String.toList_append]
  rfl

theorem nodup_fixed (x : Exchange) : (x.opening ++ x.closing).Nodup := by
  unfold opening closing
  cases x.constructs <;> decide

/-- The locals of a function whose parameters have different names are different just where no
parameter is named like the temporary of a parameter or like a local of the result. -/
theorem nodup_locals_iff (h : (x.params.map Param.name).Nodup) : x.locals.Nodup ↔ x.Apart := by
  have hperm : x.locals.Perm (x.opening ++ x.closing ++ x.words.map localName) := by
    rw [locals, List.append_assoc, List.append_assoc]
    exact List.perm_append_comm.append_left _
  have hmark : Function.Injective localName := fun _ _ heq => String.append_right_inj _ |>.mp heq
  have hdisjoint : (x.opening ++ x.closing).Disjoint (x.words.map localName) := by
    intro name hname hmarked
    obtain ⟨word, _, rfl⟩ := List.mem_map.mp hmarked
    exact fixed_ne_localName hname word rfl
  rw [hperm.nodup_iff, List.nodup_append', and_iff_right x.nodup_fixed, and_iff_left hdisjoint,
    List.nodup_map_iff hmark, nodup_words_iff h]

end Exchange

/-! ## Generated functions -/

namespace Glue

/-- The locals that statements bring in, in their order. -/
def localsIn (part : List Stmt) : List String := part.flatMap Stmt.locals

theorem localsIn_append (part rest : List Stmt) :
    localsIn (part ++ rest) = localsIn part ++ localsIn rest := List.flatMap_append

/-- The mark stands before the word of a temporary, whose ending is put to the local. -/
theorem localName_append (declared ending : String) :
    localName (declared ++ ending) = localName declared ++ ending := String.append_assoc.symm

theorem localName_result : localName "result" = resultName := by decide

theorem localsIn_readArgument {type : IdlType} {name : String} {place : Nat} {part : List Stmt}
    (h : Rules.readArgument type name place = .ok part) :
    localsIn part = type.readEndings.map (name ++ ·) := by
  cases type with
  | primitive kind =>
      cases kind with
      | long => cases h
      | int | float | double | string =>
          cases h
          rfl
  | object className =>
      cases h
      rfl
  | void | reference | anyOf => cases h

theorem localsIn_readLocal {r : Rules} {p : Param} {place : Nat} {part : List Stmt}
    (h : readLocal r p.type (localName p.name) place = .ok part) :
    localsIn part = p.words.map localName := by
  obtain ⟨decl, hdecl, h⟩ := Traversal.bind_eq_ok_iff.mp h
  obtain ⟨read, hread, h⟩ := Traversal.bind_eq_ok_iff.mp h
  cases h
  show decl.name :: localsIn read = localName p.name :: _
  rw [storage_name hdecl, localsIn_readArgument hread, List.map_map]
  exact congrArg (_ :: ·) (List.map_congr_left fun ending _ => (localName_append _ ending).symm)

theorem localsIn_readParams {r : Rules} {params : List Param} {body : List Stmt}
    (h : readParams r params = .ok body) :
    localsIn body = (params.flatMap Param.words).map localName := by
  induction params generalizing body with
  | nil =>
      cases h
      rfl
  | cons p ps ih =>
      obtain ⟨first, hfirst, h⟩ := Traversal.bind_eq_ok_iff.mp h
      obtain ⟨others, hothers, h⟩ := Traversal.bind_eq_ok_iff.mp h
      cases h
      rw [localsIn_append, localsIn_readLocal hfirst, ih hothers, List.flatMap_cons,
        List.map_append]

theorem localsIn_giveResult {r : Rules} {type : IdlType} {selector : String} {part : List Stmt}
    (h : r.giveResult type selector = .ok part) :
    localsIn part = type.giveEndings.map (resultName ++ ·) := by
  cases type with
  | primitive kind =>
      cases kind with
      | long => cases h
      | int | float | double | string =>
          cases h
          rfl
  | object className | reference className =>
      cases h
      rfl
  | anyOf set =>
      obtain ⟨expression, _, h⟩ := Traversal.bind_eq_ok_iff.mp h
      cases h
      rfl
  | void => cases h

theorem localsIn_giveAccess {r : Rules} {type : IdlType} {source : Access} {selector : String}
    {part : List Stmt} (h : giveAccess r type source selector = .ok part) :
    localsIn part = type.resultWords.map localName := by
  obtain ⟨decl, hdecl, h⟩ := Traversal.bind_eq_ok_iff.mp h
  obtain ⟨conversion, _, h⟩ := Traversal.bind_eq_ok_iff.mp h
  obtain ⟨give, hgive, h⟩ := Traversal.bind_eq_ok_iff.mp h
  cases h
  have hvalue : type ≠ .void := by
    rintro rfl
    cases hdecl
  show decl.name :: localsIn give = _
  rw [storage_name hdecl, localsIn_giveResult hgive, IdlType.resultWords, if_neg hvalue,
    List.map_cons, List.map_map, localName_result]
  refine congrArg (_ :: ·) (List.map_congr_left fun ending _ => ?_)
  show resultName ++ ending = localName ("result" ++ ending)
  rw [localName_append, localName_result]

theorem localsIn_methodAsk {r : Rules} {m : Method} {source : Access} {part : List Stmt}
    (h : methodAsk r m source = .ok part) : localsIn part = m.result.resultWords.map localName := by
  unfold methodAsk at h
  split at h
  · next hvoid =>
      cases h
      rw [hvoid]
      rfl
  · exact localsIn_giveAccess h

theorem locals_methodFunction {c : Context} {m : Method} {f : Function}
    (h : methodFunction c m = .ok f) : f.locals = (Exchange.method m).locals := by
  rw [methodFunction_eq] at h
  obtain ⟨reads, hreads, h⟩ := Traversal.bind_eq_ok_iff.mp h
  obtain ⟨operands, _, h⟩ := Traversal.bind_eq_ok_iff.mp h
  obtain ⟨ask, hask, h⟩ := Traversal.bind_eq_ok_iff.mp h
  cases h
  show localsIn (receiver c.name ++ reads ++ ask ++ [.returnOutput]) = _
  rw [localsIn_append, localsIn_append, localsIn_append, localsIn_readParams hreads,
    localsIn_methodAsk hask, Exchange.locals, Exchange.words, List.map_append]
  simp only [List.append_assoc]
  rfl

theorem locals_constructorFunction {c : Context} {params : List Param} {f : Function}
    (h : constructorFunction c params = .ok f) :
    f.locals = (Exchange.constructor params).locals := by
  obtain ⟨reads, hreads, h⟩ := Traversal.bind_eq_ok_iff.mp h
  obtain ⟨operands, _, h⟩ := Traversal.bind_eq_ok_iff.mp h
  cases h
  show localsIn ([.openOutput] ++ reads ++ [.create c.name operands] ++ _ ++ _) = _
  rw [localsIn_append, localsIn_append, localsIn_append, localsIn_append,
    localsIn_readParams hreads, Exchange.locals, Exchange.words, List.map_append]
  simp only [List.append_assoc]
  rfl

theorem locals_getterFunction {c : Context} {p : Property} {f : Function}
    (h : getterFunction c p = .ok f) : f.locals = (Exchange.getter p).locals := by
  obtain ⟨give, hgive, h⟩ := Traversal.bind_eq_ok_iff.mp h
  cases h
  show localsIn (receiver c.name ++ give ++ [.returnOutput]) = _
  rw [localsIn_append, localsIn_append, localsIn_giveAccess hgive]
  rfl

theorem locals_setterFunction {c : Context} {p : Property} {f : Function}
    (h : setterFunction c p = .ok f) : f.locals = (Exchange.setter p).locals := by
  obtain ⟨read, hread, h⟩ := Traversal.bind_eq_ok_iff.mp h
  obtain ⟨value, _, h⟩ := Traversal.bind_eq_ok_iff.mp h
  cases h
  show localsIn (receiver c.name ++ read ++ [_, .returnOutput]) = _
  rw [localsIn_append, localsIn_append,
    localsIn_readLocal (p := ⟨p.type, p.name, 0⟩) hread]
  have hwords : (Exchange.setter p).words = (Param.mk p.type p.name 0).words := by
    show _ ++ [] ++ [] = _
    rw [List.append_nil, List.append_nil]
  rw [Exchange.locals, hwords]
  rfl

/-- What the function of an entry has from the script and gives back. -/
inductive Passes (flat : String) : Member → Entry → Exchange → Prop
  | constructor (params : List Param) :
      Passes flat (.constructor params) (.constructor flat params) (.constructor params)
  | method (m : Method) : Passes flat (.method m) (.method flat m) (.method m)
  | getter (p : Property) : Passes flat (.property p) (.getter flat p) (.getter p)
  | setter (p : Property) : Passes flat (.property p) (.setter flat p) (.setter p)

/-- The locals of the function of an entry, and when they are different. -/
structure Declares (flat : String) (m : Member) (e : Entry) (f : Function) (x : Exchange) :
    Prop where
  passes : Passes flat m e x
  locals : f.locals = x.locals
  nodup_iff : (x.params.map Param.name).Nodup → (f.locals.Nodup ↔ x.Apart)
  /-- A getter or setter has one name to itself. -/
  accessor : e.kind = .accessor → f.locals.Nodup

theorem MadeOf.passes {c : Context} {m : Member} {e : Entry} {f : Function}
    (h : MadeOf c m e f) : ∃ x, Passes c.flat m e x ∧ f.locals = x.locals := by
  cases h with
  | constructor h => exact ⟨_, .constructor _, locals_constructorFunction h⟩
  | method h => exact ⟨_, .method _, locals_methodFunction h⟩
  | getter h => exact ⟨_, .getter _, locals_getterFunction h⟩
  | setter h => exact ⟨_, .setter _, locals_setterFunction h⟩

theorem Passes.nodup_of_accessor {flat : String} {m : Member} {e : Entry} {x : Exchange}
    (h : Passes flat m e x) (hkind : e.kind = .accessor) : x.locals.Nodup := by
  cases h with
  | constructor | method => cases hkind
  | getter p =>
      refine (Exchange.nodup_locals_iff ?_).mpr ⟨nofun, nofun⟩
      exact List.nodup_nil
  | setter p =>
      refine (Exchange.nodup_locals_iff ?_).mpr ⟨?_, ?_⟩
      · exact List.nodup_singleton _
      · intro a ha b hb
        rw [List.mem_singleton.mp ha, List.mem_singleton.mp hb]
        exact Param.not_shadows_self _
      · exact fun _ _ => List.not_mem_nil

theorem MadeOf.declares {c : Context} {m : Member} {e : Entry} {f : Function}
    (h : MadeOf c m e f) : ∃ x, Declares c.flat m e f x := by
  obtain ⟨x, hpasses, hlocals⟩ := h.passes
  refine ⟨x, hpasses, hlocals, fun hnames => ?_, fun hkind => ?_⟩
  · rw [hlocals]
    exact Exchange.nodup_locals_iff hnames
  · rw [hlocals]
    exact hpasses.nodup_of_accessor hkind

end Glue

/-! ## Compiled files -/

/-- The functions in the glue of a file are those that the file declares, in its order, and each
declares the locals of its parameters and its result. -/
def DeclaresLocals (file : SourceFile) (glue : Glue.FileGlue) : Prop :=
  List.Forall₂ (fun i g =>
    List.Forall₂ (fun e f => ∃ m ∈ i.members, ∃ x, Glue.Declares i.flatName m e f x)
      i.entries g.functions)
    file.interfaces glue.interfaces

/-- **In compiled code no function whose parameters have different names declares a local twice,
just where no parameter is named like the temporary of a text or like a local of the result.** -/
theorem declaresLocals_of_compile {options : Options} {text : String} {c : Compiled}
    (h : (compile options text).outcome = .ok c) :
    ∃ file glue, SourceFile.ofText text = .ok file ∧
      (Glue.fileGlue options.dialect options.registry file).outcome = .ok glue ∧
      c.code = glue.code ∧ DeclaresLocals file glue := by
  obtain ⟨file, glue, hfile, hglue, rfl⟩ := compile_eq_ok_iff.mp h
  obtain ⟨_, _, hinterfaces⟩ := Glue.fileGlue_parts hglue
  refine ⟨file, glue, hfile, hglue, rfl, hinterfaces.imp fun i g hg => ?_⟩
  exact (Glue.madeOf_interfaceGlue hg).imp fun e f ⟨m, hm, hmade⟩ => ⟨m, hm, hmade.declares⟩

theorem declaresLocals_shopText :
    ∃ c, (compile .standard shopText).outcome = .ok c ∧
      ∃ file glue, SourceFile.ofText shopText = .ok file ∧
        (Glue.fileGlue Options.standard.dialect Options.standard.registry file).outcome =
          .ok glue ∧
        c.code = glue.code ∧ DeclaresLocals file glue := by
  have hok : (compile .standard shopText).outcome.isOk = true := by decide +kernel
  obtain ⟨c, hc⟩ := Traversal.isOk_iff.mp hok
  exact ⟨c, hc, declaresLocals_of_compile hc⟩

/-- A method with a result whose parameter is named `result`. -/
def resultText : String := "interface A \x7b int f(int result); \x7d"

def resultFile : SourceFile where
  headers := []
  delegates := []
  interfaces := [
    { name := "A"
      members := [.method {
        result := .primitive .int, name := "f", params := [⟨.primitive .int, "result", 0⟩]
        nameAsIs := false }] }]

/-- The names of parameters may be those of other locals: this text compiles, and its function
declares `_result` for the parameter and again for the result. -/
theorem not_nodup_locals_resultText :
    ∃ c file glue, (compile .standard resultText).outcome = .ok c ∧
      SourceFile.ofText resultText = .ok file ∧
      (Glue.fileGlue Options.standard.dialect Options.standard.registry file).outcome = .ok glue ∧
      c.code = glue.code ∧
      (∀ i ∈ file.interfaces, ∀ e ∈ i.entries, (e.params.map Param.name).Nodup) ∧
      ∃ g ∈ glue.interfaces, ∃ f ∈ g.functions,
        f.locals = ["output", "object", "ptr", "_result", "_result"] ∧ ¬f.locals.Nodup := by
  have hfile : SourceFile.ofText resultText = .ok resultFile := by decide +kernel
  have hlocals : (Glue.fileGlue Options.standard.dialect Options.standard.registry
      resultFile).outcome.map (fun glue =>
        (glue.interfaces.flatMap Glue.InterfaceGlue.functions).map Function.locals) =
      .ok [["output", "object", "ptr", "_result", "_result"]] := by decide +kernel
  cases hglue : (Glue.fileGlue Options.standard.dialect Options.standard.registry
      resultFile).outcome with
  | error e =>
      rw [hglue] at hlocals
      cases hlocals
  | ok glue =>
      have hall : (glue.interfaces.flatMap Glue.InterfaceGlue.functions).map Function.locals =
          [["output", "object", "ptr", "_result", "_result"]] := by
        rw [hglue] at hlocals
        exact Except.ok.inj hlocals
      have hmem : ["output", "object", "ptr", "_result", "_result"] ∈
          (glue.interfaces.flatMap Glue.InterfaceGlue.functions).map Function.locals := by
        rw [hall]
        exact List.mem_singleton_self _
      obtain ⟨f, hf, hlocals⟩ := List.mem_map.mp hmem
      obtain ⟨g, hg, hf⟩ := List.mem_flatMap.mp hf
      have hcompile := compile_eq_ok_iff.mpr ⟨resultFile, glue, hfile, hglue, rfl⟩
      refine ⟨_, resultFile, glue, hcompile, hfile, hglue, rfl, by decide, g, hg, f, hf, hlocals,
        ?_⟩
      rw [hlocals]
      decide

end IdlGlue
