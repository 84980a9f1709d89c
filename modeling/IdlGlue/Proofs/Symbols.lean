/-
# IdlGlue.Proofs.Symbols -- the symbols that a file defines

The declarations of a file alone tell which symbols its glue defines (`SourceFile.symbols`):

| declaration | symbols                                                                     |
|-------------|-----------------------------------------------------------------------------|
| delegate    | its callback and the cast                                                   |
| interface   | its prototype slot, registration, projector and, with methods, two tables   |
| constructor | one constructor of an interface, the last                                   |
| method      | the method                                                                  |
| property    | a getter and, if writable, a setter                                         |

No two declarations of one kind share a flat name, so as symbols these are all different where no
interface repeats the name of a method or property. It does not follow that their spellings are:
they are different just where no two of the symbols clash (`nodup_spelling_iff`). There are
conditions on the declared names alone that see to this (`SourceFile.NamesApart`).
-/
import IdlGlue.Proofs.Entries
import IdlGlue.Proofs.Slots
import IdlGlue.Proofs.Spellings
import Mathlib.Data.List.Nodup

namespace IdlGlue

open IdlGlue.Native

/-! ## Declared symbols -/

/-- The name of a method. -/
def Member.methodName? : Member → Option String
  | .method m => some m.name
  | .constructor _ | .property _ => none

/-- The name of a property. -/
def Member.propertyName? : Member → Option String
  | .property p => some p.name
  | .constructor _ | .method _ => none

/-- The names of the methods of an interface. -/
def Interface.methodNames (i : Interface) : List String := i.members.filterMap Member.methodName?

/-- The names of the properties of an interface. -/
def Interface.propertyNames (i : Interface) : List String :=
  i.members.filterMap Member.propertyName?

/-- No two methods and no two properties of the interface share a name. -/
structure Interface.MembersDistinct (i : Interface) : Prop where
  methods : i.methodNames.Nodup
  properties : i.propertyNames.Nodup

/-- The symbols of a method or property. -/
def Member.symbols (flat : String) (m : Member) : List Symbol :=
  (m.entries flat).map Entry.symbol

/-- The symbols of an interface as a whole. -/
def Interface.ownSymbols (i : Interface) : List Symbol :=
  .registration i.flatName :: (constructorEntries i.flatName i.members).map Entry.symbol ++
    ((if i.methodNames.isEmpty then []
      else [.memberNames i.flatName, .memberFunctions i.flatName]) ++ [.projector i.flatName])

/-- The symbols that an interface defines beside its slot. -/
def Interface.symbols (i : Interface) : List Symbol :=
  i.members.flatMap (Member.symbols i.flatName) ++ i.ownSymbols

/-- The symbols that a delegate defines. -/
def Delegate.symbols (d : Delegate) : List Symbol :=
  [.callback d.flatName, .callbackCast d.flatName]

/-- The symbols that a file defines, in order. -/
def SourceFile.symbols (file : SourceFile) : List Symbol :=
  file.delegates.flatMap Delegate.symbols ++
    (file.interfaces.map Interface.flatName).map .prototype ++
    file.interfaces.flatMap Interface.symbols

namespace Glue

/-- The symbols that the glue of a file defines, in order. -/
def FileGlue.symbols (glue : FileGlue) : List Symbol :=
  glue.callbacks.flatMap CallbackGlue.defined ++ glue.definitions.map .prototype ++
    glue.interfaces.flatMap InterfaceGlue.defined

theorem MadeOf.symbol {c : Context} {m : Member} {e : Entry} {f : Function} (h : MadeOf c m e f) :
    f.symbol = e.symbol := by
  cases h with
  | constructor h =>
      obtain ⟨reads, _, h⟩ := Traversal.bind_eq_ok_iff.mp h
      obtain ⟨operands, _, h⟩ := Traversal.bind_eq_ok_iff.mp h
      cases h
      rfl
  | method h =>
      rw [methodFunction_eq] at h
      obtain ⟨reads, _, h⟩ := Traversal.bind_eq_ok_iff.mp h
      obtain ⟨operands, _, h⟩ := Traversal.bind_eq_ok_iff.mp h
      obtain ⟨ask, _, h⟩ := Traversal.bind_eq_ok_iff.mp h
      cases h
      rfl
  | getter h =>
      obtain ⟨give, _, h⟩ := Traversal.bind_eq_ok_iff.mp h
      cases h
      rfl
  | setter h =>
      obtain ⟨read, _, h⟩ := Traversal.bind_eq_ok_iff.mp h
      obtain ⟨value, _, h⟩ := Traversal.bind_eq_ok_iff.mp h
      cases h
      rfl

theorem map_symbol_eq {c : Context} {members : List Member} {es : List Entry} {fs : List Function}
    (h : List.Forall₂ (MadeOfAny c members) es fs) :
    fs.map Function.symbol = es.map Entry.symbol := by
  induction h with
  | nil => rfl
  | cons hmade _ ih =>
      obtain ⟨_, _, hmade⟩ := hmade
      rw [List.map_cons, List.map_cons, hmade.symbol, ih]

/-- A draft lists the methods taken so far. -/
theorem accept_methods {c : Context} {taken : List Member} {m : Member} {d d' : Draft}
    (hd : d.methods = taken.filterMap Member.methodName?)
    (h : (d.accept c m).outcome = .ok d') :
    d'.methods = (taken ++ [m]).filterMap Member.methodName? := by
  rw [List.filterMap_append, ← hd]
  cases m with
  | constructor params =>
      rw [outcome_accept_constructor] at h
      obtain ⟨function, _, h⟩ := Traversal.bind_eq_ok_iff.mp h
      cases h
      exact (List.append_nil _).symm
  | method m =>
      rw [outcome_accept_method] at h
      obtain ⟨function, _, h⟩ := Traversal.bind_eq_ok_iff.mp h
      cases h
      rfl
  | property p =>
      rw [outcome_accept_property] at h
      obtain ⟨functions, _, h⟩ := Traversal.bind_eq_ok_iff.mp h
      cases h
      exact (List.append_nil _).symm

theorem flatMap_defined_function (fs : List Function) :
    (fs.map Item.function).flatMap Item.defined = fs.map Function.symbol := by
  induction fs with
  | nil => rfl
  | cons f fs ih =>
      rw [List.map_cons, List.flatMap_cons, ih]
      rfl

theorem defined_finish (c : Context) (d : Draft) :
    (d.finish c).defined = d.functions.map Function.symbol ++ [.registration c.flat] ++
      ((d.constructor.map PendingConstructor.function).toList.map Function.symbol) ++
      ((if d.methods.isEmpty then [] else [.memberNames c.flat, .memberFunctions c.flat]) ++
        [.projector c.flat]) := by
  have hconstructor : (d.constructor.map fun pending => Item.function pending.function).toList =
      (d.constructor.map PendingConstructor.function).toList.map Item.function := by
    cases d.constructor with
    | none => rfl
    | some pending => rfl
  simp only [InterfaceGlue.defined, Draft.finish, List.flatMap_append, hconstructor,
    flatMap_defined_function, List.flatMap_singleton]
  rfl

/-- The glue of an interface defines the symbols that its declaration tells. -/
theorem defined_interfaceGlue {rules : Rules} {i : Interface} {g : InterfaceGlue}
    (h : (interfaceGlue rules i).outcome = .ok g) : g.defined = i.symbols := by
  rw [outcome_interfaceGlue] at h
  obtain ⟨draft, hdraft, h⟩ := Traversal.bind_eq_ok_iff.mp h
  cases h
  have hempty : Draft.empty.Holds { name := i.name, rules } [] := ⟨.nil, .nil⟩
  have hholds := hempty.foldlM hdraft
  have hnone : Draft.empty.methods = [].filterMap Member.methodName? := rfl
  have hmethods : draft.methods = i.methodNames :=
    Traversal.invariant_foldlM (P := fun taken d => d.methods = taken.filterMap Member.methodName?)
      accept_methods hnone hdraft
  have hmembers : draft.functions.map Function.symbol =
      i.members.flatMap (Member.symbols i.flatName) := by
    rw [map_symbol_eq hholds.functions, List.map_flatMap]
    rfl
  have hown : (draft.constructor.map PendingConstructor.function).toList.map Function.symbol =
      (constructorEntries i.flatName i.members).map Entry.symbol :=
    map_symbol_eq hholds.constructor
  rw [defined_finish, hmembers, hown, hmethods]
  -- The registration stands between the members and the rest.
  show _ ++ [Symbol.registration i.flatName] ++ _ ++ _ = _
  rw [List.append_assoc, List.append_assoc, Interface.symbols, Interface.ownSymbols]
  rfl

theorem defined_callbackGlue {rules : Rules} {d : Delegate} {g : CallbackGlue}
    (h : (callbackGlue rules d).outcome = .ok g) : g.defined = d.symbols := by
  rw [outcome_callbackGlue] at h
  obtain ⟨result, _, h⟩ := Traversal.bind_eq_ok_iff.mp h
  obtain ⟨params, _, h⟩ := Traversal.bind_eq_ok_iff.mp h
  cases h
  rfl

/-- What is known of each part holds of the lists that the parts make up. -/
theorem flatMap_eq_of_forall₂ {α β : Type} {R : α → β → Prop} {f : α → List Symbol}
    {g : β → List Symbol} {xs : List α} {ys : List β} (h : List.Forall₂ R xs ys)
    (hR : ∀ {x y}, R x y → g y = f x) : ys.flatMap g = xs.flatMap f := by
  induction h with
  | nil => rfl
  | cons hxy _ ih => rw [List.flatMap_cons, List.flatMap_cons, hR hxy, ih]

theorem callbackSymbols_fileGlue {dialect : Dialect} {registry : Registry} {file : SourceFile}
    {glue : FileGlue} (h : (fileGlue dialect registry file).outcome = .ok glue) :
    glue.callbacks.flatMap CallbackGlue.defined = file.delegates.flatMap Delegate.symbols := by
  rw [outcome_fileGlue] at h
  obtain ⟨⟨⟩, _, h⟩ := Traversal.bind_eq_ok_iff.mp h
  obtain ⟨callbacks, hcallbacks, h⟩ := Traversal.bind_eq_ok_iff.mp h
  obtain ⟨interfaces, _, h⟩ := Traversal.bind_eq_ok_iff.mp h
  cases h
  exact flatMap_eq_of_forall₂ (Traversal.mapM_eq_ok_iff.mp hcallbacks) defined_callbackGlue

/-- **The glue of a file defines the symbols that its declarations tell.** -/
theorem symbols_fileGlue {dialect : Dialect} {registry : Registry} {file : SourceFile}
    {glue : FileGlue} (h : (fileGlue dialect registry file).outcome = .ok glue) :
    glue.symbols = file.symbols := by
  obtain ⟨_, hslots, hinterfaces⟩ := fileGlue_parts h
  rw [FileGlue.symbols, SourceFile.symbols, callbackSymbols_fileGlue h, definitions_eq hslots,
    flatMap_eq_of_forall₂ hinterfaces defined_interfaceGlue]

end Glue

/-! ## Different symbols -/

/-- A symbol of a member has its name; the word tells a method from a property. -/
structure OfMember (flat : String) (m : Member) (s : Symbol) : Prop where
  flat : s.flat = flat
  lead : s.lead = "Js"
  name : (m.methodName? = some s.member ∧ s.word = "") ∨
    (m.propertyName? = some s.member ∧ (s.word = "Getter" ∨ s.word = "Setter"))

theorem ofMember_of_mem {flat : String} {m : Member} {s : Symbol} (h : s ∈ m.symbols flat) :
    OfMember flat m s := by
  cases m with
  | constructor params => cases h
  | method m =>
      rw [List.mem_singleton.mp h]
      exact ⟨rfl, rfl, Or.inl ⟨rfl, rfl⟩⟩
  | property p =>
      have haccessor : s = .getter flat p.name ∨ s = .setter flat p.name := by
        rw [Member.symbols, Member.entries] at h
        split at h
        · exact Or.inl (List.mem_singleton.mp h)
        · simpa [Entry.getter, Entry.setter] using h
      rcases haccessor with rfl | rfl
      · exact ⟨rfl, rfl, Or.inr ⟨rfl, Or.inl rfl⟩⟩
      · exact ⟨rfl, rfl, Or.inr ⟨rfl, Or.inr rfl⟩⟩

theorem nodup_memberSymbols (flat : String) (m : Member) : (m.symbols flat).Nodup := by
  cases m with
  | constructor params => exact List.nodup_nil
  | method m => exact List.nodup_singleton _
  | property p =>
      rw [Member.symbols, Member.entries]
      split
      · exact List.nodup_singleton _
      · simp [Entry.getter, Entry.setter]

/-- The symbols of an interface as a whole are among five. -/
theorem ownSymbols_sublist (i : Interface) : i.ownSymbols.Sublist
    [.registration i.flatName, .constructor i.flatName, .memberNames i.flatName,
      .memberFunctions i.flatName, .projector i.flatName] := by
  have hconstructor : ((constructorEntries i.flatName i.members).map Entry.symbol).Sublist
      [.constructor i.flatName] := by
    rw [constructorEntries]
    cases (i.members.filterMap Member.constructor?).getLast? with
    | none => exact List.nil_sublist _
    | some params => exact List.Sublist.refl _
  have htables : (if i.methodNames.isEmpty then []
      else [Symbol.memberNames i.flatName, .memberFunctions i.flatName]).Sublist
      [.memberNames i.flatName, .memberFunctions i.flatName] := by
    split
    · exact List.nil_sublist _
    · exact List.Sublist.refl _
  exact ((hconstructor.append (htables.append (List.Sublist.refl _))).cons_cons _)

theorem nodup_ownSymbols (i : Interface) : i.ownSymbols.Nodup := by
  apply (ownSymbols_sublist i).nodup
  simp

/-- A symbol of an interface as a whole. -/
structure OfInterface (i : Interface) (s : Symbol) : Prop where
  flat : s.flat = i.flatName
  lead : s.lead ≠ "As"
  word : s.word ∈ ["DefineProperties", "Constructor", "MemberNames", "MemberFuncs", "Projector"]

theorem ofInterface_of_mem {i : Interface} {s : Symbol} (h : s ∈ i.ownSymbols) :
    OfInterface i s := by
  have hown := (ownSymbols_sublist i).subset h
  simp only [List.mem_cons, List.not_mem_nil, or_false] at hown
  rcases hown with rfl | rfl | rfl | rfl | rfl <;>
    exact ⟨rfl, by simp [Symbol.lead], by simp [Symbol.word]⟩

/-- A symbol of an interface is one of a member or one of the interface as a whole. -/
theorem Interface.mem_symbols {i : Interface} {s : Symbol} (h : s ∈ i.symbols) :
    (∃ m ∈ i.members, OfMember i.flatName m s) ∨ OfInterface i s := by
  rcases List.mem_append.mp h with h | h
  · obtain ⟨m, hm, hms⟩ := List.mem_flatMap.mp h
    exact Or.inl ⟨m, hm, ofMember_of_mem hms⟩
  · exact Or.inr (ofInterface_of_mem h)

/-- All symbols of an interface have its flat name, and none is like the slot or a delegate. -/
theorem parts_of_mem_symbols {i : Interface} {s : Symbol} (h : s ∈ i.symbols) :
    s.flat = i.flatName ∧ s.lead ≠ "As" ∧ s.word ≠ "Callback" ∧ s.word ≠ "Prototype" := by
  rcases Interface.mem_symbols h with ⟨m, _, hflat, hlead, hname⟩ | ⟨hflat, hlead, hword⟩
  · refine ⟨hflat, by simp [hlead], ?_⟩
    rcases hname with ⟨_, hword⟩ | ⟨_, hword | hword⟩ <;> simp [hword]
  · refine ⟨hflat, hlead, ?_, ?_⟩
    · intro heq
      simp [heq] at hword
    · intro heq
      simp [heq] at hword

/-- Where names are not repeated, members have no symbol in common. -/
theorem nodup_symbols_of_membersDistinct {i : Interface} (h : i.MembersDistinct) :
    i.symbols.Nodup := by
  have hmethods := List.pairwise_filterMap.mp h.methods
  have hproperties := List.pairwise_filterMap.mp h.properties
  have hmembers : (i.members.flatMap (Member.symbols i.flatName)).Nodup := by
    rw [List.nodup_flatMap]
    refine ⟨fun m _ => nodup_memberSymbols _ m, (hmethods.and hproperties).imp ?_⟩
    -- The word tells the kind of member, and one kind has different names.
    intro m m' hnames s hs hs'
    obtain ⟨hmethod, hproperty⟩ := hnames
    rcases (ofMember_of_mem hs).name with ⟨hname, hword⟩ | ⟨hname, hword⟩
    · rcases (ofMember_of_mem hs').name with ⟨hname', _⟩ | ⟨_, hword'⟩
      · exact hmethod _ hname _ hname' rfl
      · simp [hword] at hword'
    · rcases (ofMember_of_mem hs').name with ⟨_, hword'⟩ | ⟨hname', _⟩
      · simp [hword'] at hword
      · exact hproperty _ hname _ hname' rfl
  refine hmembers.append (nodup_ownSymbols i) ?_
  intro s hs hown
  obtain ⟨m, _, hm⟩ := List.mem_flatMap.mp hs
  have hown := (ofInterface_of_mem hown).word
  rcases (ofMember_of_mem hm).name with ⟨_, hword⟩ | ⟨_, hword | hword⟩ <;> simp [hword] at hown

/-- What has a flat name of its own has symbols of its own. -/
theorem nodup_flatMap_of_flat {α : Type} {key : α → String} {f : α → List Symbol} {xs : List α}
    (hxs : (xs.map key).Nodup) (hflat : ∀ x ∈ xs, ∀ s ∈ f x, s.flat = key x)
    (hf : ∀ x ∈ xs, (f x).Nodup) : (xs.flatMap f).Nodup := by
  rw [List.nodup_flatMap]
  refine ⟨hf, (List.pairwise_map.mp hxs).imp_of_mem ?_⟩
  intro x y hx hy hne s hs hs'
  exact hne ((hflat x hx s hs).symm.trans (hflat y hy s hs'))

theorem parts_of_mem_delegateSymbols {d : Delegate} {s : Symbol} (h : s ∈ d.symbols) :
    s.flat = d.flatName ∧ (s.lead = "As" ∨ s.word = "Callback") := by
  rw [Delegate.symbols, List.mem_pair] at h
  rcases h with rfl | rfl
  · exact ⟨rfl, Or.inr rfl⟩
  · exact ⟨rfl, Or.inl rfl⟩

theorem nodup_delegateSymbols {delegates : List Delegate}
    (h : (delegates.map Delegate.flatName).Nodup) : (delegates.flatMap Delegate.symbols).Nodup := by
  apply nodup_flatMap_of_flat h
  · intro d _ s hs
    exact (parts_of_mem_delegateSymbols hs).1
  · intro d _
    simp [Delegate.symbols]

/-- A symbol of a file is one of a delegate, the slot of an interface, or one of an interface. -/
theorem SourceFile.mem_symbols {file : SourceFile} {s : Symbol} (h : s ∈ file.symbols) :
    (∃ d ∈ file.delegates, s ∈ d.symbols) ∨
      (∃ i ∈ file.interfaces, s = .prototype i.flatName) ∨
        ∃ i ∈ file.interfaces, s ∈ i.symbols := by
  rcases List.mem_append.mp h with h | h
  · rcases List.mem_append.mp h with h | h
    · exact Or.inl (List.mem_flatMap.mp h)
    · obtain ⟨flat, hflat, rfl⟩ := List.mem_map.mp h
      obtain ⟨i, hi, rfl⟩ := List.mem_map.mp hflat
      exact Or.inr (Or.inl ⟨i, hi, rfl⟩)
  · exact Or.inr (Or.inr (List.mem_flatMap.mp h))

/-- As symbols, those of a file are all different. -/
theorem SourceFile.nodup_symbols {file : SourceFile}
    (hinterfaces : (file.interfaces.map Interface.flatName).Nodup)
    (hdelegates : (file.delegates.map Delegate.flatName).Nodup)
    (hmembers : ∀ i ∈ file.interfaces, i.MembersDistinct) : file.symbols.Nodup := by
  have hcallbacks := nodup_delegateSymbols hdelegates
  have hslots : ((file.interfaces.map Interface.flatName).map Symbol.prototype).Nodup :=
    hinterfaces.map fun _ _ h => Symbol.prototype.inj h
  have hsymbols : (file.interfaces.flatMap Interface.symbols).Nodup := by
    apply nodup_flatMap_of_flat hinterfaces
    · intro i _ s hs
      exact (parts_of_mem_symbols hs).1
    · intro i hi
      exact nodup_symbols_of_membersDistinct (hmembers i hi)
  refine (hcallbacks.append hslots ?_).append hsymbols ?_
  · intro s hs hslot
    obtain ⟨d, _, hd⟩ := List.mem_flatMap.mp hs
    obtain ⟨flat, _, rfl⟩ := List.mem_map.mp hslot
    have hparts := (parts_of_mem_delegateSymbols hd).2
    simp [Symbol.lead, Symbol.word] at hparts
  · intro s hs hsymbol
    obtain ⟨i, _, hi⟩ := List.mem_flatMap.mp hsymbol
    obtain ⟨_, hlead, hcallback, hprototype⟩ := parts_of_mem_symbols hi
    rcases List.mem_append.mp hs with hs | hs
    · obtain ⟨d, _, hd⟩ := List.mem_flatMap.mp hs
      exact (parts_of_mem_delegateSymbols hd).2.elim hlead hcallback
    · obtain ⟨flat, _, rfl⟩ := List.mem_map.mp hs
      exact hprototype rfl

/-- Of different symbols the spellings are different where no two of them clash. -/
theorem nodup_spelling_iff {symbols : List Symbol} (h : symbols.Nodup) :
    (symbols.map Symbol.spelling).Nodup ↔ ∀ s ∈ symbols, ∀ t ∈ symbols, ¬s.Clash t := by
  rw [List.nodup_map_iff_inj_on h]
  constructor
  · intro hinj s hs t ht hclash
    exact hclash.ne (hinj s hs t ht hclash.spelling_eq)
  · intro hnone s hs t ht heq
    rcases Symbol.spelling_eq_iff.mp heq with heq | hclash | hclash
    · exact heq
    · exact absurd hclash (hnone s hs t ht)
    · exact absurd hclash (hnone t ht s hs)

/-! ## Names that keep symbols apart -/

/-- Declared names of which no two make symbols that clash. -/
structure SourceFile.NamesApart (file : SourceFile) : Prop where
  members : ∀ i ∈ file.interfaces, i.MembersDistinct
  /-- No flat name of an interface goes on as that of another. -/
  prefixes : ∀ i ∈ file.interfaces, ∀ i' ∈ file.interfaces, ∀ rest,
    i'.flatName = i.flatName ++ rest → rest = ""
  /-- No flat name begins with a lead. -/
  interfaces : ∀ i ∈ file.interfaces, ∀ rest, i.flatName ≠ "Js" ++ rest ∧ i.flatName ≠ "As" ++ rest
  delegates : ∀ d ∈ file.delegates, ∀ rest, d.flatName ≠ "Js" ++ rest ∧ d.flatName ≠ "As" ++ rest
  /-- No method has for name the word of another symbol. -/
  words : ∀ i ∈ file.interfaces, ∀ name ∈ i.methodNames,
    name ≠ "Prototype" ∧ name ≠ "Constructor" ∧ name ≠ "DefineProperties"
  accessors : ∀ i ∈ file.interfaces, ∀ name ∈ i.methodNames, ∀ property ∈ i.propertyNames,
    name ≠ property ++ "Getter" ∧ name ≠ property ++ "Setter"

section

variable {file : SourceFile} {s : Symbol}

/-- Where the symbols with the lead of functions come from. -/
theorem exists_interface_of_lead (hs : s ∈ file.symbols) (hlead : s.lead = "Js") :
    ∃ i ∈ file.interfaces, i.flatName = s.flat ∧ (s = .prototype i.flatName ∨ s ∈ i.symbols) := by
  rcases SourceFile.mem_symbols hs with ⟨d, _, hd⟩ | ⟨i, hi, rfl⟩ | ⟨i, hi, his⟩
  · rcases List.mem_pair.mp hd with rfl | rfl
    · simp [Symbol.lead] at hlead
    · simp [Symbol.lead] at hlead
  · exact ⟨i, hi, rfl, Or.inl rfl⟩
  · exact ⟨i, hi, (parts_of_mem_symbols his).1.symm, Or.inr his⟩

/-- Every symbol has the flat name of an interface or a delegate. -/
theorem exists_flatName (hs : s ∈ file.symbols) :
    (∃ i ∈ file.interfaces, i.flatName = s.flat) ∨ ∃ d ∈ file.delegates, d.flatName = s.flat := by
  rcases SourceFile.mem_symbols hs with ⟨d, hd, hds⟩ | ⟨i, hi, rfl⟩ | ⟨i, hi, his⟩
  · exact Or.inr ⟨d, hd, (parts_of_mem_delegateSymbols hds).1.symm⟩
  · exact Or.inl ⟨i, hi, rfl⟩
  · exact Or.inl ⟨i, hi, (parts_of_mem_symbols his).1.symm⟩

/-- A method symbol has the name of one of the methods. -/
theorem mem_methodNames {i : Interface} {flat name : String}
    (h : Symbol.method flat name ∈ i.symbols) : name ∈ i.methodNames := by
  rcases Interface.mem_symbols h with ⟨m, hm, hms⟩ | hown
  · rcases hms.name with ⟨hname, _⟩ | ⟨_, hword⟩
    · exact List.mem_filterMap.mpr ⟨m, hm, hname⟩
    · simp [Symbol.word] at hword
  · have hword := hown.word
    simp [Symbol.word] at hword

theorem mem_propertyNames {i : Interface} (h : s ∈ i.symbols)
    (hword : s.word = "Getter" ∨ s.word = "Setter") : s.member ∈ i.propertyNames := by
  rcases Interface.mem_symbols h with ⟨m, hm, hms⟩ | hown
  · rcases hms.name with ⟨_, hnone⟩ | ⟨hname, _⟩
    · simp [hnone] at hword
    · exact List.mem_filterMap.mpr ⟨m, hm, hname⟩
  · have hown := hown.word
    rcases hword with hword | hword <;> simp [hword] at hown

/-- No method is called like what stands behind the flat name of another symbol. -/
theorem SourceFile.NamesApart.not_named (h : file.NamesApart)
    (hinterfaces : (file.interfaces.map Interface.flatName).Nodup) (ht : s ∈ file.symbols)
    (hmethod : Symbol.method s.flat s.role ∈ file.symbols) (hlead : s.lead = "Js") :
    s = .method s.flat s.role := by
  obtain ⟨i, hi, hflat, his⟩ := exists_interface_of_lead ht hlead
  obtain ⟨i', hi', hflat', hmem⟩ := exists_interface_of_lead hmethod rfl
  -- The method and the other symbol belong to one interface.
  obtain rfl : i' = i := List.inj_on_of_nodup_map hinterfaces hi' hi (hflat'.trans hflat.symm)
  have hname : s.role ∈ i'.methodNames := mem_methodNames (hmem.resolve_left nofun)
  obtain ⟨hprototype, hconstructor, hregistration⟩ := h.words i' hi s.role hname
  cases s with
  | method flat name =>
      show Symbol.method flat name = .method flat (name ++ "")
      rw [String.append_empty]
  | prototype flat => exact absurd rfl hprototype
  | constructor flat => exact absurd rfl hconstructor
  | registration flat => exact absurd rfl hregistration
  | getter flat name =>
      have hproperty := mem_propertyNames (his.resolve_left nofun) (Or.inl rfl)
      exact absurd rfl (h.accessors i' hi _ hname _ hproperty).1
  | setter flat name =>
      have hproperty := mem_propertyNames (his.resolve_left nofun) (Or.inr rfl)
      exact absurd rfl (h.accessors i' hi _ hname _ hproperty).2
  | projector | memberNames | memberFunctions | callback | callbackCast =>
      simp [Symbol.lead] at hlead

/-- **Under names that are apart no two symbols of a file clash.** -/
theorem SourceFile.NamesApart.not_clash (h : file.NamesApart)
    (hinterfaces : (file.interfaces.map Interface.flatName).Nodup) {t : Symbol}
    (hs : s ∈ file.symbols) (ht : t ∈ file.symbols) : ¬s.Clash t := by
  intro hclash
  cases hclash with
  | named t hlead hne => exact hne (h.not_named hinterfaces ht hs hlead)
  | extended rest hsl htl hrest hflat _ =>
      obtain ⟨i, hi, hi', _⟩ := exists_interface_of_lead hs hsl
      obtain ⟨j, hj, hj', _⟩ := exists_interface_of_lead ht htl
      apply hrest
      apply h.prefixes i hi j hj
      rw [hi', hj', hflat]
  | led rest hsl htl hflat _ =>
      have hfree : t.flat ≠ "Js" ++ rest ∧ t.flat ≠ "As" ++ rest := by
        rcases exists_flatName ht with ⟨i, hi, heq⟩ | ⟨d, hd, heq⟩
        · exact heq ▸ h.interfaces i hi rest
        · exact heq ▸ h.delegates d hd rest
      rcases Symbol.lead_of_ne_empty hsl with hlead | hlead
      · exact hfree.1 (hlead ▸ hflat)
      · exact hfree.2 (hlead ▸ hflat)

end

end IdlGlue
