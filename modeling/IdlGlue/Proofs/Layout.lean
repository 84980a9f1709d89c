/-
# IdlGlue.Proofs.Layout -- the glue of an interface, laid out from its members

The members of an interface are taken one by one, and the draft grows in four places:

| member      | functions | constructor | properties | methods |
|-------------|-----------|-------------|------------|---------|
| method      | added     |             |            | added   |
| property    | added     |             | added      |         |
| constructor |           | replaced    |            |         |

`Draft.Of` says what a draft holds after a list of members: the functions of its methods and
properties in their order, and of its constructors the last. One more member keeps this
(`Draft.Of.accept`), so it holds after every run that refuses nothing (`Draft.of_ofMembers`), and
it leaves no choice (`Draft.Of.functional`): where the constructors stand, and which of them came
before the last, does not count.

Whether a member is taken depends on the member alone (`Draft.isOk_accept`). A run that passes over
the members it cannot take therefore ends as the run over the others does.
-/
import IdlGlue.Compile
import IdlGlue.Proofs.Acceptance
import IdlGlue.Proofs.Symbols

namespace IdlGlue

/-! ## Parts of a list of members -/

/-- The property as a registration lists it. -/
def Member.propertyEntry? : Member → Option Glue.PropertyEntry
  | .property p => some { name := p.name, readonly := p.readonly }
  | .constructor _ | .method _ => none

/-- The methods and properties among the members. -/
def plainMembers (members : List Member) : List Member :=
  members.filter fun m => m.constructor?.isNone

/-- The parameters of the last constructor, if there is one. -/
def lastConstructor? (members : List Member) : Option (List Param) :=
  (members.filterMap Member.constructor?).getLast?

section Parts

variable (members : List Member) {m : Member} {params : List Param}

theorem plainMembers_append (hm : m.constructor? = none) :
    plainMembers (members ++ [m]) = plainMembers members ++ [m] := by
  simp [plainMembers, hm]

theorem plainMembers_constructor :
    plainMembers (members ++ [.constructor params]) = plainMembers members := by
  simp [plainMembers, Member.constructor?]

theorem lastConstructor?_append (hm : m.constructor? = none) :
    lastConstructor? (members ++ [m]) = lastConstructor? members := by
  simp [lastConstructor?, hm]

theorem lastConstructor?_constructor :
    lastConstructor? (members ++ [.constructor params]) = some params := by
  simp [lastConstructor?, Member.constructor?]

/-- What constructors do not have can be read off the other members. -/
theorem filterMap_plainMembers {α : Type} {f : Member → Option α}
    (hf : ∀ params, f (.constructor params) = none) :
    (plainMembers members).filterMap f = members.filterMap f := by
  induction members with
  | nil => rfl
  | cons m members ih =>
      cases m with
      | constructor params =>
          rw [List.filterMap_cons_none (hf params), ← ih]
          rfl
      | method m =>
          show (Member.method m :: plainMembers members).filterMap f = _
          rw [List.filterMap_cons, List.filterMap_cons, ih]
      | property p =>
          show (Member.property p :: plainMembers members).filterMap f = _
          rw [List.filterMap_cons, List.filterMap_cons, ih]

end Parts

namespace Glue

open IdlGlue.Native

/-! ## What a draft holds -/

/-- The functions of a method or property. A constructor is held back, and has none here. -/
def plainFunctions (c : Context) : Member → Except Fault (List Function)
  | .constructor _ => .ok []
  | .method m => do
    let function ← methodFunction c m
    return [function]
  | .property p => propertyFunctions c p

/-- A constructor as it waits for the end of its interface. -/
def pendingConstructor (c : Context) (params : List Param) : Except Fault PendingConstructor := do
  let function ← constructorFunction c params
  return { function, paramCount := params.length }

/-- The draft of a list of members, from the first to the last. -/
def Draft.ofMembers (c : Context) (members : List Member) : Except Fault Draft :=
  members.foldlM (fun d m => (d.accept c m).outcome) Draft.empty

/-- What the draft holds after the members. -/
structure Draft.Of (c : Context) (members : List Member) (d : Draft) : Prop where
  functions : ∃ glue, (plainMembers members).mapM (plainFunctions c) = .ok glue ∧
    d.functions = glue.flatten
  constructor : (lastConstructor? members).mapM (pendingConstructor c) = .ok d.constructor
  properties : d.properties = members.filterMap Member.propertyEntry?
  methods : d.methods = members.filterMap Member.methodName?

section Draft

variable {c : Context} {members : List Member} {m : Member} {d d' : Draft}

theorem Draft.of_empty (c : Context) : Draft.empty.Of c [] where
  functions := ⟨[], rfl, rfl⟩
  constructor := rfl
  properties := rfl
  methods := rfl

/-- A pass over one more member goes on where the pass over the others ended. -/
theorem mapM_plainFunctions_append {glue : List (List Function)} {functions : List Function}
    (h : members.mapM (plainFunctions c) = .ok glue) (hm : plainFunctions c m = .ok functions) :
    (members ++ [m]).mapM (plainFunctions c) = .ok (glue ++ [functions]) := by
  rw [Traversal.mapM_eq_ok_iff] at h ⊢
  exact List.rel_append h (.cons hm .nil)

/-- **One more member.** A method or property adds its functions and its name behind the others; a
constructor takes the place of the one before it. -/
theorem Draft.Of.accept (hd : d.Of c members) (h : (d.accept c m).outcome = .ok d') :
    d'.Of c (members ++ [m]) := by
  obtain ⟨glue, hglue, hfunctions⟩ := hd.functions
  have hmethods := accept_methods hd.methods h
  cases m with
  | constructor params =>
      rw [outcome_accept_constructor] at h
      obtain ⟨function, hfunction, h⟩ := Traversal.bind_eq_ok_iff.mp h
      cases h
      refine ⟨?_, ?_, ?_, hmethods⟩
      · rw [plainMembers_constructor]
        exact ⟨glue, hglue, hfunctions⟩
      · rw [lastConstructor?_constructor]
        show some <$> pendingConstructor c params = _
        rw [pendingConstructor, hfunction]
        rfl
      · rw [List.filterMap_append, hd.properties]
        exact (List.append_nil _).symm
  | method m =>
      rw [outcome_accept_method] at h
      obtain ⟨function, hfunction, h⟩ := Traversal.bind_eq_ok_iff.mp h
      cases h
      have hm : plainFunctions c (.method m) = .ok [function] := by
        rw [plainFunctions, hfunction]
        rfl
      refine ⟨?_, ?_, ?_, hmethods⟩
      · rw [plainMembers_append members rfl]
        refine ⟨glue ++ [[function]], mapM_plainFunctions_append hglue hm, ?_⟩
        rw [hfunctions, List.flatten_append]
        rfl
      · rw [lastConstructor?_append members rfl]
        exact hd.constructor
      · rw [List.filterMap_append, hd.properties]
        exact (List.append_nil _).symm
  | property p =>
      rw [outcome_accept_property] at h
      obtain ⟨functions, hfns, h⟩ := Traversal.bind_eq_ok_iff.mp h
      cases h
      have hm : plainFunctions c (.property p) = .ok functions := hfns
      refine ⟨?_, ?_, ?_, hmethods⟩
      · rw [plainMembers_append members rfl]
        refine ⟨glue ++ [functions], mapM_plainFunctions_append hglue hm, ?_⟩
        rw [hfunctions, List.flatten_append, List.flatten_singleton]
      · rw [lastConstructor?_append members rfl]
        exact hd.constructor
      · rw [List.filterMap_append, hd.properties]
        rfl

/-- All members, one after the other. -/
theorem Draft.Of.foldlM {taken : List Member} (hd : d.Of c taken)
    (h : members.foldlM (fun d m => (d.accept c m).outcome) d = .ok d') :
    d'.Of c (taken ++ members) :=
  Traversal.invariant_foldlM Draft.Of.accept hd h

theorem Draft.of_ofMembers (h : Draft.ofMembers c members = .ok d) : d.Of c members :=
  (Draft.of_empty c).foldlM h

/-- A draft is what the methods and properties and the last constructor make it. -/
theorem Draft.Of.functional {members' : List Member} (h : d.Of c members) (h' : d'.Of c members')
    (hplain : plainMembers members' = plainMembers members)
    (hlast : lastConstructor? members' = lastConstructor? members) : d' = d := by
  obtain ⟨glue, hglue, hfunctions⟩ := h.functions
  obtain ⟨glue', hglue', hfunctions'⟩ := h'.functions
  have hconstructor := h'.constructor
  rw [hplain, hglue] at hglue'
  rw [hlast, h.constructor] at hconstructor
  have hproperties : d'.properties = d.properties := by
    rw [h.properties, h'.properties, ← filterMap_plainMembers members fun _ => rfl,
      ← filterMap_plainMembers members' fun _ => rfl, hplain]
  have hmethods : d'.methods = d.methods := by
    rw [h.methods, h'.methods, ← filterMap_plainMembers members fun _ => rfl,
      ← filterMap_plainMembers members' fun _ => rfl, hplain]
  cases d
  cases d'
  cases hglue'
  cases hconstructor
  simp_all

end Draft

/-! ## Which members are taken -/

/-- The member can be taken, as the first of its interface. -/
def takes (c : Context) (m : Member) : Bool := (Draft.empty.accept c m).outcome.isOk

section Taken

variable {c : Context} {members : List Member} {m : Member}

/-- **Whether a member is taken does not depend on the draft.** -/
theorem Draft.isOk_accept (c : Context) (d : Draft) (m : Member) :
    (d.accept c m).outcome.isOk = takes c m := by
  rw [takes, Bool.eq_iff_iff, Traversal.isOk_iff, Traversal.isOk_iff]
  exact (accept_verdict c d m).ok_iff.trans (accept_verdict c Draft.empty m).ok_iff.symm

theorem Draft.ofMembers_verdict (c : Context) (members : List Member) :
    Verdict (Draft.ofMembers c members)
      (∀ m ∈ members, m.Admissible c.rules.registry c.rules.delegates)
      (FirstRefused (Member.Admissible c.rules.registry c.rules.delegates)
        (Member.Refused c.rules.registry c.rules.delegates) members) :=
  Verdict.foldlM (fun d m _ => accept_verdict c d m) Draft.empty

/-- A run refuses nothing exactly when no member is refused. -/
theorem Draft.exists_ofMembers_iff :
    (∃ d, Draft.ofMembers c members = .ok d) ↔ ∀ m ∈ members, takes c m = true := by
  refine (Draft.ofMembers_verdict c members).ok_iff.trans (forall₂_congr fun m _ => ?_)
  rw [takes, Traversal.isOk_iff]
  exact (accept_verdict c Draft.empty m).ok_iff.symm

/-- The run that passes over the members it cannot take: its draft, and the members taken. -/
def Draft.takeAll (c : Context) (d : Draft) : List Member → Draft × List Member
  | [] => (d, [])
  | m :: members =>
    match (d.accept c m).outcome with
    | .ok next => ((next.takeAll c members).1, m :: (next.takeAll c members).2)
    | .error _ => d.takeAll c members

/-- The members taken are those that are taken anywhere. -/
theorem Draft.takeAll_snd (d : Draft) : (d.takeAll c members).2 = members.filter (takes c) := by
  induction members generalizing d with
  | nil => rfl
  | cons m members ih =>
      have hm := d.isOk_accept c m
      rw [Draft.takeAll, List.filter_cons, ← hm]
      cases (d.accept c m).outcome with
      | ok next => exact congrArg (m :: ·) (ih next)
      | error e => exact ih d

/-- The members taken, by themselves, lead to the same draft. -/
theorem Draft.foldlM_takeAll (d : Draft) :
    (d.takeAll c members).2.foldlM (fun d m => (d.accept c m).outcome) d =
      .ok (d.takeAll c members).1 := by
  induction members generalizing d with
  | nil => rfl
  | cons m members ih =>
      rw [Draft.takeAll]
      cases hm : (d.accept c m).outcome with
      | ok next =>
          rw [List.foldlM_cons, hm]
          exact ih next
      | error e => exact ih d

end Taken

/-! ## The finished glue -/

/-- The glue of an interface with these members: the functions of its methods and properties, the
registration of all properties, the function of the last constructor, and the projection of all
methods, in this order. -/
structure Laid (c : Context) (members : List Member) (g : InterfaceGlue) : Prop where
  code : ∃ glue constructor, (plainMembers members).mapM (plainFunctions c) = .ok glue ∧
    (lastConstructor? members).mapM (constructorFunction c) = .ok constructor ∧
    g.code = String.join (glue.flatten.map Function.text) ++
      Registration.text {
        flat := c.flat
        bindingNamespace := c.rules.dialect.bindingNamespace
        entries := members.filterMap Member.propertyEntry? } ++
      (constructor.map Function.text).getD "" ++
      Projection.text {
        flat := c.flat
        shortName := Name.short c.name
        bindingNamespace := c.rules.dialect.bindingNamespace
        hasConstructor := (lastConstructor? members).isSome
        methods := members.filterMap Member.methodName? }
  properties : g.properties = members.filterMap Member.propertyEntry?
  methods : g.methods = members.filterMap Member.methodName?
  hasConstructor : g.hasConstructor = (lastConstructor? members).isSome

section Finish

variable {c : Context} {members : List Member} {d : Draft}

/-- The constructor that waits is that of the last constructor. -/
theorem Draft.Of.pending (hd : d.Of c members) :
    (lastConstructor? members).mapM (constructorFunction c) =
      .ok (d.constructor.map PendingConstructor.function) ∧
    d.constructor.isSome = (lastConstructor? members).isSome := by
  have hpending := hd.constructor
  cases hlast : lastConstructor? members with
  | none =>
      rw [hlast] at hpending
      rw [← Except.ok.inj hpending]
      exact ⟨rfl, rfl⟩
  | some params =>
      rw [hlast] at hpending
      obtain ⟨pending, hconstructor, h⟩ := Traversal.bind_eq_ok_iff.mp hpending
      obtain ⟨function, hfunction, hmade⟩ := Traversal.bind_eq_ok_iff.mp hconstructor
      rw [← Except.ok.inj h, ← Except.ok.inj hmade]
      refine ⟨?_, rfl⟩
      show some <$> constructorFunction c params = _
      rw [hfunction]
      rfl

/-- The code of a finished draft, part by part. -/
theorem Draft.code_finish (c : Context) (d : Draft) :
    (d.finish c).code = String.join (d.functions.map Function.text) ++
      (d.registration c).text ++
      ((d.constructor.map PendingConstructor.function).map Function.text).getD "" ++
      (d.projection c).text := by
  have hjoin (text : String) : String.join [text] = text := by
    rw [String.join_cons, String.join_nil, String.append_empty]
  have hconstructor : String.join ((d.constructor.map fun pending =>
      Item.function pending.function).toList.map Item.text) =
        ((d.constructor.map PendingConstructor.function).map Function.text).getD "" := by
    cases d.constructor with
    | none => rfl
    | some pending => exact hjoin pending.function.text
  rw [InterfaceGlue.code, Draft.finish, List.map_append, List.map_append, List.map_append,
    String.join_append, String.join_append, String.join_append, hconstructor, List.map_map]
  show _ ++ String.join [_] ++ _ ++ String.join [_] = _
  rw [hjoin, hjoin]
  rfl

/-- A finished draft is laid out as its members say. -/
theorem Draft.Of.laid (hd : d.Of c members) : Laid c members (d.finish c) := by
  obtain ⟨glue, hglue, hfunctions⟩ := hd.functions
  obtain ⟨hpending, hsome⟩ := hd.pending
  refine ⟨⟨glue, _, hglue, hpending, ?_⟩, hd.properties, hd.methods, hsome⟩
  rw [Draft.code_finish, hfunctions, Draft.registration, Draft.projection, hd.properties,
    hd.methods, hsome]

end Finish

/-- **The glue of an interface is laid out from its members, and is a function of its methods and
properties and of its last constructor alone.** Which members are taken is settled member by
member, so to pass over the refused ones is to run over the others. -/
theorem laid_ofMembers (c : Context) (members : List Member) :
    (∀ d, Draft.ofMembers c members = .ok d →
      Laid c members (d.finish c) ∧
      ∀ others, plainMembers others = plainMembers members →
        lastConstructor? others = lastConstructor? members →
        (∀ m ∈ others, takes c m = true) →
        ∃ d', Draft.ofMembers c others = .ok d' ∧ d'.finish c = d.finish c) ∧
    (∀ d m, (Draft.accept c d m).outcome.isOk = takes c m) ∧
    (Draft.empty.takeAll c members).2 = members.filter (takes c) ∧
    Draft.ofMembers c (members.filter (takes c)) = .ok (Draft.empty.takeAll c members).1 := by
  refine ⟨?_, Draft.isOk_accept c, Draft.takeAll_snd Draft.empty, ?_⟩
  · intro d hd
    refine ⟨(Draft.of_ofMembers hd).laid, ?_⟩
    intro others hplain hlast htaken
    obtain ⟨d', hd'⟩ := Draft.exists_ofMembers_iff.mpr htaken
    refine ⟨d', hd', ?_⟩
    rw [(Draft.of_ofMembers hd).functional (Draft.of_ofMembers hd') hplain hlast]
  · rw [← Draft.takeAll_snd Draft.empty]
    exact Draft.foldlM_takeAll Draft.empty

/-- A class with a constructor before its other members and one among them. -/
def counter : Interface where
  name := "Zmey::Counter"
  members := [
    .constructor [⟨.primitive .int, "start", 0⟩],
    .property { type := .primitive .int, name := "step", readonly := false, nameAsIs := false },
    .method { result := .primitive .int, name := "next", params := [], nameAsIs := false },
    .constructor [],
    .property { type := .primitive .string, name := "label", readonly := true, nameAsIs := true }]

/-- The rules of the standard options, with no delegates. -/
def standardRules : Rules := ⟨Options.standard.dialect, Options.standard.registry, []⟩

/-- The counter without its first constructor, the other one put in front. -/
theorem laid_ofMembers_counter :
    ∃ d d', Draft.ofMembers ⟨counter.name, standardRules⟩ counter.members = .ok d ∧
      Laid ⟨counter.name, standardRules⟩ counter.members
        (d.finish ⟨counter.name, standardRules⟩) ∧
      Draft.ofMembers ⟨counter.name, standardRules⟩
        (.constructor [] :: plainMembers counter.members) = .ok d' ∧
      d'.finish ⟨counter.name, standardRules⟩ = d.finish ⟨counter.name, standardRules⟩ := by
  have htaken : ∀ m ∈ counter.members, takes ⟨counter.name, standardRules⟩ m = true := by
    decide +kernel
  obtain ⟨d, hd⟩ := Draft.exists_ofMembers_iff.mpr htaken
  obtain ⟨hlaid, hothers⟩ :=
    (laid_ofMembers ⟨counter.name, standardRules⟩ counter.members).1 d hd
  obtain ⟨d', hd', hfinish⟩ := hothers (.constructor [] :: plainMembers counter.members)
    (by decide) (by decide) (by decide +kernel)
  exact ⟨d, d', hd, hlaid, hd', hfinish⟩

end Glue

end IdlGlue
