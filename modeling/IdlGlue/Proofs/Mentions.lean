/-
# IdlGlue.Proofs.Mentions -- the prototype slots that the glue of an interface names

| definition             | slots it names                                             |
|------------------------|------------------------------------------------------------|
| method, getter         | that of the class it gives out, if it gives out a class    |
| setter, registration   | none                                                       |
| constructor            | that of its own interface                                  |
| projection             | that of its own interface                                  |

In a function a slot stands in one kind of statement only, the call that sets the prototype
of a wrapped object; `mentionsIn` picks out the statements of a body that mention a slot at
all. Nothing that reads arguments mentions one, so what a function mentions is what its last
part does, which gives a result to the script. The members of an interface are taken one
by one: `accept_mentions` says what one of them adds to a draft, and
`foldlM_accept_mentions` what all of them have added in the end.
-/
import IdlGlue.Proofs.Outcome
import IdlGlue.Proofs.Traversal

namespace IdlGlue

open IdlGlue.Native

/-- The flat name of the class that a member gives out. -/
def Member.reference? : Member → Option String
  | .constructor _ => none
  | .method m => m.result.className?.map Name.flatten
  | .property p => p.type.className?.map Name.flatten

namespace Glue

/-- The statement that gives the prototype in a slot to the wrapped object. -/
def setPrototype (flat : String) : Stmt :=
  .invoke "JsSetPrototype" [.value outputName, .prototype (.slot flat)]

/-- The statements of a body that mention a slot, in order. -/
def mentionsIn (body : List Stmt) : List Stmt := body.filter fun s => !s.slots.isEmpty

@[simp] theorem mentionsIn_append (body body' : List Stmt) :
    mentionsIn (body ++ body') = mentionsIn body ++ mentionsIn body' :=
  List.filter_append body body'

theorem mentionsIn_cons_of_slots {s : Stmt} (hs : s.slots = []) (body : List Stmt) :
    mentionsIn (s :: body) = mentionsIn body := by
  refine List.filter_cons_of_neg ?_
  rw [hs]
  exact Bool.false_ne_true

/-- A call in the body sets the prototype of an object to that in the slot. -/
def SetsSlot (body : List Stmt) (flat : String) : Prop :=
  ∃ operands, Stmt.invoke "JsSetPrototype" operands ∈ body ∧ .prototype (.slot flat) ∈ operands

/-- Such a call mentions the slot, so `mentionsIn` has it. -/
theorem setsSlot_iff {body : List Stmt} {flats : List String}
    (h : mentionsIn body = flats.map setPrototype) (flat : String) :
    SetsSlot body flat ↔ flat ∈ flats := by
  constructor
  · rintro ⟨operands, hcall, hflat⟩
    have hslot : flat ∈ (Stmt.invoke "JsSetPrototype" operands).slots :=
      List.mem_filterMap.mpr ⟨_, hflat, rfl⟩
    have hmention : Stmt.invoke "JsSetPrototype" operands ∈ flats.map setPrototype := by
      rw [← h, mentionsIn, List.mem_filter]
      refine ⟨hcall, ?_⟩
      rw [Bool.not_eq_true', List.isEmpty_eq_false_iff]
      exact List.ne_nil_of_mem hslot
    obtain ⟨flat', hflat', heq⟩ := List.mem_map.mp hmention
    rw [← heq] at hslot
    rw [List.mem_singleton.mp hslot]
    exact hflat'
  · intro hflat
    have hmention : setPrototype flat ∈ mentionsIn body := by
      rw [h]
      exact List.mem_map_of_mem hflat
    exact ⟨_, (List.mem_filter.mp hmention).1, List.mem_cons_of_mem _ (List.mem_singleton_self _)⟩

/-- The flat name of the class of a type, which keys the slot of its values. -/
def classFlat (type : IdlType) : List String := (type.className?.map Name.flatten).toList

/-! ## Statements -/

theorem mentionsIn_readArgument {type : IdlType} {name : String} {index : Nat} {body : List Stmt}
    (h : Rules.readArgument type name index = .ok body) : mentionsIn body = [] := by
  cases type with
  | primitive kind =>
      cases kind with
      | long => cases h
      | int | float | double | string =>
          cases h
          rfl
  | object name =>
      cases h
      rfl
  | void | reference | anyOf => cases h

theorem operandSlots_operand {type : IdlType} {name : String} {x : Operand}
    (h : Rules.operand type name = .ok x) : operandSlots [x] = [] := by
  cases type with
  | primitive kind =>
      cases kind with
      | long => cases h
      | int | float | double | string =>
          cases h
          rfl
  | object name =>
      cases h
      rfl
  | void | reference | anyOf => cases h

/-- Only a value of a fixed class is given out with a slot. -/
theorem mentionsIn_giveResult {r : Rules} {type : IdlType} {selector : String} {body : List Stmt}
    (h : r.giveResult type selector = .ok body) :
    mentionsIn body = (classFlat type).map setPrototype := by
  cases type with
  | primitive kind =>
      cases kind with
      | long => cases h
      | int | float | double | string =>
          cases h
          rfl
  | object name | reference name =>
      cases h
      rfl
  | anyOf set =>
      obtain ⟨expression, _, h⟩ := Traversal.bind_eq_ok_iff.mp h
      cases h
      rfl
  | void => cases h

theorem mentionsIn_readLocal {r : Rules} {type : IdlType} {name : String} {index : Nat}
    {body : List Stmt} (h : readLocal r type name index = .ok body) : mentionsIn body = [] := by
  obtain ⟨decl, _, h⟩ := Traversal.bind_eq_ok_iff.mp h
  obtain ⟨read, hread, h⟩ := Traversal.bind_eq_ok_iff.mp h
  cases h
  rw [mentionsIn_cons_of_slots rfl]
  exact mentionsIn_readArgument hread

theorem mentionsIn_readParams {r : Rules} {params : List Param} {body : List Stmt}
    (h : readParams r params = .ok body) : mentionsIn body = [] := by
  induction params generalizing body with
  | nil =>
      cases h
      rfl
  | cons p ps ih =>
      obtain ⟨first, hfirst, h⟩ := Traversal.bind_eq_ok_iff.mp h
      obtain ⟨others, hothers, h⟩ := Traversal.bind_eq_ok_iff.mp h
      cases h
      rw [mentionsIn_append, mentionsIn_readLocal hfirst, ih hothers]
      rfl

theorem operandSlots_callOperands {params : List Param} {operands : List Operand}
    (h : callOperands params = .ok operands) : operandSlots operands = [] := by
  have hall := Traversal.mapM_eq_ok_iff.mp h
  induction hall with
  | nil => rfl
  | @cons p x ps xs hx hxs ih =>
      have htail : operandSlots xs = [] := ih (Traversal.mapM_eq_ok_iff.mpr hxs)
      have hcons : operandSlots (x :: xs) = operandSlots [x] ++ operandSlots xs :=
        List.filterMap_append (l := [x])
      rw [hcons, operandSlots_operand hx, htail]
      rfl

theorem mentionsIn_giveAccess {r : Rules} {type : IdlType} {source : Access} {selector : String}
    {body : List Stmt} (h : giveAccess r type source selector = .ok body)
    (hsource : operandSlots source.operands = []) :
    mentionsIn body = (classFlat type).map setPrototype := by
  obtain ⟨decl, _, h⟩ := Traversal.bind_eq_ok_iff.mp h
  obtain ⟨conversion, _, h⟩ := Traversal.bind_eq_ok_iff.mp h
  obtain ⟨give, hgive, h⟩ := Traversal.bind_eq_ok_iff.mp h
  cases h
  have hstore : (Stmt.store resultName conversion source).slots = [] := hsource
  rw [mentionsIn_cons_of_slots rfl, mentionsIn_cons_of_slots hstore]
  exact mentionsIn_giveResult hgive

/-! ## Functions -/

theorem mentionsIn_methodAsk {r : Rules} {m : Method} {source : Access} {body : List Stmt}
    (h : methodAsk r m source = .ok body) (hsource : operandSlots source.operands = []) :
    mentionsIn body = (classFlat m.result).map setPrototype := by
  unfold methodAsk at h
  split at h
  · next hvoid =>
      cases h
      have hperform : (Stmt.perform source).slots = [] := hsource
      rw [mentionsIn_cons_of_slots hperform, hvoid]
      rfl
  · exact mentionsIn_giveAccess h hsource

theorem mentionsIn_methodFunction {c : Context} {m : Method} {f : Function}
    (h : methodFunction c m = .ok f) :
    mentionsIn f.body = (Member.method m).reference?.toList.map setPrototype := by
  rw [methodFunction_eq] at h
  obtain ⟨reads, hreads, h⟩ := Traversal.bind_eq_ok_iff.mp h
  obtain ⟨operands, hoperands, h⟩ := Traversal.bind_eq_ok_iff.mp h
  obtain ⟨ask, hask, h⟩ := Traversal.bind_eq_ok_iff.mp h
  cases h
  show mentionsIn (Stmt.expectCall _ _ :: receiver c.name ++ reads ++ ask ++ [.returnOutput]) = _
  simp only [mentionsIn_append, mentionsIn_readParams hreads,
    mentionsIn_methodAsk hask (operandSlots_callOperands hoperands), List.append_nil]
  exact List.append_nil _

theorem mentionsIn_getterFunction {c : Context} {p : Property} {f : Function}
    (h : getterFunction c p = .ok f) :
    mentionsIn f.body = (Member.property p).reference?.toList.map setPrototype := by
  obtain ⟨give, hgive, h⟩ := Traversal.bind_eq_ok_iff.mp h
  cases h
  show mentionsIn (Stmt.expectCall _ _ :: receiver c.name ++ give ++ [.returnOutput]) = _
  simp only [mentionsIn_append, mentionsIn_giveAccess hgive rfl]
  exact List.append_nil _

theorem mentionsIn_setterFunction {c : Context} {p : Property} {f : Function}
    (h : setterFunction c p = .ok f) : mentionsIn f.body = [] := by
  obtain ⟨read, hread, h⟩ := Traversal.bind_eq_ok_iff.mp h
  obtain ⟨value, hvalue, h⟩ := Traversal.bind_eq_ok_iff.mp h
  cases h
  show mentionsIn (Stmt.expectCall _ _ :: receiver c.name ++ read ++ [.writeField _ value,
    .returnOutput]) = []
  have hwrite : (Stmt.writeField (memberName p.name p.nameAsIs) value).slots = [] :=
    operandSlots_operand hvalue
  simp only [mentionsIn_append, mentionsIn_readLocal hread, mentionsIn_cons_of_slots hwrite]
  rfl

theorem mentionsIn_propertyFunctions {c : Context} {p : Property} {fs : List Function}
    (h : propertyFunctions c p = .ok fs) :
    mentionsIn (fs.flatMap Function.body) =
      (Member.property p).reference?.toList.map setPrototype := by
  obtain ⟨getter, hgetter, h⟩ := Traversal.bind_eq_ok_iff.mp h
  have hmentions := mentionsIn_getterFunction hgetter
  split at h
  · cases h
    rw [List.flatMap_singleton]
    exact hmentions
  · obtain ⟨setter, hsetter, h⟩ := Traversal.bind_eq_ok_iff.mp h
    cases h
    rw [List.flatMap_cons, List.flatMap_singleton, mentionsIn_append, hmentions,
      mentionsIn_setterFunction hsetter]
    exact List.append_nil _

theorem mentionsIn_constructorFunction {c : Context} {params : List Param} {f : Function}
    (h : constructorFunction c params = .ok f) : mentionsIn f.body = [setPrototype c.flat] := by
  obtain ⟨reads, hreads, h⟩ := Traversal.bind_eq_ok_iff.mp h
  obtain ⟨operands, hoperands, h⟩ := Traversal.bind_eq_ok_iff.mp h
  cases h
  show mentionsIn ([Stmt.expectCall _ _, .openOutput] ++ reads ++ [.create c.name operands] ++
    Rules.wrapObject objectName (.slot c.flat) ++ [.invoke _ _, .returnOutput]) = _
  have hcreate : (Stmt.create c.name operands).slots = [] := operandSlots_callOperands hoperands
  simp only [mentionsIn_append, mentionsIn_readParams hreads, mentionsIn_cons_of_slots hcreate]
  rfl

/-! ## Drafts -/

/-- The slots that a draft names are those of the classes that the members taken so far give
out, and that of its own interface where it has a constructor. -/
structure Draft.Mentions (c : Context) (members : List Member) (d : Draft) : Prop where
  functions : mentionsIn (d.functions.flatMap Function.body) =
    (members.filterMap Member.reference?).map setPrototype
  constructor : ∀ pending ∈ d.constructor, mentionsIn pending.function.body = [setPrototype c.flat]

theorem mentions_empty (c : Context) : Draft.empty.Mentions c [] := ⟨rfl, nofun⟩

/-- What one more member adds. -/
theorem accept_mentions {c : Context} {members : List Member} {m : Member} {d d' : Draft}
    (hd : d.Mentions c members) (h : (d.accept c m).outcome = .ok d') :
    d'.Mentions c (members ++ [m]) := by
  have hmembers : ((members ++ [m]).filterMap Member.reference?).map setPrototype =
      (members.filterMap Member.reference?).map setPrototype ++
        m.reference?.toList.map setPrototype := by
    rw [List.filterMap_append, List.map_append]
    cases hm : m.reference? with
    | none => simp [hm]
    | some flat => simp [hm]
  cases m with
  | constructor params =>
      rw [outcome_accept_constructor] at h
      obtain ⟨function, hfunction, h⟩ := Traversal.bind_eq_ok_iff.mp h
      cases h
      -- A constructor before this one is dropped, with the slot that it named.
      refine ⟨?_, ?_⟩
      · rw [hmembers, ← hd.functions]
        exact (List.append_nil _).symm
      · rintro pending ⟨⟩
        exact mentionsIn_constructorFunction hfunction
  | method m =>
      rw [outcome_accept_method] at h
      obtain ⟨function, hfunction, h⟩ := Traversal.bind_eq_ok_iff.mp h
      cases h
      refine ⟨?_, hd.constructor⟩
      rw [hmembers, List.flatMap_append, mentionsIn_append, hd.functions,
        List.flatMap_singleton, mentionsIn_methodFunction hfunction]
  | property p =>
      rw [outcome_accept_property] at h
      obtain ⟨functions, hfunctions, h⟩ := Traversal.bind_eq_ok_iff.mp h
      cases h
      refine ⟨?_, hd.constructor⟩
      rw [hmembers, List.flatMap_append, mentionsIn_append, hd.functions,
        mentionsIn_propertyFunctions hfunctions]

/-- What all members of an interface have added in the end. -/
theorem foldlM_accept_mentions {c : Context} {taken members : List Member} {d d' : Draft}
    (hd : d.Mentions c taken)
    (h : members.foldlM (fun d m => (d.accept c m).outcome) d = .ok d') :
    d'.Mentions c (taken ++ members) :=
  Traversal.invariant_foldlM accept_mentions hd h

/-! ## Interfaces -/

/-- The name stands for a prototype slot in the definition. -/
inductive Item.NamesSlot : Item → String → Prop
  /-- A slot is handed to the call that sets the prototype of a wrapped object. -/
  | call {f : Function} {flat : String} : SetsSlot f.body flat →
      NamesSlot (.function f) (Symbol.prototype flat).spelling
  /-- The third argument of a projection record is its slot. -/
  | record {p : Projection} {name : String} : p.arguments[2]? = some name →
      NamesSlot (.projection p) name

/-- The name stands for a prototype slot in the glue of an interface. -/
def InterfaceGlue.NamesSlot (g : InterfaceGlue) (name : String) : Prop :=
  ∃ item ∈ g.items, item.NamesSlot name

/-- A draft that is finished names the slot of its own interface in its projection, if not
in a constructor before. -/
theorem namesSlot_finish_iff {c : Context} {members : List Member} {d : Draft}
    (hd : d.Mentions c members) (name : String) :
    (d.finish c).NamesSlot name ↔
      ∃ flat, (flat ∈ members.filterMap Member.reference? ∨ flat = c.flat) ∧
        name = (Symbol.prototype flat).spelling := by
  have hfunctions := setsSlot_iff hd.functions
  constructor
  · rintro ⟨item, hitem, hname⟩
    simp only [Draft.finish, List.mem_append, List.mem_map, List.mem_singleton,
      Option.mem_toList, Option.map_eq_some_iff] at hitem
    rcases hitem with ((⟨f, hf, rfl⟩ | rfl) | ⟨pending, hpending, rfl⟩) | rfl
    · cases hname with
      | @call _ flat hcall =>
          obtain ⟨operands, hcall, hflat⟩ := hcall
          have hcalls : SetsSlot (d.functions.flatMap Function.body) flat :=
            ⟨operands, List.mem_flatMap.mpr ⟨f, hf, hcall⟩, hflat⟩
          exact ⟨flat, Or.inl ((hfunctions flat).mp hcalls), rfl⟩
    · -- A registration names functions, and no slot.
      cases hname
    · cases hname with
      | @call _ flat hcall =>
          have hown : flat ∈ [c.flat] :=
            (setsSlot_iff (hd.constructor pending hpending) flat).mp hcall
          exact ⟨flat, Or.inr (List.mem_singleton.mp hown), rfl⟩
    · cases hname with
      | record hrecord => exact ⟨c.flat, Or.inr rfl, (Option.some.inj hrecord).symm⟩
  · rintro ⟨flat, hflat | rfl, rfl⟩
    · obtain ⟨operands, hcall, hslot⟩ := (hfunctions flat).mpr hflat
      obtain ⟨f, hf, hcall⟩ := List.mem_flatMap.mp hcall
      refine ⟨.function f, ?_, .call ⟨operands, hcall, hslot⟩⟩
      simp only [Draft.finish, List.mem_append]
      exact Or.inl (Or.inl (Or.inl (List.mem_map_of_mem hf)))
    · refine ⟨.projection (d.projection c), ?_, .record rfl⟩
      exact List.mem_append_right _ (List.mem_singleton_self _)

/-- **The glue of an interface names the slots of the classes that its members give out, its
own, and no other.** -/
theorem namesSlot_interfaceGlue_iff {rules : Rules} {i : Interface} {g : InterfaceGlue}
    (h : (interfaceGlue rules i).outcome = .ok g) (name : String) :
    g.NamesSlot name ↔
      ∃ flat, (flat ∈ i.members.filterMap Member.reference? ∨ flat = i.flatName) ∧
        name = (Symbol.prototype flat).spelling := by
  rw [outcome_interfaceGlue] at h
  obtain ⟨draft, hdraft, h⟩ := Traversal.bind_eq_ok_iff.mp h
  cases h
  exact namesSlot_finish_iff (foldlM_accept_mentions (mentions_empty _) hdraft) name

end Glue

end IdlGlue
