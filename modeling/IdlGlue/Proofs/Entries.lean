/-
# IdlGlue.Proofs.Entries -- which functions an interface has

| member              | functions                         |
|---------------------|-----------------------------------|
| method              | one                               |
| property            | a getter and, if writable, a setter |
| constructor         | one, if no constructor follows it |

`Interface.entries` lists the functions as they are declared, `InterfaceGlue.functions` as they
are generated. Both lists have one order, and each function is made of a member of the
interface by the rules for its kind (`MadeOf`); so whatever those rules give holds of all
functions of the glue (`madeOf_interfaceGlue`).
-/
import IdlGlue.Proofs.Outcome
import IdlGlue.Proofs.Traversal

namespace IdlGlue

open IdlGlue.Native

/-! ## Declared functions -/

/-- What a generated function stands for. -/
inductive EntryKind where
  | constructor
  | method
  /-- A getter or a setter, which asks native code for a field and calls nothing. -/
  | accessor
deriving DecidableEq, Repr

/-- A function that scripts can call, as it is declared. -/
structure Entry where
  symbol : Symbol
  kind : EntryKind
  params : List Param
deriving DecidableEq, Repr

namespace Entry

def constructor (flat : String) (params : List Param) : Entry :=
  ⟨.constructor flat, .constructor, params⟩

def method (flat : String) (m : Method) : Entry := ⟨.method flat m.name, .method, m.params⟩

def getter (flat : String) (p : Property) : Entry := ⟨.getter flat p.name, .accessor, []⟩

/-- A setter has its property for parameter. -/
def setter (flat : String) (p : Property) : Entry :=
  ⟨.setter flat p.name, .accessor, [⟨p.type, p.name, 0⟩]⟩

end Entry

/-- The functions of a method or property. -/
def Member.entries (flat : String) : Member → List Entry
  | .constructor _ => []
  | .method m => [.method flat m]
  | .property p => .getter flat p :: if p.readonly then [] else [.setter flat p]

/-- The parameters of a constructor. -/
def Member.constructor? : Member → Option (List Param)
  | .constructor params => some params
  | .method _ | .property _ => none

/-- The functions of the constructors: the last constructor has one. -/
def constructorEntries (flat : String) (members : List Member) : List Entry :=
  ((members.filterMap Member.constructor?).getLast?.map (Entry.constructor flat)).toList

/-- All functions that scripts can call, in the order in which they are generated. -/
def Interface.entries (i : Interface) : List Entry :=
  i.members.flatMap (Member.entries i.flatName) ++ constructorEntries i.flatName i.members

/-- A member that is no constructor leaves the constructor as it is. -/
theorem constructorEntries_append {flat : String} {members : List Member} {m : Member}
    (hm : m.constructor? = none) :
    constructorEntries flat (members ++ [m]) = constructorEntries flat members := by
  rw [constructorEntries, List.filterMap_append, List.filterMap_cons_none hm, List.filterMap_nil,
    List.append_nil]
  rfl

/-- A further constructor takes the place of the one before it. -/
theorem constructorEntries_constructor (flat : String) (members : List Member)
    (params : List Param) :
    constructorEntries flat (members ++ [.constructor params]) = [.constructor flat params] := by
  rw [constructorEntries, List.filterMap_append]
  show ((members.filterMap Member.constructor? ++ [params]).getLast?.map _).toList = _
  rw [List.getLast?_concat]
  rfl

namespace Glue

/-! ## Generated functions -/

/-- The function that a definition is, if it is one. -/
def Item.function? : Item → Option Function
  | .function f => some f
  | .registration _ | .projection _ => none

/-- The functions in the glue of an interface, in order. -/
def InterfaceGlue.functions (g : InterfaceGlue) : List Function := g.items.filterMap Item.function?

theorem functions_finish (c : Context) (d : Draft) :
    (d.finish c).functions =
      d.functions ++ (d.constructor.map PendingConstructor.function).toList := by
  have hfunctions (fs : List Function) : (fs.map Item.function).filterMap Item.function? = fs := by
    rw [List.filterMap_map]
    exact List.filterMap_some
  simp only [InterfaceGlue.functions, Draft.finish, List.filterMap_append, hfunctions]
  cases d.constructor with
  | none =>
      show d.functions ++ [] ++ [] ++ [] = d.functions ++ []
      simp only [List.append_nil]
  | some pending =>
      show d.functions ++ [] ++ [pending.function] ++ [] = d.functions ++ [pending.function]
      simp only [List.append_nil]

/-- The function is what the rules for members give for this one. -/
inductive MadeOf (c : Context) : Member → Entry → Function → Prop
  | constructor {params f} : constructorFunction c params = .ok f →
      MadeOf c (.constructor params) (.constructor c.flat params) f
  | method {m f} : methodFunction c m = .ok f → MadeOf c (.method m) (.method c.flat m) f
  | getter {p f} : getterFunction c p = .ok f → MadeOf c (.property p) (.getter c.flat p) f
  | setter {p f} : setterFunction c p = .ok f → MadeOf c (.property p) (.setter c.flat p) f

/-- The function is made of one of the members. -/
def MadeOfAny (c : Context) (members : List Member) (e : Entry) (f : Function) : Prop :=
  ∃ m ∈ members, MadeOf c m e f

theorem MadeOfAny.append {c : Context} {members : List Member} {es : List Entry}
    {fs : List Function} (h : List.Forall₂ (MadeOfAny c members) es fs) (m : Member) :
    List.Forall₂ (MadeOfAny c (members ++ [m])) es fs :=
  h.imp fun _ _ ⟨k, hk, hmade⟩ => ⟨k, List.mem_append_left _ hk, hmade⟩

theorem MadeOf.any {c : Context} {members : List Member} {m : Member} {e : Entry} {f : Function}
    (h : MadeOf c m e f) : MadeOfAny c (members ++ [m]) e f :=
  ⟨m, List.mem_append_right _ (List.mem_singleton_self m), h⟩

theorem madeOf_propertyFunctions {c : Context} {p : Property} {fs : List Function}
    (h : propertyFunctions c p = .ok fs) :
    List.Forall₂ (MadeOf c (.property p)) ((Member.property p).entries c.flat) fs := by
  obtain ⟨getter, hgetter, h⟩ := Traversal.bind_eq_ok_iff.mp h
  rw [Member.entries]
  split at h
  · next hreadonly =>
      cases h
      rw [if_pos hreadonly]
      exact .cons (.getter hgetter) .nil
  · next hwritable =>
      obtain ⟨setter, hsetter, h⟩ := Traversal.bind_eq_ok_iff.mp h
      cases h
      rw [if_neg hwritable]
      exact .cons (.getter hgetter) (.cons (.setter hsetter) .nil)

/-! ## Members in a draft -/

/-- The functions of a draft are those of the members taken so far. -/
structure Draft.Holds (c : Context) (members : List Member) (d : Draft) : Prop where
  functions : List.Forall₂ (MadeOfAny c members) (members.flatMap (Member.entries c.flat))
    d.functions
  constructor : List.Forall₂ (MadeOfAny c members) (constructorEntries c.flat members)
    (d.constructor.map PendingConstructor.function).toList

/-- What one more member adds. -/
theorem Draft.Holds.accept {c : Context} {members : List Member} {m : Member} {d d' : Draft}
    (hd : d.Holds c members) (h : (d.accept c m).outcome = .ok d') :
    d'.Holds c (members ++ [m]) := by
  have hentries : (members ++ [m]).flatMap (Member.entries c.flat) =
      members.flatMap (Member.entries c.flat) ++ m.entries c.flat := by
    rw [List.flatMap_append, List.flatMap_singleton]
  have hbefore := MadeOfAny.append hd.functions m
  have hconstructor := MadeOfAny.append hd.constructor m
  cases m with
  | constructor params =>
      rw [outcome_accept_constructor] at h
      obtain ⟨function, hfunction, h⟩ := Traversal.bind_eq_ok_iff.mp h
      cases h
      refine ⟨?_, ?_⟩
      · rw [hentries, Member.entries, List.append_nil]
        exact hbefore
      · rw [constructorEntries_constructor]
        exact .cons (MadeOf.constructor hfunction).any .nil
  | method m =>
      rw [outcome_accept_method] at h
      obtain ⟨function, hfunction, h⟩ := Traversal.bind_eq_ok_iff.mp h
      cases h
      refine ⟨?_, ?_⟩
      · rw [hentries]
        exact List.rel_append hbefore (.cons (MadeOf.method hfunction).any .nil)
      · rw [constructorEntries_append rfl]
        exact hconstructor
  | property p =>
      rw [outcome_accept_property] at h
      obtain ⟨functions, hfunctions, h⟩ := Traversal.bind_eq_ok_iff.mp h
      cases h
      refine ⟨?_, ?_⟩
      · rw [hentries]
        exact List.rel_append hbefore
          ((madeOf_propertyFunctions hfunctions).imp fun _ _ hmade => hmade.any)
      · rw [constructorEntries_append rfl]
        exact hconstructor

/-- What all members of an interface have added in the end. -/
theorem Draft.Holds.foldlM {c : Context} {taken members : List Member} {d d' : Draft}
    (hd : d.Holds c taken)
    (h : members.foldlM (fun d m => (d.accept c m).outcome) d = .ok d') :
    d'.Holds c (taken ++ members) :=
  Traversal.invariant_foldlM Draft.Holds.accept hd h

/-- **The functions of an interface are those that its members declare, in one order, and each
is made of its member.** -/
theorem madeOf_interfaceGlue {rules : Rules} {i : Interface} {g : InterfaceGlue}
    (h : (interfaceGlue rules i).outcome = .ok g) :
    List.Forall₂ (MadeOfAny { name := i.name, rules } i.members) i.entries g.functions := by
  rw [outcome_interfaceGlue] at h
  obtain ⟨draft, hdraft, h⟩ := Traversal.bind_eq_ok_iff.mp h
  cases h
  have hempty : Draft.empty.Holds { name := i.name, rules } [] := ⟨.nil, .nil⟩
  have hholds := hempty.foldlM hdraft
  rw [functions_finish]
  exact List.rel_append hholds.functions hholds.constructor

end Glue

end IdlGlue
