/-
# IdlGlue.Proofs.Admissible -- which files have glue, and why another one has none

The conditions on a file, said of its declarations and not of the generator:

| position                  | admitted types                                              |
|---------------------------|-------------------------------------------------------------|
| in a delegate             | all but `long`                                               |
| parameter                 | int, float, double, string, a class by pointer               |
| result of a method        | all but `long`; `anyof` where the registry resolves the set  |
| property                  | the same without `void`                                      |
| property that can be set  | those of a parameter                                         |

Beside that the flat names of the interfaces differ, and so do those of the delegates.

A file that is not admissible has a first fault: of names before types, of interfaces before
delegates as to names, of delegates before interfaces as to types, and otherwise in
the order of the file. `fileGlue_verdict` says that generation succeeds exactly for
admissible files and stops with exactly that fault otherwise.
-/
import IdlGlue.Glue.File
import IdlGlue.Proofs.Verdict
import Mathlib.Data.List.Nodup

namespace IdlGlue

/-! ## Types in their positions -/

/-- Values of the type can be handed from a script to native code. -/
inductive IdlType.Passable : IdlType → Prop
  | int : Passable (.primitive .int)
  | float : Passable (.primitive .float)
  | double : Passable (.primitive .double)
  | string : Passable (.primitive .string)
  | object (name : String) : Passable (.object name)

/-- A local can hold a value of the type. -/
def IdlType.Storable (type : IdlType) : Prop := type ≠ .primitive .long ∧ type ≠ .void

/-- The registry knows the prototype of a value of the type, which the native expression
`selector` tells; it is asked for `anyof` sets only. -/
def Registry.Resolves (registry : Registry) (delegates : List Delegate) (selector : String)
    (type : IdlType) : Prop :=
  ∀ set, type = .anyOf set →
    ∃ expression, registry.prototype { set, selector, delegates } = .ok expression

/-- The expression by which the `anyof` result of a method is told: the local of its
first parameter, or the receiver. -/
def Method.selector (m : Method) : String :=
  (m.params.head?.map fun p => "_" ++ p.name).getD "ptr"

/-! ## Admissible declarations -/

/-- The types in the signature of the delegate. -/
def Delegate.types (d : Delegate) : List IdlType := d.result :: d.params.map Param.type

def Delegate.Admissible (d : Delegate) : Prop := ∀ type ∈ d.types, type ≠ .primitive .long

section

variable (registry : Registry) (delegates : List Delegate)

structure Method.Admissible (m : Method) : Prop where
  params : ∀ p ∈ m.params, p.type.Passable
  result : m.result ≠ .primitive .long
  resolved : registry.Resolves delegates m.selector m.result

structure Property.Admissible (p : Property) : Prop where
  type : p.type ≠ .primitive .long ∧ p.type ≠ .void
  resolved : registry.Resolves delegates "ptr" p.type
  writable : p.readonly = false →
    (∀ set, p.type ≠ .anyOf set) ∧ ∀ name, p.type ≠ .reference name

/-- The member can be given to scripts, in a file with these delegates. -/
def Member.Admissible : Member → Prop
  | .constructor params => ∀ p ∈ params, p.type.Passable
  | .method m => m.Admissible registry delegates
  | .property p => p.Admissible registry delegates

/-- The file has glue. -/
structure SourceFile.Admissible (file : SourceFile) : Prop where
  interfaceNames : (file.interfaces.map Interface.flatName).Nodup
  delegateNames : (file.delegates.map Delegate.flatName).Nodup
  delegates : ∀ d ∈ file.delegates, d.Admissible
  members : ∀ i ∈ file.interfaces, ∀ m ∈ i.members, m.Admissible registry file.delegates

end

/-! ## Faults -/

/-- The fault of a parameter or a set property, whose local is named `name`. -/
inductive ArgumentRefused (type : IdlType) (name : String) : Fault → Prop
  | storage : ¬ type.Storable →
      ArgumentRefused type name (.unsupportedType type.spelling (.storage name))
  | argument : type.Storable → ¬ type.Passable →
      ArgumentRefused type name (.unsupportedType type.spelling (.argument name))

/-- The fault of the first parameter that cannot be handed to native code. -/
def ParamsRefused : List Param → Fault → Prop :=
  FirstRefused (fun p => p.type.Passable) fun p => ArgumentRefused p.type ("_" ++ p.name)

/-- The fault of a delegate. -/
inductive Delegate.Refused (d : Delegate) : Fault → Prop
  | long : ¬ d.Admissible → Delegate.Refused d (.unsupportedType "long" .signature)

section

variable (registry : Registry) (delegates : List Delegate)

/-- The fault of a type that is given to scripts. The registry's own fault is handed on. -/
inductive ResultRefused (selector : String) : IdlType → Fault → Prop
  | storage {type : IdlType} : ¬ type.Storable →
      ResultRefused selector type (.unsupportedType type.spelling (.storage "_result"))
  | registry {set : String} {e : Fault} :
      registry.prototype { set, selector, delegates } = .error e →
      ResultRefused selector (.anyOf set) e

/-- The fault of a member. Parameters come before the result, and what a property gives
before what it is set to. -/
inductive Member.Refused : Member → Fault → Prop
  | constructor {params : List Param} {e : Fault} : ParamsRefused params e →
      Member.Refused (.constructor params) e
  | param {m : Method} {e : Fault} : ParamsRefused m.params e → Member.Refused (.method m) e
  | result {m : Method} {e : Fault} : (∀ p ∈ m.params, p.type.Passable) → m.result ≠ .void →
      ResultRefused registry delegates m.selector m.result e → Member.Refused (.method m) e
  | getter {p : Property} {e : Fault} : ResultRefused registry delegates "ptr" p.type e →
      Member.Refused (.property p) e
  | setter {p : Property} {e : Fault} : p.type.Storable →
      registry.Resolves delegates "ptr" p.type → p.readonly = false →
      ArgumentRefused p.type ("_" ++ p.name) e → Member.Refused (.property p) e

end

/-- The key of `x` was the key of an element before, and no element before repeats one. -/
def FirstRepeat {α : Type} (key : α → String) (xs : List α) (x : α) : Prop :=
  ∃ before after, xs = before ++ x :: after ∧ (before.map key).Nodup ∧ key x ∈ before.map key

/-- The fault for which a file has no glue. -/
inductive SourceFile.FirstFault (registry : Registry) (file : SourceFile) : Fault → Prop
  | duplicateInterface {i : Interface} :
      FirstRepeat Interface.flatName file.interfaces i →
      FirstFault registry file (.duplicateInterface i.name)
  | duplicateDelegate {d : Delegate} : (file.interfaces.map Interface.flatName).Nodup →
      FirstRepeat Delegate.flatName file.delegates d →
      FirstFault registry file (.duplicateDelegate d.name)
  | delegate {e : Fault} : (file.interfaces.map Interface.flatName).Nodup →
      (file.delegates.map Delegate.flatName).Nodup →
      FirstRefused Delegate.Admissible Delegate.Refused file.delegates e →
      FirstFault registry file e
  | member {e : Fault} : (file.interfaces.map Interface.flatName).Nodup →
      (file.delegates.map Delegate.flatName).Nodup →
      (∀ d ∈ file.delegates, d.Admissible) →
      FirstRefused (Member.Admissible registry file.delegates)
        (Member.Refused registry file.delegates) (file.interfaces.flatMap Interface.members) e →
      FirstFault registry file e

end IdlGlue
