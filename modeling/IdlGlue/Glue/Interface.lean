/-
# IdlGlue.Glue.Interface -- the glue of one interface

The members of an interface are taken one by one into a draft. The functions of
methods and properties are kept in the order of their declaration. The constructor
is held back, since it calls the registration function, which lists all properties and
so comes after them; of several constructors the last is kept, with a warning for
each after the first. The finished glue is

    functions of the members, registration, constructor, projection.
-/
import IdlGlue.Glue.Member
import IdlGlue.Glue.Item
import IdlGlue.Logged

namespace IdlGlue.Glue

open IdlGlue.Native

/-- A constructor that waits for the end of its interface. -/
structure PendingConstructor where
  function : Function
  paramCount : Nat
deriving DecidableEq, Repr

/-- What has been made of the members of an interface so far. -/
structure Draft where
  functions : List Function
  constructor : Option PendingConstructor
  properties : List PropertyEntry
  methods : List String
deriving DecidableEq, Repr

/-- No member has been taken. -/
def Draft.empty : Draft where
  functions := []
  constructor := none
  properties := []
  methods := []

/-- The draft with one more member. The warning about a second constructor is told
before the constructor is looked at, so it is told even of one that is refused. -/
def Draft.accept (c : Context) (d : Draft) : Member → Logged Draft
  | .constructor params => do
    if d.constructor.isSome then Logged.tell (.constructorRedeclared c.name)
    let function ← constructorFunction c params
    return { d with constructor := some { function, paramCount := params.length } }
  | .method m => do
    let function ← methodFunction c m
    return { d with functions := d.functions ++ [function], methods := d.methods ++ [m.name] }
  | .property p => do
    let functions ← propertyFunctions c p
    return { d with
      functions := d.functions ++ functions
      properties := d.properties ++ [{ name := p.name, readonly := p.readonly }] }

/-- The finished glue of an interface. -/
structure InterfaceGlue where
  flatName : String
  items : List Item
  properties : List PropertyEntry
  methods : List String
  hasConstructor : Bool
deriving DecidableEq, Repr

/-- The code of the interface. -/
def InterfaceGlue.code (g : InterfaceGlue) : String := String.join (g.items.map Item.text)

/-- The symbols that the interface defines. -/
def InterfaceGlue.defined (g : InterfaceGlue) : List Symbol := g.items.flatMap Item.defined

/-- The registration function of a draft. -/
def Draft.registration (c : Context) (d : Draft) : Registration where
  flat := c.flat
  bindingNamespace := c.rules.dialect.bindingNamespace
  entries := d.properties

/-- The projection of a draft. -/
def Draft.projection (c : Context) (d : Draft) : Projection where
  flat := c.flat
  shortName := Name.short c.name
  bindingNamespace := c.rules.dialect.bindingNamespace
  hasConstructor := d.constructor.isSome
  methods := d.methods

/-- The glue of an interface whose members are all in the draft. -/
def Draft.finish (c : Context) (d : Draft) : InterfaceGlue where
  flatName := c.flat
  items := d.functions.map .function ++ [.registration (d.registration c)] ++
    (d.constructor.map fun pending => Item.function pending.function).toList ++
    [.projection (d.projection c)]
  properties := d.properties
  methods := d.methods
  hasConstructor := d.constructor.isSome

/-- What is told of a finished interface. -/
def Draft.summary (c : Context) (d : Draft) : Event :=
  .interfaceGenerated c.name d.methods.length d.properties.length
    (d.constructor.map PendingConstructor.paramCount)

/-- The glue of an interface. -/
def interfaceGlue (rules : Rules) (i : Interface) : Logged InterfaceGlue := do
  let context : Context := { name := i.name, rules }
  let draft ← i.members.foldlM (Draft.accept context) Draft.empty
  Logged.tell (draft.summary context)
  return draft.finish context

end IdlGlue.Glue
