/-
# IdlGlue.Registry -- which prototype an `anyof` value gets

The class of an `anyof<Set>` value is known only when the program runs. A registry
gives the native expression that finds its prototype then, from the name of the set
and a native expression that tells the classes of the set apart. Any function of that
shape is a registry; two are provided.
-/
import IdlGlue.Declaration
import IdlGlue.Native.Symbol

namespace IdlGlue

/-- What a registry is asked for. -/
structure Registry.Request where
  /-- The name inside `anyof<...>`. -/
  set : String
  /-- The native expression that selects the class. -/
  selector : String
  /-- The delegates of the file that is compiled. -/
  delegates : List Delegate

/-- A way to find the prototype of an `anyof` value. -/
structure Registry where
  prototype : Registry.Request → Except Fault String

namespace Registry

/-- Looks the prototype up in a table of the binding layer, by the hash of the name of
the set and by the selector. -/
def hashed (bindingNamespace hashFunction : String) : Registry where
  prototype request := .ok (bindingNamespace ++ "::GetPrototypeOfAnyTypeSet(" ++ hashFunction ++
    "(\"" ++ request.set ++ "\"), " ++ request.selector ++ ")")

/-- Which callback resolves which set. -/
structure Callbacks where
  bindingNamespace : String
  /-- Sets and the delegates that resolve them, the latest registration first. -/
  resolvers : List (String × String)

/-- No set is resolved yet. -/
def Callbacks.empty (bindingNamespace : String) : Callbacks := { bindingNamespace, resolvers := [] }

/-- Resolve `set` by the callback registered for `delegate` from now on. -/
def Callbacks.register (c : Callbacks) (set delegate : String) : Callbacks :=
  { c with resolvers := (set, delegate) :: c.resolvers }

/-- The delegate that resolves `set`: the one registered last. -/
def Callbacks.resolver? (c : Callbacks) (set : String) : Option String := c.resolvers.lookup set

/-- The call of a registered callback with the selector. -/
def Callbacks.call (c : Callbacks) (delegate : Delegate) (selector : String) : String :=
  (Native.Symbol.callbackCast delegate.flatName).spelling ++ "(" ++ c.bindingNamespace ++
    "::GetRegisteredCallback(L\"" ++ delegate.name ++ "\"))(" ++ selector ++ ")"

/-- Calls a callback that scripts have registered, whose signature is a delegate of one
parameter in the same file. A set without such a delegate is refused. -/
def ofCallbacks (c : Callbacks) : Registry where
  prototype request :=
    let refuse (problem : ResolverProblem) : Except Fault String :=
      .error (.unsupportedType (IdlType.anyOf request.set).spelling (.registry problem))
    match c.resolver? request.set with
    | none => refuse .unregistered
    | some name =>
      match request.delegates.find? (·.name == name) with
      | none => refuse (.undeclared name)
      | some delegate =>
        if delegate.params.length = 1 then .ok (c.call delegate request.selector)
        else refuse (.wrongArity name)

end Registry

end IdlGlue
