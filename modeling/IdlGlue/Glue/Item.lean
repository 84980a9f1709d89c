/-
# IdlGlue.Glue.Item -- the definitions that make up the glue of an interface

Beside the functions of its members an interface has a registration function, which
puts its properties on an object, and a projection, which announces the class, its
constructor and its methods to the script runtime. Each of these says which symbols
it defines.
-/
import IdlGlue.Native.Function

namespace IdlGlue.Glue

open IdlGlue.Native

/-- A property as the registration function lists it. -/
structure PropertyEntry where
  name : String
  readonly : Bool
deriving DecidableEq, Repr

/-- The functions named for a property. -/
def PropertyEntry.accessors (flat : String) (p : PropertyEntry) : List Symbol :=
  if p.readonly then [.getter flat p.name] else [.getter flat p.name, .setter flat p.name]

/-- Names of functions, each with its address taken, between commas. -/
def addressList (symbols : List Symbol) : String :=
  ", ".intercalate (symbols.map fun s => "&" ++ s.spelling)

/-- A wide string literal. -/
def wideLiteral (text : String) : String := "L\"" ++ text ++ "\""

/-- The function that registers the properties of an interface. -/
structure Registration where
  flat : String
  bindingNamespace : String
  entries : List PropertyEntry
deriving DecidableEq, Repr

namespace Registration

/-- The line that registers one property. -/
def entryLine (r : Registration) (p : PropertyEntry) : String :=
  bodyLine (r.bindingNamespace ++ "::DefineProperty(object, " ++ wideLiteral p.name ++ ", " ++
    addressList (p.accessors r.flat) ++ ");")

/-- The function as it is written. -/
def text (r : Registration) : String :=
  "\nvoid " ++ (Symbol.registration r.flat).spelling ++ "(JsValueRef object)\n\x7b\n" ++
    String.join (r.entries.map r.entryLine) ++ "\x7d\n"

end Registration

/-- The record that announces a class to the script runtime, with the tables of its
methods where it has any. -/
structure Projection where
  flat : String
  /-- The class name that scripts see. -/
  shortName : String
  bindingNamespace : String
  hasConstructor : Bool
  methods : List String
deriving DecidableEq, Repr

namespace Projection

/-- The functions of the methods, in order. -/
def methodSymbols (p : Projection) : List Symbol := p.methods.map (.method p.flat)

/-- The constructor function, where there is one. -/
def constructorSymbol? (p : Projection) : Option Symbol :=
  if p.hasConstructor then some (.constructor p.flat) else none

/-- The tables of method names and method functions; none without methods. -/
def tables (p : Projection) : String :=
  if p.methods.isEmpty then ""
  else
    "const wchar_t* " ++ (Symbol.memberNames p.flat).spelling ++ "[] = \x7b" ++
      ", ".intercalate (p.methods.map wideLiteral) ++ "\x7d;\n" ++
    "const JsNativeFunction " ++ (Symbol.memberFunctions p.flat).spelling ++ "[] = \x7b" ++
      addressList p.methodSymbols ++ "\x7d;\n"

/-- The arguments of the record, each on a line of its own. -/
def arguments (p : Projection) : List String :=
  [ wideLiteral p.shortName,
    (p.constructorSymbol?.map fun s => "&" ++ s.spelling).getD "nullptr",
    (Symbol.prototype p.flat).spelling ] ++
  if p.methods.isEmpty then []
  else
    [ toString p.methods.length, (Symbol.memberNames p.flat).spelling,
      (Symbol.memberFunctions p.flat).spelling ]

/-- The projection as it is written. -/
def text (p : Projection) : String :=
  "\n" ++ p.tables ++ p.bindingNamespace ++ "::AutoNativeClassProjecter " ++
    (Symbol.projector p.flat).spelling ++ "(\n" ++
    ",\n".intercalate (p.arguments.map ("\t" ++ ·)) ++ "\n);\n"

/-- The symbols that the projection defines. -/
def defined (p : Projection) : List Symbol :=
  (if p.methods.isEmpty then [] else [.memberNames p.flat, .memberFunctions p.flat]) ++
    [.projector p.flat]

end Projection

/-- A definition of the glue of an interface. -/
inductive Item where
  | function (f : Function)
  | registration (r : Registration)
  | projection (p : Projection)
deriving DecidableEq, Repr

namespace Item

/-- The definition as it is written. -/
def text : Item → String
  | .function f => f.text
  | .registration r => r.text
  | .projection p => p.text

/-- The symbols that it defines. -/
def defined : Item → List Symbol
  | .function f => [f.symbol]
  | .registration r => [.registration r.flat]
  | .projection p => p.defined

end Item

end IdlGlue.Glue
