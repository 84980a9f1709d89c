/-
# IdlGlue.Native.Stmt -- the statements of generated functions

A generated function is a callback of the script runtime: it is handed an array
`arguments`, whose place zero is the receiver, and gives back `output`. Its body is a
list of `Stmt`, one constructor for each form that occurs, and `Stmt.text` writes each
form on a line of its own. What a body does with the argument array, with locals and
with prototype slots is read off the statements by the views `argumentsRead`, `locals`
and `slots`, not off the text.
-/
import IdlGlue.Native.Symbol

namespace IdlGlue.Native

/-! ## Fixed names -/

/-- The pointer to the receiver inside a member function. -/
def receiverName : String := "ptr"

/-- The value that a function gives back to the script. -/
def outputName : String := "output"

/-- The untyped receiver inside a member function, and the new object inside a
constructor function. -/
def objectName : String := "object"

/-- The local that holds the result of a native call or field. -/
def resultName : String := "_result"

/-- The local of a declared parameter or property. -/
def localName (declared : String) : String := "_" ++ declared

/-! ## Expressions -/

/-- The prototype given to a wrapped native object. -/
inductive Prototype where
  /-- The slot of the interface with this flat name. -/
  | slot (flat : String)
  /-- An expression that finds the prototype when the program runs. -/
  | resolved (expression : String)
deriving DecidableEq, Repr

/-- The expression as it is written. -/
def Prototype.text : Prototype → String
  | .slot flat => (Symbol.prototype flat).spelling
  | .resolved expression => expression

/-- An operand of a native call. -/
inductive Operand where
  /-- A place of the argument array. -/
  | argument (index : Nat)
  | value (name : String)
  | address (name : String)
  /-- The address of a pointer, for a callee that fills in any kind of pointer. -/
  | pointerAddress (name : String)
  | cast (type name : String)
  | null
  | prototype (source : Prototype)
deriving DecidableEq, Repr

/-- The operand as it is written. -/
def Operand.text : Operand → String
  | .argument index => "arguments[" ++ toString index ++ "]"
  | .value name => name
  | .address name => "&" ++ name
  | .pointerAddress name => "reinterpret_cast<void**>(&" ++ name ++ ")"
  | .cast type name => "(" ++ type ++ ")" ++ name
  | .null => "nullptr"
  | .prototype source => source.text

/-- Operands between the parentheses of a call. -/
def operandList (operands : List Operand) : String :=
  ", ".intercalate (operands.map Operand.text)

/-- What native code is asked for. -/
inductive Access where
  /-- A method of the receiver. -/
  | call (member : String) (operands : List Operand)
  /-- A field of the receiver. -/
  | field (member : String)
  /-- Any other native expression. -/
  | other (expression : String)
deriving DecidableEq, Repr

/-- The expression as it is written. -/
def Access.text : Access → String
  | .call member operands => receiverName ++ "->" ++ member ++ "(" ++ operandList operands ++ ")"
  | .field member => receiverName ++ "->" ++ member
  | .other expression => expression

/-- How a native result is turned into the type of its local. -/
inductive Conversion where
  | none
  | cast (type : String)
  | address
deriving DecidableEq, Repr

/-- A native expression behind its conversion. -/
def Conversion.apply (c : Conversion) (expression : String) : String :=
  match c with
  | .none => expression
  | .cast type => "(" ++ type ++ ")" ++ expression
  | .address => "&" ++ expression

/-- A local and its native type. -/
structure Local where
  type : String
  name : String
deriving DecidableEq, Repr

/-- The declaration as it is written. -/
def Local.text (l : Local) : String := l.type ++ " " ++ l.name ++ ";"

/-! ## Statements -/

/-- A statement of a generated function. -/
inductive Stmt where
  /-- The script called with `count` arguments, as a constructor or not. -/
  | expectCall (construct : Bool) (count : Nat)
  /-- The value to give back, invalid at first. -/
  | openOutput
  | declare (decl : Local)
  /-- Give up when place zero of the arguments is no wrapped native object. -/
  | checkReceiver
  /-- The receiver as a pointer to its class. -/
  | castReceiver (type : String)
  | invoke (callee : String) (operands : List Operand)
  /-- Store what a helper gives back into a local. -/
  | assign (target callee : String) (operands : List Operand)
  /-- Ask native code, and store what it gives. -/
  | store (target : String) (conversion : Conversion) (source : Access)
  /-- Ask native code for no value. -/
  | perform (source : Access)
  /-- Write a field of the receiver. -/
  | writeField (member : String) (value : Operand)
  /-- A new native object. -/
  | create (type : String) (operands : List Operand)
  | returnOutput
deriving DecidableEq, Repr

/-- A line of a function body. -/
def bodyLine (text : String) : String := "\t" ++ text ++ "\n"

/-- The statement as it is written. -/
def Stmt.text : Stmt → String
  | .expectCall construct count =>
    bodyLine ("assert(" ++ (if construct then "" else "!") ++
      "isConstructCall && argumentCount == " ++ toString count ++ ");")
  | .openOutput => bodyLine ("JsValueRef " ++ outputName ++ " = JS_INVALID_REFERENCE;")
  | .declare decl => bodyLine decl.text
  | .checkReceiver =>
    bodyLine ("if (JsGetExternalData(" ++ (Operand.argument 0).text ++ ", &" ++ objectName ++
      ") != JsNoError)") ++
    bodyLine "\x7b" ++
    bodyLine ("\treturn " ++ outputName ++ ";") ++
    bodyLine "\x7d"
  | .castReceiver type =>
    bodyLine (type ++ "* " ++ receiverName ++ " = static_cast<" ++ type ++ "*>(" ++
      objectName ++ ");")
  | .invoke callee operands => bodyLine (callee ++ "(" ++ operandList operands ++ ");")
  | .assign target callee operands =>
    bodyLine (target ++ " = " ++ callee ++ "(" ++ operandList operands ++ ");")
  | .store target conversion source =>
    bodyLine (target ++ " = " ++ conversion.apply source.text ++ ";")
  | .perform source => bodyLine (source.text ++ ";")
  | .writeField member value =>
    bodyLine ((Access.field member).text ++ " = " ++ value.text ++ ";")
  | .create type operands =>
    bodyLine (type ++ "* " ++ objectName ++ " = new " ++ type ++ "(" ++ operandList operands ++
      ");")
  | .returnOutput => bodyLine ("return " ++ outputName ++ ";")

/-- A body as it is written. -/
def bodyText (body : List Stmt) : String := String.join (body.map Stmt.text)

/-! ## Views -/

/-- The places of the argument array among operands. -/
def argumentIndices (operands : List Operand) : List Nat :=
  operands.filterMap fun
    | .argument index => some index
    | _ => none

/-- The slots among operands. -/
def operandSlots (operands : List Operand) : List String :=
  operands.filterMap fun
    | .prototype (.slot flat) => some flat
    | _ => none

namespace Access

/-- The operands handed to native code. -/
def operands : Access → List Operand
  | .call _ operands => operands
  | .field _ | .other _ => []

end Access

namespace Stmt

/-- The operands of a statement, those of a native call included. -/
def operands : Stmt → List Operand
  | .invoke _ operands | .assign _ _ operands | .create _ operands => operands
  | .store _ _ source | .perform source => source.operands
  | .writeField _ value => [value]
  | .expectCall .. | .openOutput | .declare _ | .checkReceiver | .castReceiver _
  | .returnOutput => []

/-- The places of the argument array that a statement reads, in order. -/
def argumentsRead : Stmt → List Nat
  | .checkReceiver => [0]
  | s => argumentIndices s.operands

/-- The locals that a statement brings in. -/
def locals : Stmt → List String
  | .openOutput => [outputName]
  | .declare decl => [decl.name]
  | .castReceiver _ => [receiverName]
  | .create _ _ => [objectName]
  | _ => []

/-- The flat names of the prototype slots that a statement mentions. -/
def slots (s : Stmt) : List String := operandSlots s.operands

end Stmt

end IdlGlue.Native
