/-
# IdlGlue.Rules -- how values of each type cross between script and native code

Six rules for every type: the local that holds a value, the statements that read it
from the script's arguments, the operand under which it is handed to native code, the
conversion of a native result, the statements that give a result back to the script,
and the native spelling of the type in a signature. Each rule covers the types that
may stand in its position and refuses the others; `long` has only refusals.

| type           | local | argument, operand | result | signature |
|----------------|-------|-------------------|--------|-----------|
| int ... string | yes   | yes               | yes    | yes       |
| object         | yes   | yes               | yes    | yes       |
| reference      | yes   | no                | yes    | yes       |
| anyof          | yes   | no                | yes, if the registry resolves it | yes |
| void           | no    | no                | no     | yes       |
| long           | no    | no                | no     | no        |
-/
import IdlGlue.Registry
import IdlGlue.Native.Stmt

namespace IdlGlue

open IdlGlue.Native

/-- How the native side spells what every file needs. -/
structure Dialect where
  /-- The namespace of the binding layer. -/
  bindingNamespace : String
  /-- The native string type. -/
  stringType : String
  /-- Include lines put ahead of each file's own. -/
  runtimeHeaders : List String
deriving DecidableEq, Repr

/-- The dialect that is used where none is chosen. -/
def Dialect.standard : Dialect where
  bindingNamespace := "Zmey::Chakra::Binding"
  stringType := "stl::string"
  runtimeHeaders :=
    ["#include <cassert>", "#include <ChakraCore/ChakraCore.h>",
      "#include <Zmey/Scripting/Binding.h>"]

/-- What the rules depend on beside the type: the dialect, the registry, and the
delegates of the file. -/
structure Rules where
  dialect : Dialect
  registry : Registry
  delegates : List Delegate

namespace IdlType

/-- The refusal of a type in a position. -/
def refuse {α : Type} (type : IdlType) (position : Position) : Except Fault α :=
  .error (.unsupportedType type.spelling position)

end IdlType

namespace Rules

/-- The local that holds a value of the type. -/
def storage (r : Rules) (type : IdlType) (name : String) : Except Fault Local :=
  match type with
  | .primitive .int => .ok ⟨"int", name⟩
  | .primitive .float | .primitive .double => .ok ⟨"double", name⟩
  | .primitive .string => .ok ⟨r.dialect.stringType, name⟩
  | .object className | .reference className => .ok ⟨className ++ "*", name⟩
  | .anyOf _ => .ok ⟨"void*", name⟩
  | .primitive .long | .void => type.refuse (.storage name)

/-- The wide text of a script value, as a pointer and a length beside the local. -/
def readText (name : String) (index : Nat) : List Stmt :=
  [ .declare ⟨"JsValueRef", name ++ "StringValue"⟩,
    .invoke "JsConvertValueToString" [.argument index, .address (name ++ "StringValue")],
    .declare ⟨"const wchar_t*", name ++ "WideString"⟩,
    .declare ⟨"size_t", name ++ "WideLength"⟩,
    .invoke "JsStringToPointer"
      [.value (name ++ "StringValue"), .address (name ++ "WideString"),
        .address (name ++ "WideLength")],
    .assign name "ConvertWideStringToUtf8"
      [.value (name ++ "WideString"), .value (name ++ "WideLength")] ]

/-- The statements that read place `index` of the arguments into the local. -/
def readArgument (type : IdlType) (name : String) (index : Nat) : Except Fault (List Stmt) :=
  match type with
  | .primitive .int => .ok [.invoke "JsNumberToInt" [.argument index, .address name]]
  | .primitive .float | .primitive .double =>
    .ok [.invoke "JsNumberToDouble" [.argument index, .address name]]
  | .primitive .string => .ok (readText name index)
  | .object _ => .ok [.invoke "JsGetExternalData" [.argument index, .pointerAddress name]]
  | .primitive .long | .anyOf _ | .reference _ | .void => type.refuse (.argument name)

/-- The operand under which the local is handed to native code. -/
def operand (type : IdlType) (name : String) : Except Fault Operand :=
  match type with
  | .primitive .int => .ok (.cast "int" name)
  | .primitive .float => .ok (.cast "float" name)
  | .primitive .double => .ok (.cast "double" name)
  | .primitive .string => .ok (.value name)
  | .object className => .ok (.cast (className ++ "*") name)
  | .primitive .long | .anyOf _ | .reference _ | .void => type.refuse (.argument name)

/-- The conversion of a native result to its local. -/
def conversion (type : IdlType) : Except Fault Conversion :=
  match type with
  | .primitive .int => .ok (.cast "int")
  | .primitive .float | .primitive .double => .ok (.cast "double")
  | .primitive .string => .ok .none
  | .object className => .ok (.cast (className ++ "*"))
  | .reference _ => .ok .address
  | .anyOf _ => .ok (.cast "void*")
  | .primitive .long | .void => type.refuse .result

/-- The statements that give a narrow text to the script. -/
def giveText : List Stmt :=
  [ .declare ⟨"const wchar_t*", resultName ++ "WideString"⟩,
    .declare ⟨"size_t", resultName ++ "WideLength"⟩,
    .invoke "Utf8ToWString"
      [.value resultName, .value (resultName ++ "WideString"),
        .value (resultName ++ "WideLength")],
    .invoke "JsPointerToString"
      [.value (resultName ++ "WideString"), .value (resultName ++ "WideLength"),
        .address outputName] ]

/-- The statements that wrap a native object for the script. -/
def wrapObject (name : String) (prototype : Prototype) : List Stmt :=
  [ .invoke "JsCreateExternalObject" [.value name, .null, .address outputName],
    .invoke "JsSetPrototype" [.value outputName, .prototype prototype] ]

/-- The statements that give the result local to the script. The selector is the native
expression that tells the classes of an `anyof` set apart; other types ignore it. -/
def giveResult (r : Rules) (type : IdlType) (selector : String) : Except Fault (List Stmt) :=
  match type with
  | .primitive .int =>
    .ok [.invoke "JsIntToNumber" [.value resultName, .address outputName]]
  | .primitive .float | .primitive .double =>
    .ok [.invoke "JsDoubleToNumber" [.cast "double" resultName, .address outputName]]
  | .primitive .string => .ok giveText
  | .object className | .reference className =>
    .ok (wrapObject resultName (.slot (Name.flatten className)))
  | .anyOf set => do
    let expression ← r.registry.prototype { set, selector, delegates := r.delegates }
    return wrapObject resultName (.resolved expression)
  | .primitive .long | .void => type.refuse .result

/-- The native spelling of the type in the signature of a callback. -/
def signatureType (r : Rules) (type : IdlType) : Except Fault String :=
  match type with
  | .void => .ok "void"
  | .primitive .int => .ok "int"
  | .primitive .float => .ok "float"
  | .primitive .double => .ok "double"
  | .primitive .string => .ok ("const " ++ r.dialect.stringType ++ "&")
  | .object className => .ok (className ++ "*")
  | .reference className => .ok (className ++ "&")
  | .anyOf _ => .ok "void*"
  | .primitive .long => type.refuse .signature

end Rules

end IdlGlue
