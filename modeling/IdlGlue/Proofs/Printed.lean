/-
# IdlGlue.Proofs.Printed -- the text of generated definitions

What the generator writes of a file, piece by piece:

    include lines
    for each delegate: an empty line, the alias of its callbacks, the helper that casts to it
    namespace { slots, and for each interface functions, registration, constructor, projection }

`FileGlue.code_eq` takes the code apart at the namespace, and for each piece there is a lemma that
gives its text. What stands in a text, and how often, is read off these lemmas and not off the
functions that print it.
-/
import IdlGlue.Glue.File

namespace IdlGlue

open IdlGlue.Native

/-! ## Functions -/

/-- A function from its name on. -/
theorem Native.Function.text_eq (f : Function) :
    f.text = "\nJsValueRef CALLBACK " ++ f.symbol.spelling ++
      "(JsValueRef callee, bool isConstructCall, JsValueRef* arguments, " ++
      ("unsigned short argumentCount, void* callbackState)\n\x7b\n" ++ bodyText f.body ++
        "\x7d\n") := by
  unfold Function.text Function.signature
  simp only [String.append_assoc]
  rfl

namespace Glue

/-! ## Delegates -/

namespace CallbackGlue

/-- The line that names the type of the callbacks. -/
def aliasLine (g : CallbackGlue) : String :=
  "using " ++ g.flatName ++ "Callback = " ++ g.result ++ "(*)(" ++ ", ".intercalate g.params ++
    ");\n"

/-- The line that the helper begins with. -/
def castLine (flat : String) : String :=
  "inline " ++ flat ++ "Callback As" ++ flat ++ "(void* callback)"

/-- The helper that casts a stored callback to that type. -/
def castHelper (g : CallbackGlue) : String :=
  castLine g.flatName ++ "\n\x7b\n\treturn reinterpret_cast<" ++ g.flatName ++
    "Callback>(callback);\n\x7d\n"

/-- The code of a delegate is one alias and one helper. -/
theorem code_eq (g : CallbackGlue) : g.code = g.aliasLine ++ g.castHelper := by
  unfold code aliasLine castHelper castLine bodyLine Symbol.spelling
  apply String.toList_inj.mp
  simp

end CallbackGlue

/-! ## Registrations and projections -/

/-- A registration from its name on. -/
theorem Registration.text_eq (r : Registration) :
    r.text = "\nvoid " ++ (Symbol.registration r.flat).spelling ++ "(JsValueRef object)\n\x7b\n" ++
      (String.join (r.entries.map r.entryLine) ++ "\x7d\n") := by
  unfold Registration.text
  exact String.append_assoc ..

namespace Projection

variable (p : Projection)

/-- The table of the names of the methods. -/
def namesTable : String :=
  "const wchar_t* " ++ (Symbol.memberNames p.flat).spelling ++ "[] = \x7b" ++
    (", ".intercalate (p.methods.map wideLiteral) ++ "\x7d;\n")

/-- The table of the functions of the methods. -/
def functionsTable : String :=
  "const JsNativeFunction " ++ (Symbol.memberFunctions p.flat).spelling ++ "[] = \x7b" ++
    (addressList p.methodSymbols ++ "\x7d;\n")

/-- The record that announces the class. -/
def record : String :=
  "::AutoNativeClassProjecter " ++ (Symbol.projector p.flat).spelling ++ "(\n" ++
    (",\n".intercalate (p.arguments.map ("\t" ++ ·)) ++ "\n);\n")

theorem tables_eq :
    p.tables = if p.methods.isEmpty then "" else p.namesTable ++ p.functionsTable := by
  unfold tables namesTable functionsTable
  simp only [String.append_assoc]

theorem text_eq : p.text = "\n" ++ p.tables ++ p.bindingNamespace ++ p.record := by
  unfold text record
  simp only [String.append_assoc]

end Projection

/-! ## Files -/

namespace FileGlue

variable (g : FileGlue)

/-- The code ahead of the namespace: the include lines, and one block for each delegate. -/
def prelude : String :=
  String.join (g.headers.map (· ++ "\n")) ++
    String.join (g.callbacks.map fun c => "\n" ++ c.aliasLine ++ c.castHelper)

/-- The code inside the namespace. -/
def inside : String :=
  String.join (g.slots.map Slot.code) ++ String.join (g.interfaces.map InterfaceGlue.code)

theorem code_eq : g.code = g.prelude ++ "\nnamespace\n\x7b\n" ++ g.inside ++ "\n\x7d\n" := by
  unfold code prelude inside
  simp only [CallbackGlue.code_eq, String.append_assoc]

end FileGlue

end Glue

end IdlGlue
