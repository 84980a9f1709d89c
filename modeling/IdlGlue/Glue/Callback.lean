/-
# IdlGlue.Glue.Callback -- the glue of one delegate

A delegate becomes a function pointer type and a helper that casts a callback, which
the binding layer stores without a type, back to it.
-/
import IdlGlue.Rules
import IdlGlue.Logged

namespace IdlGlue.Glue

open IdlGlue.Native

/-- The signature of a callback in native spelling. -/
structure CallbackGlue where
  flatName : String
  result : String
  params : List String
deriving DecidableEq, Repr

namespace CallbackGlue

/-- The code of the delegate. -/
def code (g : CallbackGlue) : String :=
  let type := (Symbol.callback g.flatName).spelling
  "using " ++ type ++ " = " ++ g.result ++ "(*)(" ++ ", ".intercalate g.params ++ ");\n" ++
    "inline " ++ type ++ " " ++ (Symbol.callbackCast g.flatName).spelling ++
    "(void* callback)\n\x7b\n" ++
    bodyLine ("return reinterpret_cast<" ++ type ++ ">(callback);") ++ "\x7d\n"

/-- The symbols that the delegate defines. -/
def defined (g : CallbackGlue) : List Symbol :=
  [.callback g.flatName, .callbackCast g.flatName]

end CallbackGlue

/-- The glue of a delegate. -/
def callbackGlue (rules : Rules) (d : Delegate) : Logged CallbackGlue := do
  let result ← rules.signatureType d.result
  let params ← d.params.mapM fun p => rules.signatureType p.type
  Logged.tell (.delegateGenerated d.name)
  return { flatName := d.flatName, result, params }

end IdlGlue.Glue
