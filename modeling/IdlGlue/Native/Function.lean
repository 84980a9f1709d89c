/-
# IdlGlue.Native.Function -- a generated function as a whole

All generated functions that the script runtime calls share one signature; they
differ by their symbol and their body.
-/
import IdlGlue.Native.Stmt

namespace IdlGlue.Native

/-- A generated callback of the script runtime. -/
structure Function where
  symbol : Symbol
  body : List Stmt
deriving DecidableEq, Repr

namespace Function

/-- The line that every callback of the runtime begins with. -/
def signature (name : String) : String :=
  "\nJsValueRef CALLBACK " ++ name ++
    "(JsValueRef callee, bool isConstructCall, JsValueRef* arguments, " ++
    "unsigned short argumentCount, void* callbackState)\n"

/-- The function as it is written. -/
def text (f : Function) : String :=
  signature f.symbol.spelling ++ "\x7b\n" ++ bodyText f.body ++ "\x7d\n"

/-- The places of the argument array that the function reads, in order. -/
def argumentsRead (f : Function) : List Nat := f.body.flatMap Stmt.argumentsRead

/-- The locals of the function, in order of their declaration. -/
def locals (f : Function) : List String := f.body.flatMap Stmt.locals

end Function

end IdlGlue.Native
