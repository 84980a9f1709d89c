/-
# IdlGlue.Native.Symbol -- the names that generated code defines

Every generated definition is named by a symbol: what kind of definition it is, the
flat name of the interface or delegate it belongs to, and for a member its name. The
native binding layer relies on the exact spellings. Two different symbols may well
have the same spelling; nothing here keeps them apart.
-/
import IdlGlue.Text.Capital

namespace IdlGlue.Native

/-- The name of a generated definition. -/
inductive Symbol where
  /-- The slot that holds an interface's prototype object. -/
  | prototype (flat : String)
  | constructor (flat : String)
  | method (flat name : String)
  | getter (flat name : String)
  | setter (flat name : String)
  /-- The function that registers an interface's properties on an object. -/
  | registration (flat : String)
  /-- The record that projects an interface into the script runtime. -/
  | projector (flat : String)
  | memberNames (flat : String)
  | memberFunctions (flat : String)
  /-- The function pointer type of a delegate. -/
  | callback (flat : String)
  /-- The helper that casts a stored callback to that type. -/
  | callbackCast (flat : String)
deriving DecidableEq, Repr

/-- The name as it stands in the generated code. -/
def Symbol.spelling : Symbol → String
  | .prototype flat => "Js" ++ flat ++ "Prototype"
  | .constructor flat => "Js" ++ flat ++ "Constructor"
  | .method flat name => "Js" ++ flat ++ name
  | .getter flat name => "Js" ++ flat ++ name ++ "Getter"
  | .setter flat name => "Js" ++ flat ++ name ++ "Setter"
  | .registration flat => "Js" ++ flat ++ "DefineProperties"
  | .projector flat => flat ++ "Projector"
  | .memberNames flat => flat ++ "MemberNames"
  | .memberFunctions flat => flat ++ "MemberFuncs"
  | .callback flat => flat ++ "Callback"
  | .callbackCast flat => "As" ++ flat

/-- The native name of a member: with a capital, unless it is taken as it is. -/
def memberName (name : String) (asIs : Bool) : String :=
  if asIs then name else String.ofList (Text.capitalize name.toList)

end IdlGlue.Native
