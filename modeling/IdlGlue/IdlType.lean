/-
# IdlGlue.IdlType -- the types of the interface language

Five primitive types, `void`, native classes by pointer or by reference, and
`anyof<Set>`, a native object whose class is known only when the program runs.
`ofToken` reads a type as it is written and `spelling` writes it; what counts as a
class name is everything that is not one of the other forms.
-/
import IdlGlue.Text.Split

namespace IdlGlue

open IdlGlue.Text

/-- The primitive types. `long` is recognised so that it can be refused: there is no
rule that carries it between script and native code. -/
inductive Primitive where
  | int
  | float
  | double
  | string
  | long
deriving DecidableEq, Repr

/-- The keyword of a primitive type. -/
def Primitive.keyword : Primitive → String
  | .int => "int"
  | .float => "float"
  | .double => "double"
  | .string => "string"
  | .long => "long"

/-- The primitive type of a keyword. -/
def Primitive.ofKeyword? : String → Option Primitive
  | "int" => some .int
  | "float" => some .float
  | "double" => some .double
  | "string" => some .string
  | "long" => some .long
  | _ => none

@[simp] theorem Primitive.ofKeyword?_keyword (p : Primitive) :
    Primitive.ofKeyword? p.keyword = some p := by
  cases p <;> rfl

/-- A type of the interface language. -/
inductive IdlType where
  /-- No value; for results only. -/
  | void
  | primitive (kind : Primitive)
  /-- A native class, handed around by pointer. -/
  | object (name : String)
  /-- A native class handed out by reference; for results only. -/
  | reference (name : String)
  /-- A native object of one of a set of classes; for results only. -/
  | anyOf (set : String)
deriving DecidableEq, Repr

namespace IdlType

/-- The text as it is written in the interface language. -/
def spelling : IdlType → String
  | .void => "void"
  | .primitive kind => kind.keyword
  | .object name => name
  | .reference name => name ++ "&"
  | .anyOf set => "anyof<" ++ set ++ ">"

/-- The set named in a token of the form `anyof<Set>`. -/
def anyOfSet? (token : List Char) : Option (List Char) :=
  (dropStart? "anyof<".toList token).bind (dropSuffix? '>')

/-- The type that a token stands for; white space around the token, around the set in
`anyof<Set>` and before a final `&` does not count. -/
def ofToken (token : String) : IdlType :=
  let cs := trim token.toList
  match anyOfSet? cs with
  | some set => .anyOf (String.ofList (trim set))
  | none =>
    match dropSuffix? '&' cs with
    | some name => .reference (String.ofList (trimEnd name))
    | none =>
      let word := String.ofList cs
      if word = "void" then .void
      else
        match Primitive.ofKeyword? word with
        | some kind => .primitive kind
        | none => .object word

/-- The native class behind a type whose values are wrapped with a fixed prototype. -/
def className? : IdlType → Option String
  | .object name => some name
  | .reference name => some name
  | _ => none

end IdlType

end IdlGlue
