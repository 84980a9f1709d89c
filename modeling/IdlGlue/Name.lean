/-
# IdlGlue.Name -- qualified names and what is made of them

A qualified name is word characters and colons, such as `Game::World`. Its flat form
drops every pair of colons and keys all generated symbols; its short form is the part
behind the last pair of colons and is the name a script sees.

A run of colons is paired from the left when it is flattened and from the right when
the last part is taken, so an odd run keeps one colon in the flat form, on the side
of the last part.
-/

namespace IdlGlue.Name

/-- The text without its pairs of colons, paired from the left. -/
def flattenChars : List Char → List Char
  | ':' :: ':' :: cs => flattenChars cs
  | c :: cs => c :: flattenChars cs
  | [] => []

/-- What stands behind the last pair of colons, if there is a pair. -/
def lastPart? : List Char → Option (List Char)
  | [] => none
  | c :: cs =>
    match lastPart? cs with
    | some part => some part
    | none =>
      match c, cs with
      | ':', ':' :: part => some part
      | _, _ => none

/-- What stands behind the last pair of colons, or the whole text. -/
def shortChars (cs : List Char) : List Char := (lastPart? cs).getD cs

/-- The symbol key of a qualified name. -/
def flatten (qualified : String) : String := String.ofList (flattenChars qualified.toList)

/-- The script name of a qualified name. -/
def short (qualified : String) : String := String.ofList (shortChars qualified.toList)

end IdlGlue.Name
