/-
# IdlGlue.Text.Split -- trimming, splitting and quoting back a piece of source text

Small total functions on lists of characters. `pieces` splits at every separator and
keeps empty pieces, so that joining the pieces gives the text back; `wordsOf` splits
at white space and keeps none.
-/
import IdlGlue.Text.Class

namespace IdlGlue.Text

/-- The text without the white space at its start. -/
def trimStart (cs : List Char) : List Char := cs.dropWhile isBlank

/-- The text without the white space at its end. -/
def trimEnd : List Char → List Char
  | [] => []
  | c :: cs =>
    match trimEnd cs with
    | [] => if isBlank c then [] else [c]
    | d :: ds => c :: d :: ds

/-- The text without the white space at both ends. -/
def trim (cs : List Char) : List Char := trimEnd (trimStart cs)

/-- The pieces between separators, empty ones included. -/
def pieces (separates : Char → Bool) : List Char → List (List Char)
  | [] => [[]]
  | c :: cs =>
    if separates c then [] :: pieces separates cs
    else
      match pieces separates cs with
      | [] => [[c]]
      | p :: ps => (c :: p) :: ps

/-- The text less a character that it ends in. -/
def dropSuffix? (suffix : Char) (cs : List Char) : Option (List Char) :=
  if cs.getLast? = some suffix then some cs.dropLast else none

/-- The lines of a text. A carriage return before the end of a line belongs to that
end. -/
def lines (cs : List Char) : List (List Char) :=
  (pieces (· == '\n') cs).map fun line => (dropSuffix? '\r' line).getD line

/-- The words of a text: its maximal runs without white space. -/
def wordsOf (cs : List Char) : List (List Char) :=
  (pieces isBlank cs).filter (fun w => !w.isEmpty)

/-- The text less a word that it begins with. -/
def dropStart? : List Char → List Char → Option (List Char)
  | [], cs => some cs
  | _ :: _, [] => none
  | w :: ws, c :: cs => if w = c then dropStart? ws cs else none

/-! ## Excerpts for diagnostics -/

/-- The longest excerpt that is quoted back whole. -/
def excerptLimit : Nat := 80

/-- The first line of the text that is not blank at its start, without the white
space around it; cut after `excerptLimit` characters, with three dots to show it. -/
def excerpt (cs : List Char) : List Char :=
  let line := trimEnd ((trimStart cs).takeWhile (· != '\n'))
  if excerptLimit < line.length then line.take excerptLimit ++ ['.', '.', '.'] else line

/-- The number of bytes of the text in UTF-8. -/
def byteSize : List Char → Nat
  | [] => 0
  | c :: cs => c.utf8Size + byteSize cs

end IdlGlue.Text
