/-
# IdlGlue.Text.Quoted -- a name in double quotes

The form in which a log line shows the name of an interface. Names are made of word
characters and colons, so no quote, backslash or control character can occur; the
only characters that need care are the hidden ones, which are spelled by number.
-/
import IdlGlue.Text.Harmless
import IdlGlue.Text.HiddenRanges

namespace IdlGlue.Text

/-- One character inside quotes: a hidden one by its number, a quote or a backslash
behind a backslash, all else as it is. -/
def quotedChar (c : Char) : List Char :=
  if inRanges c.toNat hiddenRanges then byNumber c
  else if c = '"' || c = '\\' then ['\\', c]
  else [c]

/-- The name between double quotes. -/
def quoted (name : String) : String :=
  String.ofList (['"'] ++ name.toList.flatMap quotedChar ++ ['"'])

end IdlGlue.Text
