/-
# IdlGlue.Text.Capital -- a word with a capital at its start

The capital of a character is its full upper case mapping: one character for most
letters, two or three for a few (the sharp s gives two, the ligature `ffi` three),
and the character itself where there is no other.
-/
import IdlGlue.Text.CapitalRuns

namespace IdlGlue.Text

/-- The code point `n` is one of the run's characters. -/
def CapitalRun.holds (r : CapitalRun) (n : Nat) : Bool :=
  r.first ≤ n && n ≤ r.last && (n - r.first) % r.stride == 0

/-- The capital of one character. -/
def capitalOf (c : Char) : List Char :=
  match capitalExpansions.lookup c.toNat with
  | some points => points.map Char.ofNat
  | none =>
    match capitalRuns.find? (·.holds c.toNat) with
    | some run => [Char.ofNat (c.toNat + run.shift).toNat]
    | none => [c]

/-- The text with its first character replaced by the capital of it. -/
def capitalize : List Char → List Char
  | [] => []
  | c :: cs => capitalOf c ++ cs

end IdlGlue.Text
