/-
# IdlGlue.Text.Ranges -- membership in an ascending table of code point ranges

The character classes of this library are tables of inclusive code point ranges,
ascending and disjoint. `inRanges` reads such a table from the left and stops at
the first range that begins above the code point, so a query for a low code point
looks at a handful of entries only. Stopping early loses nothing on an ascending
table: `inRanges_eq_any` says that the early exit and the plain search agree.
-/

namespace IdlGlue.Text

/-- An inclusive range of code points. -/
structure Range where
  first : Nat
  last : Nat
deriving Repr, DecidableEq

/-- The range holds the code point `n`. -/
def Range.holds (r : Range) (n : Nat) : Bool := r.first ≤ n && n ≤ r.last

/-- Membership in an ascending table, left at the first range above `n`. -/
def inRanges (n : Nat) : List Range → Bool
  | [] => false
  | r :: rs => if n < r.first then false else n ≤ r.last || inRanges n rs

/-- The table is ascending and disjoint, and nothing in it lies below `low`. -/
def ascendingFrom (low : Nat) : List Range → Bool
  | [] => true
  | r :: rs => low ≤ r.first && r.first ≤ r.last && ascendingFrom (r.last + 1) rs

/-- Below the start of an ascending table there is no member. -/
theorem any_holds_of_lt {n low : Nat} {rs : List Range} (h : ascendingFrom low rs = true)
    (hn : n < low) : rs.any (·.holds n) = false := by
  induction rs generalizing low with
  | nil => rfl
  | cons r rs ih =>
      simp only [ascendingFrom, Bool.and_eq_true, decide_eq_true_eq] at h
      have hr : r.holds n = false := by simp [Range.holds]; omega
      simp [hr, ih h.2 (by omega)]

/-- On an ascending table the early exit changes no answer. -/
theorem inRanges_eq_any {n low : Nat} {rs : List Range} (h : ascendingFrom low rs = true) :
    inRanges n rs = rs.any (·.holds n) := by
  induction rs generalizing low with
  | nil => rfl
  | cons r rs ih =>
      simp only [ascendingFrom, Bool.and_eq_true, decide_eq_true_eq] at h
      by_cases hn : n < r.first
      · have hr : r.holds n = false := by simp [Range.holds]; omega
        have hrs := any_holds_of_lt h.2 (n := n) (by omega)
        simp [inRanges, hn, hr, hrs]
      · have hr : r.holds n = decide (n ≤ r.last) := by simp [Range.holds]; omega
        simp [inRanges, hn, hr, ih h.2]

end IdlGlue.Text
