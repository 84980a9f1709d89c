/-
# IdlGlue.Text.Class -- the three character classes of the language

* `isBlank`: white space, the Unicode property White_Space. The zero width space
  and the byte order mark are not in it; the next line control and the no-break
  space are.
* `isWord`: word characters, of which member and parameter names are made.
* `isNamePart`: word characters and the colon, of which qualified names are made.

No blank is a word character or a colon, so a maximal run of one class ends exactly
where the other may begin. That is why statements can be read from left to right
without ever taking a decision back.
-/
import IdlGlue.Text.WordRanges

namespace IdlGlue.Text

/-- The code points of white space. -/
def blankRanges : List Range := [
  ⟨0x09, 0x0D⟩, ⟨0x20, 0x20⟩, ⟨0x85, 0x85⟩, ⟨0xA0, 0xA0⟩, ⟨0x1680, 0x1680⟩,
  ⟨0x2000, 0x200A⟩, ⟨0x2028, 0x2029⟩, ⟨0x202F, 0x202F⟩, ⟨0x205F, 0x205F⟩,
  ⟨0x3000, 0x3000⟩]

/-- White space. -/
def isBlank (c : Char) : Bool := inRanges c.toNat blankRanges

/-- A character of a member or parameter name. -/
def isWord (c : Char) : Bool := inRanges c.toNat wordRanges

/-- A character of a qualified name: a word character or a colon. -/
def isNamePart (c : Char) : Bool := isWord c || c == ':'

/-! ## The classes are disjoint -/

theorem blankRanges_ascending : ascendingFrom 0 blankRanges = true := by decide

/-- No white space code point is in the table of word characters. -/
theorem blankRanges_no_word :
    blankRanges.all (fun r => (List.range' r.first (r.last + 1 - r.first)).all
      (fun n => !inRanges n wordRanges)) = true := by
  decide +kernel

theorem isWord_eq_false_of_isBlank {c : Char} (h : isBlank c = true) : isWord c = false := by
  rw [isBlank, inRanges_eq_any blankRanges_ascending, List.any_eq_true] at h
  obtain ⟨r, hr, hc⟩ := h
  have hall := List.all_eq_true.mp blankRanges_no_word r hr
  simp only [Range.holds, Bool.and_eq_true, decide_eq_true_eq] at hc
  have := List.all_eq_true.mp hall c.toNat (by
    rw [List.mem_range'_1]
    omega)
  simpa [isWord] using this

theorem isNamePart_eq_false_of_isBlank {c : Char} (h : isBlank c = true) :
    isNamePart c = false := by
  have hc : c ≠ ':' := by
    rintro rfl
    exact absurd h (by decide)
  simp [isNamePart, isWord_eq_false_of_isBlank h, hc]

theorem isNamePart_of_isWord {c : Char} (h : isWord c = true) : isNamePart c = true := by
  simp [isNamePart, h]

end IdlGlue.Text
