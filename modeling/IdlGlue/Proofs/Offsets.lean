/-
# IdlGlue.Proofs.Offsets -- places in a text, counted in bytes

    byteSize p            the place behind the beginning `p` of a text
    sliceFrom? cs n       the text from the place `n` on
    findWord? w cs        the place where the word `w` stands first

A place is a number of bytes of UTF-8. Not every number is one: it has to be the size of a
beginning of the text, or else it points into the middle of a character or behind the end,
and nothing can be cut off there (`sliceFrom?_eq_some_iff`). The places at which a text can
be cut are those that the library calls valid positions of the string
(`sliceFrom?_isSome_iff`).
-/
import IdlGlue.Text.Split
import Mathlib.Data.String.Basic

namespace IdlGlue.Text

variable {cs piece rest w : List Char} {n : Nat}

/-! ## Sizes -/

@[simp] theorem byteSize_nil : byteSize [] = 0 := rfl

@[simp] theorem byteSize_cons (c : Char) (cs : List Char) :
    byteSize (c :: cs) = c.utf8Size + byteSize cs := rfl

@[simp] theorem byteSize_append (cs ds : List Char) :
    byteSize (cs ++ ds) = byteSize cs + byteSize ds := by
  induction cs with
  | nil => simp
  | cons c cs ih => simp only [List.cons_append, byteSize_cons, ih, Nat.add_assoc]

theorem byteSize_pos (h : cs ≠ []) : 0 < byteSize cs := by
  obtain ⟨c, cs, rfl⟩ := List.exists_cons_of_ne_nil h
  have := c.utf8Size_pos
  rw [byteSize_cons]
  omega

/-- The size is that of the string. -/
theorem utf8ByteSize_ofList (cs : List Char) : (String.ofList cs).utf8ByteSize = byteSize cs := by
  induction cs with
  | nil => rfl
  | cons c cs ih => simp [String.ofList_cons, ih]

/-! ## Slices -/

/-- The text from the byte `n` on; nothing where `n` lies inside a character or behind the end. -/
def sliceFrom? : List Char → Nat → Option (List Char)
  | cs, 0 => some cs
  | [], _ + 1 => none
  | c :: cs, n + 1 => if c.utf8Size ≤ n + 1 then sliceFrom? cs (n + 1 - c.utf8Size) else none

/-- Behind a beginning of the text stands the rest of it. -/
theorem sliceFrom?_append (piece rest : List Char) :
    sliceFrom? (piece ++ rest) (byteSize piece) = some rest := by
  induction piece with
  | nil => simp [sliceFrom?]
  | cons c piece ih =>
      obtain ⟨n, hn⟩ : ∃ n, byteSize (c :: piece) = n + 1 :=
        Nat.exists_eq_add_one.mpr (byteSize_pos (List.cons_ne_nil c piece))
      have hsize : c.utf8Size + byteSize piece = n + 1 := hn
      rw [hn, List.cons_append, sliceFrom?, if_pos (by omega), ← hsize, Nat.add_sub_cancel_left, ih]

/-- **A text can be cut at the sizes of its beginnings, and nowhere else.** -/
theorem sliceFrom?_eq_some_iff :
    sliceFrom? cs n = some rest ↔ ∃ piece, cs = piece ++ rest ∧ byteSize piece = n := by
  constructor
  · intro h
    fun_induction sliceFrom? cs n with
    | case1 cs =>
        cases h
        exact ⟨[], rfl, rfl⟩
    | case2 => cases h
    | case3 c cs n hle ih =>
        obtain ⟨piece, rfl, hsize⟩ := ih h
        exact ⟨c :: piece, rfl, by rw [byteSize_cons]; omega⟩
    | case4 => cases h
  · rintro ⟨piece, rfl, rfl⟩
    exact sliceFrom?_append piece rest

/-- The text can be cut where the library has a valid position of the string. -/
theorem sliceFrom?_isSome_iff :
    (sliceFrom? cs n).isSome ↔ String.Pos.Raw.IsValid (String.ofList cs) ⟨n⟩ := by
  rw [String.Pos.Raw.isValid_iff_exists_append, Option.isSome_iff_exists]
  constructor
  · rintro ⟨rest, h⟩
    obtain ⟨piece, rfl, rfl⟩ := sliceFrom?_eq_some_iff.mp h
    refine ⟨String.ofList piece, String.ofList rest, String.ofList_append, ?_⟩
    rw [String.Pos.Raw.ext_iff]
    exact (utf8ByteSize_ofList piece).symm
  · rintro ⟨s, t, hst, hn⟩
    refine ⟨t.toList, sliceFrom?_eq_some_iff.mpr ⟨s.toList, ?_, ?_⟩⟩
    · rw [← String.toList_append, ← hst, String.toList_ofList]
    · rw [← utf8ByteSize_ofList, String.ofList_toList]
      exact ((String.Pos.Raw.ext_iff.mp hn).symm : s.utf8ByteSize = n)

/-! ## Searches -/

/-- The place where the word stands in the text for the first time. -/
def findWord? (w : List Char) : List Char → Option Nat
  | [] => if w.isEmpty then some 0 else none
  | c :: cs => if w.isPrefixOf (c :: cs) then some 0 else (findWord? w cs).map (c.utf8Size + ·)

/-- A word of one character stands behind all characters that are others. -/
theorem findWord?_singleton (c : Char) (cs : List Char) :
    (findWord? [c] cs).getD (byteSize cs) = byteSize (cs.takeWhile (· != c)) := by
  induction cs with
  | nil => rfl
  | cons d cs ih =>
      by_cases hd : d = c
      · subst hd
        simp [findWord?]
      · have hcd : ¬ c = d := fun h => hd h.symm
        rw [List.takeWhile_cons_of_pos (by simpa using hd), byteSize_cons, byteSize_cons, ← ih]
        cases h : findWord? [c] cs <;> simp [findWord?, List.isPrefixOf, hcd, h]

theorem findWord?_eq_none_iff : findWord? w cs = none ↔ ¬ w <:+: cs := by
  induction cs with
  | nil => cases w <;> simp [findWord?]
  | cons c cs ih =>
      rw [List.infix_cons_iff, not_or, ← ih, ← List.isPrefixOf_iff_prefix, findWord?]
      split
      · next h => simp [h]
      · next h => simp [h]

end IdlGlue.Text
