/-
# IdlGlue.Scan.Step -- the steps from which statements are read

A step takes the text that is left and gives the text behind what it has read. The
text left behind is always a suffix of the text given, and `Recognizer` is a reader
of whole statements that, moreover, leaves less than it was given: this is what lets
every loop over statements end by the length of the text.

`consumed` gives the piece that was read back from the two ends of a step.
-/
import IdlGlue.Text.Split

namespace IdlGlue.Scan

open IdlGlue.Text

/-- What was read between `cs` and its suffix `rest`. -/
def consumed (cs rest : List Char) : List Char := cs.take (cs.length - rest.length)

/-- The text behind the word `w`, when the text begins with it. -/
def literal? (w : String) (cs : List Char) : Option (List Char) := dropStart? w.toList cs

/-- The text behind a run of white space, which may be empty. -/
def afterBlanks (cs : List Char) : List Char := cs.dropWhile isBlank

/-- The text behind a run of white space of at least one character. -/
def afterSpace? : List Char → Option (List Char)
  | [] => none
  | c :: cs => if isBlank c then some (afterBlanks cs) else none

/-- A maximal run of the class `p`, of at least one character, and the text behind. -/
def run? (p : Char → Bool) (cs : List Char) : Option (List Char × List Char) :=
  match cs.takeWhile p with
  | [] => none
  | c :: w => some (c :: w, cs.dropWhile p)

/-- A qualified name and the text behind it. -/
def name? (cs : List Char) : Option (List Char × List Char) := run? isNamePart cs

/-- A plain word and the text behind it. -/
def word? (cs : List Char) : Option (List Char × List Char) := run? isWord cs

/-! ## What a step leaves is a suffix -/

theorem consumed_append {cs rest : List Char} (h : rest <:+ cs) :
    consumed cs rest ++ rest = cs := by
  obtain ⟨piece, rfl⟩ := h
  simp [consumed]

@[simp] theorem consumed_append_left (piece rest : List Char) :
    consumed (piece ++ rest) rest = piece := by
  simp [consumed]

theorem dropStart?_eq_some_iff {w cs rest : List Char} :
    dropStart? w cs = some rest ↔ cs = w ++ rest := by
  induction w generalizing cs with
  | nil => simp [dropStart?, eq_comm]
  | cons x w ih =>
      cases cs with
      | nil => simp [dropStart?]
      | cons c cs =>
          by_cases hx : x = c
          · simp [dropStart?, hx, ih]
          · have hc : ¬ c = x := fun h => hx h.symm
            simp [dropStart?, hx, hc]

theorem literal?_eq_some_iff {w : String} {cs rest : List Char} :
    literal? w cs = some rest ↔ cs = w.toList ++ rest :=
  dropStart?_eq_some_iff

theorem literal?_suffix {w : String} {cs rest : List Char} (h : literal? w cs = some rest) :
    rest <:+ cs :=
  ⟨w.toList, (literal?_eq_some_iff.mp h).symm⟩

theorem afterBlanks_suffix (cs : List Char) : afterBlanks cs <:+ cs :=
  List.dropWhile_suffix _

theorem afterSpace?_suffix {cs rest : List Char} (h : afterSpace? cs = some rest) :
    rest <:+ cs := by
  cases cs with
  | nil => simp [afterSpace?] at h
  | cons c cs =>
      simp only [afterSpace?] at h
      split at h
      · cases h
        exact (afterBlanks_suffix cs).trans (List.suffix_cons c cs)
      · cases h

theorem run?_eq_some_iff {p : Char → Bool} {cs w rest : List Char} :
    run? p cs = some (w, rest) ↔
      w ≠ [] ∧ cs.takeWhile p = w ∧ cs.dropWhile p = rest := by
  unfold run?
  split
  · next h =>
      rw [h]
      exact ⟨(nomatch ·), fun ⟨hne, hw, _⟩ => absurd hw.symm hne⟩
  · next c w' h =>
      rw [h]
      constructor
      · intro h'
        cases h'
        exact ⟨List.cons_ne_nil _ _, rfl, rfl⟩
      · rintro ⟨_, rfl, rfl⟩
        rfl

theorem run?_append {p : Char → Bool} {cs w rest : List Char} (h : run? p cs = some (w, rest)) :
    cs = w ++ rest := by
  obtain ⟨_, rfl, rfl⟩ := run?_eq_some_iff.mp h
  exact List.takeWhile_append_dropWhile.symm

theorem run?_suffix {p : Char → Bool} {cs w rest : List Char} (h : run? p cs = some (w, rest)) :
    rest <:+ cs :=
  ⟨w, (run?_append h).symm⟩

/-! ## Readers of whole statements -/

/-- A reader of one kind of statement, at the start of a text. What it reads is never
empty, and it leaves the text behind it. -/
structure Recognizer (α : Type) where
  read : List Char → Option (α × List Char)
  advances : ∀ {cs a rest}, read cs = some (a, rest) → ∃ piece, piece ≠ [] ∧ cs = piece ++ rest

namespace Recognizer

variable {α β : Type}

theorem suffix (r : Recognizer α) {cs rest : List Char} {a : α}
    (h : r.read cs = some (a, rest)) : rest <:+ cs := by
  obtain ⟨piece, _, rfl⟩ := r.advances h
  exact List.suffix_append piece rest

theorem length_lt (r : Recognizer α) {cs rest : List Char} {a : α}
    (h : r.read cs = some (a, rest)) : rest.length < cs.length := by
  obtain ⟨piece, hne, rfl⟩ := r.advances h
  have := List.length_pos_iff.mpr hne
  simp only [List.length_append]
  omega

/-- The reader of the same statements that gives them in another form. -/
def map (f : α → β) (r : Recognizer α) : Recognizer β where
  read cs := (r.read cs).map fun m => (f m.1, m.2)
  advances h := by
    obtain ⟨m, hm, hf⟩ := Option.map_eq_some_iff.mp h
    cases hf
    exact r.advances hm

/-- The reader that tries `r`, and `s` where `r` reads nothing. -/
def orElse (r s : Recognizer α) : Recognizer α where
  read cs := (r.read cs).or (s.read cs)
  advances h := by
    rcases Option.or_eq_some_iff.mp h with h | ⟨_, h⟩
    · exact r.advances h
    · exact s.advances h

end Recognizer

/-- A step that leaves a suffix of the text behind a word reads at least that word. -/
theorem advances_of_literal? {w : String} {cs mid rest : List Char} (hw : w.toList ≠ [])
    (h : literal? w cs = some mid) (hrest : rest <:+ mid) :
    ∃ piece, piece ≠ [] ∧ cs = piece ++ rest := by
  obtain ⟨tail, rfl⟩ := hrest
  refine ⟨w.toList ++ tail, by simp [hw], ?_⟩
  rw [literal?_eq_some_iff.mp h, List.append_assoc]

theorem run?_length_lt {p : Char → Bool} {cs w rest : List Char}
    (h : run? p cs = some (w, rest)) : rest.length < cs.length := by
  have := List.length_pos_iff.mpr (run?_eq_some_iff.mp h).1
  rw [run?_append h, List.length_append]
  omega

end IdlGlue.Scan
