/-
# IdlGlue.Scan.Gap -- white space and comments between statements

A gap is any run of white space, line comments and closed block comments. A line
comment ends before its newline or at the end of the text; a block comment ends at
the first `*/` behind its opening, so the three characters of `/*/` do not close it.
A block comment that is never closed is no part of a gap: it is left in place, and
whoever reads on will find no statement there.
-/
import IdlGlue.Scan.Step

namespace IdlGlue.Scan

open IdlGlue.Text

/-- The text behind a line comment: from its newline on. -/
def afterLineComment? (cs : List Char) : Option (List Char) :=
  (literal? "//" cs).map fun rest => rest.dropWhile (· != '\n')

/-- The text behind the first end mark of a block comment. -/
def afterCommentEnd? : List Char → Option (List Char)
  | [] => none
  | '*' :: '/' :: cs => some cs
  | _ :: cs => afterCommentEnd? cs

/-- The text behind a closed block comment. -/
def afterBlockComment? (cs : List Char) : Option (List Char) :=
  (literal? "/*" cs).bind afterCommentEnd?

/-- The text behind a comment of either kind. -/
def afterComment? (cs : List Char) : Option (List Char) :=
  (afterLineComment? cs).or (afterBlockComment? cs)

theorem afterCommentEnd?_suffix {cs rest : List Char} (h : afterCommentEnd? cs = some rest) :
    rest <:+ cs := by
  fun_induction afterCommentEnd? cs with
  | case1 => cases h
  | case2 cs => cases h; exact ⟨['*', '/'], rfl⟩
  | case3 c cs _ ih => exact (ih h).trans (List.suffix_cons c cs)

theorem afterLineComment?_length_lt {cs rest : List Char} (h : afterLineComment? cs = some rest) :
    rest <:+ cs ∧ rest.length < cs.length := by
  obtain ⟨mid, hmid, rfl⟩ := Option.map_eq_some_iff.mp h
  have hs := (List.dropWhile_suffix (· != '\n') : mid.dropWhile (· != '\n') <:+ mid)
  have heq := literal?_eq_some_iff.mp hmid
  refine ⟨hs.trans (literal?_suffix hmid), ?_⟩
  have := hs.length_le
  rw [heq]
  simp
  omega

theorem afterBlockComment?_length_lt {cs rest : List Char}
    (h : afterBlockComment? cs = some rest) : rest <:+ cs ∧ rest.length < cs.length := by
  obtain ⟨mid, hmid, hrest⟩ := Option.bind_eq_some_iff.mp h
  have hs := afterCommentEnd?_suffix hrest
  have heq := literal?_eq_some_iff.mp hmid
  refine ⟨hs.trans (literal?_suffix hmid), ?_⟩
  have := hs.length_le
  rw [heq]
  simp
  omega

theorem afterComment?_length_lt {cs rest : List Char} (h : afterComment? cs = some rest) :
    rest <:+ cs ∧ rest.length < cs.length := by
  rcases Option.or_eq_some_iff.mp h with h | ⟨_, h⟩
  · exact afterLineComment?_length_lt h
  · exact afterBlockComment?_length_lt h

/-- The text behind the longest gap at its start. -/
def afterGap (cs : List Char) : List Char :=
  match _h : afterComment? (afterBlanks cs) with
  | none => afterBlanks cs
  | some rest => afterGap rest
termination_by cs.length
decreasing_by
  have h1 := (afterComment?_length_lt _h).2
  have h2 := (afterBlanks_suffix cs).length_le
  omega

theorem afterGap_of_none {cs : List Char} (h : afterComment? (afterBlanks cs) = none) :
    afterGap cs = afterBlanks cs := by
  rw [afterGap]
  split
  · rfl
  · next rest h' => rw [h] at h'; cases h'

theorem afterGap_of_some {cs rest : List Char} (h : afterComment? (afterBlanks cs) = some rest) :
    afterGap cs = afterGap rest := by
  rw [afterGap]
  split
  · next h' => rw [h] at h'; cases h'
  · next rest' h' => rw [h] at h'; cases h'; rfl

theorem afterGap_suffix (cs : List Char) : afterGap cs <:+ cs := by
  fun_induction afterGap cs with
  | case1 cs => exact afterBlanks_suffix cs
  | case2 cs rest h ih =>
      exact ih.trans ((afterComment?_length_lt h).1.trans (afterBlanks_suffix cs))

/-! ## Statements with gaps between them -/

namespace Recognizer

variable {α : Type}

/-- All statements of one kind that follow each other with gaps between, and the text
behind the gap after the last of them. The text given begins behind a gap. -/
def readAll (r : Recognizer α) (cs : List Char) : List α × List Char :=
  match _h : r.read cs with
  | none => ([], cs)
  | some (a, rest) =>
    let (others, last) := r.readAll (afterGap rest)
    (a :: others, last)
termination_by cs.length
decreasing_by
  have h1 := r.length_lt _h
  have h2 := (afterGap_suffix rest).length_le
  omega

theorem readAll_of_none (r : Recognizer α) {cs : List Char} (h : r.read cs = none) :
    r.readAll cs = ([], cs) := by
  rw [readAll]
  split
  · rfl
  · next a rest h' => rw [h] at h'; cases h'

theorem readAll_of_some (r : Recognizer α) {cs rest : List Char} {a : α}
    (h : r.read cs = some (a, rest)) :
    r.readAll cs = (a :: (r.readAll (afterGap rest)).1, (r.readAll (afterGap rest)).2) := by
  rw [readAll]
  split
  · next h' => rw [h] at h'; cases h'
  · next a' rest' h' => rw [h] at h'; cases h'; rfl

end Recognizer

end IdlGlue.Scan
