/-
# IdlGlue.Proofs.GapLoop -- the gap at the start of a text, measured in bytes

`afterGap` gives the text behind the longest gap. A cursor does not hold a text but a place
in it, so it asks for the length of the gap: a loop over places, which in each round

    cuts the text at the place           trims the white space and counts what was trimmed
    `//`          goes on from the newline, or from the end of the text
    `/*`          goes on from behind the first `*/`, or ends here if there is none
    otherwise     ends here

All of that is counted in bytes, while characters have one to four of them. The loop gets
stuck where a sum is off by a byte and the place lies inside a character; it would go round
for ever where the sum is zero. Neither happens in any text, and what it ends with is the
size of the piece that `afterGap` passes over (`gapRound_ends`). The longest gap is then told
without the loop and without the scanner (`LongestGap`).
-/
import IdlGlue.Proofs.Leftover
import IdlGlue.Proofs.Offsets
import IdlGlue.Proofs.Rounds

namespace IdlGlue.Scan

open IdlGlue.Text

variable {cs inner rest : List Char}

/-! ## The loop -/

/-- What the loop does at the place `pos` with the text that stands there, behind the white
space. -/
def gapStep (pos : Nat) (trimmed : List Char) : Round Nat Nat :=
  if (literal? "//" trimmed).isSome then
    .next (pos + (findWord? ['\n'] trimmed).getD (byteSize trimmed))
  else
    match literal? "/*" trimmed with
    | none => .done pos
    | some comment =>
      match findWord? ['*', '/'] comment with
      | none => .done pos
      | some stop => .next (pos + (stop + 4))

/-- A round of the loop that measures the gap: the place it has come to is `pos`. -/
def gapRound (text : List Char) (pos : Nat) : Option (Round Nat Nat) :=
  (sliceFrom? text pos).map fun rest =>
    gapStep (pos + (byteSize rest - byteSize (trimStart rest))) (trimStart rest)

/-- The size of the gap at the start of the text. -/
def gapSize (cs : List Char) : Nat := byteSize (consumed cs (afterGap cs))

theorem gapSize_of_afterGap (h : afterGap cs = cs) : gapSize cs = 0 := by
  have hnone : consumed cs cs = [] := consumed_append_left [] cs
  rw [gapSize, h, hnone, byteSize_nil]

/-- Behind the gap the cursor stands where the scanner does. -/
theorem sliceFrom?_gapSize (cs : List Char) : sliceFrom? cs (gapSize cs) = some (afterGap cs) :=
  sliceFrom?_eq_some_iff.mpr ⟨_, (consumed_append (afterGap_suffix cs)).symm, rfl⟩

/-! ## The searches find the ends of comments -/

theorem afterLineComment?_of_literal? (h : literal? "//" cs = some inner) :
    afterLineComment? cs = some (cs.dropWhile (· != '\n')) := by
  rw [afterLineComment?, h, literal?_eq_some_iff.mp h]
  rfl

/-- The search for the end mark finds the one at which the scanner stops. -/
theorem findWord?_commentEnd (h : afterCommentEnd? cs = some rest) :
    ∃ body, cs = body ++ '*' :: '/' :: rest ∧ findWord? ['*', '/'] cs = some (byteSize body) := by
  fun_induction afterCommentEnd? cs with
  | case1 => cases h
  | case2 cs =>
      cases h
      exact ⟨[], rfl, rfl⟩
  | case3 c cs hc ih =>
      obtain ⟨body, hcs, hfind⟩ := ih h
      refine ⟨c :: body, by rw [hcs]; rfl, ?_⟩
      have hstart : ¬ ['*', '/'].isPrefixOf (c :: cs) := by
        rw [List.isPrefixOf_iff_prefix]
        rintro ⟨tail, htail⟩
        cases htail
        exact hc tail rfl rfl
      rw [findWord?, if_neg hstart, hfind]
      rfl

theorem afterCommentEnd?_eq_none_iff : afterCommentEnd? cs = none ↔ ¬ ['*', '/'] <:+: cs := by
  fun_induction afterCommentEnd? cs with
  | case1 => simp
  | case2 cs => simpa using ⟨[], cs, rfl⟩
  | case3 c cs hc ih =>
      have hstart : ¬ ['*', '/'] <+: c :: cs := by
        rintro ⟨tail, htail⟩
        cases htail
        exact hc tail rfl rfl
      rw [ih, List.infix_cons_iff, not_or, and_iff_right hstart]

/-! ## One round -/

/-- Behind a comment the loop goes round again. -/
theorem gapStep_of_comment (h : Comment cs rest) (pos : Nat) :
    ∃ comment, cs = comment ++ rest ∧ gapStep pos cs = .next (pos + byteSize comment) := by
  cases h with
  | @line body _ hbody hrest =>
      refine ⟨'/' :: '/' :: body, rfl, ?_⟩
      have hopens : (literal? "//" ('/' :: '/' :: (body ++ rest))).isSome := rfl
      have hline : AllIn (· != '\n') ('/' :: '/' :: body) := by
        intro c hc
        simp only [bne_iff_ne, ne_eq]
        rintro rfl
        simp [hbody] at hc
      have hstops : StopsAt (· != '\n') rest := by
        intro c hc
        simpa using hrest c hc
      rw [gapStep, if_pos hopens, findWord?_singleton, ← List.cons_append, ← List.cons_append,
        takeWhile_eq_of_stopsAt hline hstops]
  | @block body _ hbody =>
      refine ⟨'/' :: '*' :: (body ++ ['*', '/']), by simp, ?_⟩
      have hopens : literal? "/*" ('/' :: '*' :: (body ++ '*' :: '/' :: rest)) =
          some (body ++ '*' :: '/' :: rest) := literal?_eq_some_iff.mpr rfl
      have hline : ¬ (literal? "//" ('/' :: '*' :: (body ++ '*' :: '/' :: rest))).isSome :=
        Bool.false_ne_true
      have hend : afterCommentEnd? (body ++ '*' :: '/' :: rest) = some rest :=
        afterCommentEnd?_eq_some_iff.mpr ⟨body, hbody, rfl⟩
      obtain ⟨body', hbody', hfind⟩ := findWord?_commentEnd hend
      obtain rfl := List.append_cancel_right hbody'
      have hmarks : byteSize ('/' :: '*' :: (body ++ ['*', '/'])) = byteSize body + 4 := by
        have hsizes : '/'.utf8Size = 1 ∧ '*'.utf8Size = 1 := by decide
        simp only [byteSize_cons, byteSize_append, byteSize_nil, hsizes]
        omega
      rw [gapStep, if_neg hline, hopens, hmarks]
      simp only [hfind]

/-- The loop ends where no comment begins. -/
theorem gapStep_of_none (h : afterComment? cs = none) (pos : Nat) : gapStep pos cs = .done pos := by
  obtain ⟨hline, hblock⟩ := Option.or_eq_none_iff.mp h
  have hnoLine : literal? "//" cs = none := Option.map_eq_none_iff.mp hline
  rw [gapStep, hnoLine, Option.isSome_none, if_neg Bool.false_ne_true]
  cases hopens : literal? "/*" cs with
  | none => rfl
  | some inner =>
      rw [afterBlockComment?, hopens] at hblock
      have hinner : findWord? ['*', '/'] inner = none :=
        findWord?_eq_none_iff.mpr (afterCommentEnd?_eq_none_iff.mp hblock)
      simp only [hinner]

/-- A round trims the white space at its place, and goes on by what stands behind that. -/
theorem gapRound_append (before : List Char) {blanks trimmed : List Char}
    (hblanks : AllIn isBlank blanks) (htrimmed : StopsAt isBlank trimmed) :
    gapRound (before ++ (blanks ++ trimmed)) (byteSize before) =
      some (gapStep (byteSize (before ++ blanks)) trimmed) := by
  have htrim : trimStart (blanks ++ trimmed) = trimmed := dropWhile_eq_of_stopsAt hblanks htrimmed
  have hcount : byteSize (blanks ++ trimmed) - byteSize trimmed = byteSize blanks := by
    rw [byteSize_append, Nat.add_sub_cancel]
  rw [gapRound, sliceFrom?_append, Option.map_some, htrim, hcount, byteSize_append]

/-! ## The whole loop -/

/-- From the start of the text the loop comes to an end, and with the size of the gap. -/
theorem gapRound_ends (cs : List Char) : Ends (gapRound cs) (cs.length + 1) 0 (gapSize cs) := by
  -- What is left of the text gets less, and the gap in it ends always at the same place.
  refine Ends.of_decreasing (P := fun k pos a => ∃ before left, cs = before ++ left ∧
    pos = byteSize before ∧ k = left.length ∧ a = byteSize (consumed cs (afterGap left))) ?_
    ⟨[], cs, rfl, rfl, rfl, rfl⟩
  rintro k pos a ⟨before, left, rfl, rfl, rfl, rfl⟩
  obtain ⟨blanks, hblanks, hstops, hleft⟩ := afterBlanks_eq_iff.mp (rfl : afterBlanks left = _)
  have hround := gapRound_append before hblanks hstops
  rw [← hleft] at hround
  cases h : afterComment? (afterBlanks left) with
  | none =>
      refine Or.inl ?_
      rw [hround, gapStep_of_none h, afterGap_of_none h]
      generalize afterBlanks left = trimmed at hleft
      rw [hleft, ← List.append_assoc, consumed_append_left]
  | some rest =>
      obtain ⟨comment, hcomment, hstep⟩ := gapStep_of_comment (afterComment?_eq_some_iff.mp h)
        (byteSize (before ++ blanks))
      have hlt := (afterComment?_length_lt h).2
      have hle := (afterBlanks_suffix left).length_le
      refine Or.inr ⟨rest.length, _, hround.trans (congrArg some hstep), by omega,
        before ++ blanks ++ comment, rest, ?_, (byteSize_append _ _).symm, rfl, ?_⟩
      · rw [List.append_assoc, List.append_assoc, ← hcomment, ← hleft]
      · rw [afterGap_of_some h]

/-! ## The longest gap -/

/-- Of the text, `piece` is the longest gap at its start, and `rest` stands behind it. -/
structure LongestGap (cs piece rest : List Char) : Prop where
  text : cs = piece ++ rest
  /-- It is white space and comments, and nothing else. -/
  gap : Gap cs rest
  /-- It covers each gap in the text, and each beginning that would be a gap if the text
  ended there. -/
  longest : ∀ p q, cs = p ++ q → Gap cs q ∨ Gap p [] → p <+: piece
  /-- It is at the end of the text or in front of a character that is no white space. -/
  blank : StopsAt isBlank rest
  /-- No line comment begins behind it. -/
  line : ¬ ['/', '/'] <+: rest
  /-- Where a block comment is opened behind it, it is not closed. -/
  block : ∀ inner, rest = '/' :: '*' :: inner → ¬ ['*', '/'] <:+: inner

/-- A comment with something behind it is not ended by the end of the text. -/
theorem Comment.append (h : Comment cs rest) (hne : rest ≠ []) (z : List Char) :
    Comment (cs ++ z) (rest ++ z) := by
  cases h with
  | @line body _ hbody hrest =>
      obtain ⟨c, rest, rfl⟩ := List.exists_cons_of_ne_nil hne
      rw [List.cons_append, List.cons_append, List.append_assoc]
      exact .line hbody fun d hd => hrest d hd
  | @block body _ hbody =>
      have hcomment : Comment ('/' :: '*' :: (body ++ '*' :: '/' :: (rest ++ z))) (rest ++ z) :=
        .block hbody
      simpa using hcomment

/-- Where a comment reaches up to the end of the text, it still ends in each longer text before
what was added, or else it goes on in that. -/
theorem Comment.append_nil (h : Comment cs []) (z : List Char) :
    ∃ tail, tail <:+ z ∧ Comment (cs ++ z) tail := by
  cases h with
  | @line body _ hbody _ =>
      refine ⟨z.dropWhile (· != '\n'), List.dropWhile_suffix _, ?_⟩
      have hopens : literal? "//" ('/' :: '/' :: (body ++ [] ++ z)) = some (body ++ z) :=
        literal?_eq_some_iff.mpr (by simp)
      have hskip : (body ++ z).dropWhile (· != '\n') = z.dropWhile (· != '\n') := by
        refine List.dropWhile_append_of_pos fun c hc => ?_
        simp only [bne_iff_ne, ne_eq]
        rintro rfl
        exact hbody hc
      refine afterComment?_eq_some_iff.mp (Option.or_eq_some_iff.mpr (Or.inl ?_))
      rw [afterLineComment?, List.cons_append, List.cons_append, hopens, Option.map_some, hskip]
  | @block body _ hbody =>
      refine ⟨z, List.suffix_refl z, ?_⟩
      have hcomment : Comment ('/' :: '*' :: (body ++ '*' :: '/' :: z)) z := .block hbody
      simpa using hcomment

theorem gap_nil (h : Gap [] rest) : rest = [] := by
  cases h with
  | none => rfl
  | comment hcomment _ =>
      obtain ⟨tail, htail⟩ := hcomment.head
      cases htail

/-- What is a gap where the text ends reaches in a longer text no further than the gap there. -/
theorem Gap.afterGap_suffix (h : Gap cs rest) (z : List Char) :
    afterGap (cs ++ z) <:+ rest ++ z := by
  induction h with
  | none cs => exact Scan.afterGap_suffix (cs ++ z)
  | @blank c cs rest hc _ ih =>
      rw [List.cons_append, afterGap_cons_of_isBlank hc]
      exact ih
  | @comment cs mid rest hcomment hgap ih =>
      by_cases hmid : mid = []
      · subst hmid
        obtain rfl := gap_nil hgap
        obtain ⟨tail, htail, hlonger⟩ := hcomment.append_nil z
        rw [(Gap.comment hlonger (.none tail)).afterGap_eq]
        exact (Scan.afterGap_suffix tail).trans htail
      · rw [(Gap.comment (hcomment.append hmid z) (.none _)).afterGap_eq]
        exact ih

/-- No comment begins behind the gap. -/
theorem afterComment?_afterGap (cs : List Char) : afterComment? (afterGap cs) = none := by
  fun_induction afterGap cs with
  | case1 cs h => exact h
  | case2 cs rest _ ih => exact ih

/-- The scanner passes over the longest gap. -/
theorem longestGap_afterGap (cs : List Char) :
    LongestGap cs (consumed cs (afterGap cs)) (afterGap cs) where
  text := (consumed_append (afterGap_suffix cs)).symm
  gap := gap_afterGap cs
  longest p q hcs hgap := by
    -- The gap of the scanner ends in `q`, so it has passed over all of `p`.
    have hsuffix : afterGap cs <:+ q := by
      rcases hgap with hgap | hgap
      · rw [hgap.afterGap_eq]
        exact afterGap_suffix q
      · rw [hcs]
        exact hgap.afterGap_suffix q
    obtain ⟨more, rfl⟩ := hsuffix
    have hsame : p ++ more ++ afterGap cs = consumed cs (afterGap cs) ++ afterGap cs := by
      rw [consumed_append (afterGap_suffix cs), List.append_assoc, ← hcs]
    exact ⟨more, List.append_cancel_right hsame⟩
  blank := stopsAt_afterGap cs
  line := by
    rintro ⟨inner, hinner⟩
    have hopens : literal? "//" (afterGap cs) = some inner := literal?_eq_some_iff.mpr hinner.symm
    have hnone := (Option.or_eq_none_iff.mp (afterComment?_afterGap cs)).1
    rw [afterLineComment?_of_literal? hopens] at hnone
    cases hnone
  block inner hinner := by
    have hopens : literal? "/*" (afterGap cs) = some inner := literal?_eq_some_iff.mpr hinner
    have hnone := (Option.or_eq_none_iff.mp (afterComment?_afterGap cs)).2
    rw [afterBlockComment?, hopens] at hnone
    exact afterCommentEnd?_eq_none_iff.mp hnone

/-- **In every text the loop comes to an end, and what it ends with is the size of the longest
gap**; it gets stuck nowhere. The longest gap is white space and comments, and what stands behind
it is the end of the text, or a character that is neither white space nor the beginning of a
comment that could be passed over; so behind it the loop measures nothing. The cursor that goes on
by that size stands where the scanner does. -/
theorem gapRound_law (cs : List Char) :
    ∃ piece rest, LongestGap cs piece rest ∧ afterGap cs = rest ∧
      sliceFrom? cs (byteSize piece) = some rest ∧
      Ends (gapRound cs) (cs.length + 1) 0 (byteSize piece) ∧
      Ends (gapRound rest) (rest.length + 1) 0 0 := by
  refine ⟨_, _, longestGap_afterGap cs, rfl, sliceFrom?_gapSize cs, gapRound_ends cs, ?_⟩
  have hzero := gapSize_of_afterGap (gap_afterGap cs).afterGap_eq.symm
  have hends := gapRound_ends (afterGap cs)
  rwa [hzero] at hends

-- The three characters of `/*/` do not close the comment that the first two open.
example : gapRound "/*/".toList 0 = some (.done 0) := by decide

-- The newline behind a line comment is trimmed in the next round, and `é` has two bytes.
example : gapRound " //é\nx".toList 0 = some (.next 5) := by decide

end IdlGlue.Scan
