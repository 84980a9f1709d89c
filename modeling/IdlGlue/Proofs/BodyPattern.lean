/-
# IdlGlue.Proofs.BodyPattern -- the body of a block, as a pattern and as a scan

The body of an interface block is described by a greedy repetition of three forms that
overlap: a block comment with a lazy inside, a line comment, and a single character that is
no closing brace. Both slashes of a comment are such characters too, so a matcher may
give up any comment and read on inside it. It does so only when no closing brace is
left further on.

`body?` decides this by one look ahead, and `seekBody_eq_body?` shows that it finds the
way that the matcher prefers. `FirstBrace` says which brace this is wherever the text has a
closing brace outside comments: the first one (`FirstBrace.body?_eq`).
-/
import IdlGlue.Scan.Body
import IdlGlue.Proofs.Gap
import IdlGlue.Proofs.Pattern

namespace IdlGlue.Scan

open IdlGlue.Text

/-! ## The pattern -/

/-- Anything up to an end mark, the nearest one first. -/
def commentEndPattern : Pattern := .seq (.lazyStar (.one fun _ => true)) (.word "*/")

def blockCommentPattern : Pattern := .seq (.word "/*") commentEndPattern

def lineCommentPattern : Pattern := .seq (.word "//") (.star (.one (· != '\n')))

/-- One round of the body: a comment, or a character that is no closing brace. -/
def bodyRound : Pattern :=
  .alt blockCommentPattern (.alt lineCommentPattern (.one (· != '}')))

/-- The body of a block: rounds, as many as possible. -/
def bodyPattern : Pattern := .star bodyRound

theorem advances_bodyRound : bodyRound.Advances := Pattern.advances_of_nullable (by decide)

theorem bodyPattern_groupless : bodyPattern.groupless = true := rfl

/-! ## What the scanners have to do with it -/

section Seeking

variable {γ : Type} {F : List Char → Option γ} {cs : List Char}

/-- From a text without a brace nothing is found, whatever part of it is left. -/
theorem seek_eq_none_of_not_mem (hnone : ∀ r, '}' ∉ r → F r = none) (a : Pattern)
    (h : '}' ∉ cs) : a.seek cs (fun m => F m.rest) = none := by
  refine Pattern.seek_eq_none_iff.mpr fun m hm => hnone _ ?_
  intro hmem
  exact h ((a.rest_suffix cs m hm).subset hmem)

theorem seek_lazyStar_any_cons {c : Char} {k : Way → Option γ} :
    (Pattern.lazyStar (.one fun _ => true)).seek (c :: cs) k =
      (k ⟨[], c :: cs⟩).or ((Pattern.lazyStar (.one fun _ => true)).seek cs k) := by
  rw [Pattern.seek_lazyStar (Pattern.advances_one _), Pattern.seek_one_cons, if_pos rfl]
  rfl

theorem seek_lazyStar_any_nil {k : Way → Option γ} :
    (Pattern.lazyStar (.one fun _ => true)).seek [] k = k ⟨[], []⟩ := by
  rw [Pattern.seek_lazyStar (Pattern.advances_one _), Pattern.seek_one_nil, Option.or_none]

/-- Where an answer is found exactly from texts with a brace, the nearest end mark is
taken, or none at all. -/
theorem seek_commentEndPattern (hnone : ∀ r, '}' ∉ r → F r = none)
    (hsome : ∀ r, '}' ∈ r → (F r).isSome) :
    commentEndPattern.seek cs (fun m => F m.rest) = (afterCommentEnd? cs).bind F := by
  have hstep : ∀ {c : Char} {cs : List Char},
      commentEndPattern.seek (c :: cs) (fun m => F m.rest) =
        ((literal? "*/" (c :: cs)).bind F).or (commentEndPattern.seek cs fun m => F m.rest) := by
    intro c cs
    simp only [commentEndPattern, Pattern.seek_seq, Pattern.seek_word]
    rw [seek_lazyStar_any_cons]
    rfl
  fun_induction afterCommentEnd? cs with
  | case1 =>
      rw [commentEndPattern, Pattern.seek_seq, seek_lazyStar_any_nil, Pattern.seek_word]
      rfl
  | case2 cs =>
      rw [hstep]
      -- A later end mark has less behind it, so it is of no use where this one is of none.
      by_cases hmem : '}' ∈ cs
      · obtain ⟨y, hy⟩ := Option.isSome_iff_exists.mp (hsome cs hmem)
        show (F cs).or _ = F cs
        rw [hy]
        rfl
      · show (F cs).or _ = F cs
        rw [hnone cs hmem, Option.none_or]
        refine seek_eq_none_of_not_mem hnone _ ?_
        simpa using hmem
  | case3 c cs hc ih =>
      rw [hstep, ih]
      have hliteral : literal? "*/" (c :: cs) = none := by
        rw [Option.eq_none_iff_forall_ne_some]
        intro rest hrest
        have heq : c :: cs = '*' :: '/' :: rest := literal?_eq_some_iff.mp hrest
        cases heq
        exact hc rest rfl rfl
      rw [hliteral]
      rfl

theorem seek_blockCommentPattern (hnone : ∀ r, '}' ∉ r → F r = none)
    (hsome : ∀ r, '}' ∈ r → (F r).isSome) :
    blockCommentPattern.seek cs (fun m => F m.rest) = (afterBlockComment? cs).bind F := by
  rw [blockCommentPattern, Pattern.seek_seq, Pattern.seek_word, afterBlockComment?,
    Option.bind_assoc]
  simp only [Way.andThen_nil, seek_commentEndPattern hnone hsome]

theorem splitLastBrace?_of_not_mem (h : '}' ∉ cs) : splitLastBrace? cs = none := by
  rw [Option.eq_none_iff_forall_ne_some]
  rintro ⟨before, rest⟩ hsplit
  refine h ?_
  rw [splitLastBrace?_append hsplit]
  exact List.mem_append_right _ List.mem_cons_self

theorem exists_splitLastBrace?_of_mem (h : '}' ∈ cs) : ∃ m, splitLastBrace? cs = some m := by
  induction cs with
  | nil => cases h
  | cons c cs ih =>
      rw [splitLastBrace?]
      cases hsplit : splitLastBrace? cs with
      | some m => exact ⟨_, rfl⟩
      | none =>
          rcases List.mem_cons.mp h with rfl | hmem
          · exact ⟨_, rfl⟩
          · obtain ⟨m, hm⟩ := ih hmem
            rw [hsplit] at hm
            cases hm

/-- The last brace of the text is the last one behind its first character. -/
theorem splitLastBrace?_cons_of_mem {c : Char} (h : '}' ∈ cs) :
    splitLastBrace? (c :: cs) = (splitLastBrace? cs).map fun m => (c :: m.1, m.2) := by
  obtain ⟨m, hm⟩ := exists_splitLastBrace?_of_mem h
  rw [splitLastBrace?, hm]
  rfl

/-- A line comment is taken up to its end where a brace is left behind it, and is
otherwise cut off at its own last brace. -/
theorem seek_lineRun (hnone : ∀ r, '}' ∉ r → F r = none)
    (hsome : ∀ r, '}' ∈ r → (F r).isSome) :
    (Pattern.star (.one (· != '\n'))).seek cs (fun m => F m.rest) =
      if '}' ∈ cs.dropWhile (· != '\n') then F (cs.dropWhile (· != '\n'))
      else (splitLastBrace? cs).bind fun m => F ('}' :: m.2) := by
  induction cs with
  | nil =>
      rw [Pattern.seek_star_one_of_stopsAt stopsAt_nil]
      exact hnone [] List.not_mem_nil
  | cons c cs ih =>
      by_cases hc : c = '\n'
      · subst hc
        rw [Pattern.seek_star_one_of_stopsAt (stopsAt_cons.mpr (by decide)),
          List.dropWhile_cons_of_neg (by decide)]
        by_cases hmem : '}' ∈ '\n' :: cs
        · rw [if_pos hmem]
        · rw [if_neg hmem, splitLastBrace?_of_not_mem hmem]
          exact hnone _ hmem
      · rw [Pattern.seek_star_one_cons (by simpa using hc), ih,
          List.dropWhile_cons_of_pos (by simpa using hc)]
        by_cases hbehind : '}' ∈ cs.dropWhile (· != '\n')
        · obtain ⟨y, hy⟩ := Option.isSome_iff_exists.mp (hsome _ hbehind)
          rw [if_pos hbehind, if_pos hbehind, hy, Option.some_or]
        -- The run gives back characters from its end, so `c` is the last one to be tried.
        rw [if_neg hbehind, if_neg hbehind]
        by_cases hmem : '}' ∈ cs
        · obtain ⟨m, hm⟩ := exists_splitLastBrace?_of_mem hmem
          obtain ⟨y, hy⟩ := Option.isSome_iff_exists.mp
            (hsome ('}' :: m.2) List.mem_cons_self)
          rw [splitLastBrace?_cons_of_mem hmem, hm, Option.map_some, Option.bind_some,
            Option.bind_some, hy, Option.some_or]
        · rw [splitLastBrace?_of_not_mem hmem, Option.bind_none, Option.none_or]
          by_cases hbrace : c = '}'
          · subst hbrace
            rw [splitLastBrace?, splitLastBrace?_of_not_mem hmem]
            rfl
          · have hmem' : '}' ∉ c :: cs := by simp [hmem, Ne.symm hbrace]
            rw [splitLastBrace?_of_not_mem hmem']
            exact hnone _ hmem'

theorem seek_lineCommentPattern_of_none (h : afterLineComment? cs = none) :
    lineCommentPattern.seek cs (fun m => F m.rest) = none := by
  rw [lineCommentPattern, Pattern.seek_seq, Pattern.seek_word, Option.map_eq_none_iff.mp h]
  rfl

theorem seek_lineCommentPattern_of_some (hnone : ∀ r, '}' ∉ r → F r = none)
    (hsome : ∀ r, '}' ∈ r → (F r).isSome) {rest : List Char}
    (h : afterLineComment? cs = some rest) :
    lineCommentPattern.seek cs (fun m => F m.rest) =
      if '}' ∈ rest then F rest else (splitLastBrace? cs).bind fun m => F ('}' :: m.2) := by
  obtain ⟨r, hr, rfl⟩ := Option.map_eq_some_iff.mp h
  have hlast : (splitLastBrace? cs).map Prod.snd = (splitLastBrace? r).map Prod.snd := by
    have hcs : cs = '/' :: '/' :: r := literal?_eq_some_iff.mp hr
    by_cases hmem : '}' ∈ r
    · rw [hcs, splitLastBrace?_cons_of_mem (List.mem_cons_of_mem '/' hmem),
        splitLastBrace?_cons_of_mem hmem, Option.map_map, Option.map_map]
      rfl
    · have hmem' : '}' ∉ cs := by simpa [hcs] using hmem
      rw [splitLastBrace?_of_not_mem hmem, splitLastBrace?_of_not_mem hmem']
  have hbind : ∀ o : Option (List Char × List Char),
      (o.bind fun m => F ('}' :: m.2)) = (o.map Prod.snd).bind fun rest => F ('}' :: rest) := by
    intro o
    rw [Option.bind_map]
    rfl
  rw [lineCommentPattern, Pattern.seek_seq, Pattern.seek_word, hr, Option.bind_some]
  simp only [Way.andThen_nil]
  rw [seek_lineRun hnone hsome, hbind, hbind, hlast]

end Seeking

/-! ## The preferred way is the scan -/

theorem afterBlockComment?_eq_none_of_line {cs rest : List Char}
    (h : afterLineComment? cs = some rest) : afterBlockComment? cs = none := by
  obtain ⟨body, _, _, rfl⟩ := afterLineComment?_eq_some_iff.mp h
  rfl

section Body

variable {γ : Type} {K : List Char → Option γ} {cs : List Char}

/-- The first body from whose end `K` finds an answer, and that answer. -/
def seekBody (K : List Char → Option γ) (cs : List Char) : Option γ :=
  bodyPattern.seek cs fun m => K m.rest

/-- One round, and then whatever the body has from there. -/
theorem seekBody_eq : seekBody K cs =
    ((blockCommentPattern.seek cs fun m => seekBody K m.rest).or
      ((lineCommentPattern.seek cs fun m => seekBody K m.rest).or
        ((Pattern.one (· != '}')).seek cs fun m => seekBody K m.rest))).or (K cs) := by
  rw [seekBody, bodyPattern, Pattern.seek_star advances_bodyRound, bodyRound, Pattern.seek_alt,
    Pattern.seek_alt]
  rfl

variable (hbrace : ∀ rest, (K ('}' :: rest)).isSome)
  (hother : ∀ cs, cs.head? ≠ some '}' → K cs = none)

include hother in
theorem seekBody_eq_none (h : '}' ∉ cs) : seekBody K cs = none := by
  refine seek_eq_none_of_not_mem (fun r hr => hother r ?_) bodyPattern h
  intro hhead
  exact hr (List.mem_of_mem_head? hhead)

include hbrace in
theorem seekBody_isSome (h : '}' ∈ cs) : (seekBody K cs).isSome := by
  induction cs with
  | nil => cases h
  | cons c cs ih =>
      rw [seekBody_eq]
      by_cases hc : c = '}'
      · subst hc
        simp [hbrace cs]
      · have hmem : '}' ∈ cs := (List.mem_cons.mp h).resolve_left (Ne.symm hc)
        rw [Pattern.seek_one_cons (q := (· != '}')), if_pos (by simpa using hc)]
        simp [ih hmem]

include hbrace hother

/-- At a closing brace the body ends, as no round begins with one. -/
theorem seekBody_brace (rest : List Char) : seekBody K ('}' :: rest) = K ('}' :: rest) := by
  rw [seekBody_eq, seek_blockCommentPattern (fun _ => seekBody_eq_none hother)
      (fun _ => seekBody_isSome hbrace), seek_lineCommentPattern_of_none rfl,
    Pattern.seek_one_cons (q := (· != '}')), if_neg (by decide)]
  rfl

/-- Anywhere else a block comment is tried first, then a line comment, then one character. -/
theorem seekBody_cons {c : Char} {tail : List Char} (hc : c ≠ '}') :
    seekBody K (c :: tail) =
      ((afterBlockComment? (c :: tail)).bind (seekBody K)).or
        ((lineCommentPattern.seek (c :: tail) fun m => seekBody K m.rest).or
          (seekBody K tail)) := by
  rw [seekBody_eq, seek_blockCommentPattern (fun _ => seekBody_eq_none hother)
      (fun _ => seekBody_isSome hbrace), Pattern.seek_one_cons (q := (· != '}')),
    if_pos (by simpa using hc), hother (c :: tail) (by simpa using hc), Option.or_none]

/-- A line comment behind which there is no brace gives up characters from its end, down to
the last brace inside it. -/
theorem seekBody_of_lineComment {c : Char} {tail rest : List Char} (hc : c ≠ '}')
    (hline : afterLineComment? (c :: tail) = some rest) (hmem : '}' ∉ rest) :
    seekBody K (c :: tail) =
      (splitLastBrace? (c :: tail)).bind fun m => K ('}' :: m.2) := by
  rw [seekBody_cons hbrace hother hc, afterBlockComment?_eq_none_of_line hline,
    seek_lineCommentPattern_of_some (fun _ => seekBody_eq_none hother)
      (fun _ => seekBody_isSome hbrace) hline, if_neg hmem]
  simp only [seekBody_brace hbrace hother]
  cases hsplit : splitLastBrace? (c :: tail) with
  | some m =>
      obtain ⟨y, hy⟩ := Option.isSome_iff_exists.mp (hbrace m.2)
      simp [hy]
  | none =>
      refine seekBody_eq_none hother fun htail => ?_
      obtain ⟨m, hm⟩ := exists_splitLastBrace?_of_mem (List.mem_cons_of_mem c htail)
      rw [hsplit] at hm
      cases hm

/-- A comment from whose end a brace can be reached is taken as a whole. -/
theorem seekBody_of_comment {c : Char} {tail rest : List Char} (hc : c ≠ '}')
    (hcomment : afterComment? (c :: tail) = some rest) (hmem : '}' ∈ rest) :
    seekBody K (c :: tail) = seekBody K rest := by
  obtain ⟨y, hy⟩ := Option.isSome_iff_exists.mp (seekBody_isSome hbrace hmem)
  rw [seekBody_cons hbrace hother hc, hy]
  rcases Option.or_eq_some_iff.mp hcomment with hline | ⟨_, hblock⟩
  · rw [afterBlockComment?_eq_none_of_line hline,
      seek_lineCommentPattern_of_some (fun _ => seekBody_eq_none hother)
        (fun _ => seekBody_isSome hbrace) hline, if_pos hmem, hy]
    rfl
  · rw [hblock, Option.bind_some, hy, Option.some_or]

/-- **The first body that ends before a closing brace is the one that the scanner finds.** -/
theorem seekBody_eq_body? : seekBody K cs = (body? cs).bind fun m => K ('}' :: m.2) := by
  fun_induction body? cs with
  | case1 => exact seekBody_eq_none hother List.not_mem_nil
  | case2 tail => exact seekBody_brace hbrace hother tail
  | case3 c tail hc hcomment ih =>
      obtain ⟨hline, hblock⟩ := Option.or_eq_none_iff.mp hcomment
      rw [seekBody_cons hbrace hother hc, hblock, seek_lineCommentPattern_of_none hline, ih,
        Option.bind_map]
      rfl
  | case4 c tail hc rest hcomment hmem ih =>
      rw [seekBody_of_comment hbrace hother hc hcomment hmem, ih, Option.bind_map]
      rfl
  | case5 c tail hc rest hcomment hmem hline =>
      obtain ⟨rest', hrest'⟩ := Option.isSome_iff_exists.mp hline
      have hrest : rest' = rest := by
        rw [afterComment?, hrest', Option.some_or] at hcomment
        exact Option.some.inj hcomment
      subst hrest
      exact seekBody_of_lineComment hbrace hother hc hrest' hmem
  | case6 c tail hc rest hcomment hmem hline ih =>
      -- The inside of a block comment is read like any other text.
      have hnoLine : afterLineComment? (c :: tail) = none := by
        rw [← Option.not_isSome_iff_eq_none]
        exact hline
      have hblock : afterBlockComment? (c :: tail) = some rest := by
        rw [afterComment?, hnoLine, Option.none_or] at hcomment
        exact hcomment
      rw [seekBody_cons hbrace hother hc, hblock, Option.bind_some, seekBody_eq_none hother hmem,
        seek_lineCommentPattern_of_none hnoLine, ih, Option.bind_map]
      rfl

end Body

/-- A body is found exactly in the texts that hold a closing brace. -/
theorem body?_isSome_iff {cs : List Char} : (body? cs).isSome ↔ '}' ∈ cs := by
  have hbrace : ∀ rest, (literal? "\x7d" ('}' :: rest)).isSome := fun rest => rfl
  have hother : ∀ r : List Char, r.head? ≠ some '}' → literal? "\x7d" r = none :=
    fun r hr => literal?_eq_none_of_head? (c := '}') rfl hr
  have hseek : seekBody (literal? "\x7d") cs =
      (body? cs).bind fun m => literal? "\x7d" ('}' :: m.2) :=
    seekBody_eq_body? hbrace hother
  constructor
  · intro h
    obtain ⟨m, hm⟩ := Option.isSome_iff_exists.mp h
    rw [body?_append hm]
    exact List.mem_append_right _ List.mem_cons_self
  · intro h
    have hsome := seekBody_isSome hbrace h
    rw [hseek] at hsome
    exact Option.isSome_of_isSome_bind hsome

/-! ## The first brace outside comments -/

/-- The scan that passes over every comment as a whole comes to a closing brace, and the
second text stands behind it. -/
inductive FirstBrace : List Char → List Char → Prop
  | brace (rest : List Char) : FirstBrace ('}' :: rest) rest
  | comment {cs mid rest : List Char} : Comment cs mid → FirstBrace mid rest →
      FirstBrace cs rest
  | other {c : Char} {cs rest : List Char} : c ≠ '}' → (∀ mid, ¬ Comment (c :: cs) mid) →
      FirstBrace cs rest → FirstBrace (c :: cs) rest

theorem FirstBrace.mem {cs rest : List Char} (h : FirstBrace cs rest) : '}' ∈ cs := by
  induction h with
  | brace rest => exact List.mem_cons_self
  | comment hcomment _ ih =>
      exact (afterComment?_length_lt (afterComment?_eq_some_iff.mpr hcomment)).1.subset ih
  | other _ _ _ ih => exact List.mem_cons_of_mem _ ih

theorem body?_of_none {c : Char} {tail : List Char} (hc : c ≠ '}')
    (h : afterComment? (c :: tail) = none) :
    body? (c :: tail) = (body? tail).map fun m => (c :: m.1, m.2) := by
  rw [body?, if_neg hc]
  split
  · rfl
  · next rest h' =>
      rw [h] at h'
      cases h'

theorem body?_of_some {c : Char} {tail rest : List Char} (hc : c ≠ '}')
    (h : afterComment? (c :: tail) = some rest) (hmem : '}' ∈ rest) :
    body? (c :: tail) = (body? rest).map fun m => (consumed (c :: tail) rest ++ m.1, m.2) := by
  rw [body?, if_neg hc]
  split
  · next h' =>
      rw [h] at h'
      cases h'
  · next rest' h' =>
      rw [h] at h'
      cases h'
      rw [if_pos hmem]

/-- **The body ends at the first closing brace outside comments.** -/
theorem FirstBrace.body?_eq {cs rest : List Char} (h : FirstBrace cs rest) :
    ∃ before, body? cs = some (before, rest) := by
  induction h with
  | brace rest => exact ⟨[], by rw [body?, if_pos rfl]⟩
  | comment hcomment hscan ih =>
      obtain ⟨before, hbefore⟩ := ih
      obtain ⟨tail, rfl⟩ := hcomment.head
      rw [body?_of_some (by decide) (afterComment?_eq_some_iff.mpr hcomment) hscan.mem, hbefore]
      exact ⟨_, rfl⟩
  | other hc hno _ ih =>
      obtain ⟨before, hbefore⟩ := ih
      have hnone := Option.eq_none_iff_forall_ne_some.mpr fun mid hmid =>
        hno mid (afterComment?_eq_some_iff.mp hmid)
      rw [body?_of_none hc hnone, hbefore]
      exact ⟨_, rfl⟩

end IdlGlue.Scan
