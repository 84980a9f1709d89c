/-
# IdlGlue.Proofs.Gap -- comments and gaps, said without a scanner

`Comment cs rest` and `Gap cs rest` say what may stand between a text and a text
behind it. Neither computes anything, and a gap may end anywhere between two of its
parts; so `Gap` says what a gap is, and nothing about how far one should be taken.

The scanner takes the longest: `afterGap` gives a text that a gap leads to
(`gap_afterGap`), and every other gap at the same place is a part of that one
(`Gap.afterGap_eq`). A gap that ends before a statement, or at the end of the text, is
therefore the one the scanner finds (`Gap.afterGap_eq_self`).
-/
import IdlGlue.Scan.Gap
import IdlGlue.Proofs.Run

namespace IdlGlue.Scan

open IdlGlue.Text

/-! ## Comments -/

/-- A comment begins the first text and the second stands behind it. A line comment
takes everything up to a newline, which it leaves, or up to the end of the text; a
block comment ends with the first end mark behind its opening. -/
inductive Comment : List Char → List Char → Prop
  | line {body rest : List Char} : '\n' ∉ body → (∀ c ∈ rest.head?, c = '\n') →
      Comment ('/' :: '/' :: (body ++ rest)) rest
  | block {body rest : List Char} : ¬ ['*', '/'] <:+: body →
      Comment ('/' :: '*' :: (body ++ '*' :: '/' :: rest)) rest

/-- The scanner of end marks stops at the first of them. -/
theorem afterCommentEnd?_eq_some_iff {cs rest : List Char} :
    afterCommentEnd? cs = some rest ↔
      ∃ body, ¬ ['*', '/'] <:+: body ∧ cs = body ++ '*' :: '/' :: rest := by
  fun_induction afterCommentEnd? cs with
  | case1 => simp
  | case2 cs =>
      constructor
      · intro h
        cases h
        exact ⟨[], by simp, rfl⟩
      · rintro ⟨body, hbody, h⟩
        rcases body with _ | ⟨b, _ | ⟨b', body⟩⟩
        · simpa using h
        · simp at h
        · -- An end mark at the very start cannot lie inside the body.
          simp only [List.cons_append, List.cons.injEq] at h
          obtain ⟨rfl, rfl, _⟩ := h
          exact absurd ⟨[], body, rfl⟩ hbody
  | case3 c cs hc ih =>
      rw [ih]
      constructor
      · rintro ⟨body, hbody, rfl⟩
        refine ⟨c :: body, ?_, rfl⟩
        intro hinfix
        rcases List.infix_cons_iff.mp hinfix with hpre | htail
        · obtain ⟨tail, htail⟩ := hpre
          simp only [List.cons_append, List.nil_append, List.cons.injEq] at htail
          obtain ⟨rfl, rfl⟩ := htail
          exact hc _ rfl rfl
        · exact hbody htail
      · rintro ⟨body, hbody, h⟩
        cases body with
        | nil =>
            simp only [List.nil_append, List.cons.injEq] at h
            obtain ⟨rfl, rfl⟩ := h
            exact absurd rfl (hc _ rfl)
        | cons b body =>
            simp only [List.cons_append, List.cons.injEq] at h
            exact ⟨body, fun hin => hbody (hin.trans (List.suffix_cons b body).isInfix), h.2⟩

theorem afterLineComment?_eq_some_iff {cs rest : List Char} :
    afterLineComment? cs = some rest ↔
      ∃ body, '\n' ∉ body ∧ (∀ c ∈ rest.head?, c = '\n') ∧ cs = '/' :: '/' :: (body ++ rest) := by
  unfold afterLineComment?
  rw [Option.map_eq_some_iff]
  constructor
  · rintro ⟨inner, hinner, rfl⟩
    rw [literal?_eq_some_iff] at hinner
    refine ⟨inner.takeWhile (· != '\n'), ?_, ?_, ?_⟩
    · intro hmem
      simpa using List.mem_takeWhile_imp hmem
    · intro c hc
      have := List.head?_dropWhile_not (· != '\n') inner
      rw [Option.mem_def.mp hc] at this
      simpa using this
    · rw [hinner, List.takeWhile_append_dropWhile]
      rfl
  · rintro ⟨body, hbody, hrest, rfl⟩
    refine ⟨body ++ rest, literal?_eq_some_iff.mpr rfl, ?_⟩
    rw [List.dropWhile_append_of_pos (by
      intro c hc
      simp only [bne_iff_ne, ne_eq]
      rintro rfl
      exact hbody hc)]
    cases rest with
    | nil => rfl
    | cons c rest => simp [hrest c rfl]

theorem afterBlockComment?_eq_some_iff {cs rest : List Char} :
    afterBlockComment? cs = some rest ↔
      ∃ body, ¬ ['*', '/'] <:+: body ∧ cs = '/' :: '*' :: (body ++ '*' :: '/' :: rest) := by
  unfold afterBlockComment?
  rw [Option.bind_eq_some_iff]
  constructor
  · rintro ⟨inner, hinner, hrest⟩
    obtain ⟨body, hbody, rfl⟩ := afterCommentEnd?_eq_some_iff.mp hrest
    exact ⟨body, hbody, literal?_eq_some_iff.mp hinner⟩
  · rintro ⟨body, hbody, rfl⟩
    exact ⟨_, literal?_eq_some_iff.mpr rfl, afterCommentEnd?_eq_some_iff.mpr ⟨body, hbody, rfl⟩⟩

/-- The scanner of comments finds exactly the comments. -/
theorem afterComment?_eq_some_iff {cs rest : List Char} :
    afterComment? cs = some rest ↔ Comment cs rest := by
  unfold afterComment?
  rw [Option.or_eq_some_iff]
  constructor
  · rintro (h | ⟨_, h⟩)
    · obtain ⟨body, hbody, hrest, rfl⟩ := afterLineComment?_eq_some_iff.mp h
      exact .line hbody hrest
    · obtain ⟨body, hbody, rfl⟩ := afterBlockComment?_eq_some_iff.mp h
      exact .block hbody
  · intro h
    cases h with
    | line hbody hrest =>
        exact Or.inl (afterLineComment?_eq_some_iff.mpr ⟨_, hbody, hrest, rfl⟩)
    | block hbody =>
        refine Or.inr ⟨?_, afterBlockComment?_eq_some_iff.mpr ⟨_, hbody, rfl⟩⟩
        rw [Option.eq_none_iff_forall_ne_some]
        intro rest' h'
        obtain ⟨body', _, _, heq⟩ := afterLineComment?_eq_some_iff.mp h'
        simp at heq

/-- A comment begins with a slash. -/
theorem Comment.head {cs rest : List Char} (h : Comment cs rest) : ∃ tail, cs = '/' :: tail := by
  cases h with
  | line => exact ⟨_, rfl⟩
  | block => exact ⟨_, rfl⟩

/-! ## Gaps -/

/-- White space and comments stand between the first text and the second, in any
number and order, and nothing else does. -/
inductive Gap : List Char → List Char → Prop
  | none (cs : List Char) : Gap cs cs
  | blank {c : Char} {cs rest : List Char} : isBlank c = true → Gap cs rest → Gap (c :: cs) rest
  | comment {cs mid rest : List Char} : Comment cs mid → Gap mid rest → Gap cs rest

theorem Gap.trans {cs mid rest : List Char} (h : Gap cs mid) (h' : Gap mid rest) :
    Gap cs rest := by
  induction h with
  | none => exact h'
  | blank hc _ ih => exact .blank hc (ih h')
  | comment hcomment _ ih => exact .comment hcomment (ih h')

theorem gap_afterBlanks (cs : List Char) : Gap cs (afterBlanks cs) := by
  unfold afterBlanks
  induction cs with
  | nil => exact .none []
  | cons c cs ih =>
      rw [List.dropWhile_cons]
      split
      · next hc => exact .blank hc ih
      · exact .none _

/-- The scanner's gap is a gap. -/
theorem gap_afterGap (cs : List Char) : Gap cs (afterGap cs) := by
  fun_induction afterGap cs with
  | case1 cs _ => exact gap_afterBlanks cs
  | case2 cs rest h ih =>
      exact (gap_afterBlanks cs).trans (.comment (afterComment?_eq_some_iff.mp h) ih)

theorem afterGap_cons_of_isBlank {c : Char} {cs : List Char} (hc : isBlank c = true) :
    afterGap (c :: cs) = afterGap cs := by
  have hblanks : afterBlanks (c :: cs) = afterBlanks cs := by simp [afterBlanks, hc]
  cases h : afterComment? (afterBlanks cs) with
  | none => rw [afterGap_of_none h, afterGap_of_none (hblanks ▸ h), hblanks]
  | some rest => rw [afterGap_of_some h, afterGap_of_some (hblanks ▸ h)]

theorem isBlank_slash : isBlank '/' = false := by decide

/-- Whatever gap is taken first, the scanner goes on to the same place. -/
theorem Gap.afterGap_eq {cs rest : List Char} (h : Gap cs rest) : afterGap cs = afterGap rest := by
  induction h with
  | none => rfl
  | blank hc _ ih => rw [afterGap_cons_of_isBlank hc, ih]
  | comment hcomment _ ih =>
      obtain ⟨tail, rfl⟩ := hcomment.head
      rw [← ih]
      refine afterGap_of_some ?_
      rw [afterBlanks_of_stopsAt (stopsAt_cons.mpr isBlank_slash)]
      exact afterComment?_eq_some_iff.mpr hcomment

/-! ## Where a gap has to end -/

/-- No gap begins here: the text is at its end, or begins with a character that is
neither white space nor a slash. -/
def Settled (cs : List Char) : Prop := ∀ c ∈ cs.head?, isBlank c = false ∧ c ≠ '/'

theorem settled_nil : Settled [] := by
  intro c hc
  cases hc

theorem Settled.afterGap_eq_self {cs : List Char} (h : Settled cs) : afterGap cs = cs := by
  cases cs with
  | nil => rw [afterGap_of_none (by rfl)]; rfl
  | cons c cs =>
      obtain ⟨hblank, hslash⟩ := h c rfl
      have hblanks : afterBlanks (c :: cs) = c :: cs :=
        afterBlanks_of_stopsAt (stopsAt_cons.mpr hblank)
      have hnone : afterComment? (afterBlanks (c :: cs)) = Option.none := by
        rw [hblanks, Option.eq_none_iff_forall_ne_some]
        intro rest hrest
        obtain ⟨tail, htail⟩ := (afterComment?_eq_some_iff.mp hrest).head
        exact hslash (List.cons.inj htail).1
      rw [afterGap_of_none hnone, hblanks]

/-- A gap that ends where none begins is the gap of the scanner. -/
theorem Gap.afterGap_eq_self {cs rest : List Char} (h : Gap cs rest) (hrest : Settled rest) :
    afterGap cs = rest := by
  rw [h.afterGap_eq, hrest.afterGap_eq_self]

/-- White space can be passed over first. -/
theorem Gap.behind_blanks {cs rest : List Char} (h : Gap cs rest) (hrest : Settled rest) :
    Gap (afterBlanks cs) rest := by
  have hskip := (gap_afterBlanks cs).afterGap_eq
  rw [h.afterGap_eq_self hrest] at hskip
  rw [hskip]
  exact gap_afterGap (afterBlanks cs)

end IdlGlue.Scan
