/-
# IdlGlue.Proofs.Words -- how the splitting functions take a text apart

One lemma for each way a text is put together: a piece without separators in front of
a separator, a word in front of white space, a core between white space. From these
the parts of a text that was written in a known form can be read off one by one.
-/
import IdlGlue.Proofs.Run

namespace IdlGlue.Text

open IdlGlue.Scan

variable {separates : Char → Bool} {s : Char} {w rest core before after : List Char}

/-! ## Pieces -/

/-- A piece that could not be longer is the first piece. -/
theorem pieces_append_cons (hw : AllIn (fun c => !separates c) w) (hs : separates s = true) :
    pieces separates (w ++ s :: rest) = w :: pieces separates rest := by
  induction w with
  | nil => simp [pieces, hs]
  | cons c w ih =>
      obtain ⟨hc, hw⟩ := allIn_cons.mp hw
      simp only [Bool.not_eq_true'] at hc
      simp [pieces, hc, ih hw]

/-- Without a separator there is one piece. -/
theorem pieces_of_allIn (hw : AllIn (fun c => !separates c) w) : pieces separates w = [w] := by
  induction w with
  | nil => rfl
  | cons c w ih =>
      obtain ⟨hc, hw⟩ := allIn_cons.mp hw
      simp only [Bool.not_eq_true'] at hc
      simp [pieces, hc, ih hw]

theorem pieces_ne_nil (separates : Char → Bool) (cs : List Char) : pieces separates cs ≠ [] := by
  cases cs with
  | nil => exact List.cons_ne_nil _ _
  | cons c cs =>
      unfold pieces
      split
      · exact List.cons_ne_nil _ _
      · split
        · exact List.cons_ne_nil _ _
        · exact List.cons_ne_nil _ _

/-- A separator splits the pieces of a text into those before and those behind it. -/
theorem pieces_append (hs : separates s = true) (cs rest : List Char) :
    pieces separates (cs ++ s :: rest) = pieces separates cs ++ pieces separates rest := by
  induction cs with
  | nil => simp [pieces, hs]
  | cons c cs ih =>
      obtain ⟨p, ps, hpieces⟩ := List.exists_cons_of_ne_nil (pieces_ne_nil separates cs)
      rw [List.cons_append, pieces, pieces, ih, hpieces]
      split
      · rfl
      · rfl

theorem not_mem_of_mem_pieces {separates : Char → Bool} {cs piece : List Char}
    (h : piece ∈ pieces separates cs) : ∀ c ∈ piece, separates c = false := by
  induction cs generalizing piece with
  | nil =>
      rw [List.mem_singleton.mp h]
      exact List.forall_mem_nil _
  | cons c cs ih =>
      obtain ⟨p, ps, hpieces⟩ := List.exists_cons_of_ne_nil (pieces_ne_nil separates cs)
      rw [pieces, hpieces] at h
      rw [hpieces] at ih
      split at h
      · rcases List.mem_cons.mp h with rfl | h
        · exact List.forall_mem_nil _
        · exact ih h
      · next hc =>
          rcases List.mem_cons.mp h with rfl | h
          · exact List.forall_mem_cons.mpr ⟨by simpa using hc, ih List.mem_cons_self⟩
          · exact ih (List.mem_cons_of_mem p h)

/-- What stands before the first separator belongs to the first piece. -/
theorem pieces_start (hw : AllIn (fun c => !separates c) w) (cs : List Char) :
    ∃ p ps, pieces separates cs = p :: ps ∧ pieces separates (w ++ cs) = (w ++ p) :: ps := by
  obtain ⟨p, ps, hpieces⟩ := List.exists_cons_of_ne_nil (pieces_ne_nil separates cs)
  refine ⟨p, ps, hpieces, ?_⟩
  induction w with
  | nil => exact hpieces
  | cons c w ih =>
      obtain ⟨hc, hw⟩ := allIn_cons.mp hw
      simp only [Bool.not_eq_true'] at hc
      simp [pieces, hc, ih hw]

/-- What stands behind the last separator belongs to the last piece. -/
theorem pieces_end (hw : AllIn (fun c => !separates c) w) (cs : List Char) :
    ∃ ps p, pieces separates cs = ps ++ [p] ∧ pieces separates (cs ++ w) = ps ++ [p ++ w] := by
  induction cs with
  | nil => exact ⟨[], [], rfl, pieces_of_allIn hw⟩
  | cons c cs ih =>
      obtain ⟨ps, p, hpieces, happend⟩ := ih
      rw [List.cons_append, pieces, pieces, hpieces, happend]
      split
      · exact ⟨[] :: ps, p, rfl, rfl⟩
      · cases ps with
        | nil => exact ⟨[], c :: p, rfl, rfl⟩
        | cons q ps => exact ⟨(c :: q) :: ps, p, rfl, rfl⟩

/-! ## Words -/

theorem wordsOf_cons_of_isBlank (hs : isBlank s = true) : wordsOf (s :: rest) = wordsOf rest := by
  simp [wordsOf, pieces, hs]

theorem wordsOf_append_of_allIn (hw : AllIn isBlank w) : wordsOf (w ++ rest) = wordsOf rest := by
  induction w with
  | nil => rfl
  | cons c w ih =>
      obtain ⟨hc, hw⟩ := allIn_cons.mp hw
      rw [List.cons_append, wordsOf_cons_of_isBlank hc, ih hw]

/-- A word in front of white space is the first word. -/
theorem wordsOf_append_cons (hne : w ≠ []) (hw : AllIn (fun c => !isBlank c) w)
    (hs : isBlank s = true) : wordsOf (w ++ s :: rest) = w :: wordsOf rest := by
  simp [wordsOf, pieces_append_cons hw hs, hne]

theorem wordsOf_of_allIn (hne : w ≠ []) (hw : AllIn (fun c => !isBlank c) w) :
    wordsOf w = [w] := by
  simp [wordsOf, pieces_of_allIn hw, hne]

/-! ## Trimming -/

theorem trimEnd_of_allIn (hw : AllIn isBlank w) : trimEnd w = [] := by
  induction w with
  | nil => rfl
  | cons c w ih =>
      obtain ⟨hc, hw⟩ := allIn_cons.mp hw
      simp [trimEnd, ih hw, hc]

theorem trimEnd_append (hafter : AllIn isBlank after) : trimEnd (core ++ after) = trimEnd core := by
  induction core with
  | nil => exact trimEnd_of_allIn hafter
  | cons c core ih => simp only [List.cons_append, trimEnd, ih]

/-- A text that does not end in white space has none at its end to lose. -/
theorem trimEnd_of_getLast (h : ∀ c ∈ core.getLast?, isBlank c = false) : trimEnd core = core := by
  induction core with
  | nil => rfl
  | cons c core ih =>
      cases core with
      | nil => simp [trimEnd, h c rfl]
      | cons d core =>
          have htail : trimEnd (d :: core) = d :: core := ih (by simpa using h)
          rw [trimEnd, htail]

/-- Trimming takes the white space around a core, and nothing of the core. -/
theorem trim_append (hbefore : AllIn isBlank before) (hafter : AllIn isBlank after)
    (hne : core ≠ []) (hstart : StopsAt isBlank core)
    (hend : ∀ c ∈ core.getLast?, isBlank c = false) : trim (before ++ core ++ after) = core := by
  have hstops : StopsAt isBlank (core ++ after) := (stopsAt_append_of_ne_nil hne).mpr hstart
  have hleft : trimStart (before ++ core ++ after) = core ++ after := by
    rw [List.append_assoc]
    exact dropWhile_eq_of_stopsAt hbefore hstops
  rw [trim, hleft, trimEnd_append hafter, trimEnd_of_getLast hend]

/-- White space in front of a text is trimmed away. -/
theorem trim_blanks_append (hw : AllIn isBlank w) : trim (w ++ rest) = trim rest :=
  congrArg trimEnd (afterBlanks_append hw)

/-- White space behind a text is trimmed away. -/
theorem trim_append_blanks (hw : AllIn isBlank w) : trim (rest ++ w) = trim rest := by
  rw [trim, trim, trimStart, trimStart, List.dropWhile_append]
  split
  · next hnone =>
      have hblank : w.dropWhile isBlank = [] := List.dropWhile_eq_nil_iff.mpr hw
      rw [hblank, List.isEmpty_iff.mp hnone]
  · exact trimEnd_append hw

theorem trim_of_allIn (hw : AllIn isBlank w) : trim w = [] := by
  show trim ([] ++ w) = trim []
  exact trim_append_blanks hw

/-- No white space stands at either end of the text. -/
structure Trimmed (w : List Char) : Prop where
  start : StopsAt isBlank w
  last : ∀ c ∈ w.getLast?, isBlank c = false

theorem trimEnd_isPrefix (w : List Char) : trimEnd w <+: w := by
  induction w with
  | nil => exact List.prefix_rfl
  | cons c w ih =>
      rw [trimEnd]
      split
      · split
        · exact List.nil_prefix
        · exact List.prefix_append [c] w
      · next d ds htail =>
          rw [htail] at ih
          exact List.prefix_cons_inj c |>.mpr ih

theorem getLast?_trimEnd (w : List Char) : ∀ c ∈ (trimEnd w).getLast?, isBlank c = false := by
  induction w with
  | nil => simp [trimEnd]
  | cons c w ih =>
      rw [trimEnd]
      split
      · split
        · simp
        · next hc => simpa using hc
      · next d ds htail =>
          rw [htail] at ih
          simpa using ih

theorem trimmed_trim (w : List Char) : Trimmed (trim w) where
  start := stopsAt_dropWhile.of_isPrefix (trimEnd_isPrefix _)
  last := getLast?_trimEnd _

/-- Trimming leaves exactly the texts as they are that have nothing to lose. -/
theorem trim_eq_self_iff : trim w = w ↔ Trimmed w := by
  constructor
  · intro h
    rw [← h]
    exact trimmed_trim w
  · intro h
    have hstart : trimStart w = w := afterBlanks_of_stopsAt h.start
    rw [trim, hstart, trimEnd_of_getLast h.last]

theorem trim_of_allIn_not (hne : w ≠ []) (hw : AllIn (fun c => !isBlank c) w) : trim w = w := by
  have hblank : ∀ c ∈ w, isBlank c = false := fun c hc => by simpa using hw c hc
  have htrim : trim ([] ++ w ++ []) = w := trim_append allIn_nil allIn_nil hne
    (fun c hc => hblank c (List.mem_of_mem_head? hc))
    (fun c hc => hblank c (List.mem_of_mem_getLast? hc))
  simpa using htrim

/-! ## Endings -/

theorem dropSuffix?_eq_some_iff : dropSuffix? s w = some core ↔ w = core ++ [s] := by
  unfold dropSuffix?
  split
  · next hlast =>
      obtain ⟨tail, rfl⟩ := List.getLast?_eq_some_iff.mp hlast
      simp
  · next hlast =>
      constructor
      · intro h
        cases h
      · rintro rfl
        exact absurd List.getLast?_concat hlast

end IdlGlue.Text
