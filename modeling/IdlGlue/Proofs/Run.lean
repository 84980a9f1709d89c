/-
# IdlGlue.Proofs.Run -- runs of one class of characters

What the steps of `Scan.Step` read, said of the text and not of the scanner: a run is
a piece whose characters are all in the class (`AllIn`), and it is the longest one
where the text behind it does not begin with a further character of the class
(`StopsAt`). The lemmas here are equivalences, so a step can be opened in either
direction and its result put together again.
-/
import IdlGlue.Scan.Step
import Mathlib.Data.List.TakeWhile

namespace IdlGlue.Scan

open IdlGlue.Text

/-- All characters of the piece are in the class. -/
def AllIn (p : Char → Bool) (w : List Char) : Prop := ∀ c ∈ w, p c = true

/-- The text does not begin with a character of the class. -/
def StopsAt (p : Char → Bool) (rest : List Char) : Prop := ∀ c ∈ rest.head?, p c = false

instance (p : Char → Bool) (w : List Char) : Decidable (AllIn p w) :=
  decidable_of_iff (w.all p = true) List.all_eq_true

variable {p q : Char → Bool} {c : Char} {cs w v rest : List Char}

/-! ## Pieces -/

theorem allIn_nil : AllIn p [] := by
  intro c hc
  cases hc

theorem allIn_cons : AllIn p (c :: w) ↔ p c = true ∧ AllIn p w := by
  simp [AllIn]

theorem allIn_append : AllIn p (v ++ w) ↔ AllIn p v ∧ AllIn p w := by
  simp only [AllIn, List.mem_append]
  exact ⟨fun h => ⟨fun c hc => h c (Or.inl hc), fun c hc => h c (Or.inr hc)⟩,
    fun h c hc => hc.elim (h.1 c) (h.2 c)⟩

theorem AllIn.mono (h : AllIn p w) (hpq : ∀ c, p c = true → q c = true) : AllIn q w :=
  fun c hc => hpq c (h c hc)

/-! ## Where a run stops -/

theorem stopsAt_nil : StopsAt p [] := by
  intro c hc
  cases hc

theorem stopsAt_cons : StopsAt p (c :: rest) ↔ p c = false := by
  simp [StopsAt]

/-- Behind a piece that is not empty only the piece counts. -/
theorem stopsAt_append_of_ne_nil (hv : v ≠ []) : StopsAt p (v ++ rest) ↔ StopsAt p v := by
  obtain ⟨c, v, rfl⟩ := List.exists_cons_of_ne_nil hv
  rw [List.cons_append, stopsAt_cons, stopsAt_cons]

theorem StopsAt.of_isPrefix (hrest : StopsAt p rest) (hw : w <+: rest) : StopsAt p w := by
  obtain ⟨tail, rfl⟩ := hw
  cases w with
  | nil => exact stopsAt_nil
  | cons c w => exact stopsAt_cons.mpr (stopsAt_cons.mp hrest)

theorem StopsAt.of_disjoint (hw : AllIn q w) (hrest : StopsAt p rest)
    (hpq : ∀ c, q c = true → p c = false) : StopsAt p (w ++ rest) := by
  cases w with
  | nil => exact hrest
  | cons c w => exact stopsAt_cons.mpr (hpq c (allIn_cons.mp hw).1)

theorem stopsAt_dropWhile : StopsAt p (cs.dropWhile p) := by
  intro c hc
  have := List.head?_dropWhile_not p cs
  rw [Option.mem_def.mp hc] at this
  simpa using this

theorem takeWhile_eq_of_stopsAt (hw : AllIn p w) (hrest : StopsAt p rest) :
    (w ++ rest).takeWhile p = w := by
  rw [List.takeWhile_append_of_pos hw]
  cases rest with
  | nil => simp
  | cons c rest => simp [stopsAt_cons.mp hrest]

theorem dropWhile_eq_of_stopsAt (hw : AllIn p w) (hrest : StopsAt p rest) :
    (w ++ rest).dropWhile p = rest := by
  rw [List.dropWhile_append_of_pos hw]
  cases rest with
  | nil => rfl
  | cons c rest => simp [stopsAt_cons.mp hrest]

/-- A text falls in one way only into a run of the class and what stops it. -/
theorem AllIn.append_inj (hw : AllIn p w) (hrest : StopsAt p rest) {w' rest' : List Char}
    (hw' : AllIn p w') (hrest' : StopsAt p rest') (h : w ++ rest = w' ++ rest') :
    w = w' ∧ rest = rest' := by
  have htake := takeWhile_eq_of_stopsAt hw hrest
  have hdrop := dropWhile_eq_of_stopsAt hw hrest
  rw [h, takeWhile_eq_of_stopsAt hw' hrest'] at htake
  rw [h, dropWhile_eq_of_stopsAt hw' hrest'] at hdrop
  exact ⟨htake.symm, hdrop.symm⟩

/-! ## Name characters -/

theorem isBlank_eq_false_of_isNamePart (h : isNamePart c = true) : isBlank c = false := by
  by_contra hblank
  rw [isNamePart_eq_false_of_isBlank (by simpa using hblank)] at h
  cases h

/-- White space has ended where a name character stands. -/
theorem stopsAt_isBlank_cons (hc : isNamePart c = true) : StopsAt isBlank (c :: rest) :=
  stopsAt_cons.mpr (isBlank_eq_false_of_isNamePart hc)

theorem AllIn.stopsAt_isBlank (h : AllIn isNamePart w) : StopsAt isBlank w :=
  fun c hc => isBlank_eq_false_of_isNamePart (h c (List.mem_of_mem_head? hc))

theorem AllIn.stopsAt_isNamePart (h : AllIn isBlank w) : StopsAt isNamePart w :=
  fun c hc => isNamePart_eq_false_of_isBlank (h c (List.mem_of_mem_head? hc))

/-! ## The steps -/

/-- A text that begins with another character does not begin with the word. -/
theorem literal?_eq_none_of_head? {u : String} {tail : List Char} (hu : u.toList = c :: tail)
    (h : cs.head? ≠ some c) : literal? u cs = none := by
  rw [Option.eq_none_iff_forall_ne_some]
  intro rest hrest
  rw [literal?_eq_some_iff.mp hrest, hu] at h
  exact h rfl

/-- A run is a piece of the class, not empty, that could not be longer. -/
theorem run?_eq_some_iff_append :
    run? p cs = some (w, rest) ↔ w ≠ [] ∧ AllIn p w ∧ StopsAt p rest ∧ cs = w ++ rest := by
  rw [run?_eq_some_iff]
  constructor
  · rintro ⟨hne, rfl, rfl⟩
    exact ⟨hne, fun c hc => List.mem_takeWhile_imp hc, stopsAt_dropWhile,
      List.takeWhile_append_dropWhile.symm⟩
  · rintro ⟨hne, hw, hrest, rfl⟩
    exact ⟨hne, takeWhile_eq_of_stopsAt hw hrest, dropWhile_eq_of_stopsAt hw hrest⟩

/-- Where no character of the class begins the text there is no run. -/
theorem run?_eq_none_of_stopsAt (h : StopsAt p cs) : run? p cs = none := by
  rw [Option.eq_none_iff_forall_ne_some]
  rintro ⟨w, rest⟩ hrun
  obtain ⟨hne, hw, _, rfl⟩ := run?_eq_some_iff_append.mp hrun
  obtain ⟨c, w, rfl⟩ := List.exists_cons_of_ne_nil hne
  have hc := (allIn_cons.mp hw).1
  rw [stopsAt_cons.mp h] at hc
  cases hc

/-- White space is skipped up to the first character that is none. -/
theorem afterBlanks_eq_iff :
    afterBlanks cs = rest ↔ ∃ w, AllIn isBlank w ∧ StopsAt isBlank rest ∧ cs = w ++ rest := by
  constructor
  · rintro rfl
    exact ⟨cs.takeWhile isBlank, fun c hc => List.mem_takeWhile_imp hc, stopsAt_dropWhile,
      List.takeWhile_append_dropWhile.symm⟩
  · rintro ⟨w, hw, hrest, rfl⟩
    exact dropWhile_eq_of_stopsAt hw hrest

theorem afterBlanks_append (hw : AllIn isBlank w) : afterBlanks (w ++ rest) = afterBlanks rest :=
  List.dropWhile_append_of_pos hw

theorem afterBlanks_of_stopsAt (h : StopsAt isBlank cs) : afterBlanks cs = cs :=
  afterBlanks_eq_iff.mpr ⟨[], allIn_nil, h, rfl⟩

/-- White space that has to be there is white space, and at least one character. -/
theorem afterSpace?_eq_some_iff :
    afterSpace? cs = some rest ↔
      ∃ w, w ≠ [] ∧ AllIn isBlank w ∧ StopsAt isBlank rest ∧ cs = w ++ rest := by
  cases cs with
  | nil =>
      constructor
      · intro h
        cases h
      · rintro ⟨w, hne, _, _, h⟩
        exact absurd (List.append_eq_nil_iff.mp h.symm).1 hne
  | cons c cs =>
      simp only [afterSpace?, Option.ite_none_right_eq_some, Option.some.injEq,
        afterBlanks_eq_iff]
      constructor
      · rintro ⟨hc, w, hw, hrest, rfl⟩
        exact ⟨c :: w, List.cons_ne_nil c w, allIn_cons.mpr ⟨hc, hw⟩, hrest, rfl⟩
      · rintro ⟨w, hne, hw, hrest, h⟩
        obtain ⟨d, w, rfl⟩ := List.exists_cons_of_ne_nil hne
        obtain ⟨rfl, rfl⟩ := List.cons.inj h
        exact ⟨(allIn_cons.mp hw).1, w, (allIn_cons.mp hw).2, hrest, rfl⟩

theorem afterSpace?_eq_map_run? : afterSpace? cs = (run? isBlank cs).map Prod.snd := by
  refine Option.ext fun rest => ?_
  rw [afterSpace?_eq_some_iff, Option.map_eq_some_iff]
  constructor
  · rintro ⟨w, hne, hw, hrest, rfl⟩
    exact ⟨(w, rest), run?_eq_some_iff_append.mpr ⟨hne, hw, hrest, rfl⟩, rfl⟩
  · rintro ⟨⟨w, rest⟩, hrun, rfl⟩
    exact ⟨w, run?_eq_some_iff_append.mp hrun⟩

end IdlGlue.Scan
