/-
# IdlGlue.Proofs.Tiled -- statements one after the other, with gaps behind them

`Tiled Reads cs as rest` says that the text `cs` is statements which are read as `as`,
with a gap behind each, and then `rest`. Like `Gap` it computes nothing: where each gap
ends, and which statement is the last, is left open.

The loop `readAll` gives one such tiling, the longest (`tiled_readAll`). It is the only
one that ends where no gap begins and no further statement does (`Tiled.readAll_eq`),
provided that no statement begins with what a gap may begin with.
-/
import IdlGlue.Proofs.Gap
import Mathlib.Data.List.Forall2

namespace IdlGlue.Scan

variable {α β : Type} {R : List Char → α → List Char → Prop}

/-- Statements, each with a gap behind it, from the first text to the second. `R cs a rest`
is to mean that a statement which is read as `a` stands between `cs` and `rest`. -/
inductive Tiled (R : List Char → α → List Char → Prop) :
    List Char → List α → List Char → Prop
  | nil (cs : List Char) : Tiled R cs [] cs
  | cons {cs behind next rest : List Char} {a : α} {as : List α} :
      R cs a behind → Gap behind next → Tiled R next as rest → Tiled R cs (a :: as) rest

/-! ## Tilings by another relation -/

theorem Tiled.mono {S : List Char → α → List Char → Prop} {cs rest : List Char} {as : List α}
    (h : Tiled R cs as rest) (hRS : ∀ {cs a rest}, R cs a rest → S cs a rest) :
    Tiled S cs as rest := by
  induction h with
  | nil cs => exact .nil cs
  | cons hread hgap _ ih => exact .cons (hRS hread) hgap ih

/-- What holds of each statement by itself can be said behind the tiling. -/
theorem tiled_and_iff {P : α → Prop} {cs rest : List Char} {as : List α} :
    Tiled (fun cs a rest => R cs a rest ∧ P a) cs as rest ↔
      Tiled R cs as rest ∧ ∀ a ∈ as, P a := by
  constructor
  · intro h
    induction h with
    | nil cs => exact ⟨.nil cs, List.forall_mem_nil P⟩
    | cons hread hgap _ ih =>
        exact ⟨.cons hread.1 hgap ih.1, List.forall_mem_cons.mpr ⟨hread.2, ih.2⟩⟩
  · rintro ⟨h, hP⟩
    induction h with
    | nil cs => exact .nil cs
    | cons hread hgap _ ih =>
        obtain ⟨ha, has⟩ := List.forall_mem_cons.mp hP
        exact .cons ⟨hread, ha⟩ hgap (ih has)

/-- To read and then to work out what is declared is one tiling by declarations. -/
theorem tiled_forall₂_iff {D : α → β → Prop} {cs rest : List Char} {bs : List β} :
    Tiled (fun cs b rest => ∃ a, R cs a rest ∧ D a b) cs bs rest ↔
      ∃ as, Tiled R cs as rest ∧ List.Forall₂ D as bs := by
  constructor
  · intro h
    induction h with
    | nil cs => exact ⟨[], .nil cs, .nil⟩
    | cons hread hgap _ ih =>
        obtain ⟨a, hread, hD⟩ := hread
        obtain ⟨as, htiled, hDs⟩ := ih
        exact ⟨a :: as, .cons hread hgap htiled, .cons hD hDs⟩
  · rintro ⟨as, htiled, hDs⟩
    induction htiled generalizing bs with
    | nil cs =>
        cases hDs
        exact .nil cs
    | cons hread hgap _ ih =>
        cases hDs with
        | cons hD hDs => exact .cons ⟨_, hread, hD⟩ hgap (ih hDs)

/-- A tiling of two lists is a tiling of one and then of the other. -/
theorem tiled_append_iff {cs rest : List Char} {as bs : List α} :
    Tiled R cs (as ++ bs) rest ↔ ∃ mid, Tiled R cs as mid ∧ Tiled R mid bs rest := by
  constructor
  · intro h
    induction as generalizing cs with
    | nil => exact ⟨cs, .nil cs, h⟩
    | cons a as ih =>
        cases h with
        | cons hread hgap hrest =>
            obtain ⟨mid, hfirst, hsecond⟩ := ih hrest
            exact ⟨mid, .cons hread hgap hfirst, hsecond⟩
  · rintro ⟨mid, hfirst, hsecond⟩
    induction hfirst with
    | nil => exact hsecond
    | cons hread hgap _ ih => exact .cons hread hgap (ih hsecond)

theorem tiled_map_iff {S : List Char → β → List Char → Prop} {f : α → β} {cs rest : List Char}
    {as : List α} :
    Tiled S cs (as.map f) rest ↔ Tiled (fun cs a rest => S cs (f a) rest) cs as rest := by
  constructor
  · intro h
    induction as generalizing cs with
    | nil =>
        cases h
        exact .nil _
    | cons a as ih =>
        cases h with
        | cons hread hgap hrest => exact .cons hread hgap (ih hrest)
  · intro h
    induction h with
    | nil cs => exact .nil cs
    | cons hread hgap _ ih => exact .cons hread hgap ih

/-! ## Where a tiling begins -/

/-- A tiling begins with its first statement, or where it ends. -/
theorem Tiled.start {P : List Char → Prop} {cs rest : List Char} {as : List α}
    (h : Tiled R cs as rest) (hread : ∀ {cs a behind}, R cs a behind → P cs) (hrest : P rest) :
    P cs := by
  cases h with
  | nil => exact hrest
  | cons hfirst _ _ => exact hread hfirst

/-! ## The tiling of the loop -/

namespace Recognizer

variable (r : Recognizer α)

/-- The statement at the start of the text is read as `a`, and `rest` is left. -/
def Reads (cs : List Char) (a : α) (rest : List Char) : Prop := r.read cs = some (a, rest)

/-- What is read at the start of a text, and how many bytes of it are passed over. -/
def outcome (cs : List Char) : Option (α × Nat) :=
  (r.read cs).map fun m => (m.1, Text.byteSize (consumed cs m.2))

theorem outcome_of_reads {piece rest : List Char} {a : α} (h : r.Reads (piece ++ rest) a rest) :
    r.outcome (piece ++ rest) = some (a, Text.byteSize piece) := by
  rw [outcome, h, Option.map_some, consumed_append_left]

/-- What is read at one place ends at one place. -/
theorem ends {cs rest rest' : List Char} {a b : α} (h : r.Reads cs a rest)
    (h' : r.Reads cs b rest') : rest = rest' :=
  (Prod.mk.inj (Option.some.inj (h.symm.trans h'))).2

/-- The loop tiles the text up to where no statement begins. -/
theorem tiled_readAll (cs : List Char) :
    Tiled r.Reads cs (r.readAll cs).1 (r.readAll cs).2 ∧ r.read (r.readAll cs).2 = none := by
  fun_induction readAll r cs with
  | case1 cs h => exact ⟨.nil cs, h⟩
  | case2 cs a behind h others last hothers ih =>
      rw [hothers] at ih
      exact ⟨.cons h (gap_afterGap behind) ih.1, ih.2⟩

/-- No statement is empty. -/
theorem read_nil : r.read [] = none := by
  rw [Option.eq_none_iff_forall_ne_some]
  rintro ⟨a, rest⟩ h
  obtain ⟨piece, hne, heq⟩ := r.advances h
  exact hne (List.append_eq_nil_iff.mp heq.symm).1

end Recognizer

/-- The loop goes no further from here: neither a gap begins nor a statement. -/
structure Recognizer.Halts (r : Recognizer α) (rest : List Char) : Prop where
  gap : afterGap rest = rest
  read : r.read rest = none

theorem Recognizer.halts_nil (r : Recognizer α) : r.Halts [] where
  gap := settled_nil.afterGap_eq_self
  read := r.read_nil

/-- Behind a tiling the loop goes on where it ends, if no gap begins there. -/
theorem Tiled.readAll_append {r : Recognizer α} {cs rest : List Char} {as : List α}
    (h : Tiled r.Reads cs as rest) (hsettled : ∀ {cs a behind}, r.Reads cs a behind → Settled cs)
    (hrest : afterGap rest = rest) :
    r.readAll cs = (as ++ (r.readAll rest).1, (r.readAll rest).2) := by
  induction h with
  | nil cs => rfl
  | cons hread hgap htiled ih =>
      -- The next statement begins where no gap does, so the gap is the one the loop takes.
      have hnext := htiled.start (P := fun cs => afterGap cs = cs)
        (fun h => (hsettled h).afterGap_eq_self) hrest
      rw [r.readAll_of_some hread, hgap.afterGap_eq, hnext, ih hrest]
      rfl

/-- A tiling that ends where the loop cannot go on is the tiling of the loop. -/
theorem Tiled.readAll_eq {r : Recognizer α} {cs rest : List Char} {as : List α}
    (h : Tiled r.Reads cs as rest) (hsettled : ∀ {cs a behind}, r.Reads cs a behind → Settled cs)
    (hrest : r.Halts rest) : r.readAll cs = (as, rest) := by
  rw [h.readAll_append hsettled hrest.gap, r.readAll_of_none hrest.read, List.append_nil]

/-- Where the loop begins behind a gap, it ends behind one. -/
theorem Recognizer.halts_readAll (r : Recognizer α) {cs : List Char} (hcs : afterGap cs = cs) :
    r.Halts (r.readAll cs).2 := by
  refine ⟨?_, (r.tiled_readAll cs).2⟩
  fun_induction readAll r cs with
  | case1 cs => exact hcs
  | case2 cs a behind h others last hothers ih =>
      rw [hothers] at ih
      exact ih (gap_afterGap behind).afterGap_eq.symm

/-- The loop reads a text as it is tiled behind a gap, up to where it cannot go on. -/
theorem readAll_afterGap_eq_iff {r : Recognizer α} {cs rest : List Char} {as : List α}
    (hsettled : ∀ {cs a behind}, r.Reads cs a behind → Settled cs) :
    r.readAll (afterGap cs) = (as, rest) ↔
      r.Halts rest ∧ ∃ first, Gap cs first ∧ Tiled r.Reads first as rest := by
  constructor
  · intro h
    have htiled := (r.tiled_readAll (afterGap cs)).1
    have hhalts := r.halts_readAll (gap_afterGap cs).afterGap_eq.symm
    rw [h] at htiled hhalts
    exact ⟨hhalts, afterGap cs, gap_afterGap cs, htiled⟩
  · rintro ⟨hhalts, first, hgap, htiled⟩
    have hfirst := htiled.start (P := fun cs => afterGap cs = cs)
      (fun h => (hsettled h).afterGap_eq_self) hhalts.gap
    rw [hgap.afterGap_eq, hfirst]
    exact htiled.readAll_eq hsettled hhalts

end IdlGlue.Scan
