/-
# IdlGlue.Proofs.Verdict -- when a computation succeeds, and with which fault it stops

`Verdict x accepted refused` describes an outcome completely: it is a success exactly under
`accepted`, and it is the fault `e` exactly under `refused e`. Verdicts compose as the
computations do. In a sequence the second part counts only where the first is accepted,
and a pass over a list stops at its first refused element (`FirstRefused`), the fault
of which is the fault of the pass.

So a verdict on a long computation is put together from those on its parts, and no
computation has to be run to obtain it.
-/
import IdlGlue.Fault
import IdlGlue.Proofs.Traversal

namespace IdlGlue

variable {α β : Type}

/-- The outcome is a success exactly under `accepted`, and the fault `e` exactly under
`refused e`. -/
structure Verdict (x : Except Fault α) (accepted : Prop) (refused : Fault → Prop) : Prop where
  ok_iff : (∃ a, x = .ok a) ↔ accepted
  error_iff : ∀ e, x = .error e ↔ refused e

/-- The first element of the list that is not accepted is refused with `e`. -/
def FirstRefused (accepted : α → Prop) (refused : α → Fault → Prop) (xs : List α)
    (e : Fault) : Prop :=
  ∃ before x after, xs = before ++ x :: after ∧ (∀ y ∈ before, accepted y) ∧ refused x e

section FirstRefused

variable {accepted : α → Prop} {refused : α → Fault → Prop}

theorem not_firstRefused_nil {e : Fault} : ¬ FirstRefused accepted refused [] e := by
  rintro ⟨before, x, after, h, _⟩
  exact absurd h.symm (by simp)

theorem firstRefused_cons {x : α} {xs : List α} {e : Fault} :
    FirstRefused accepted refused (x :: xs) e ↔
      refused x e ∨ accepted x ∧ FirstRefused accepted refused xs e := by
  constructor
  · rintro ⟨before, y, after, h, hbefore, hy⟩
    cases before with
    | nil =>
        obtain ⟨rfl, rfl⟩ := List.cons.inj h
        exact Or.inl hy
    | cons z before =>
        obtain ⟨rfl, rfl⟩ := List.cons.inj h
        obtain ⟨hx, hbefore⟩ := List.forall_mem_cons.mp hbefore
        exact Or.inr ⟨hx, before, y, after, rfl, hbefore, hy⟩
  · rintro (hx | ⟨hx, before, y, after, rfl, hbefore, hy⟩)
    · exact ⟨[], x, xs, rfl, List.forall_mem_nil _, hx⟩
    · exact ⟨x :: before, y, after, rfl, List.forall_mem_cons.mpr ⟨hx, hbefore⟩, hy⟩

theorem firstRefused_append {xs ys : List α} {e : Fault} :
    FirstRefused accepted refused (xs ++ ys) e ↔
      FirstRefused accepted refused xs e ∨
        (∀ x ∈ xs, accepted x) ∧ FirstRefused accepted refused ys e := by
  induction xs with
  | nil => simp [not_firstRefused_nil]
  | cons x xs ih =>
      rw [List.cons_append, firstRefused_cons, firstRefused_cons, ih, List.forall_mem_cons,
        and_or_left, or_assoc, and_assoc]

/-- A pass over passes is a pass over all their elements. -/
theorem firstRefused_flatMap {f : β → List α} {xs : List β} {e : Fault} :
    FirstRefused accepted refused (xs.flatMap f) e ↔
      FirstRefused (fun x => ∀ y ∈ f x, accepted y)
        (fun x => FirstRefused accepted refused (f x)) xs e := by
  induction xs with
  | nil => exact iff_of_false not_firstRefused_nil not_firstRefused_nil
  | cons x xs ih => rw [List.flatMap_cons, firstRefused_append, firstRefused_cons, ih]

end FirstRefused

namespace Verdict

variable {x : Except Fault α} {A B : Prop} {R S : Fault → Prop}

theorem ok (a : α) : Verdict (.ok a) True fun _ => False where
  ok_iff := ⟨fun _ => trivial, fun _ => ⟨a, rfl⟩⟩
  error_iff _ := ⟨fun h => (nomatch h), False.elim⟩

theorem error (e : Fault) : Verdict (.error e : Except Fault α) False (· = e) where
  ok_iff := ⟨fun ⟨_, h⟩ => (nomatch h), False.elim⟩
  error_iff _ := ⟨fun h => (Except.error.inj h).symm, fun h => h ▸ rfl⟩

/-- A computation of which nothing else is known speaks for itself. -/
theorem self (x : Except Fault α) : Verdict x (∃ a, x = .ok a) fun e => x = .error e :=
  ⟨Iff.rfl, fun _ => Iff.rfl⟩

/-- What is not accepted is refused with some fault. -/
theorem exists_refused (h : Verdict x A R) (hA : ¬ A) : ∃ e, R e := by
  cases x with
  | ok a => exact absurd (h.ok_iff.mp ⟨a, rfl⟩) hA
  | error e => exact ⟨e, (h.error_iff e).mp rfl⟩

/-- What is refused is not accepted. -/
theorem not_accepted (h : Verdict x A R) {e : Fault} (he : R e) : ¬ A := by
  intro hA
  obtain ⟨a, ha⟩ := h.ok_iff.mpr hA
  cases ha.symm.trans ((h.error_iff e).mpr he)

/-- A rule that covers its case. -/
theorem covered (a : α) {e : Fault} (hA : A) : Verdict (.ok a) A fun e' => ¬ A ∧ e' = e :=
  ⟨iff_of_true ⟨a, rfl⟩ hA, fun _ => iff_of_false (fun h => nomatch h) fun h => h.1 hA⟩

/-- A rule that has only a refusal. -/
theorem uncovered {e : Fault} (hA : ¬ A) :
    Verdict (.error e : Except Fault α) A fun e' => ¬ A ∧ e' = e :=
  ⟨iff_of_false (fun ⟨_, h⟩ => nomatch h) hA, fun _ =>
    ⟨fun h => ⟨hA, (Except.error.inj h).symm⟩, fun h => h.2 ▸ rfl⟩⟩

/-- A verdict may be read in other words. -/
theorem congr (h : Verdict x A R) (hA : A ↔ B) (hR : ∀ e, R e ↔ S e) : Verdict x B S where
  ok_iff := h.ok_iff.trans hA
  error_iff e := (h.error_iff e).trans (hR e)

/-- In a sequence the second part is looked at only where the first is accepted. -/
theorem bind (h : Verdict x A R) {f : α → Except Fault β}
    (hf : ∀ a, x = .ok a → Verdict (f a) B S) :
    Verdict (x >>= f) (A ∧ B) fun e => R e ∨ A ∧ S e := by
  refine ⟨?_, fun e => ?_⟩
  · rw [← h.ok_iff]
    constructor
    · rintro ⟨b, hb⟩
      obtain ⟨a, ha, hfa⟩ := Traversal.bind_eq_ok_iff.mp hb
      exact ⟨⟨a, ha⟩, (hf a ha).ok_iff.mp ⟨b, hfa⟩⟩
    · rintro ⟨⟨a, ha⟩, hB⟩
      obtain ⟨b, hb⟩ := (hf a ha).ok_iff.mpr hB
      exact ⟨b, Traversal.bind_eq_ok_iff.mpr ⟨a, ha, hb⟩⟩
  · rw [Traversal.bind_eq_error_iff, h.error_iff, ← h.ok_iff]
    refine or_congr_right ?_
    constructor
    · rintro ⟨a, ha, he⟩
      exact ⟨⟨a, ha⟩, ((hf a ha).error_iff e).mp he⟩
    · rintro ⟨⟨a, ha⟩, he⟩
      exact ⟨a, ha, ((hf a ha).error_iff e).mpr he⟩

/-- What is made of the value of a computation does not count. -/
theorem bind_pure (h : Verdict x A R) (f : α → β) :
    Verdict (x >>= fun a => pure (f a)) A R :=
  (h.bind fun a _ => ok (f a)).congr (and_iff_left trivial) fun e => by
    rw [and_false, or_false]

/-! ## Passes over a list -/

variable {accepted : α → Prop} {refused : α → Fault → Prop}

theorem mapM {f : α → Except Fault β} {xs : List α}
    (h : ∀ a ∈ xs, Verdict (f a) (accepted a) (refused a)) :
    Verdict (xs.mapM f) (∀ a ∈ xs, accepted a) (FirstRefused accepted refused xs) := by
  induction xs with
  | nil =>
      refine (ok []).congr ?_ fun e => ?_
      · exact iff_of_true trivial (List.forall_mem_nil _)
      · exact iff_of_false id not_firstRefused_nil
  | cons a xs ih =>
      obtain ⟨ha, hxs⟩ := List.forall_mem_cons.mp h
      rw [List.mapM_cons]
      refine (ha.bind fun b _ => (ih hxs).bind_pure (b :: ·)).congr ?_ fun e => ?_
      · exact List.forall_mem_cons.symm
      · exact firstRefused_cons.symm

theorem foldlM {σ : Type} {f : σ → α → Except Fault σ} {xs : List α}
    (h : ∀ s, ∀ a ∈ xs, Verdict (f s a) (accepted a) (refused a)) (s : σ) :
    Verdict (xs.foldlM f s) (∀ a ∈ xs, accepted a) (FirstRefused accepted refused xs) := by
  induction xs generalizing s with
  | nil =>
      refine (ok s).congr ?_ fun e => ?_
      · exact iff_of_true trivial (List.forall_mem_nil _)
      · exact iff_of_false id not_firstRefused_nil
  | cons a xs ih =>
      have ha := h s a List.mem_cons_self
      rw [List.foldlM_cons]
      refine (ha.bind fun s' _ => ih (fun s b hb => h s b (List.mem_cons_of_mem a hb)) s').congr
        ?_ fun e => ?_
      · exact List.forall_mem_cons.symm
      · exact firstRefused_cons.symm

end Verdict

end IdlGlue
