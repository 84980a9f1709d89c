/-
# IdlGlue.Proofs.Traversal -- sequences and traversals that may stop with a fault

A sequence gives a value exactly when its parts do, and stops with the fault of the first
part that has one; a traversal gives values exactly when every element does. A fold that
gives a value has taken all elements, step by step.
-/
import Mathlib.Data.List.Forall2

namespace IdlGlue.Traversal

variable {ε α β : Type}

/-! ## Sequences -/

theorem bind_eq_ok_iff {x : Except ε α} {f : α → Except ε β} {b : β} :
    x >>= f = .ok b ↔ ∃ a, x = .ok a ∧ f a = .ok b := by
  cases x with
  | error e => simp [bind, Except.bind]
  | ok a => simp [bind, Except.bind]

theorem bind_eq_error_iff {x : Except ε α} {f : α → Except ε β} {e : ε} :
    x >>= f = .error e ↔ x = .error e ∨ ∃ a, x = .ok a ∧ f a = .error e := by
  cases x with
  | error e' => simp [bind, Except.bind]
  | ok a => simp [bind, Except.bind]

theorem isOk_iff {x : Except ε α} : x.isOk = true ↔ ∃ a, x = .ok a := by
  cases x with
  | error e => exact iff_of_false nofun fun ⟨_, h⟩ => nomatch h
  | ok a => exact iff_of_true rfl ⟨a, rfl⟩

theorem map_eq_ok_iff {x : Except ε α} {f : α → β} {b : β} :
    x.map f = .ok b ↔ ∃ a, x = .ok a ∧ f a = b := by
  cases x with
  | error e => exact iff_of_false nofun fun ⟨_, h, _⟩ => nomatch h
  | ok a => simp [Except.map]

theorem map_eq_error_iff {x : Except ε α} {f : α → β} {e : ε} :
    x.map f = .error e ↔ x = .error e := by
  cases x with
  | error e' => simp [Except.map]
  | ok a => exact iff_of_false nofun nofun

theorem mapError_eq_ok_iff {ε' : Type} {x : Except ε α} {f : ε → ε'} {a : α} :
    x.mapError f = .ok a ↔ x = .ok a := by
  cases x with
  | error e => exact iff_of_false nofun nofun
  | ok b => simp [Except.mapError]

theorem mapError_eq_error_iff {ε' : Type} {x : Except ε α} {f : ε → ε'} {e : ε'} :
    x.mapError f = .error e ↔ ∃ e', x = .error e' ∧ e = f e' := by
  cases x with
  | error e' => simp [Except.mapError, eq_comm]
  | ok b => simp [Except.mapError]

/-! ## Traversals -/

variable {f : α → Except ε β} {xs : List α}

/-- A traversal succeeds element by element. -/
theorem mapM_eq_ok_iff {ys : List β} :
    xs.mapM f = .ok ys ↔ List.Forall₂ (fun x y => f x = .ok y) xs ys := by
  induction xs generalizing ys with
  | nil =>
      rw [List.mapM_nil, List.forall₂_nil_left_iff]
      exact ⟨fun h => (Except.ok.inj h).symm, fun h => h ▸ rfl⟩
  | cons x xs ih =>
      rw [List.mapM_cons, bind_eq_ok_iff, List.forall₂_cons_left_iff]
      constructor
      · rintro ⟨y, hy, h⟩
        obtain ⟨rest, hrest, h⟩ := bind_eq_ok_iff.mp h
        exact ⟨y, rest, hy, ih.mp hrest, (Except.ok.inj h).symm⟩
      · rintro ⟨y, rest, hy, hrest, rfl⟩
        exact ⟨y, hy, bind_eq_ok_iff.mpr ⟨rest, ih.mpr hrest, rfl⟩⟩

/-- Whatever goes on behind a traversal sees the value of its first element in front. -/
theorem mapM_cons_of_ok {γ : Type} {x : α} {y : β} (h : f x = .ok y) (k : List β → Except ε γ) :
    (x :: xs).mapM f >>= k = xs.mapM f >>= fun ys => k (y :: ys) := by
  rw [List.mapM_cons, h]
  show (xs.mapM f >>= fun ys => pure (y :: ys)) >>= k = _
  rw [bind_assoc]
  rfl

theorem mapM_cons_of_error {γ : Type} {x : α} {e : ε} (h : f x = .error e)
    (k : List β → Except ε γ) : (x :: xs).mapM f >>= k = .error e := by
  rw [List.mapM_cons, h]
  rfl

/-- What matches holds on one side of a traversal exactly when it holds on the other. -/
theorem exists_mem_iff_of_forall₂ {R : α → β → Prop} {ys : List β} {P : α → Prop} {Q : β → Prop}
    (h : List.Forall₂ R xs ys) (hPQ : ∀ x y, R x y → (Q y ↔ P x)) :
    (∃ y ∈ ys, Q y) ↔ ∃ x ∈ xs, P x := by
  induction h with
  | nil => exact iff_of_false (fun ⟨_, h, _⟩ => nomatch h) fun ⟨_, h, _⟩ => nomatch h
  | cons hxy _ ih => rw [List.exists_mem_cons_iff, List.exists_mem_cons_iff, hPQ _ _ hxy, ih]

/-- What follows from a match holds of everything that is matched. -/
theorem forall_mem_of_forall₂ {R : α → β → Prop} {ys : List β} {P : β → Prop}
    (h : List.Forall₂ R xs ys) (hP : ∀ x ∈ xs, ∀ y, R x y → P y) : ∀ y ∈ ys, P y := by
  induction h with
  | nil => exact List.forall_mem_nil P
  | cons hxy _ ih =>
      obtain ⟨hx, hxs⟩ := List.forall_mem_cons.mp hP
      exact List.forall_mem_cons.mpr ⟨hx _ hxy, ih hxs⟩

/-! ## Folds -/

/-- A fold keeps what each step keeps, told by the elements that it has taken. -/
theorem invariant_foldlM {σ : Type} {step : σ → α → Except ε σ} {P : List α → σ → Prop}
    (hstep : ∀ {taken x s s'}, P taken s → step s x = .ok s' → P (taken ++ [x]) s')
    {taken : List α} {s s' : σ} (hs : P taken s) (h : xs.foldlM step s = .ok s') :
    P (taken ++ xs) s' := by
  induction xs generalizing taken s with
  | nil =>
      cases h
      rw [List.append_nil]
      exact hs
  | cons x xs ih =>
      rw [List.foldlM_cons] at h
      obtain ⟨next, hnext, h⟩ := bind_eq_ok_iff.mp h
      rw [List.append_cons]
      exact ih (hstep hs hnext) h

end IdlGlue.Traversal
