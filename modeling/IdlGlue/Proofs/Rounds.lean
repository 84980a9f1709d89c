/-
# IdlGlue.Proofs.Rounds -- loops, told by what one round does

    next s     the loop goes round again, from the state s
    done a     the loop ends with the answer a
    none       the round gets stuck: it cuts a text where it cannot be cut

A loop is given by its round. `Rounds round n s a` says that from the state `s` it ends with
`a`, in its round number `n`; a loop that gets stuck on the way, or goes round for ever, has
no such `n` and no such `a`. What a round leaves is a state again, so nothing here bounds the
number of rounds from the outside: the bound has to come from what gets less in each of them
(`Ends.of_decreasing`).
-/
import Mathlib.Logic.Basic

namespace IdlGlue

/-- What a round of a loop comes to. -/
inductive Round (σ α : Type) where
  | next (s : σ)
  | done (a : α)
deriving DecidableEq, Repr

/-- From the state the loop ends with `a`, and the number of its rounds is `n`. -/
inductive Rounds {σ α : Type} (round : σ → Option (Round σ α)) : Nat → σ → α → Prop
  | done {s : σ} {a : α} : round s = some (.done a) → Rounds round 1 s a
  | next {s s' : σ} {n : Nat} {a : α} :
      round s = some (.next s') → Rounds round n s' a → Rounds round (n + 1) s a

/-- The loop comes from the first state to the second, in any number of rounds. -/
inductive Reaches {σ α : Type} (round : σ → Option (Round σ α)) : σ → σ → Prop
  | refl (s : σ) : Reaches round s s
  | next {s s' t : σ} : round s = some (.next s') → Reaches round s' t → Reaches round s t

/-- From the state the loop ends after `bound` rounds or sooner, and with `a` only. -/
structure Ends {σ α : Type} (round : σ → Option (Round σ α)) (bound : Nat) (s : σ) (a : α) :
    Prop where
  run : ∃ n, Rounds round n s a
  only : ∀ {n b}, Rounds round n s b → n ≤ bound ∧ b = a

section Loop

variable {σ α : Type} {round : σ → Option (Round σ α)} {s t : σ} {a b : α} {n m k : Nat}

/-- A loop has one answer, and comes to it in one number of rounds. -/
theorem Rounds.unique (h : Rounds round n s a) (h' : Rounds round m s b) : n = m ∧ a = b := by
  induction h generalizing m with
  | done hround =>
      cases h' with
      | done hround' =>
          cases hround.symm.trans hround'
          exact ⟨rfl, rfl⟩
      | next hround' _ => cases hround.symm.trans hround'
  | next hround _ ih =>
      cases h' with
      | done hround' => cases hround.symm.trans hround'
      | next hround' hrest =>
          cases hround.symm.trans hround'
          obtain ⟨rfl, hab⟩ := ih hrest
          exact ⟨rfl, hab⟩

theorem Rounds.ends (h : Rounds round n s a) (hn : n ≤ k) : Ends round k s a where
  run := ⟨n, h⟩
  only h' := by
    obtain ⟨rfl, rfl⟩ := h.unique h'
    exact ⟨hn, rfl⟩

/-- **What gets less in each round bounds the rounds.** `P k s a` is to say of a state that `k` is
left of what gets less, and that `a` is what the loop has still to come to. -/
theorem Ends.of_decreasing {P : Nat → σ → α → Prop}
    (hround : ∀ {k s a}, P k s a → round s = some (.done a) ∨
      ∃ j s', round s = some (.next s') ∧ j < k ∧ P j s' a)
    (h : P k s a) : Ends round (k + 1) s a := by
  suffices h : ∃ n ≤ k + 1, Rounds round n s a by
    obtain ⟨n, hn, hrun⟩ := h
    exact hrun.ends hn
  induction k using Nat.strongRecOn generalizing s with
  | ind k ih =>
      rcases hround h with hdone | ⟨j, s', hnext, hj, h⟩
      · exact ⟨1, by omega, .done hdone⟩
      · obtain ⟨n, hn, hrun⟩ := ih j hj h
        exact ⟨n + 1, by omega, .next hnext hrun⟩

/-- What each round keeps holds of all states that the loop comes to. -/
theorem Reaches.keeps {P : σ → Prop} (hround : ∀ {s s'}, P s → round s = some (.next s') → P s')
    (h : Reaches round s t) (hs : P s) : P t := by
  induction h with
  | refl s => exact hs
  | next hnext _ ih => exact ih (hround hs hnext)

/-- A loop that ends gets stuck in none of its rounds. -/
theorem Ends.not_stuck (hends : Ends round k s a) (h : Reaches round s t) :
    ∃ r, round t = some r := by
  obtain ⟨n, hrun⟩ := hends.run
  clear hends
  induction h generalizing n with
  | refl s =>
      cases hrun with
      | done hround => exact ⟨_, hround⟩
      | next hround _ => exact ⟨_, hround⟩
  | next hnext _ ih =>
      cases hrun with
      | done hround => cases hnext.symm.trans hround
      | next hround hrest =>
          cases hnext.symm.trans hround
          exact ih _ hrest

end Loop

end IdlGlue
