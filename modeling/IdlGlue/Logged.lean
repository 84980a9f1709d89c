/-
# IdlGlue.Logged -- a computation that tells what it does

A logged computation gives a value or stops with a fault, and either way it has told
some events. What was told before a fault stays told: the events of a sequence are
those of its first part, followed by those of its second where there is one
(`events_bind`).
-/
import IdlGlue.Event

namespace IdlGlue

/-- An outcome, with the events told on the way. -/
structure Logged (α : Type) where
  events : List Event
  outcome : Except Fault α

namespace Logged

variable {α β : Type}

/-- A second computation on the value of the first, if there is a value. -/
def bind (x : Logged α) (f : α → Logged β) : Logged β :=
  match x.outcome with
  | .ok a => { events := x.events ++ (f a).events, outcome := (f a).outcome }
  | .error fault => { events := x.events, outcome := .error fault }

instance : Monad Logged where
  pure a := { events := [], outcome := .ok a }
  bind := bind

/-- Tell one event. -/
def tell (e : Event) : Logged Unit := { events := [e], outcome := .ok () }

/-- An outcome without events. -/
def ofExcept (x : Except Fault α) : Logged α := { events := [], outcome := x }

instance : MonadLift (Except Fault) Logged where
  monadLift := ofExcept

/-- The computation with its fault, if it has one, attributed to a source file. -/
def blame (path : String) (x : Logged α) : Logged α :=
  { x with outcome := x.outcome.mapError (Fault.blame path) }

/-! ## Laws -/

theorem ext {x y : Logged α} (he : x.events = y.events) (ho : x.outcome = y.outcome) : x = y := by
  cases x
  cases y
  cases he
  cases ho
  rfl

theorem bind_of_ok {x : Logged α} {a : α} (h : x.outcome = .ok a) (f : α → Logged β) :
    x >>= f = { events := x.events ++ (f a).events, outcome := (f a).outcome } := by
  change bind x f = _
  simp [bind, h]

theorem bind_of_error {x : Logged α} {fault : Fault} (h : x.outcome = .error fault)
    (f : α → Logged β) : x >>= f = { events := x.events, outcome := .error fault } := by
  change bind x f = _
  simp [bind, h]

instance : LawfulMonad Logged := LawfulMonad.mk' Logged
  (by
    intro α x
    change bind x _ = x
    cases x with
    | mk events outcome => cases outcome <;> simp [bind])
  (by
    intro α β a f
    change bind _ f = f a
    simp [bind, pure])
  (by
    intro α β γ x f g
    change bind (bind x f) g = bind x fun a => bind (f a) g
    cases x with
    | mk events outcome =>
      cases outcome with
      | error fault => simp [bind]
      | ok a =>
        cases hf : (f a).outcome <;> simp [bind, hf])

/-- The events of a sequence. -/
theorem events_bind (x : Logged α) (f : α → Logged β) :
    (x >>= f).events =
      x.events ++ match x.outcome with
        | .ok a => (f a).events
        | .error _ => [] := by
  change (bind x f).events = _
  unfold bind
  split <;> simp_all

/-- The outcome of a sequence. -/
theorem outcome_bind (x : Logged α) (f : α → Logged β) :
    (x >>= f).outcome = x.outcome >>= fun a => (f a).outcome := by
  change (bind x f).outcome = _
  unfold bind
  split <;> simp_all [Bind.bind, Except.bind]

@[simp] theorem events_ofExcept (x : Except Fault α) : (ofExcept x).events = [] := rfl

@[simp] theorem outcome_ofExcept (x : Except Fault α) : (ofExcept x).outcome = x := rfl

end Logged

end IdlGlue
