/-
# IdlGlue.LoggedT -- logged computations that act

`LoggedT m` is what `Logged` is, with actions of `m` on the way. An action that is
done stays done when a later part stops with a fault: the actions of a sequence are
those of its first part, followed by those of its second where there is one.
-/
import IdlGlue.Logged

namespace IdlGlue

/-- Actions that give an outcome, with the events told on the way. -/
def LoggedT (m : Type → Type) (α : Type) : Type := m (Logged α)

namespace LoggedT

variable {m : Type → Type} [Monad m] {α β : Type}

/-- The actions of the computation. -/
def run (x : LoggedT m α) : m (Logged α) := x

/-- The computation that does these actions. -/
def mk (x : m (Logged α)) : LoggedT m α := x

/-- A second computation on the value of the first, if there is a value. -/
def bind (x : LoggedT m α) (f : α → LoggedT m β) : LoggedT m β := mk do
  let first ← x.run
  match first.outcome with
  | .ok a =>
    let second ← (f a).run
    return { events := first.events ++ second.events, outcome := second.outcome }
  | .error fault => return { events := first.events, outcome := .error fault }

instance : Monad (LoggedT m) where
  pure a := mk (pure (pure a))
  bind := bind

/-- A computation without actions. -/
instance : MonadLift Logged (LoggedT m) where
  monadLift x := mk (pure x)

/-- An action that tells nothing. -/
instance : MonadLift m (LoggedT m) where
  monadLift x := mk (pure <$> x)

/-- Tell one event. -/
def tell (e : Event) : LoggedT m Unit := mk (pure (Logged.tell e))

/-- An action on a path. Where it is refused the path is at fault. -/
def onPath (path : String) (x : m (Except AccessCause α)) : LoggedT m α := mk do
  return Logged.ofExcept ((← x).mapError (Fault.fileAccess path))

/-! ## Laws -/

omit [Monad m] in
@[simp] theorem run_mk (x : m (Logged α)) : (mk x).run = x := rfl

@[simp] theorem run_pure (a : α) : (pure a : LoggedT m α).run = pure (pure a) := rfl

theorem run_bind (x : LoggedT m α) (f : α → LoggedT m β) :
    (x >>= f).run = x.run >>= fun first =>
      match first.outcome with
      | .ok a => (f a).run >>= fun second =>
        pure { events := first.events ++ second.events, outcome := second.outcome }
      | .error fault => pure { events := first.events, outcome := .error fault } := rfl

end LoggedT

end IdlGlue
