/-
# IdlGlue.Proofs.Outcome -- the outcomes of the generator, without what it tells

The generator tells events on its way, and a fault does not undo them. For the question
which glue it makes, or why it makes none, they do not count: each part of it has an
outcome that is a plain sequence of the outcomes of its own parts.
-/
import IdlGlue.Glue.File

namespace IdlGlue

open IdlGlue.Native

variable {α β : Type}

namespace Logged

/-- What is told does not count for the outcome of a pass. -/
theorem outcome_mapM (f : α → Logged β) (xs : List α) :
    (xs.mapM f).outcome = xs.mapM fun a => (f a).outcome := by
  induction xs with
  | nil => rfl
  | cons a xs ih =>
      rw [List.mapM_cons, List.mapM_cons, outcome_bind]
      simp only [outcome_bind, ih]
      rfl

theorem outcome_foldlM {σ : Type} (f : σ → α → Logged σ) (xs : List α) (s : σ) :
    (xs.foldlM f s).outcome = xs.foldlM (fun s a => (f s a).outcome) s := by
  induction xs generalizing s with
  | nil => rfl
  | cons a xs ih =>
      rw [List.foldlM_cons, List.foldlM_cons, outcome_bind]
      simp only [ih]

end Logged

namespace Glue

/-! ## Methods -/

/-- The part of a method that asks native code. -/
def methodAsk (r : Rules) (m : Method) (source : Access) : Except Fault (List Stmt) :=
  if m.result = .void then pure [.perform source]
  else giveAccess r m.result source (methodSelector m.params)

theorem methodFunction_eq (c : Context) (m : Method) :
    methodFunction c m = (do
      let reads ← readParams c.rules m.params
      let operands ← callOperands m.params
      let ask ← methodAsk c.rules m (.call (memberName m.name m.nameAsIs) operands)
      return {
        symbol := .method c.flat m.name
        body := .expectCall false (m.params.length + 1) :: receiver c.name ++ reads ++ ask ++
          [.returnOutput] }) := by
  unfold methodFunction methodAsk
  split
  · rfl
  · rfl

/-! ## Members in a draft -/

theorem outcome_accept_constructor (c : Context) (d : Draft) (params : List Param) :
    (d.accept c (.constructor params)).outcome = (do
      let function ← constructorFunction c params
      return { d with constructor := some { function, paramCount := params.length } }) := by
  rw [Draft.accept]
  split
  · rw [Logged.outcome_bind]
    exact Logged.outcome_bind _ _
  · exact Logged.outcome_bind _ _

theorem outcome_accept_method (c : Context) (d : Draft) (m : Method) :
    (d.accept c (.method m)).outcome = (do
      let function ← methodFunction c m
      return { d with functions := d.functions ++ [function], methods := d.methods ++ [m.name] }) :=
  Logged.outcome_bind _ _

theorem outcome_accept_property (c : Context) (d : Draft) (p : Property) :
    (d.accept c (.property p)).outcome = (do
      let functions ← propertyFunctions c p
      return { d with
        functions := d.functions ++ functions
        properties := d.properties ++ [{ name := p.name, readonly := p.readonly }] }) :=
  Logged.outcome_bind _ _

/-! ## Interfaces, delegates and files -/

theorem outcome_interfaceGlue (rules : Rules) (i : Interface) :
    (interfaceGlue rules i).outcome = (do
      let draft ← i.members.foldlM
        (fun d m => (Draft.accept { name := i.name, rules } d m).outcome) Draft.empty
      return draft.finish { name := i.name, rules }) := by
  rw [interfaceGlue, Logged.outcome_bind, Logged.outcome_foldlM]
  rfl

theorem outcome_callbackGlue (rules : Rules) (d : Delegate) :
    (callbackGlue rules d).outcome = (do
      let result ← rules.signatureType d.result
      let params ← d.params.mapM fun p => rules.signatureType p.type
      return { flatName := d.flatName, result, params }) := by
  rw [callbackGlue, Logged.outcome_bind]
  simp only [Logged.outcome_bind, Logged.outcome_mapM]
  rfl

/-- The rules under which the glue of a file is made. -/
def rulesFor (dialect : Dialect) (registry : Registry) (file : SourceFile) : Rules :=
  { dialect, registry, delegates := file.delegates }

theorem outcome_fileGlue (dialect : Dialect) (registry : Registry) (file : SourceFile) :
    (fileGlue dialect registry file).outcome = (do
      checkNames file
      let callbacks ← file.delegates.mapM fun d =>
        (callbackGlue (rulesFor dialect registry file) d).outcome
      let interfaces ← file.interfaces.mapM fun i =>
        (interfaceGlue (rulesFor dialect registry file) i).outcome
      return {
        headers := dialect.runtimeHeaders ++ file.headers
        callbacks
        slots := slotsOf file
        interfaces }) := by
  rw [fileGlue, Logged.outcome_bind]
  simp only [Logged.outcome_bind, Logged.outcome_mapM]
  rfl

end Glue

end IdlGlue
