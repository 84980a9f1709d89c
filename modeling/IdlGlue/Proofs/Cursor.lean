/-
# IdlGlue.Proofs.Cursor -- reading with a cursor

    behind the gap            stage                     next stage
    nothing                   any                       done
    an include line           headers                   headers
    a delegate                headers, delegates        delegates
    an interface block        any                       interfaces
    anything else             any                       text where an interface should begin

A source file is read by one loop with a cursor, whose stages do not go back. Each round cuts
the text twice, behind the gap and behind the statement: by the number of bytes that the gap
loop has come to, and by the one that the recogniser has counted. What the statement declares
is worked out before the loop goes on.

`SourceFile.ofText` has three loops in a row instead, knows no bytes, and works out the
declarations at the end. The two come to the same, in no more rounds than the text has
characters, and one (`sourceRound_readsThrough`); and so it is for the members of a body
(`bodyRound_readsThrough`).
-/
import IdlGlue.Proofs.GapLoop
import IdlGlue.Proofs.Measured

namespace IdlGlue.Scan.Recognizer

/-- The recogniser that reads nothing. -/
def never {α : Type} : Recognizer α where
  read _ := none
  advances h := nomatch h

end IdlGlue.Scan.Recognizer

namespace IdlGlue

open IdlGlue.Text IdlGlue.Scan IdlGlue.Statement

/-! ## The loops -/

/-- A round that has read a statement of `n` bytes at the cursor: it ends the loop with the fault
that there is in what the statement declares, or goes on behind the statement. -/
def passOver {σ α β : Type} (rest : List Char) (n : Nat) (declared : Except Fault α)
    (next : α → List Char → σ) : Option (Round σ (Except Fault β)) :=
  match declared with
  | .error fault => some (.done (.error fault))
  | .ok a => (sliceFrom? rest n).map fun behind => .next (next a behind)

/-- The cursor in the body of an interface: the members before it, and the text behind it. -/
structure BodyCursor where
  members : List Member
  rest : List Char

/-- A round of the loop over the members of a body. -/
def bodyRound (s : BodyCursor) : Option (Round BodyCursor (Except Fault (List Member))) :=
  (sliceFrom? s.rest (gapSize s.rest)).bind fun rest =>
    if rest.isEmpty then
      some (.done (.ok s.members))
    else
      match member.outcome rest with
      | some (statement, n) =>
        passOver rest n (Member.ofStatement statement) fun m behind =>
          { members := s.members ++ [m], rest := behind }
      | none => some (.done (.error (.noStatementAt rest)))

/-- The part of a source file that the cursor is in. -/
inductive Stage where
  | headers
  | delegates
  | interfaces
deriving DecidableEq, Repr

/-- Include lines are read before everything else. -/
def Stage.header : Stage → Recognizer (List Char)
  | .headers => Statement.header
  | .delegates | .interfaces => .never

/-- Delegates are read up to the first interface. -/
def Stage.delegate : Stage → Recognizer DelegateText
  | .headers | .delegates => Statement.delegate
  | .interfaces => .never

/-- The cursor in a source file: what is declared before it, and the text behind it. -/
structure Cursor where
  stage : Stage
  file : SourceFile
  rest : List Char

/-- Before the text nothing is declared. -/
def Cursor.start (cs : List Char) : Cursor where
  stage := .headers
  file := { headers := [], delegates := [], interfaces := [] }
  rest := cs

/-- A round of the loop over a source file. -/
def sourceRound (s : Cursor) : Option (Round Cursor (Except Fault SourceFile)) :=
  (sliceFrom? s.rest (gapSize s.rest)).bind fun rest =>
    if rest.isEmpty then
      some (.done (.ok s.file))
    else
      match s.stage.header.outcome rest with
      | some (line, n) =>
        passOver rest n (.ok (String.ofList line)) fun line behind =>
          { s with file := { s.file with headers := s.file.headers ++ [line] }, rest := behind }
      | none =>
        match s.stage.delegate.outcome rest with
        | some (statement, n) =>
          passOver rest n (Delegate.ofStatement statement) fun d behind =>
            { stage := .delegates
              file := { s.file with delegates := s.file.delegates ++ [d] }, rest := behind }
        | none =>
          match interface.outcome rest with
          | some (statement, n) =>
            passOver rest n (Interface.ofStatement statement) fun i behind =>
              { stage := .interfaces
                file := { s.file with interfaces := s.file.interfaces ++ [i] }, rest := behind }
          | none => some (.done (.error (.noInterfaceAt rest)))

/-! ## Loops that read a text through -/

/-- The text that is left is one that stands at the end of the text before, and is shorter. -/
def Shortens (before after : List Char) : Prop := after <:+ before ∧ after.length < before.length

/-- From `start` the loop comes to `answer`, in at most as many rounds as the text behind the
cursor has characters, and one. On the way the cursor stays in that text, and no cut fails. -/
structure ReadsThrough {σ α : Type} (round : σ → Option (Round σ α)) (rest : σ → List Char)
    (start : σ) (answer : α) : Prop where
  ends : Ends round ((rest start).length + 1) start answer
  within : ∀ {s}, Reaches round start s → rest s <:+ rest start ∧ ∃ r, round s = some r

/-- The round of the state ends with what is to come for it, or leaves less text, and the same to
come. -/
def Proceeds {σ α : Type} (round : σ → Option (Round σ α)) (rest : σ → List Char)
    (outcome : σ → α) (s : σ) : Prop :=
  round s = some (.done (outcome s)) ∨
    ∃ s', round s = some (.next s') ∧ Shortens (rest s) (rest s') ∧ outcome s' = outcome s

/-- A loop whose rounds proceed reads every text through. -/
theorem ReadsThrough.of_proceeds {σ α : Type} {round : σ → Option (Round σ α)}
    {rest : σ → List Char} {outcome : σ → α} (hround : ∀ s, Proceeds round rest outcome s)
    (start : σ) : ReadsThrough round rest start (outcome start) := by
  have hends : Ends round ((rest start).length + 1) start (outcome start) := by
    refine Ends.of_decreasing (P := fun k s a => k = (rest s).length ∧ a = outcome s) ?_
      ⟨rfl, rfl⟩
    rintro k s a ⟨rfl, rfl⟩
    rcases hround s with hdone | ⟨s', hnext, hshortens, hsame⟩
    · exact Or.inl hdone
    · exact Or.inr ⟨_, s', hnext, hshortens.2, rfl, hsame.symm⟩
  have hsuffix : ∀ {s s'}, rest s <:+ rest start → round s = some (.next s') →
      rest s' <:+ rest start := by
    intro s s' hs hnext
    rcases hround s with hdone | ⟨s'', hnext', hshortens, _⟩
    · cases hdone.symm.trans hnext
    · cases hnext'.symm.trans hnext
      exact hshortens.1.trans hs
  exact ⟨hends, fun h => ⟨h.keeps (P := fun s => rest s <:+ rest start) hsuffix List.suffix_rfl,
    hends.not_stuck h⟩⟩

/-! ## A round that reads a statement -/

section Step

variable {α β γ σ : Type} {r : Recognizer α} {cs behind rest : List Char} {a : α}

theorem outcome_of_read (h : r.read cs = some (a, behind)) :
    r.outcome cs = some (a, byteSize (consumed cs behind)) := by
  rw [Recognizer.outcome, h, Option.map_some]

theorem outcome_of_none (h : r.read cs = none) : r.outcome cs = none := by
  rw [Recognizer.outcome, h, Option.map_none]

theorem shortens_of_read (h : r.read (afterGap rest) = some (a, behind)) : Shortens rest behind :=
  ⟨(r.suffix h).trans (afterGap_suffix rest),
    Nat.lt_of_lt_of_le (r.length_lt h) (afterGap_suffix rest).length_le⟩

/-- Behind a statement that has been read the cut does not fail: a round that passes over it ends
with the fault of its declaration, or goes on. -/
theorem passOver_step {P : σ → Prop} {declared : Except Fault β} {next : β → List Char → σ}
    {answer : Except Fault γ} (h : r.read cs = some (a, behind))
    (herror : ∀ {fault}, declared = .error fault → answer = .error fault)
    (hok : ∀ {b}, declared = .ok b → P (next b behind)) :
    passOver cs (byteSize (consumed cs behind)) declared next = some (.done answer) ∨
      ∃ s', (passOver cs (byteSize (consumed cs behind)) declared next :
        Option (Round σ (Except Fault γ))) = some (.next s') ∧ P s' := by
  cases hdeclared : declared with
  | error fault =>
      rw [herror hdeclared]
      exact Or.inl rfl
  | ok b =>
      refine Or.inr ⟨next b behind, ?_, hok hdeclared⟩
      rw [passOver, Recognizer.sliceFrom?_of_reads h, Option.map_some]

end Step

/-! ## The members of a body -/

/-- What is left to come for a cursor in a body: the members that the text behind it declares. -/
def BodyCursor.outcome (s : BodyCursor) : Except Fault (List Member) :=
  (member.readAll (afterGap s.rest)).1.mapM Member.ofStatement >>= fun members =>
  expectEnd .noStatementAt (member.readAll (afterGap s.rest)).2 >>= fun _ =>
  pure (s.members ++ members)

theorem bodyRound_proceeds (s : BodyCursor) :
    Proceeds bodyRound BodyCursor.rest BodyCursor.outcome s := by
  rw [Proceeds, bodyRound, sliceFrom?_gapSize, Option.bind_some]
  by_cases hend : afterGap s.rest = []
  · refine Or.inl ?_
    rw [BodyCursor.outcome, hend, member.readAll_of_none member.read_nil]
    simp [expectEnd]
  rw [if_neg (by simpa using hend)]
  cases hread : member.read (afterGap s.rest) with
  | none =>
      refine Or.inl ?_
      simp only [outcome_of_none hread, BodyCursor.outcome, member.readAll_of_none hread]
      exact congrArg (fun x => some (Round.done x)) (expectEnd_bind_of_ne hend _).symm
  | some m =>
      obtain ⟨statement, behind⟩ := m
      have hall := member.readAll_of_some hread
      simp only [outcome_of_read hread]
      refine passOver_step hread (fun herror => ?_) fun hok => ⟨shortens_of_read hread, ?_⟩
      · rw [BodyCursor.outcome, hall, Traversal.mapM_cons_of_error herror]
      · rw [BodyCursor.outcome, BodyCursor.outcome, hall, Traversal.mapM_cons_of_ok hok]
        simp only [List.append_assoc, List.cons_append, List.nil_append]

/-- The loop over a body comes to the members of the body. -/
theorem bodyRound_readsThrough (body : List Char) :
    ReadsThrough bodyRound BodyCursor.rest { members := [], rest := body }
      (Member.listOfBody body) := by
  have hthrough := ReadsThrough.of_proceeds bodyRound_proceeds { members := [], rest := body }
  rw [listOfBody_of_readAll rfl]
  exact hthrough

/-! ## The declarations of a file -/

/-- What is left to come for a cursor in a file: the declarations of the text behind it. -/
def Cursor.outcome (s : Cursor) : Except Fault SourceFile :=
  let headers := s.stage.header.readAll (afterGap s.rest)
  let delegates := s.stage.delegate.readAll headers.2
  let interfaces := interface.readAll delegates.2
  delegates.1.mapM Delegate.ofStatement >>= fun ds =>
  interfaces.1.mapM Interface.ofStatement >>= fun is =>
  expectEnd .noInterfaceAt interfaces.2 >>= fun _ =>
  pure { headers := s.file.headers ++ headers.1.map String.ofList
         delegates := s.file.delegates ++ ds, interfaces := s.file.interfaces ++ is }

theorem readAll_never {α : Type} (cs : List Char) :
    (Recognizer.never : Recognizer α).readAll cs = ([], cs) :=
  Recognizer.never.readAll_of_none rfl

/-- Where a delegate is read, the cursor is not behind an interface yet. -/
theorem Stage.delegate_eq {stage : Stage} {cs rest : List Char} {s : DelegateText}
    (h : stage.delegate.read cs = some (s, rest)) : stage.delegate = Statement.delegate := by
  cases stage with
  | headers => rfl
  | delegates => rfl
  | interfaces => cases h

/-! The recognisers are tried in turn: include lines, delegates, interfaces. One that reads nothing
leaves the text to the next, and where none of them is left the round is the last. -/

section Turns

variable {s : Cursor} {behind : List Char}

theorem sourceRound_at_end (hend : afterGap s.rest = []) :
    Proceeds sourceRound Cursor.rest Cursor.outcome s := by
  refine Or.inl ?_
  have hnone : ∀ {α : Type} (r : Recognizer α), r.readAll [] = ([], []) := fun r =>
    r.readAll_of_none r.read_nil
  rw [sourceRound, sliceFrom?_gapSize]
  simp [Cursor.outcome, hend, hnone, expectEnd]

theorem sourceRound_at_header {line : List Char} (hend : afterGap s.rest ≠ [])
    (h : s.stage.header.read (afterGap s.rest) = some (line, behind)) :
    Proceeds sourceRound Cursor.rest Cursor.outcome s := by
  have hall := s.stage.header.readAll_of_some h
  rw [Proceeds, sourceRound, sliceFrom?_gapSize, Option.bind_some, if_neg (by simpa using hend)]
  simp only [outcome_of_read h]
  refine passOver_step h (fun herror => ?_) fun hok => ⟨shortens_of_read h, ?_⟩
  · cases herror
  · cases hok
    simp only [Cursor.outcome, hall, List.map_cons, List.append_assoc, List.cons_append,
      List.nil_append]

theorem sourceRound_at_delegate {statement : DelegateText} (hend : afterGap s.rest ≠ [])
    (hheader : s.stage.header.read (afterGap s.rest) = none)
    (h : s.stage.delegate.read (afterGap s.rest) = some (statement, behind)) :
    Proceeds sourceRound Cursor.rest Cursor.outcome s := by
  have hheaders := s.stage.header.readAll_of_none hheader
  have hall := s.stage.delegate.readAll_of_some h
  rw [Proceeds, sourceRound, sliceFrom?_gapSize, Option.bind_some, if_neg (by simpa using hend)]
  simp only [outcome_of_none hheader, outcome_of_read h]
  refine passOver_step h (fun herror => ?_) fun hok => ⟨shortens_of_read h, ?_⟩
  · simp only [Cursor.outcome, hheaders, hall, Traversal.mapM_cons_of_error herror]
  · -- The next stage reads delegates as this one does.
    have hstage := Stage.delegate_eq h
    rw [hstage] at hall
    simp only [Cursor.outcome, hheaders, hstage, hall, Traversal.mapM_cons_of_ok hok]
    simp only [Stage.header, Stage.delegate, readAll_never, List.append_assoc, List.cons_append,
      List.nil_append]

theorem sourceRound_at_interface {statement : InterfaceText} (hend : afterGap s.rest ≠ [])
    (hheader : s.stage.header.read (afterGap s.rest) = none)
    (hdelegate : s.stage.delegate.read (afterGap s.rest) = none)
    (h : interface.read (afterGap s.rest) = some (statement, behind)) :
    Proceeds sourceRound Cursor.rest Cursor.outcome s := by
  have hheaders := s.stage.header.readAll_of_none hheader
  have hdelegates := s.stage.delegate.readAll_of_none hdelegate
  have hall := interface.readAll_of_some h
  rw [Proceeds, sourceRound, sliceFrom?_gapSize, Option.bind_some, if_neg (by simpa using hend)]
  simp only [outcome_of_none hheader, outcome_of_none hdelegate, outcome_of_read h]
  refine passOver_step h (fun herror => ?_) fun hok => ⟨shortens_of_read h, ?_⟩
  · simp only [Cursor.outcome, hheaders, hdelegates, hall, Traversal.mapM_cons_of_error herror]
    rfl
  · simp only [Cursor.outcome, hheaders, hdelegates, hall, Traversal.mapM_cons_of_ok hok]
    simp only [Stage.header, Stage.delegate, readAll_never, List.append_assoc, List.cons_append,
      List.nil_append]

theorem sourceRound_at_leftover (hend : afterGap s.rest ≠ [])
    (hheader : s.stage.header.read (afterGap s.rest) = none)
    (hdelegate : s.stage.delegate.read (afterGap s.rest) = none)
    (hinterface : interface.read (afterGap s.rest) = none) :
    Proceeds sourceRound Cursor.rest Cursor.outcome s := by
  refine Or.inl ?_
  have hheaders := s.stage.header.readAll_of_none hheader
  have hdelegates := s.stage.delegate.readAll_of_none hdelegate
  rw [sourceRound, sliceFrom?_gapSize, Option.bind_some, if_neg (by simpa using hend)]
  simp only [outcome_of_none hheader, outcome_of_none hdelegate, outcome_of_none hinterface,
    Cursor.outcome, hheaders, hdelegates, interface.readAll_of_none hinterface]
  exact congrArg (fun x => some (Round.done x)) (expectEnd_bind_of_ne hend _).symm

end Turns

theorem sourceRound_proceeds (s : Cursor) :
    Proceeds sourceRound Cursor.rest Cursor.outcome s := by
  by_cases hend : afterGap s.rest = []
  · exact sourceRound_at_end hend
  cases hheader : s.stage.header.read (afterGap s.rest) with
  | some m => exact sourceRound_at_header hend hheader
  | none =>
      cases hdelegate : s.stage.delegate.read (afterGap s.rest) with
      | some m => exact sourceRound_at_delegate hend hheader hdelegate
      | none =>
          cases hinterface : interface.read (afterGap s.rest) with
          | some m => exact sourceRound_at_interface hend hheader hdelegate hinterface
          | none => exact sourceRound_at_leftover hend hheader hdelegate hinterface

/-- The loop over a file comes to the declarations of the file. -/
theorem sourceRound_readsThrough (text : String) :
    ReadsThrough sourceRound Cursor.rest (.start text.toList) (SourceFile.ofText text) := by
  have hthrough := ReadsThrough.of_proceeds sourceRound_proceeds (.start text.toList)
  rw [ofText_of_readAll rfl rfl rfl]
  exact hthrough

/-- **A cursor never loses its place.** Each recogniser passes over a number of bytes that is not
zero and is that of a beginning of the text, in which all lies that it captures. So both loops,
over a file and over a body, cut their text only where it can be cut, and come to the declarations
after at most one round more than the text has characters, whatever the text is. -/
theorem cursor_law :
    (header.Measures (fun line => [line]) ∧ interface.Measures InterfaceText.captured ∧
      property.Measures PropertyText.captured ∧ method.Measures MethodText.captured ∧
      constructor.Measures (fun args => [args]) ∧ delegate.Measures DelegateText.captured) ∧
    (∀ text : String, ReadsThrough sourceRound Cursor.rest (.start text.toList)
      (SourceFile.ofText text)) ∧
    ∀ body, ReadsThrough bodyRound BodyCursor.rest { members := [], rest := body }
      (Member.listOfBody body) := by
  refine ⟨⟨?_, ?_, ?_, ?_, ?_, ?_⟩, sourceRound_readsThrough, bodyRound_readsThrough⟩
  · exact measures_header
  · exact measures_interface
  · exact measures_property
  · exact measures_method
  · exact measures_constructor
  · exact measures_delegate

end IdlGlue
