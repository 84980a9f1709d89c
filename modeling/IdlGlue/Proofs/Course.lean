/-
# IdlGlue.Proofs.Course -- what a run over a folder can do

A run makes the folder of the outputs, lists the sources, begins the outputs, and takes the
sources one after the other. A refused action changes nothing, so whatever stops the run leaves
the tree as it was before that step:

| step                     | what can stop it                | what it has done to the tree else |
|--------------------------|---------------------------------|-----------------------------------|
| make the folder          | no access                       | new folders                       |
| list the sources         | no access                       | nothing                           |
| begin the outputs        | no access (aggregate only)      | an empty aggregate                |
| take a source            | no access, no glue, a clash     | its glue in its output, if any    |

`Takes` and `Stops` say what becomes of one source, `Course` says it of the sources up to some
point, and `Ends` of the whole run. That a run can end in no other way is `runOn_ends`.
-/
import IdlGlue.Batch.Run
import IdlGlue.Proofs.Folders

namespace IdlGlue

open IdlGlue.Disk

/-! ## Actions on a tree -/

namespace LoggedT

variable {α β : Type}

/-- What an action on a tree comes to, without what it tells. -/
def on (x : LoggedT (StateM Tree) α) (t : Tree) : Except Fault α × Tree :=
  ((StateT.run (m := Id) x.run t).1.outcome, (StateT.run (m := Id) x.run t).2)

theorem on_pure (a : α) (t : Tree) : (pure a : LoggedT (StateM Tree) α).on t = (.ok a, t) := rfl

theorem on_tell (e : Event) (t : Tree) : (tell e : LoggedT (StateM Tree) Unit).on t = (.ok (), t) :=
  rfl

theorem on_onPath (path : String) (x : StateM Tree (Except AccessCause α)) (t : Tree) :
    (onPath path x).on t =
      ((StateT.run (m := Id) x t).1.mapError (Fault.fileAccess path),
        (StateT.run (m := Id) x t).2) := rfl

/-- A sequence goes on in the tree that its first part has left. -/
theorem on_bind (x : LoggedT (StateM Tree) α) (f : α → LoggedT (StateM Tree) β) (t : Tree) :
    (x >>= f).on t =
      match x.on t with
      | (.ok a, s) => (f a).on s
      | (.error e, s) => (.error e, s) := by
  unfold on
  rw [run_bind]
  simp only [StateT.run_bind]
  obtain ⟨⟨⟨events, outcome⟩, s⟩, hx⟩ : ∃ result, StateT.run (m := Id) x.run t = result := ⟨_, rfl⟩
  rw [hx]
  cases outcome with
  | ok a => rfl
  | error e => rfl

/-- A last step that only changes the value. -/
theorem on_map (x : LoggedT (StateM Tree) α) (f : α → β) (t : Tree) :
    (do
      let a ← x
      return f a : LoggedT (StateM Tree) β).on t = ((x.on t).1.map f, (x.on t).2) := by
  rw [on_bind]
  obtain ⟨result, s⟩ := x.on t
  cases result with
  | error e => rfl
  | ok a => rfl

theorem on_readText (path : String) (t : Tree) :
    (onPath path (FileAccess.readText (m := StateM Tree) path)).on t =
      ((t.readText path).mapError (Fault.fileAccess path), t) := rfl

theorem on_blame (path : String) (x : Except Fault α) (t : Tree) :
    (liftM ((Logged.ofExcept x).blame path) : LoggedT (StateM Tree) α).on t =
      (x.mapError (Fault.blame path), t) := rfl

/-- A change to the tree. Where it is refused there is none. -/
theorem on_change (path : String) (f : Tree → Except AccessCause Tree) (t : Tree) :
    (onPath path (Tree.change f)).on t =
      match f t with
      | .ok t' => (.ok (), t')
      | .error cause => (.error (.fileAccess path cause), t) := by
  rw [on_onPath]
  show ((Tree.change f t).1.mapError _, (Tree.change f t).2) = _
  unfold Tree.change
  cases f t with
  | ok t' => rfl
  | error cause => rfl

theorem on_writeText (path text : String) (t : Tree) :
    (onPath path (FileAccess.writeText (m := StateM Tree) path text)).on t =
      match t.write path text.toUTF8 with
      | .ok t' => (.ok (), t')
      | .error cause => (.error (.fileAccess path cause), t) :=
  on_change path (·.write path text.toUTF8) t

theorem on_appendText (path text : String) (t : Tree) :
    (onPath path (FileAccess.appendText (m := StateM Tree) path text)).on t =
      match t.append path text.toUTF8 with
      | .ok t' => (.ok (), t')
      | .error cause => (.error (.fileAccess path cause), t) :=
  on_change path (·.append path text.toUTF8) t

end LoggedT

namespace Batch

namespace Job

variable {job : Job} {d d' : Declared} {t t' u : Tree} {name : String}

/-! ## One source -/

/-- The glue of a source, as it stands in the tree. -/
def glueIn (job : Job) (t : Tree) (name : String) : Except Fault Compiled := do
  let text ← (t.readText (job.sourcePath name)).mapError (Fault.fileAccess (job.sourcePath name))
  (compile job.options text).outcome.mapError (Fault.blame (job.sourcePath name))

/-- A source gives its glue where it can be read and compiles. -/
theorem glueIn_eq_ok_iff {c : Compiled} : job.glueIn t name = .ok c ↔
    ∃ text, t.readText (job.sourcePath name) = .ok text ∧
      (compile job.options text).outcome = .ok c := by
  unfold glueIn
  simp only [Traversal.bind_eq_ok_iff, Traversal.mapError_eq_ok_iff]

theorem glueIn_eq_error_iff {e : Fault} : job.glueIn t name = .error e ↔
    (∃ cause, t.readText (job.sourcePath name) = .error cause ∧
      e = .fileAccess (job.sourcePath name) cause) ∨
    ∃ text f, t.readText (job.sourcePath name) = .ok text ∧
      (compile job.options text).outcome = .error f ∧ e = f.blame (job.sourcePath name) := by
  unfold glueIn
  simp only [Traversal.bind_eq_error_iff, Traversal.mapError_eq_ok_iff,
    Traversal.mapError_eq_error_iff, exists_and_left]

/-- The names that are declared once the source has given its glue; only sources of an
aggregate are held against each other. -/
def declare (job : Job) (d : Declared) (c : Compiled) : Except Fault Declared :=
  match job.layout with
  | .perFile _ => .ok d
  | .aggregate _ => d.extend c

/-- The tree with the code of the source in its output. -/
def store (job : Job) (t : Tree) (name code : String) : Except AccessCause Tree :=
  match job.layout with
  | .perFile _ => t.write (job.outputPath name) code.toUTF8
  | .aggregate _ => t.append (job.outputPath name) code.toUTF8

/-- The source is taken: it declares nothing, or its glue goes to its output. -/
inductive Takes (job : Job) (d : Declared) (t : Tree) (name : String) :
    Compiled → Declared → Tree → Prop
  | skip {c} : job.glueIn t name = .ok c → c.isEmpty = true → Takes job d t name c d t
  | deliver {c d' t'} : job.glueIn t name = .ok c → c.isEmpty = false →
      job.declare d c = .ok d' → job.store t name c.code = .ok t' → Takes job d t name c d' t'

/-- The run stops at the source, and leaves the tree as it is. -/
inductive Stops (job : Job) (d : Declared) (t : Tree) (name : String) : Fault → Prop
  | glue {e} : job.glueIn t name = .error e → Stops job d t name e
  | clash {c e} : job.glueIn t name = .ok c → c.isEmpty = false → job.declare d c = .error e →
      Stops job d t name (e.blame (job.sourcePath name))
  | output {c d' cause} : job.glueIn t name = .ok c → c.isEmpty = false →
      job.declare d c = .ok d' → job.store t name c.code = .error cause →
      Stops job d t name (.fileAccess (job.outputPath name) cause)

theorem on_glueOf (job : Job) (name : String) (t : Tree) :
    (job.glueOf (m := StateM Tree) name).on t = (job.glueIn t name, t) := by
  rw [glueOf, LoggedT.on_bind, LoggedT.on_readText]
  unfold glueIn
  cases t.readText (job.sourcePath name) with
  | error cause => rfl
  | ok text => rfl

theorem on_deliver (job : Job) (d : Declared) (name : String) (c : Compiled) (t : Tree) :
    (job.deliver (m := StateM Tree) d name c).on t =
      match job.declare d c with
      | .error e => (.error (e.blame (job.sourcePath name)), t)
      | .ok d' =>
        match job.store t name c.code with
        | .error cause => (.error (.fileAccess (job.outputPath name) cause), t)
        | .ok t' => (.ok d', t') := by
  unfold deliver declare store
  cases job.layout with
  | perFile extension =>
      dsimp only
      rw [LoggedT.on_bind, LoggedT.on_writeText]
      cases t.write (job.outputPath name) c.code.toUTF8 with
      | error cause => rfl
      | ok t' => rfl
  | aggregate file =>
      dsimp only
      rw [LoggedT.on_bind, LoggedT.on_blame]
      cases d.extend c with
      | error e => rfl
      | ok d' =>
          show LoggedT.on (_ >>= _) t = _
          rw [LoggedT.on_bind, LoggedT.on_appendText]
          dsimp only
          cases t.append (job.outputPath name) c.code.toUTF8 with
          | error cause => rfl
          | ok t' => rfl

/-! ## All sources -/

/-- Sources are taken one after the other, each with the glue that it gives. -/
inductive Course (job : Job) : Declared → Tree → List (String × Compiled) → Declared → Tree → Prop
  | nil (d : Declared) (t : Tree) : Course job d t [] d t
  | cons {d d' d'' : Declared} {t t' t'' : Tree} {name : String} {c : Compiled}
      {rest : List (String × Compiled)} : Takes job d t name c d' t' →
      Course job d' t' rest d'' t'' → Course job d t ((name, c) :: rest) d'' t''

/-- The names of the sources that have given glue. -/
def compiledNames (done : List (String × Compiled)) : List String :=
  (done.filter fun s => !s.2.isEmpty).map Prod.fst

/-- The names of the sources that declare nothing. -/
def skippedNames (done : List (String × Compiled)) : List String :=
  (done.filter fun s => s.2.isEmpty).map Prod.fst

/-- What comes of the sources of these names, and what is left. -/
inductive Taken (job : Job) (d : Declared) (t : Tree) (names : List String) :
    Except Fault (List String × List String) → Tree → Prop
  | all (done : List (String × Compiled)) {d' t'} : names = done.map Prod.fst →
      Course job d t done d' t' →
      Taken job d t names (.ok (compiledNames done, skippedNames done)) t'
  | stopped (done : List (String × Compiled)) (name : String) (after : List String) {d' t' e} :
      names = done.map Prod.fst ++ name :: after → Course job d t done d' t' →
      Stops job d' t' name e → Taken job d t names (.error e) t'

/-- The names of the sources with one more in front. -/
def addName (name : String) (c : Compiled) (names : List String × List String) :
    List String × List String :=
  if c.isEmpty then (names.1, name :: names.2) else (name :: names.1, names.2)

theorem addName_names (name : String) (c : Compiled) (done : List (String × Compiled)) :
    addName name c (compiledNames done, skippedNames done) =
      (compiledNames ((name, c) :: done), skippedNames ((name, c) :: done)) := by
  unfold addName compiledNames skippedNames
  cases h : c.isEmpty <;> simp [h]

theorem Taken.cons {d d' : Declared} {t t' u : Tree} {name : String} {c : Compiled}
    {names : List String} {result : Except Fault (List String × List String)}
    (htake : Takes job d t name c d' t') (h : Taken job d' t' names result u) :
    Taken job d t (name :: names) (result.map (addName name c)) u := by
  cases h with
  | all done hnames hcourse =>
      show Taken job d t _ (.ok (addName name c _)) u
      rw [addName_names]
      exact .all ((name, c) :: done) (congrArg (name :: ·) hnames) (.cons htake hcourse)
  | stopped done next after hnames hcourse hstop =>
      exact .stopped ((name, c) :: done) next after (congrArg (name :: ·) hnames)
        (.cons htake hcourse) hstop

/-- A source is taken, or the run stops at it. -/
theorem takes_or_stops (job : Job) (d : Declared) (t : Tree) (name : String) :
    (∃ c d' t', Takes job d t name c d' t') ∨ ∃ e, Stops job d t name e := by
  cases hglue : job.glueIn t name with
  | error e => exact .inr ⟨e, .glue hglue⟩
  | ok c =>
      cases hempty : c.isEmpty with
      | true => exact .inl ⟨c, d, t, .skip hglue hempty⟩
      | false =>
          cases hdeclare : job.declare d c with
          | error e => exact .inr ⟨_, .clash hglue hempty hdeclare⟩
          | ok d' =>
              cases hstore : job.store t name c.code with
              | error cause => exact .inr ⟨_, .output hglue hempty hdeclare hstore⟩
              | ok t' => exact .inl ⟨c, d', t', .deliver hglue hempty hdeclare hstore⟩

/-- When a source is taken the loop goes on with the others. -/
theorem on_compileAll_of_takes {c : Compiled} (h : Takes job d t name c d' t')
    (names : List String) : (job.compileAll (m := StateM Tree) d (name :: names)).on t =
      (((job.compileAll (m := StateM Tree) d' names).on t').1.map (addName name c),
        ((job.compileAll (m := StateM Tree) d' names).on t').2) := by
  rw [compileAll, LoggedT.on_bind, on_glueOf]
  cases h with
  | skip hglue hempty =>
      have hadd : (fun names : List String × List String => (names.1, name :: names.2)) =
          addName name c := by
        funext names
        rw [addName, if_pos hempty]
      rw [hglue]
      dsimp only
      rw [if_pos hempty, LoggedT.on_bind, LoggedT.on_tell, ← hadd]
      exact LoggedT.on_map (job.compileAll d names) (fun names => (names.1, name :: names.2)) t
  | deliver hglue hempty hdeclare hstore =>
      have hadd : (fun names : List String × List String => (name :: names.1, names.2)) =
          addName name c := by
        funext names
        rw [addName, hempty]
        rfl
      rw [hglue]
      dsimp only
      rw [if_neg (by simp [hempty]), LoggedT.on_bind, on_deliver, hdeclare]
      dsimp only
      rw [hstore, ← hadd]
      exact LoggedT.on_map (job.compileAll d' names) (fun names => (name :: names.1, names.2)) t'

/-- When it stops at a source the loop comes to an end. -/
theorem on_compileAll_of_stops {e : Fault} (h : Stops job d t name e) (names : List String) :
    (job.compileAll (m := StateM Tree) d (name :: names)).on t = (.error e, t) := by
  rw [compileAll, LoggedT.on_bind, on_glueOf]
  cases h with
  | glue hglue => rw [hglue]
  | clash hglue hempty hdeclare =>
      rw [hglue]
      dsimp only
      rw [if_neg (by simp [hempty]), LoggedT.on_bind, on_deliver, hdeclare]
  | output hglue hempty hdeclare hstore =>
      rw [hglue]
      dsimp only
      rw [if_neg (by simp [hempty]), LoggedT.on_bind, on_deliver, hdeclare]
      dsimp only
      rw [hstore]

/-- The loop over the sources takes them up to the first at which it stops. -/
theorem compileAll_taken (job : Job) (d : Declared) (names : List String) (t : Tree) :
    Taken job d t names ((job.compileAll (m := StateM Tree) d names).on t).1
      ((job.compileAll (m := StateM Tree) d names).on t).2 := by
  induction names generalizing d t with
  | nil => exact .all [] rfl (.nil d t)
  | cons name names ih =>
      rcases takes_or_stops job d t name with ⟨c, d', t', htake⟩ | ⟨e, hstop⟩
      · rw [on_compileAll_of_takes htake]
        exact (ih d' t').cons htake
      · rw [on_compileAll_of_stops hstop]
        exact .stopped [] name names rfl (.nil d t) hstop

/-- Sources that can all be taken are all that the loop comes to. -/
theorem Course.on_compileAll {done : List (String × Compiled)} (h : Course job d t done d' t') :
    (job.compileAll (m := StateM Tree) d (done.map Prod.fst)).on t =
      (.ok (compiledNames done, skippedNames done), t') := by
  induction h with
  | nil d t => rfl
  | cons htake _ ih =>
      rw [List.map_cons, on_compileAll_of_takes htake, ih, ← addName_names]
      rfl

theorem Course.on_compileAll_stopped {done : List (String × Compiled)} {e : Fault}
    (h : Course job d t done d' t') (hstop : Stops job d' t' name e) (after : List String) :
    (job.compileAll (m := StateM Tree) d (done.map Prod.fst ++ name :: after)).on t =
      (.error e, t') := by
  induction h with
  | nil d t => exact on_compileAll_of_stops hstop after
  | cons htake _ ih =>
      rw [List.map_cons, List.cons_append, on_compileAll_of_takes htake, ih hstop]
      rfl

/-! ## Listing -/

/-- The path of a source leads to a file. -/
def leadsToFile (job : Job) (t : Tree) (name : String) : Bool :=
  match t.isRegular (job.sourcePath name) with
  | .ok regular => regular
  | .error _ => false

/-- The names of the sources in a tree, in their order. -/
def listing (job : Job) (t : Tree) : Except AccessCause (List String) :=
  (t.names job.source).map fun names =>
    ((names.filter job.namesSource).filter (job.leadsToFile t)).mergeSort (· ≤ ·)

theorem on_isSource (job : Job) (name : String) (t : Tree) :
    (job.isSource (m := StateM Tree) name).on t = (.ok (job.leadsToFile t name), t) := by
  have hregular : LoggedT.on (monadLift (FileAccess.isRegular (m := StateM Tree)
      (job.sourcePath name)) : LoggedT (StateM Tree) _) t =
      (.ok (t.isRegular (job.sourcePath name)), t) := rfl
  rw [isSource, LoggedT.on_bind, hregular, leadsToFile]
  cases t.isRegular (job.sourcePath name) with
  | error cause => rfl
  | ok regular => cases regular <;> rfl

/-- A test that leaves the tree as it is filters as it does by itself. -/
theorem on_filterM (f : String → LoggedT (StateM Tree) Bool) (keep : String → Bool) (t : Tree)
    (hf : ∀ name, (f name).on t = (.ok (keep name), t)) (names : List String) :
    (names.filterM f).on t = (.ok (names.filter keep), t) := by
  have haux (acc : List String) : (names.filterAuxM f acc).on t =
      (.ok ((names.filter keep).reverse ++ acc), t) := by
    induction names generalizing acc with
    | nil => rfl
    | cons name names ih =>
        rw [List.filterAuxM, LoggedT.on_bind, hf]
        dsimp only
        rw [ih]
        cases h : keep name <;> simp [h]
  rw [List.filterM, LoggedT.on_bind, haux]
  dsimp only
  rw [LoggedT.on_pure, List.append_nil, List.reverse_reverse]

theorem on_sources (job : Job) (t : Tree) : (job.sources (m := StateM Tree)).on t =
    ((job.listing t).mapError (Fault.fileAccess job.source), t) := by
  have hnames : (LoggedT.onPath job.source (FileAccess.names (m := StateM Tree) job.source)).on t =
      ((t.names job.source).mapError (Fault.fileAccess job.source), t) := rfl
  rw [sources, LoggedT.on_bind, hnames, listing]
  cases t.names job.source with
  | error cause => rfl
  | ok names =>
      show LoggedT.on (_ >>= _) t = _
      rw [LoggedT.on_bind, on_filterM _ _ t fun name => on_isSource job name t]
      rfl

/-! ## The whole run -/

/-- The outputs are begun: an aggregate is empty. -/
def begun (job : Job) (t : Tree) : Except AccessCause Tree :=
  match job.layout with
  | .perFile _ => .ok t
  | .aggregate file => t.write (Path.join job.destination file) "".toUTF8

theorem on_begin (job : Job) (t : Tree) : (job.begin (m := StateM Tree)).on t =
    match job.begun t with
    | .ok t' => (.ok (), t')
    | .error cause => (.error (.fileAccess (job.outputPath "") cause), t) := by
  unfold begin begun outputPath
  cases job.layout with
  | perFile extension => rfl
  | aggregate file => exact LoggedT.on_writeText _ _ t

/-- No file or folder has been refused to the run. -/
def Granted {α : Type} (outcome : Except Fault α) : Prop :=
  ∀ path cause, outcome ≠ .error (.fileAccess path cause)

/-- What a run reports of the sources that gave glue and of those that declare nothing. -/
def report (job : Job) (taken : List String × List String) : Report where
  compiled := taken.1.map job.sourcePath
  skipped := taken.2.map job.sourcePath
  written := job.outputs taken.1

/-- The sources of these names have been found, and the outputs are begun in the tree `t'`. The
folder of the outputs was made before that; `opened` is the tree with it. -/
structure Begins (job : Job) (t opened : Tree) (names : List String) (t' : Tree) : Prop where
  made : t.makeFolders job.destination = (.ok (), opened)
  listed : job.listing opened = .ok names
  begun : job.begun opened = .ok t'

/-- How a run ends, and what it leaves. -/
inductive Ends (job : Job) (t : Tree) : Except Fault Report → Tree → Prop
  | destination {cause u} : t.makeFolders job.destination = (.error cause, u) →
      Ends job t (.error (.fileAccess job.destination cause)) u
  | listing {cause u} : t.makeFolders job.destination = (.ok (), u) →
      job.listing u = .error cause → Ends job t (.error (.fileAccess job.source cause)) u
  | opening {names cause u} : t.makeFolders job.destination = (.ok (), u) →
      job.listing u = .ok names → job.begun u = .error cause →
      Ends job t (.error (.fileAccess (job.outputPath "") cause)) u
  | stopped {opened t' : Tree} {names : List String} (done : List (String × Compiled))
      (name : String) (after : List String) {d u e} : Begins job t opened names t' →
      names = done.map Prod.fst ++ name :: after → Course job .none t' done d u →
      Stops job d u name e → Ends job t (.error e) u
  | finished {opened t' : Tree} {names : List String} (done : List (String × Compiled)) {d u} :
      Begins job t opened names t' → names = done.map Prod.fst →
      Course job .none t' done d u →
      Ends job t (.ok (job.report (compiledNames done, skippedNames done))) u

/-- The tree once the folder of the outputs is made. -/
def prepared (job : Job) (t : Tree) : Tree := (t.makeFolders job.destination).2

theorem prepared_of_makeFolders {result : Except AccessCause Unit}
    (h : t.makeFolders job.destination = (result, u)) : job.prepared t = u := congrArg Prod.snd h

/-- What comes of a run when the folder of the outputs is made and the sources are listed. -/
def takeAll (job : Job) (names : List String) (opened : Tree) : Except Fault Report × Tree :=
  match job.begun opened with
  | .error cause => (.error (.fileAccess (job.outputPath "") cause), opened)
  | .ok t =>
    (((job.compileAll (m := StateM Tree) .none names).on t).1.map job.report,
      ((job.compileAll (m := StateM Tree) .none names).on t).2)

/-- The steps of a run, one after the other. -/
theorem on_run (job : Job) (t : Tree) : (job.run (m := StateM Tree)).on t =
    match t.makeFolders job.destination with
    | (.error cause, u) => (.error (.fileAccess job.destination cause), u)
    | (.ok (), opened) =>
      match job.listing opened with
      | .error cause => (.error (.fileAccess job.source cause), opened)
      | .ok names => job.takeAll names opened := by
  have hmade : (LoggedT.onPath job.destination
      (FileAccess.makeFolders (m := StateM Tree) job.destination)).on t =
      ((t.makeFolders job.destination).1.mapError (Fault.fileAccess job.destination),
        (t.makeFolders job.destination).2) := rfl
  rw [run, LoggedT.on_bind, hmade]
  obtain ⟨result, opened⟩ := t.makeFolders job.destination
  cases result with
  | error cause => rfl
  | ok =>
  show LoggedT.on (_ >>= _) opened = _
  rw [LoggedT.on_bind, on_sources]
  dsimp only
  cases job.listing opened with
  | error cause => rfl
  | ok names =>
  show LoggedT.on (_ >>= _) opened = job.takeAll names opened
  rw [LoggedT.on_bind, LoggedT.on_tell, takeAll]
  dsimp only
  rw [LoggedT.on_bind, on_begin]
  cases job.begun opened with
  | error cause => rfl
  | ok t' => exact LoggedT.on_map (job.compileAll (m := StateM Tree) .none names) job.report t'

/-- A run that has begun its outputs goes on with the sources. -/
theorem Begins.on_run {opened : Tree} {names : List String} (h : Begins job t opened names t') :
    (job.run (m := StateM Tree)).on t =
      (((job.compileAll (m := StateM Tree) .none names).on t').1.map job.report,
        ((job.compileAll (m := StateM Tree) .none names).on t').2) := by
  rw [Job.on_run, h.made]
  dsimp only
  rw [h.listed]
  dsimp only
  rw [takeAll, h.begun]

/-- A run whose folder of outputs is made and whose sources are known. -/
theorem runOn_eq_takeAll {names : List String} (hmade : (t.makeFolders job.destination).1 = .ok ())
    (hlisted : job.listing (job.prepared t) = .ok names) :
    ((job.runOn t).1.outcome, (job.runOn t).2) = job.takeAll names (job.prepared t) := by
  have hprepared : t.makeFolders job.destination = (.ok (), job.prepared t) := Prod.ext hmade rfl
  show (job.run (m := StateM Tree)).on t = _
  rw [on_run, hprepared]
  dsimp only
  rw [hlisted]

theorem finishes_of_takeAll {names : List String}
    (hmade : (t.makeFolders job.destination).1 = .ok ())
    (hlisted : job.listing (job.prepared t) = .ok names)
    (hok : (job.takeAll names (job.prepared t)).1.isOk = true) :
    ∃ r, (job.runOn t).1.outcome = .ok r := by
  have houtcome := congrArg Prod.fst (runOn_eq_takeAll hmade hlisted)
  rw [← houtcome] at hok
  exact Traversal.isOk_iff.mp hok

/-- **What a run can do to a tree, and what stops it.** -/
theorem runOn_ends (job : Job) (t : Tree) :
    job.Ends t (job.runOn t).1.outcome (job.runOn t).2 := by
  have hon : (job.run (m := StateM Tree)).on t = ((job.runOn t).1.outcome, (job.runOn t).2) := rfl
  suffices h : job.Ends t ((job.run (m := StateM Tree)).on t).1
      ((job.run (m := StateM Tree)).on t).2 by
    rwa [hon] at h
  rw [on_run]
  cases hmade : t.makeFolders job.destination with
  | mk result opened =>
  cases result with
  | error cause => exact .destination hmade
  | ok =>
  dsimp only
  cases hlisted : job.listing opened with
  | error cause => exact .listing hmade hlisted
  | ok names =>
  dsimp only
  unfold takeAll
  cases hbegun : job.begun opened with
  | error cause => exact .opening hmade hlisted hbegun
  | ok t' =>
  have hbegins : Begins job t opened names t' := ⟨hmade, hlisted, hbegun⟩
  have htaken := compileAll_taken job .none names t'
  dsimp only
  generalize (job.compileAll (m := StateM Tree) .none names).on t' = result at htaken ⊢
  obtain ⟨outcome, u⟩ := result
  dsimp only at htaken ⊢
  cases htaken with
  | all done hnames hcourse => exact .finished done hbegins hnames hcourse
  | stopped done name after hnames hcourse hstop =>
      exact .stopped done name after hbegins hnames hcourse hstop

end Job

end Batch

end IdlGlue
