/-
# IdlGlue.Proofs.Enumeration -- the order in which a system lists a folder

A system gives the names in a folder in an order of its own, which may differ from one run to the
next. `Enumeration` is any such order, for every folder of every tree, and `Job.runIn` is the run on
a disk that lists its folders so; the disk is that of `Job.runOn` in all else (`runIn_stored`).

The order is seen in one place: a run lists the sources. There it is lost. Which names are sources
is asked of each by itself, and the names that are left have one ascending order
(`mergeSort_eq_of_perm`). So no outcome and no tree tells the order in which the sources were found
(`runIn_eq_runIn`). The events do tell it: a name that is left out is told where it is found.
-/
import IdlGlue.Proofs.Listing

namespace IdlGlue

open IdlGlue.Disk

namespace Disk

/-! ## Disks that list their names in some order -/

/-- An order of the names of folders, which may be another one for each tree and each path. -/
structure Enumeration where
  /-- The names of the folder at a path, in this order. -/
  arrange : Tree → String → List String → List String
  perm : ∀ t path names, (arrange t path names).Perm names

namespace Enumeration

/-- The order in which the names are stored. -/
def stored : Enumeration where
  arrange _ _ names := names
  perm _ _ names := .refl names

/-- Access to a tree that lists its names in the order. -/
abbrev access (e : Enumeration) : FileAccess (StateM Tree) :=
  { (inferInstance : FileAccess (StateM Tree)) with
    names := fun path => return ((← get).names path).map (e.arrange (← get) path) }

theorem access_stored : stored.access = (inferInstance : FileAccess (StateM Tree)) := by
  have hnames : stored.access.names = FileAccess.names (m := StateM Tree) := by
    funext path t
    show ((t.names path).map id, t) = (t.names path, t)
    cases t.names path <;> rfl
  exact congrArg
    (fun names => { (inferInstance : FileAccess (StateM Tree)) with names }) hnames

end Enumeration

end Disk

namespace Batch.Job

/-- Run the job on a tree whose folders are listed in the order. -/
def runIn (e : Enumeration) (job : Job) (t : Tree) : Logged Report × Tree :=
  StateT.run (m := Id) (LoggedT.run (@run (StateM Tree) _ e.access job)) t

theorem runIn_stored (job : Job) (t : Tree) : job.runIn .stored t = job.runOn t := by
  unfold runIn
  rw [Enumeration.access_stored]
  rfl

/-! ## The sources -/

/-- The names in ascending order are the same for every order in which they come. -/
theorem mergeSort_eq_of_perm {names names' : List String} (h : names.Perm names') :
    names.mergeSort (· ≤ ·) = names'.mergeSort (· ≤ ·) := by
  have hperm : (names.mergeSort (· ≤ ·)).Perm (names'.mergeSort (· ≤ ·)) :=
    (List.mergeSort_perm _ _).trans (h.trans (List.mergeSort_perm _ _).symm)
  refine hperm.eq_of_pairwise (fun a b _ _ hab hba => ?_) (ascending_mergeSort names)
    (ascending_mergeSort names')
  exact String.le_antisymm (of_decide_eq_true hab) (of_decide_eq_true hba)

/-- The sources are the same for every order of the names in their folder. -/
theorem on_sources_access (e : Enumeration) (job : Job) (t : Tree) :
    (@sources (StateM Tree) _ e.access job).on t =
      ((job.listing t).mapError (Fault.fileAccess job.source), t) := by
  have hnames : (LoggedT.onPath job.source (e.access.names job.source)).on t =
      (((t.names job.source).map (e.arrange t job.source)).mapError (Fault.fileAccess job.source),
        t) := rfl
  unfold sources listing
  rw [LoggedT.on_bind, hnames]
  cases t.names job.source with
  | error cause => rfl
  | ok names =>
      have hfound := on_filterM (@isSource (StateM Tree) _ e.access job) (job.leadsToFile t) t
        (fun name => on_isSource job name t)
        ((e.arrange t job.source names).filter job.namesSource)
      show LoggedT.on (_ >>= _) t = _
      rw [LoggedT.on_bind, hfound]
      exact congrArg (fun found => (Except.ok found, t)) (mergeSort_eq_of_perm
        (((e.perm t job.source names).filter job.namesSource).filter (job.leadsToFile t)))

/-! ## The whole run -/

theorem makeChain_access (e : Enumeration) (paths : List String) :
    @FileAccess.makeChain (StateM Tree) _ e.access paths =
      FileAccess.makeChain (m := StateM Tree) paths := by
  induction paths with
  | nil => rfl
  | cons path rest ih =>
      unfold FileAccess.makeChain
      rw [ih]
      rfl

theorem compileAll_access (e : Enumeration) (job : Job) (d : Declared) (names : List String) :
    @compileAll (StateM Tree) _ e.access job d names =
      job.compileAll (m := StateM Tree) d names := by
  induction names generalizing d with
  | nil => rfl
  | cons name names ih =>
      unfold compileAll
      simp only [ih]
      rfl

/-- The run in any order comes to what the run in the stored order comes to. -/
theorem on_run_access (e : Enumeration) (job : Job) (t : Tree) :
    (@run (StateM Tree) _ e.access job).on t = (job.run (m := StateM Tree)).on t := by
  have hmade : LoggedT.on (LoggedT.onPath job.destination
      (@FileAccess.makeFolders (StateM Tree) _ e.access job.destination)) t =
      LoggedT.on (LoggedT.onPath job.destination
        (FileAccess.makeFolders (m := StateM Tree) job.destination)) t := by
    unfold FileAccess.makeFolders
    rw [makeChain_access]
  unfold run
  rw [LoggedT.on_bind, LoggedT.on_bind, hmade]
  obtain ⟨result, opened⟩ := LoggedT.on (LoggedT.onPath job.destination
    (FileAccess.makeFolders (m := StateM Tree) job.destination)) t
  cases result with
  | error fault => rfl
  | ok =>
      show LoggedT.on (_ >>= _) opened = LoggedT.on (_ >>= _) opened
      rw [LoggedT.on_bind, LoggedT.on_bind, on_sources_access, on_sources]
      cases job.listing opened with
      | error cause => rfl
      | ok names =>
          simp only [compileAll_access]
          rfl

/-- **A run comes to the same in every order in which its folders are listed.** Its report, or
the fault that ends it and the source that is blamed for it, is the same, and so is the tree that
it leaves, for every tree, with links or without, and for every destination. -/
theorem runIn_eq_runIn (job : Job) (e e' : Enumeration) (t : Tree) :
    (job.runIn e t).1.outcome = (job.runIn e' t).1.outcome ∧
      (job.runIn e t).2 = (job.runIn e' t).2 := by
  have h : (@run (StateM Tree) _ e.access job).on t = (@run (StateM Tree) _ e'.access job).on t :=
    (on_run_access e job t).trans (on_run_access e' job t).symm
  exact Prod.mk.inj h

end Batch.Job

end IdlGlue
