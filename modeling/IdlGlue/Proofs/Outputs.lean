/-
# IdlGlue.Proofs.Outputs -- where a run writes

Once the folder of the outputs is made, a run writes its outputs and nothing else. `Within` says
so of a tree, and every step of the run preserves it:

| step              | is written                                                   |
|-------------------|--------------------------------------------------------------|
| begin the outputs | the aggregate, empty; nothing, where there is one per source |
| take a source     | its output, or nothing where it declares nothing             |

A run whose sources are not among its outputs (`KeepsSources`) therefore finds each of them as it
was in the beginning, whenever it comes to it (`Course.glues`).
-/
import IdlGlue.Proofs.Listing

namespace IdlGlue.Batch.Job

open IdlGlue.Disk

variable {job : Job} {d d' : Declared} {opened t t' u : Tree} {name : String} {c : Compiled}
  {names : List String} {done done' : List (String × Compiled)} {l : Location}

/-! ## Storing -/

/-- The content of an output once a source has stored its code there. -/
def contentAfter (job : Job) (t : Tree) (l : Location) (code : String) : ByteArray :=
  match job.layout with
  | .perFile _ => code.toUTF8
  | .aggregate _ => t.contentAt l ++ code.toUTF8

/-- The code is stored where the path of the output is opened. -/
theorem store_eq (job : Job) (t : Tree) (name code : String) :
    job.store t name code = (t.outputSite (job.outputPath name)).map fun l =>
      t.put l (.file (job.contentAfter t l code)) := by
  unfold store contentAfter
  cases job.layout with
  | perFile extension =>
      show (t.outputSite _ >>= _) = _
      cases t.outputSite (job.outputPath name) <;> rfl
  | aggregate file =>
      show (t.outputSite _ >>= _) = _
      cases t.outputSite (job.outputPath name) <;> rfl

theorem store_eq_ok {code : String} (h : job.store t name code = .ok t') :
    ∃ l, t.outputSite (job.outputPath name) = .ok l ∧
      t' = t.put l (.file (job.contentAfter t l code)) := by
  rw [store_eq] at h
  obtain ⟨l, hl, rfl⟩ := Traversal.map_eq_ok_iff.mp h
  exact ⟨l, hl, rfl⟩

/-- A source that is taken leaves the tree as it is or puts its output into it. -/
theorem Takes.tree (h : Takes job d t name c d' t') :
    (c.isEmpty = true ∧ d' = d ∧ t' = t) ∨
      (c.isEmpty = false ∧ job.declare d c = .ok d' ∧
        ∃ l, t.outputSite (job.outputPath name) = .ok l ∧
          t' = t.put l (.file (job.contentAfter t l c.code))) := by
  cases h with
  | skip _ hempty => exact .inl ⟨hempty, rfl, rfl⟩
  | deliver _ hempty hdeclare hstore => exact .inr ⟨hempty, hdeclare, store_eq_ok hstore⟩

theorem Takes.glueIn (h : Takes job d t name c d' t') : job.glueIn t name = .ok c := by
  cases h with
  | skip hglue _ => exact hglue
  | deliver hglue _ _ _ => exact hglue

/-- The outputs are begun by nothing at all, or by an empty aggregate. -/
theorem begun_eq_ok (h : job.begun t = .ok t') :
    (∃ extension, job.layout = .perFile extension ∧ t' = t) ∨
      ∃ file l, job.layout = .aggregate file ∧
        t.outputSite (Path.join job.destination file) = .ok l ∧
        t' = t.put l (.file "".toUTF8) := by
  unfold begun at h
  cases hlayout : job.layout with
  | perFile extension =>
      rw [hlayout] at h
      cases h
      exact .inl ⟨extension, rfl, rfl⟩
  | aggregate file =>
      rw [hlayout] at h
      obtain ⟨l, hl, h⟩ := Traversal.bind_eq_ok_iff.mp h
      cases h
      exact .inr ⟨file, l, rfl, hl, rfl⟩

/-! ## Nothing but outputs -/

theorem outputPath_mem (hname : name ∈ names) : job.outputPath name ∈ job.outputs names := by
  unfold outputs
  cases hlayout : job.layout with
  | perFile extension => exact List.mem_map_of_mem hname
  | aggregate file =>
      rw [outputPath, hlayout]
      exact List.mem_singleton_self _

/-- One of the outputs for sources of these names stands at the location. -/
def IsOutput (job : Job) (opened : Tree) (names : List String) (l : Location) : Prop :=
  ∃ path ∈ job.outputs names, opened.locate .write path = .ok l

/-- Since the tree `opened`, files have been written where outputs stand, and nothing else has
happened. -/
structure Within (job : Job) (opened : Tree) (names : List String) (t : Tree) : Prop where
  refills : opened.Refills t
  elsewhere : ∀ k, ¬job.IsOutput opened names k → t.get? k = opened.get? k

theorem within_self (job : Job) (opened : Tree) (names : List String) :
    job.Within opened names opened := ⟨.refl opened, fun _ _ => rfl⟩

namespace Within

/-- One more output is written. -/
theorem put (h : job.Within opened names t) (hroot : opened.FolderAt opened.workingFolder)
    {path : String} (hpath : path ∈ job.outputs names) (hl : t.outputSite path = .ok l)
    (content : ByteArray) : job.Within opened names (t.put l (.file content)) := by
  obtain ⟨hlocate, hsite⟩ := Tree.outputSite_eq_ok (h.refills.toFollows.root hroot) hl
  refine ⟨h.refills.trans (Tree.refills_put hsite content), fun k hk => ?_⟩
  rw [Tree.get?_put_of_ne, h.elsewhere k hk]
  rintro rfl
  exact hk ⟨path, hpath, h.refills.follows_back.locate hlocate⟩

theorem takes (h : job.Within opened names t) (hroot : opened.FolderAt opened.workingFolder)
    (hname : name ∈ names) (htake : Takes job d t name c d' t') :
    job.Within opened names t' := by
  rcases htake.tree with ⟨_, _, rfl⟩ | ⟨_, _, l, hl, rfl⟩
  · exact h
  · exact h.put hroot (outputPath_mem hname) hl _

theorem course (h : job.Within opened names t) (hroot : opened.FolderAt opened.workingFolder)
    (hnames : done.map Prod.fst ⊆ names) (hcourse : Course job d t done d' t') :
    job.Within opened names t' := by
  induction hcourse with
  | nil d t => exact h
  | cons htake _ ih =>
      obtain ⟨hname, hnames⟩ := List.cons_subset.mp hnames
      exact ih (h.takes hroot hname htake) hnames

theorem begun (h : job.Within opened names t) (hroot : opened.FolderAt opened.workingFolder)
    (hbegun : job.begun t = .ok t') : job.Within opened names t' := by
  rcases begun_eq_ok hbegun with ⟨_, _, rfl⟩ | ⟨file, l, hlayout, hl, rfl⟩
  · exact h
  · refine h.put hroot ?_ hl _
    rw [outputs, hlayout]
    exact List.mem_singleton_self _

end Within

/-- The folder that relative paths are taken from is there when the outputs are begun, and
nothing but outputs has been written. -/
theorem Begins.within (h : Begins job t opened names t') (hroot : t.FolderAt t.workingFolder) :
    opened.FolderAt opened.workingFolder ∧ job.Within opened names t' := by
  have hadded := (Tree.makesFolders_makeFolders h.made).1.adds
  have hroot' := hadded.grows.toFollows.root hroot
  exact ⟨hroot', (within_self job opened names).begun hroot' h.begun⟩

theorem Begins.prepared (h : Begins job t opened names t') : job.prepared t = opened :=
  prepared_of_makeFolders h.made

/-! ## Sources that are kept -/

/-- No output stands where the path of a source leads to. -/
def KeepsSources (job : Job) (opened : Tree) (names : List String) : Prop :=
  ∀ name ∈ names, ∀ l, opened.locate .find (job.sourcePath name) = .ok l →
    ¬job.IsOutput opened names l

/-- A source that is kept gives the glue that it gave in the beginning. -/
theorem Within.glueIn_eq (h : job.Within opened names t) (hkeeps : job.KeepsSources opened names)
    (hlisted : job.listing opened = .ok names) (hname : name ∈ names) :
    job.glueIn t name = job.glueIn opened name := by
  obtain ⟨_, _, _, _, _, hfile⟩ := mem_listing hlisted hname
  obtain ⟨l, _, hl, _⟩ := leadsToFile_iff.mp hfile
  have hentry := h.elsewhere l (hkeeps name hname l hl)
  rw [glueIn, glueIn, Tree.readText_eq_of_follows h.refills.toFollows hl hentry]

/-- **Every source that is taken has given the glue that it gave in the beginning.** -/
theorem Course.glues (hroot : opened.FolderAt opened.workingFolder)
    (hkeeps : job.KeepsSources opened names) (hlisted : job.listing opened = .ok names)
    (h : job.Within opened names t) (hnames : done.map Prod.fst ⊆ names)
    (hcourse : Course job d t done d' t') : ∀ s ∈ done, job.glueIn opened s.1 = .ok s.2 := by
  induction hcourse with
  | nil d t => exact List.forall_mem_nil _
  | cons htake _ ih =>
      obtain ⟨hname, hnames⟩ := List.cons_subset.mp hnames
      refine List.forall_mem_cons.mpr ⟨?_, ih (h.takes hroot hname htake) hnames⟩
      rw [← h.glueIn_eq hkeeps hlisted hname]
      exact htake.glueIn

/-- A run that keeps its sources has found those that it has taken as they were in the beginning,
and it will find the others so. -/
theorem Begins.taken (h : Begins job t opened names t') (hroot : t.FolderAt t.workingFolder)
    (hkeeps : job.KeepsSources opened names) (hnames : done.map Prod.fst <+: names)
    (hcourse : Course job d t' done d' u) :
    (∀ s ∈ done, job.glueIn opened s.1 = .ok s.2) ∧
      ∀ name ∈ names, job.glueIn u name = job.glueIn opened name := by
  obtain ⟨hroot', hwithin⟩ := h.within hroot
  refine ⟨hcourse.glues hroot' hkeeps h.listed hwithin hnames.subset, fun name hname => ?_⟩
  exact (hwithin.course hroot' hnames.subset hcourse).glueIn_eq hkeeps h.listed hname

/-- The glue of each source says which sources have been taken. -/
theorem eq_of_glues (hglues : ∀ s ∈ done, job.glueIn opened s.1 = .ok s.2)
    (hglues' : ∀ s ∈ done', job.glueIn opened s.1 = .ok s.2)
    (hnames : done.map Prod.fst = done'.map Prod.fst) : done = done' := by
  induction done generalizing done' with
  | nil => exact (List.map_eq_nil_iff.mp hnames.symm).symm
  | cons s done ih =>
      cases done' with
      | nil => cases hnames
      | cons s' done' =>
          obtain ⟨hname, hnames⟩ := List.cons_eq_cons.mp hnames
          obtain ⟨hglue, hglues⟩ := List.forall_mem_cons.mp hglues
          obtain ⟨hglue', hglues'⟩ := List.forall_mem_cons.mp hglues'
          rw [hname] at hglue
          have hsame : s = s' := Prod.ext hname (Except.ok.inj (hglue.symm.trans hglue'))
          rw [hsame, ih hglues hglues' hnames]

/-- Sources that give their glue go on behind those that have been taken. -/
theorem exists_eq_append {sources : List (String × Compiled)} {after : List String}
    (hglues : ∀ s ∈ sources, job.glueIn opened s.1 = .ok s.2)
    (hglues' : ∀ s ∈ done, job.glueIn opened s.1 = .ok s.2)
    (hnames : sources.map Prod.fst = done.map Prod.fst ++ name :: after) :
    ∃ c rest, sources = done ++ (name, c) :: rest ∧ job.glueIn opened name = .ok c := by
  obtain ⟨first, rest, rfl, hfirst, hrest⟩ := List.map_eq_append_iff.mp hnames
  obtain ⟨s, rest, rfl, rfl, _⟩ := List.map_eq_cons_iff.mp hrest
  obtain ⟨hfirsts, hrests⟩ := List.forall_mem_append.mp hglues
  obtain rfl := eq_of_glues hfirsts hglues' hfirst
  exact ⟨s.2, rest, rfl, hrests s List.mem_cons_self⟩

end IdlGlue.Batch.Job
