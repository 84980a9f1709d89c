/-
# IdlGlue.Proofs.Aggregate -- one output for all, and an output for each

A job can be run with all its glue in one file (`inOne`) and with a file for each source
(`inEach`). Where the first run finds nothing to stop it, the second finds nothing either, except
that it opens other files. Both take the same sources in the same order:

| run      | writes                                              | holds in the end           |
|----------|-----------------------------------------------------|----------------------------|
| `inEach` | a file for each source that declares something      | the glue of the source     |
| `inOne`  | one file, which is begun anew                       | these glues, one by one    |

So the aggregate is what the outputs of the sources are in a row (`aggregate_concatenates`).
-/
import IdlGlue.Proofs.Apart

namespace IdlGlue.Batch.Job

open IdlGlue.Disk

variable {job : Job} {d : Declared} {opened t : Tree} {name : String}
  {done : List (String × Compiled)}

/-- The job with all glue in one file. -/
def inOne (job : Job) (file : String) : Job := { job with layout := .aggregate file }

/-- The job with a file for each source. -/
def inEach (job : Job) (extension : String) : Job := { job with layout := .perFile extension }

/-! ## The same sources -/

/-- A source that gives its glue does not stop a run with a file for each. -/
theorem stops_inEach {extension : String} {e : Fault} {c : Compiled}
    (hglue : job.glueIn t name = .ok c) (hstop : (job.inEach extension).Stops d t name e) :
    ∃ path cause, e = .fileAccess path cause := by
  cases hstop with
  | glue hfault => cases hglue.symm.trans hfault
  | clash _ _ hdeclare => cases hdeclare
  | output => exact ⟨_, _, rfl⟩

/-- A run with a file for each source is not stopped by sources that all give their glue. -/
theorem finished_inEach {extension : String} (hroot : t.FolderAt t.workingFolder)
    (hmade : t.makeFolders job.destination = (.ok (), opened))
    (hlisted : job.listing opened = .ok (done.map Prod.fst))
    (hkeeps : (job.inEach extension).KeepsSources opened (done.map Prod.fst))
    (hglues : ∀ s ∈ done, job.glueIn opened s.1 = .ok s.2)
    (hgranted : Granted ((job.inEach extension).runOn t).1.outcome) :
    ((job.inEach extension).runOn t).1.outcome =
        .ok ((job.inEach extension).report (compiledNames done, skippedNames done)) ∧
      ∃ d, Course (job.inEach extension) .none opened done d
        ((job.inEach extension).runOn t).2 := by
  have hends := (job.inEach extension).runOn_ends t
  generalize ((job.inEach extension).runOn t).1.outcome = outcome at hgranted hends ⊢
  generalize ((job.inEach extension).runOn t).2 = final at hends ⊢
  cases hends with
  | destination => exact absurd rfl (hgranted _ _)
  | listing => exact absurd rfl (hgranted _ _)
  | opening => exact absurd rfl (hgranted _ _)
  | @stopped opened' t' names done' name after d final e hbegins hnames hcourse hstop =>
      obtain ⟨_, rfl⟩ := Prod.mk.inj (hmade.symm.trans hbegins.made)
      obtain rfl := Except.ok.inj (hlisted.symm.trans hbegins.listed)
      obtain ⟨_, hkept⟩ := hbegins.taken hroot hkeeps (hnames ▸ List.prefix_append _ _) hcourse
      have hname : name ∈ done.map Prod.fst := by
        rw [hnames]
        exact List.mem_append_right _ List.mem_cons_self
      obtain ⟨s, hs, rfl⟩ := List.mem_map.mp hname
      obtain ⟨path, cause, rfl⟩ := stops_inEach ((hkept s.1 hname).trans (hglues s hs)) hstop
      exact absurd rfl (hgranted path cause)
  | @finished opened' t' names done' d final hbegins hnames hcourse =>
      obtain ⟨_, rfl⟩ := Prod.mk.inj (hmade.symm.trans hbegins.made)
      obtain rfl := Except.ok.inj (hlisted.symm.trans hbegins.listed)
      obtain rfl := Except.ok.inj hbegins.begun
      obtain ⟨hglues', _⟩ := hbegins.taken hroot hkeeps (hnames ▸ List.prefix_refl _) hcourse
      obtain rfl := eq_of_glues hglues hglues' hnames
      exact ⟨rfl, d, hcourse⟩

/-! ## The same glue -/

/-- What the run into one file reports in `r` is what the run with a file for each source reports
in `r'`: the sources that give glue have these names, in the order of their bytes, and their
outputs hold these texts. The aggregate holds the texts in a row, with nothing before, between or
behind. -/
structure Concatenates (job : Job) (t : Tree) (file extension : String) (r r' : Report)
    (names texts : List String) : Prop where
  each : ((job.inEach extension).runOn t).1.outcome = .ok r'
  compiled : r'.compiled = r.compiled
  skipped : r'.skipped = r.skipped
  ascending : names.Pairwise fun a b => Text.bytes a < Text.bytes b
  sources : r'.compiled = names.map job.sourcePath
  written : r'.written = names.map (job.inEach extension).outputPath
  outputs : List.Forall₂
    (fun path text => ((job.inEach extension).runOn t).2.readText path = .ok text)
    r'.written texts
  aggregate : ((job.inOne file).runOn t).2.readText (Path.join job.destination file) =
    .ok (String.join texts)

/-- **An aggregate is what the outputs of its sources are in a row.** Where the run into one file
succeeds in a tree without links, the run with a file for each source compiles the same sources
and leaves out the same, unless a file is refused to it. -/
theorem aggregate_concatenates {job : Job} {t : Tree} {file extension : String} {r : Report}
    (hapart : (job.inOne file).Apart t) (hextension : NoSlash extension)
    (hone : ((job.inOne file).runOn t).1.outcome = .ok r)
    (hgranted : Granted ((job.inEach extension).runOn t).1.outcome) :
    ∃ r' names texts, Concatenates job t file extension r r' names texts := by
  have hends := (job.inOne file).runOn_ends t
  rw [hone] at hends
  cases hends with
  | @finished opened begun names done d u hbegins hnames hcourse =>
  subst hnames
  have hmade := hbegins.made
  have hlisted := hbegins.listed
  have hapart' : (job.inEach extension).Apart t :=
    ⟨hapart.sound, hapart.noLinks, hextension, hapart.different⟩
  obtain ⟨dst, hready⟩ := hapart.ready hmade
  obtain ⟨dst', hready'⟩ := hapart'.ready hmade
  have hprefix := List.prefix_refl (done.map Prod.fst)
  obtain ⟨hglues, _⟩ :=
    hbegins.taken hapart.sound.root (hready.keepsSources hlisted) hprefix hcourse
  obtain ⟨hok, d', hcourse'⟩ := finished_inEach hapart.sound.root hmade hlisted
    (hready'.keepsSources hlisted) hglues hgranted
  have hheld := hready.readText_results hlisted hbegins.begun hprefix hcourse
  have hheld' := hready'.readText_results hlisted rfl hprefix hcourse'
  rw [results_aggregate rfl, List.forall_mem_singleton] at hheld
  rw [results_perFile rfl, List.forall_mem_map] at hheld'
  refine ⟨_, compiledNames done, (delivered done).map fun s : String × Compiled => s.2.code, hok,
    rfl, rfl, (listing_ascending hlisted).sublist (List.filter_sublist.map Prod.fst), rfl, rfl,
    ?_, hheld⟩
  show List.Forall₂ _ (((delivered done).map Prod.fst).map _) _
  rw [List.map_map, List.forall₂_map_left_iff, List.forall₂_map_right_iff, List.forall₂_same]
  exact hheld'

/-- Sources of which two declare something. -/
def threeStalls : Tree :=
  threeSources "interface A \x7b int x(); \x7d" "// nothing yet"
    "delegate void Game::OnHit(int d);"

theorem aggregate_concatenates_threeStalls :
    ∃ r, (((fromSrcToOut (.perFile "cpp")).inOne "All.cpp").runOn threeStalls).1.outcome = .ok r ∧
      ∃ r' names texts,
        Concatenates (fromSrcToOut (.perFile "cpp")) threeStalls "All.cpp" "cpp" r r' names
          texts := by
  have hlisted : (fromSrcToOut (.perFile "cpp")).listing
      ((fromSrcToOut (.perFile "cpp")).prepared threeStalls) = .ok ["a.idl", "b.idl", "c.idl"] :=
    listing_of_sorted (by decide +kernel) (by decide +kernel)
  have hone : ∃ r, (((fromSrcToOut (.perFile "cpp")).inOne "All.cpp").runOn
      threeStalls).1.outcome = .ok r :=
    finishes_of_takeAll (by decide +kernel) hlisted (by decide +kernel)
  have heach : ∃ r, (((fromSrcToOut (.perFile "cpp")).inEach "cpp").runOn
      threeStalls).1.outcome = .ok r :=
    finishes_of_takeAll (by decide +kernel) hlisted (by decide +kernel)
  obtain ⟨r, hr⟩ := hone
  obtain ⟨r', hr'⟩ := heach
  refine ⟨r, hr, aggregate_concatenates ⟨sound_threeSources _ _ _, noLinks_threeSources _ _ _,
    by decide, by decide +kernel⟩ (by decide) hr ?_⟩
  rw [hr']
  exact nofun

end IdlGlue.Batch.Job
