/-
# IdlGlue.Proofs.Rerun -- running a job a second time

A second run of a job over what the first has left does the same again. It finds the folders that
were made, lists the same sources, and takes them up to the same source, since no output is among
them. What it writes is there already:

| the first run ends at          | the second run                                             |
|--------------------------------|------------------------------------------------------------|
| the folder of the outputs      | ends there, and makes no more folders                      |
| the list of the sources        | ends there                                                 |
| the aggregate, to begin it     | ends there                                                 |
| a source, or after the last    | ends there, with the same results of the sources before it |

So it comes to the same and leaves the tree as it is (`runOn_again`), with one exception in what is
told. Where the folder of the outputs cannot be made for a file in its place, and the way to that
file leads through a folder that the first run has made, the first run meets the file at the end
of its way and the second one on the way: `File exists` becomes `Not a directory`.
-/
import IdlGlue.Proofs.Aggregate
import IdlGlue.Proofs.Enumeration
import IdlGlue.Proofs.Remake
import IdlGlue.Proofs.Stopping

namespace IdlGlue

open IdlGlue.Disk

/-- The same stands everywhere in the two trees, byte for byte. -/
structure Disk.Tree.Matches (t u : Tree) : Prop where
  workingFolder : u.workingFolder = t.workingFolder
  entry : ∀ l, u.get? l = t.get? l

theorem Disk.Tree.Matches.refl (t : Tree) : t.Matches t := ⟨rfl, fun _ => rfl⟩

namespace Batch.Job

variable {job : Job} {d d' : Declared} {opened t t' s u u' : Tree} {name : String} {c : Compiled}
  {names : List String} {done : List (String × Compiled)} {src dst : Location} {e : Fault}

/-! ## The same sources -/

namespace Ready

/-- A folder of outputs that is ready is so while outputs are written. -/
theorem later (h : job.Ready opened dst) (hlisted : job.listing opened = .ok names)
    (hwithin : job.Within opened names u) : job.Ready u dst where
  root := hwithin.refills.toFollows.root h.root
  fileNames l name hentry := by
    by_cases hbefore : (opened.get? (l ++ [name])).isSome
    · exact h.fileNames l name hbefore
    · have hnone := Option.not_isSome_iff_eq_none.mp hbefore
      have hout : job.IsOutput opened names (l ++ [name]) := by
        by_contra hnot
        rw [hwithin.elsewhere _ hnot, hnone] at hentry
        cases hentry
      obtain ⟨o, ho, heq⟩ := h.isOutput hlisted hout (by rw [hnone]; exact nofun)
      rwa [List.singleton_inj.mp (List.append_inj' heq rfl).2]
  noLinks := h.noLinks.follows hwithin.refills.toFollows
  opens := h.opens.follows hwithin.refills.toFollows
  plain := h.plain
  different hreach := by
    refine h.different ?_
    rw [Tree.reach, hwithin.refills.workingFolder] at hreach
    exact hwithin.refills.follows_back.walk hreach

/-- The folder of the sources holds what it held. -/
theorem get?_source (h : job.Ready opened dst) (hlisted : job.listing opened = .ok names)
    (hwithin : job.Within opened names u) (hsrc : opened.reach job.source = .ok src)
    (name : String) : u.get? (src ++ [name]) = opened.get? (src ++ [name]) := by
  by_cases hfolder : opened.get? (src ++ [name]) = some .folder
  · rw [hfolder, hwithin.refills.folder _ hfolder]
  · refine hwithin.elsewhere _ fun hout => ?_
    obtain ⟨o, _, heq⟩ := h.isOutput hlisted hout hfolder
    exact h.different (by rw [hsrc, (List.append_inj' heq rfl).1])

/-- **Outputs are not taken for sources.** -/
theorem listing_again (h : job.Ready opened dst) (hlisted : job.listing opened = .ok names)
    (hwithin : job.Within opened names u) : job.listing u = .ok names := by
  obtain ⟨src, hsrc, hfolder, rfl⟩ := listing_eq_ok_iff.mp hlisted
  have hfollows := hwithin.refills.toFollows
  have hkept := h.get?_source hlisted hwithin (Tree.reach_of_locate hsrc)
  have hopens : opened.Opens job.source src :=
    (h.noLinks.opens_iff hfolder).mpr (Tree.reach_of_locate hsrc)
  refine listing_eq_ok_iff.mpr ⟨src, hfollows.locate hsrc, hfollows.folder src hfolder,
    mergeSort_eq_of_perm ?_⟩
  have hnodup (t : Tree) : (((t.children src).filter job.namesSource).filter
      (job.leadsToFile t)).Nodup := ((Tree.nodup_children t src).filter _).filter _
  refine (List.perm_ext_iff_of_nodup (hnodup opened) (hnodup u)).mpr fun name => ?_
  rw [List.mem_filter, List.mem_filter, List.mem_filter, List.mem_filter, Tree.mem_children_iff,
    Tree.mem_children_iff, hkept name]
  refine and_congr_right fun ⟨hentry, _⟩ => ?_
  -- The path of the source leads to its entry, in both trees.
  have hname := h.fileNames src name hentry
  rw [leadsToFile_iff, leadsToFile_iff]
  constructor
  · rintro ⟨l, content, hl, hfile⟩
    obtain rfl := h.noLinks.locate_join hopens hname hl
    exact ⟨_, content, hfollows.locate hl, (hkept name).trans hfile⟩
  · rintro ⟨l, content, hl, hfile⟩
    obtain rfl := (h.noLinks.follows hfollows).locate_join (hopens.follows hfollows) hname hl
    exact ⟨_, content, hwithin.refills.follows_back.locate hl, (hkept name).symm.trans hfile⟩

/-! ## The same steps -/

section Steps

variable (h : job.Ready opened dst) (hlisted : job.listing opened = .ok names)
  (ht : job.Within opened names t) (hs : job.Within opened names s)

include h hlisted ht hs

/-- Each source gives the same glue whatever outputs are there. -/
theorem glueIn_again (hname : name ∈ names) : job.glueIn s name = job.glueIn t name := by
  have hkeeps := h.keepsSources hlisted
  rw [hs.glueIn_eq hkeeps hlisted hname, ht.glueIn_eq hkeeps hlisted hname]

/-- Its output can be opened, or is refused for the same cause. -/
theorem outputSite_again (hname : name ∈ names) :
    s.outputSite (job.outputPath name) = t.outputSite (job.outputPath name) := by
  obtain ⟨hfile, hsource⟩ := h.listed hlisted name hname
  obtain ⟨hne, hslash⟩ := outputName_plain h.plain hfile hsource
  have hopened {t : Tree} (hwithin : job.Within opened names t) :
      t.outputSite (job.outputPath name) = opened.outputSite (job.outputPath name) :=
    h.noLinks.outputSite_eq hwithin.refills h.opens hne hslash
  rw [hopened hs, hopened ht]

theorem takes_again (hname : name ∈ names) (htake : Takes job d t name c d' t') :
    ∃ s', Takes job d s name c d' s' := by
  have hglue := h.glueIn_again hlisted ht hs hname
  cases htake with
  | skip hgives hempty => exact ⟨s, .skip (hglue.trans hgives) hempty⟩
  | deliver hgives hempty hdeclare hstore =>
      obtain ⟨l, hl, _⟩ := store_eq_ok hstore
      have hsite := (h.outputSite_again hlisted ht hs hname).trans hl
      have hstore' : job.store s name c.code =
          .ok (s.put l (.file (job.contentAfter s l c.code))) := by
        rw [store_eq, hsite]
        rfl
      exact ⟨_, .deliver (hglue.trans hgives) hempty hdeclare hstore'⟩

theorem stops_again (hname : name ∈ names) (hstop : Stops job d t name e) :
    Stops job d s name e := by
  have hglue := h.glueIn_again hlisted ht hs hname
  cases hstop with
  | glue hfault => exact .glue (hglue.trans hfault)
  | clash hgives hempty hdeclare => exact .clash (hglue.trans hgives) hempty hdeclare
  | output hgives hempty hdeclare hstore =>
      have hsite := (h.outputSite_again hlisted ht hs hname).trans (store_eq_error hstore)
      refine .output (hglue.trans hgives) hempty hdeclare ?_
      rw [store_eq, hsite]
      rfl

theorem course_again (hnames : done.map Prod.fst ⊆ names) (hcourse : Course job d t done d' t') :
    ∃ s', Course job d s done d' s' := by
  induction hcourse generalizing s with
  | nil d t => exact ⟨s, .nil d s⟩
  | cons htake _ ih =>
      obtain ⟨hname, hnames⟩ := List.cons_subset.mp hnames
      obtain ⟨s', htake'⟩ := h.takes_again hlisted ht hs hname htake
      obtain ⟨s'', hrest⟩ :=
        ih (ht.takes h.root hname htake) (hs.takes h.root hname htake') hnames
      exact ⟨s'', .cons htake' hrest⟩

end Steps

theorem begun_again (h : job.Ready opened dst) (hwithin : job.Within opened names u)
    (hbegun : job.begun opened = .ok t) : ∃ s, job.begun u = .ok s := by
  unfold begun at hbegun ⊢
  cases hlayout : job.layout with
  | perFile extension => exact ⟨u, rfl⟩
  | aggregate file =>
      have hplain := h.plain
      rw [hlayout] at hbegun hplain
      obtain ⟨l, hl, _⟩ := Traversal.bind_eq_ok_iff.mp hbegun
      have hsite := (h.noLinks.outputSite_eq hwithin.refills h.opens hplain.ne_empty
        hplain.noSlash).trans hl
      exact ⟨_, Traversal.bind_eq_ok_iff.mpr ⟨l, hsite, rfl⟩⟩

end Ready

/-! ## The same tree -/

/-- Files that are written again with the same texts are as they were. -/
theorem Holds.matches {files : List (String × String)} (hroot : u'.workingFolder = u.workingFolder)
    (h : Holds t dst files u) (h' : Holds u dst files u') : u.Matches u' where
  workingFolder := hroot
  entry l := by
    by_cases hfile : ∃ f ∈ files, l = dst ++ [f.1]
    · obtain ⟨f, hf, rfl⟩ := hfile
      rw [h.file f hf, h'.file f hf]
    · exact h'.elsewhere l fun f hf heq => hfile ⟨f, hf, heq⟩

/-- Over the results of some sources, the same sources are taken again with the same results. -/
theorem Ready.taken_again (h : job.Ready opened dst) (hbegins : Begins job opened opened names t)
    (hnames : done.map Prod.fst <+: names) (hcourse : Course job .none t done d u) :
    job.Within opened names u ∧ ∃ s u', Begins job u u names s ∧ Course job .none s done d u' ∧
      job.Within opened names u' ∧ u.Matches u' := by
  have hlisted := hbegins.listed
  have hself := (within_self job opened names).begun h.root hbegins.begun
  have hwithin := hself.course h.root hnames.subset hcourse
  have hlater := h.later hlisted hwithin
  have hlisted' := h.listing_again hlisted hwithin
  obtain ⟨s, hs⟩ := h.begun_again hwithin hbegins.begun
  have hagain := hwithin.begun h.root hs
  obtain ⟨u', hcourse'⟩ := h.course_again hlisted hself hagain hnames.subset hcourse
  have hwithin' := hagain.course h.root hnames.subset hcourse'
  have hmade := Tree.makeFolders_again h.noLinks hbegins.made hwithin.refills.toFollows
  have hroot : u'.workingFolder = u.workingFolder :=
    hwithin'.refills.workingFolder.trans hwithin.refills.workingFolder.symm
  exact ⟨hwithin, s, u', ⟨hmade, hlisted', hs⟩, hcourse', hwithin',
    (h.holds hlisted hbegins.begun hnames hcourse).matches hroot
      (hlater.holds hlisted' hs hnames hcourse')⟩

/-- A run that has found the folder of the outputs does the same again. -/
theorem Ready.run_again (h : job.Ready opened dst)
    (hmade : opened.makeFolders job.destination = (.ok (), opened)) {outcome : Except Fault Report}
    (hrun : (job.run (m := StateM Tree)).on opened = (outcome, u)) :
    ((job.run (m := StateM Tree)).on u).1 = outcome ∧
      u.Matches ((job.run (m := StateM Tree)).on u).2 := by
  have hends := job.runOn_ends opened
  obtain ⟨houtcome, htree⟩ :
      (job.runOn opened).1.outcome = outcome ∧ (job.runOn opened).2 = u := Prod.mk.inj hrun
  rw [houtcome, htree] at hends
  -- Where no source has been taken nothing has been written.
  have hsame (hu : opened = u) : ((job.run (m := StateM Tree)).on u).1 = outcome ∧
      u.Matches ((job.run (m := StateM Tree)).on u).2 := by
    subst hu
    rw [hrun]
    exact ⟨rfl, .refl opened⟩
  cases hends with
  | destination hrefused => cases hmade.symm.trans hrefused
  | listing hmade' _ => exact hsame (congrArg Prod.snd (hmade.symm.trans hmade'))
  | opening hmade' _ _ => exact hsame (congrArg Prod.snd (hmade.symm.trans hmade'))
  | @stopped opened' t names done name after d _ e hbegins hnames hcourse hstop =>
      obtain ⟨_, rfl⟩ := Prod.mk.inj (hmade.symm.trans hbegins.made)
      subst hnames
      obtain ⟨hwithin, s, u', hagain, hcourse', hwithin', hmatches⟩ :=
        h.taken_again hbegins (List.prefix_append _ _) hcourse
      have hstop' := h.stops_again hbegins.listed hwithin hwithin' (by simp) hstop
      rw [hagain.on_run, hcourse'.on_compileAll_stopped hstop']
      exact ⟨rfl, hmatches⟩
  | @finished opened' t names done d _ hbegins hnames hcourse =>
      obtain ⟨_, rfl⟩ := Prod.mk.inj (hmade.symm.trans hbegins.made)
      subst hnames
      obtain ⟨_, s, u', hagain, hcourse', _, hmatches⟩ :=
        h.taken_again hbegins List.prefix_rfl hcourse
      rw [hagain.on_run, hcourse'.on_compileAll]
      exact ⟨rfl, hmatches⟩

/-! ## A second run -/

/-- The outputs of the job go to another folder than that of the sources, in a tree without links,
if they have a folder at all. -/
structure Separate (job : Job) (t : Tree) : Prop where
  sound : t.Sound
  noLinks : t.NoLinks
  plain : job.layout.Plain
  different : ∀ opened, t.makeFolders job.destination = (.ok (), opened) →
    opened.reach job.source ≠ opened.reach job.destination

theorem Apart.separate (h : job.Apart t) : job.Separate t where
  sound := h.sound
  noLinks := h.noLinks
  plain := h.plain
  different _ hmade := prepared_of_makeFolders hmade ▸ h.different

/-- Where the folder of the outputs can be made this is no less than `Apart`. -/
theorem Separate.apart (h : job.Separate t)
    (hmade : t.makeFolders job.destination = (.ok (), opened)) : job.Apart t where
  sound := h.sound
  noLinks := h.noLinks
  plain := h.plain
  different := prepared_of_makeFolders hmade ▸ h.different opened hmade

/-- A file is in the place of the folder of the outputs, or of one above it. The first run has made
some other folder, and the second run meets the file on its way. -/
structure MeetsFile (job : Job) (t : Tree) : Prop where
  first : (job.runOn t).1.outcome = .error (.fileAccess job.destination .present)
  second : (job.runOn (job.runOn t).2).1.outcome = .error (.fileAccess job.destination .notFolder)
  makes : (job.runOn t).2 ≠ t
  /-- There is no such way where all entries stand in folders and the path does not go up. -/
  goesUp : t.Closed → ".." ∈ Path.names job.destination

/-- **A second run comes to what the first came to, and leaves the tree as it is.** Only a folder
of outputs that cannot be made can be told of in another way. -/
theorem runOn_again (h : job.Separate t) :
    ((job.runOn (job.runOn t).2).1.outcome = (job.runOn t).1.outcome ∨ job.MeetsFile t) ∧
      (job.runOn t).2.Matches (job.runOn (job.runOn t).2).2 := by
  have hon (t : Tree) : (job.run (m := StateM Tree)).on t =
      ((job.runOn t).1.outcome, (job.runOn t).2) := rfl
  obtain ⟨⟨result, opened⟩, hmade⟩ : ∃ made, t.makeFolders job.destination = made := ⟨_, rfl⟩
  cases result with
  | ok =>
      obtain ⟨dst, hready⟩ := (h.apart hmade).ready hmade
      have hmade' := Tree.makeFolders_again h.noLinks hmade (.refl opened)
      -- The first run is a run over the tree with the folder in it.
      have hopened : (job.run (m := StateM Tree)).on opened =
          ((job.runOn t).1.outcome, (job.runOn t).2) := by
        rw [← hon, on_run, on_run, hmade, hmade']
      obtain ⟨houtcome, htree⟩ := hready.run_again hmade' hopened
      exact ⟨.inl houtcome, htree⟩
  | error cause =>
      obtain ⟨cause', hagain, hcauses⟩ :=
        Tree.makeFolders_refused_again h.noLinks h.sound.root hmade
      have hfirst : ((job.runOn t).1.outcome, (job.runOn t).2) =
          (.error (.fileAccess job.destination cause), opened) := by
        rw [← hon, on_run, hmade]
      obtain ⟨houtcome, htree⟩ := Prod.mk.inj hfirst
      have hsecond : ((job.runOn opened).1.outcome, (job.runOn opened).2) =
          (.error (.fileAccess job.destination cause'), opened) := by
        rw [← hon, on_run, hagain]
      obtain ⟨houtcome', htree'⟩ := Prod.mk.inj hsecond
      rw [htree, houtcome', htree', houtcome]
      refine ⟨?_, .refl opened⟩
      rcases hcauses with rfl | ⟨rfl, rfl, hmakes, hup⟩
      · exact .inl rfl
      · exact .inr ⟨houtcome, by rw [htree, houtcome'], by rwa [htree], hup⟩

theorem runOn_again_threeStalls :
    (fromSrcToOut (.aggregate "All.cpp")).Separate threeStalls ∧
      ∃ r, ((fromSrcToOut (.aggregate "All.cpp")).runOn threeStalls).1.outcome = .ok r ∧
        ((fromSrcToOut (.aggregate "All.cpp")).runOn
          ((fromSrcToOut (.aggregate "All.cpp")).runOn threeStalls).2).1.outcome = .ok r ∧
        ((fromSrcToOut (.aggregate "All.cpp")).runOn threeStalls).2.Matches
          ((fromSrcToOut (.aggregate "All.cpp")).runOn
            ((fromSrcToOut (.aggregate "All.cpp")).runOn threeStalls).2).2 := by
  have hlisted : (fromSrcToOut (.aggregate "All.cpp")).listing
      ((fromSrcToOut (.aggregate "All.cpp")).prepared threeStalls) =
        .ok ["a.idl", "b.idl", "c.idl"] :=
    listing_of_sorted (by decide +kernel) (by decide +kernel)
  have hok : ∃ r, ((fromSrcToOut (.aggregate "All.cpp")).runOn threeStalls).1.outcome = .ok r :=
    finishes_of_takeAll (by decide +kernel) hlisted (by decide +kernel)
  have hapart : (fromSrcToOut (.aggregate "All.cpp")).Apart threeStalls :=
    ⟨sound_threeSources _ _ _, noLinks_threeSources _ _ _, by decide, by decide +kernel⟩
  obtain ⟨r, hr⟩ := hok
  obtain ⟨houtcome | hmeets, htree⟩ := runOn_again hapart.separate
  · exact ⟨hapart.separate, r, hr, houtcome.trans hr, htree⟩
  · cases hr.symm.trans hmeets.first

/-- A working folder with a file and an empty folder of sources. -/
def fileBeside : Tree where
  workingFolder := ["work"]
  entries := [
    (["work"], .folder),
    (["work", "file"], .file "x".toUTF8),
    (["work", "src"], .folder)]
  distinct := by simp

/-- A job whose folder of outputs is to be in a file, behind a folder that is not there yet. -/
def intoFile : Job := { fromSrcToOut (.perFile "cpp") with destination := "new/../file/x" }

/-- The first run makes the folder `new`, so that the second one comes to the file. -/
theorem not_same_outcome_intoFile :
    intoFile.Separate fileBeside ∧ fileBeside.Closed ∧
      (intoFile.runOn fileBeside).1.outcome =
        .error (.fileAccess "new/../file/x" .present) ∧
      (intoFile.runOn (intoFile.runOn fileBeside).2).1.outcome =
        .error (.fileAccess "new/../file/x" .notFolder) ∧
      (intoFile.runOn (intoFile.runOn fileBeside).2).1.outcome ≠
        (intoFile.runOn fileBeside).1.outcome := by
  have hsound : fileBeside.Sound := by
    refine Tree.sound_of_entries ?_ ?_
    · simp [fileBeside, Tree.get?, Entry.isFolder]
    · simp +decide
  have hno : fileBeside.NoLinks := Tree.noLinks_of_entries (by simp [fileBeside, Entry.isLink])
  have hclosed : fileBeside.Closed := Tree.closed_of_entries (by decide +kernel)
  have hrefused : (fileBeside.makeFolders "new/../file/x").1 = .error .present := by decide +kernel
  have hfirst : (intoFile.runOn fileBeside).1.outcome =
      .error (.fileAccess "new/../file/x" .present) := by decide +kernel
  have hsecond : (intoFile.runOn (intoFile.runOn fileBeside).2).1.outcome =
      .error (.fileAccess "new/../file/x" .notFolder) := by decide +kernel
  refine ⟨⟨hsound, hno, by decide, fun opened hmade => ?_⟩, hclosed, hfirst, hsecond, ?_⟩
  · cases (congrArg Prod.fst hmade).symm.trans hrefused
  · rw [hfirst, hsecond]
    decide

end Batch.Job

end IdlGlue
