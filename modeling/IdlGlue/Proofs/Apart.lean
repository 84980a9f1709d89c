/-
# IdlGlue.Proofs.Apart -- outputs beside the folder of the sources

A job keeps its outputs apart from its sources where there are no links, the two folders are not
the same, and each output is an entry of its folder (`Apart`). Once the folder of the outputs is
made, at `dst`, the place of every output is known from its name:

| layout     | after some sources have been taken                                          |
|------------|-----------------------------------------------------------------------------|
| per file   | the file `dst ++ [name]` for each that has given glue, with the glue        |
| aggregate  | the file `dst ++ [file]`, with the glue of all that have given any, in order |

These are the `results` of the sources. All else is as it was (`Ready.holds`), and no output
stands where a source does (`Ready.keepsSources`).
-/
import IdlGlue.Proofs.Outputs

namespace IdlGlue.Batch

open IdlGlue.Disk

/-- Outputs of this layout are entries of their folder: no name leads out of it. -/
def Layout.Plain : Layout → Prop
  | .perFile extension => NoSlash extension
  | .aggregate file => FileName file

instance (layout : Layout) : Decidable layout.Plain :=
  match layout with
  | .perFile extension => inferInstanceAs (Decidable (NoSlash extension))
  | .aggregate file => inferInstanceAs (Decidable (FileName file))

namespace Job

variable {job : Job} {d d' : Declared} {opened t t' u : Tree} {name o path : String}
  {c : Compiled} {names : List String} {done : List (String × Compiled)} {l dst : Location}

/-! ## Names of outputs -/

/-- The name that the output for a source has in its folder. -/
def outputName (job : Job) (name : String) : String :=
  match job.layout with
  | .perFile extension => Path.withExtension name extension
  | .aggregate file => file

theorem isSome_extension? (h : job.namesSource name = true) :
    (Path.extension? name).isSome := by
  rw [decide_eq_true_eq.mp h]
  rfl

/-- A source has an output of a plain name. -/
theorem outputName_plain (hplain : job.layout.Plain) (hname : FileName name)
    (hsource : job.namesSource name = true) :
    job.outputName name ≠ "" ∧ NoSlash (job.outputName name) := by
  unfold outputName
  cases hlayout : job.layout with
  | perFile extension =>
      rw [hlayout] at hplain
      have hext := isSome_extension? hsource
      exact ⟨Path.withExtension_ne_empty hext,
        Path.noSlash_withExtension hext hname.noSlash hplain⟩
  | aggregate file =>
      rw [hlayout] at hplain
      exact ⟨hplain.ne_empty, hplain.noSlash⟩

/-- The path of an output is that of a plain name in its folder. -/
theorem mem_outputs (hplain : job.layout.Plain)
    (hnames : ∀ name ∈ names, FileName name ∧ job.namesSource name = true)
    (hpath : path ∈ job.outputs names) :
    ∃ o, path = Path.join job.destination o ∧ o ≠ "" ∧ NoSlash o := by
  unfold outputs at hpath
  cases hlayout : job.layout with
  | perFile extension =>
      rw [hlayout] at hpath
      obtain ⟨name, hname, rfl⟩ := List.mem_map.mp hpath
      obtain ⟨hfile, hsource⟩ := hnames name hname
      exact ⟨job.outputName name, rfl, outputName_plain hplain hfile hsource⟩
  | aggregate file =>
      rw [hlayout] at hpath hplain
      exact ⟨file, List.mem_singleton.mp hpath, hplain.ne_empty, hplain.noSlash⟩

/-! ## The two folders -/

/-- The outputs of the job go to another folder than that of the sources, in a tree without
links. Whether the two are the same is asked when both are there. -/
structure Apart (job : Job) (t : Tree) : Prop where
  sound : t.Sound
  noLinks : t.NoLinks
  plain : job.layout.Plain
  different : (job.prepared t).reach job.source ≠ (job.prepared t).reach job.destination

/-- A working folder with three sources, and an aggregate of an earlier run. -/
def threeSources (a b c : String) : Tree where
  workingFolder := ["work"]
  entries := [
    (["work"], .folder),
    (["work", "src"], .folder),
    (["work", "src", "a.idl"], .file a.toUTF8),
    (["work", "src", "b.idl"], .file b.toUTF8),
    (["work", "src", "c.idl"], .file c.toUTF8),
    (["work", "out"], .folder),
    (["work", "out", "All.cpp"], .file "stale".toUTF8)]
  distinct := by simp

/-- A job from `src` to `out` with the standard options. -/
def fromSrcToOut (layout : Layout) : Job where
  source := "src"
  destination := "out"
  sourceExtension := standardSourceExtension
  layout := layout
  options := .standard

theorem sound_threeSources (a b c : String) : (threeSources a b c).Sound := by
  refine Tree.sound_of_entries ?_ ?_
  · simp [threeSources, Tree.get?, Entry.isFolder]
  · simp +decide [threeSources]

theorem noLinks_threeSources (a b c : String) : (threeSources a b c).NoLinks := by
  refine Tree.noLinks_of_entries ?_
  simp [threeSources, Entry.isLink]

/-- The folder of the outputs is made, it is the one at `dst`, and it is not that of the
sources. -/
structure Ready (job : Job) (opened : Tree) (dst : Location) : Prop where
  root : opened.FolderAt opened.workingFolder
  fileNames : opened.FileNames
  noLinks : opened.NoLinks
  opens : opened.Opens job.destination dst
  plain : job.layout.Plain
  different : opened.reach job.source ≠ .ok dst

theorem Apart.ready (h : job.Apart t) (hmade : t.makeFolders job.destination = (.ok (), opened)) :
    ∃ dst, job.Ready opened dst := by
  obtain ⟨hadded, hopens⟩ := Tree.makesFolders_makeFolders hmade
  obtain ⟨dst, hdst⟩ := hopens rfl h.noLinks
  have hfollows := hadded.adds.grows.toFollows
  have hno := h.noLinks.follows hfollows
  have hroot := hfollows.root h.sound.root
  have hprepared := prepared_of_makeFolders hmade
  refine ⟨dst, hroot, hadded.fileNames h.sound.fileNames, hno, hdst, h.plain, ?_⟩
  have hreach := (hno.opens_iff (hdst.folderAt hroot).get?).mp hdst
  rw [← hreach, ← hprepared]
  exact h.different

namespace Ready

/-- What is listed is a file by its name and by its extension. -/
theorem listed (h : job.Ready opened dst) (hlisted : job.listing opened = .ok names) :
    ∀ name ∈ names, FileName name ∧ job.namesSource name = true := by
  intro name hname
  obtain ⟨src, _, _, hentry, hsource, _⟩ := mem_listing hlisted hname
  exact ⟨h.fileNames src name hentry, hsource⟩

/-- Where an output of the folder is opened. -/
theorem outputSite (h : job.Ready opened dst) (hwithin : job.Within opened names t)
    (hne : o ≠ "") (hslash : NoSlash o)
    (hl : t.outputSite (Path.join job.destination o) = .ok l) :
    NamesEntry o ∧ l = dst ++ [o] ∧ opened.locate .write (Path.join job.destination o) = .ok l := by
  have hfollows := hwithin.refills.toFollows
  have hroot := hfollows.root h.root
  obtain ⟨hentry, _, heq⟩ := (h.noLinks.follows hfollows).outputSite_join hroot
    (h.opens.follows hfollows) hne hslash hl
  have hlocate := (Tree.outputSite_eq_ok hroot hl).1
  exact ⟨hentry, heq, hwithin.refills.follows_back.locate hlocate⟩

/-- An output that is no folder is an entry of the folder of the outputs. -/
theorem isOutput (h : job.Ready opened dst) (hlisted : job.listing opened = .ok names)
    (hout : job.IsOutput opened names l) (hfolder : opened.get? l ≠ some .folder) :
    ∃ o, FileName o ∧ l = dst ++ [o] := by
  obtain ⟨path, hpath, hlocate⟩ := hout
  obtain ⟨o, rfl, hne, hslash⟩ := mem_outputs h.plain (h.listed hlisted) hpath
  have hsite : opened.outputSite (Path.join job.destination o) = .ok l := by
    refine Traversal.bind_eq_ok_iff.mpr ⟨l, hlocate, ?_⟩
    rw [if_neg (Entry.any_isFolder_iff.not.mpr hfolder)]
    rfl
  obtain ⟨hentry, heq, _⟩ := h.outputSite (within_self job opened names) hne hslash hsite
  exact ⟨o, ⟨hentry, hslash⟩, heq⟩

/-- **No source is among the outputs.** -/
theorem keepsSources (h : job.Ready opened dst) (hlisted : job.listing opened = .ok names) :
    job.KeepsSources opened names := by
  intro name hname l hl hout
  obtain ⟨src, content, hsrc, _, hsource, hentry⟩ :=
    locate_source h.noLinks h.fileNames hlisted hname
  obtain rfl : src ++ [name] = l := Except.ok.inj (hsource.symm.trans hl)
  obtain ⟨o, _, heq⟩ := h.isOutput hlisted hout (by rw [hentry]; exact nofun)
  exact h.different (by rw [hsrc, (List.append_inj' heq rfl).1])

end Ready

/-! ## Reading an output back -/

theorem fromUTF8?_toUTF8 (text : String) : String.fromUTF8? text.toUTF8 = some text := by
  have h : text.toUTF8.IsValidUTF8 := text.isValidUTF8
  rw [String.fromUTF8?, dif_pos h]
  rfl

/-- What an output holds is read back by its path. -/
theorem Within.readText (h : job.Within opened names u) {path text : String} {l : Location}
    (hl : opened.locate .write path = .ok l) (htext : u.get? l = some (.file text.toUTF8)) :
    u.readText path = .ok text :=
  Tree.readText_eq_ok_iff.mpr ⟨l, text.toUTF8,
    Tree.locate_find_of_write (h.refills.toFollows.locate hl), htext, fromUTF8?_toUTF8 text⟩

/-! ## What the outputs hold -/

/-- The sources that have given glue. -/
def delivered (done : List (String × Compiled)) : List (String × Compiled) :=
  done.filter fun s => !s.2.isEmpty

theorem delivered_cons_skip (h : c.isEmpty = true) :
    delivered ((name, c) :: done) = delivered done := by
  rw [delivered, List.filter_cons_of_neg (by simp [h]), delivered]

theorem delivered_cons (h : c.isEmpty = false) :
    delivered ((name, c) :: done) = (name, c) :: delivered done := by
  rw [delivered, List.filter_cons_of_pos (by simp [h]), delivered]

/-- The outputs of sources that have been taken: their names, and what each holds. -/
def results (job : Job) (done : List (String × Compiled)) : List (String × String) :=
  match job.layout with
  | .perFile extension =>
    (delivered done).map fun s => (Path.withExtension s.1 extension, s.2.code)
  | .aggregate file => [(file, String.join ((delivered done).map fun s => s.2.code))]

theorem results_perFile {extension : String} (hlayout : job.layout = .perFile extension)
    (done : List (String × Compiled)) :
    job.results done = (delivered done).map fun s => (job.outputName s.1, s.2.code) := by
  unfold results outputName
  rw [hlayout]

theorem results_aggregate {file : String} (hlayout : job.layout = .aggregate file)
    (done : List (String × Compiled)) :
    job.results done = [(file, String.join ((delivered done).map fun s => s.2.code))] := by
  unfold results
  rw [hlayout]

/-- The folder at `dst` holds files of these names with these texts. All else is as in the tree
before. -/
structure Holds (before : Tree) (dst : Location) (files : List (String × String)) (t : Tree) :
    Prop where
  file : ∀ f ∈ files, t.get? (dst ++ [f.1]) = some (.file f.2.toUTF8)
  elsewhere : ∀ k, (∀ f ∈ files, k ≠ dst ++ [f.1]) → t.get? k = before.get? k

namespace Holds

variable {files : List (String × String)} {code : String}

theorem refl (t : Tree) (dst : Location) : Holds t dst [] t := ⟨nofun, fun _ _ => rfl⟩

/-- One file is put before all others. -/
theorem cons (hnew : o ∉ files.map Prod.fst)
    (h : Holds (t.put (dst ++ [o]) (.file code.toUTF8)) dst files u) :
    Holds t dst ((o, code) :: files) u where
  file := by
    refine List.forall_mem_cons.mpr ⟨?_, h.file⟩
    rw [h.elsewhere, Tree.get?_put_self _ _ (by simp)]
    intro f hf heq
    have hname : o = f.1 := List.singleton_inj.mp (List.append_inj' heq rfl).2
    exact hnew (hname ▸ List.mem_map_of_mem hf)
  elsewhere k hk := by
    obtain ⟨hne, hk⟩ := List.forall_mem_cons.mp hk
    rw [h.elsewhere k hk, Tree.get?_put_of_ne _ _ hne]

end Holds

namespace Ready

/-- The output of every source that has given glue is an entry of the folder. -/
theorem sites (h : job.Ready opened dst) (hlisted : job.listing opened = .ok names)
    (hwithin : job.Within opened names t) (hnames : done.map Prod.fst ⊆ names)
    (hcourse : Course job d t done d' u) : ∀ s ∈ delivered done,
      NamesEntry (job.outputName s.1) ∧
        opened.locate .write (job.outputPath s.1) = .ok (dst ++ [job.outputName s.1]) := by
  induction hcourse with
  | nil d t => exact List.forall_mem_nil _
  | @cons d d' d'' t t' t'' name c rest htake _ ih =>
      obtain ⟨hname, hnames⟩ := List.cons_subset.mp hnames
      have hrest := ih (hwithin.takes h.root hname htake) hnames
      rcases htake.tree with ⟨hempty, _, _⟩ | ⟨hempty, _, l, hl, _⟩
      · rw [delivered_cons_skip hempty]
        exact hrest
      · rw [delivered_cons hempty]
        refine List.forall_mem_cons.mpr ⟨?_, hrest⟩
        obtain ⟨hfile, hsource⟩ := h.listed hlisted name hname
        obtain ⟨hne, hslash⟩ := outputName_plain h.plain hfile hsource
        obtain ⟨hentry, rfl, hlocate⟩ := h.outputSite hwithin hne hslash hl
        exact ⟨hentry, hlocate⟩

/-- No two sources have outputs of one name. -/
theorem outputName_injective (h : job.Ready opened dst) {extension name' : String}
    (hlayout : job.layout = .perFile extension) (hlisted : job.listing opened = .ok names)
    (hname : name ∈ names) (hname' : name' ∈ names) (hentry : NamesEntry (job.outputName name))
    (heq : job.outputName name = job.outputName name') : name = name' := by
  have hsource := (h.listed hlisted name hname).2
  have hsource' := (h.listed hlisted name' hname').2
  unfold outputName at heq hentry
  rw [hlayout] at heq hentry
  exact Path.withExtension_injective (decide_eq_true_eq.mp hsource)
    (decide_eq_true_eq.mp hsource') hentry heq

/-- Outputs of a source each: what they hold, when some sources have been taken. -/
theorem holds_perFile (h : job.Ready opened dst) {extension : String}
    (hlayout : job.layout = .perFile extension) (hlisted : job.listing opened = .ok names)
    (hwithin : job.Within opened names t) (hnames : done.map Prod.fst ⊆ names)
    (hnodup : (done.map Prod.fst).Nodup) (hcourse : Course job d t done d' u) :
    Holds t dst (job.results done) u := by
  rw [results_perFile hlayout]
  induction hcourse with
  | nil d t => exact .refl t dst
  | @cons d d' d'' t t' t'' name c rest htake hrest ih =>
      have hsites := h.sites hlisted hwithin hnames (.cons htake hrest)
      obtain ⟨hname, hnames⟩ := List.cons_subset.mp hnames
      obtain ⟨hnew, hnodup⟩ := List.nodup_cons.mp hnodup
      have hholds := ih (hwithin.takes h.root hname htake) hnames hnodup
      rcases htake.tree with ⟨hempty, _, rfl⟩ | ⟨hempty, _, l, hl, rfl⟩
      · rw [delivered_cons_skip hempty]
        exact hholds
      · rw [delivered_cons hempty] at hsites ⊢
        obtain ⟨⟨hentry, _⟩, _⟩ := List.forall_mem_cons.mp hsites
        obtain ⟨hfile, hsource⟩ := h.listed hlisted name hname
        obtain ⟨hne, hslash⟩ := outputName_plain h.plain hfile hsource
        obtain ⟨_, rfl, _⟩ := h.outputSite hwithin hne hslash hl
        have hcontent : ∀ l, job.contentAfter t l c.code = c.code.toUTF8 := by
          intro l
          rw [contentAfter, hlayout]
        rw [hcontent] at hholds
        refine Holds.cons ?_ hholds
        -- Another source with an output of this name would have the same name itself.
        intro hmem
        simp only [List.map_map, List.mem_map, Function.comp_apply] at hmem
        obtain ⟨s, hs, heq⟩ := hmem
        have hs := List.mem_of_mem_filter hs
        have hsame := h.outputName_injective hlayout hlisted hname
          (hnames (List.mem_map_of_mem hs)) hentry heq.symm
        exact hnew (List.mem_map.mpr ⟨s, hs, hsame.symm⟩)

/-- An aggregate: what it holds when some sources have been taken. -/
theorem holds_aggregate (h : job.Ready opened dst) {file text : String}
    (hlayout : job.layout = .aggregate file) (hlisted : job.listing opened = .ok names)
    (hwithin : job.Within opened names t) (hnames : done.map Prod.fst ⊆ names)
    (htext : t.get? (dst ++ [file]) = some (.file text.toUTF8))
    (hcourse : Course job d t done d' u) :
    u.get? (dst ++ [file]) = some (.file
      (text ++ String.join ((delivered done).map fun s => s.2.code)).toUTF8) ∧
      ∀ k, k ≠ dst ++ [file] → u.get? k = t.get? k := by
  induction hcourse generalizing text with
  | nil d t =>
      refine ⟨?_, fun _ _ => rfl⟩
      rw [htext, delivered, List.filter_nil, List.map_nil, String.join_nil, String.append_empty]
  | @cons d d' d'' t t' t'' name c rest htake hrest ih =>
      obtain ⟨hname, hnames⟩ := List.cons_subset.mp hnames
      have hwithin' := hwithin.takes h.root hname htake
      rcases htake.tree with ⟨hempty, _, rfl⟩ | ⟨hempty, _, l, hl, rfl⟩
      · rw [delivered_cons_skip hempty]
        exact ih hwithin' hnames htext
      · rw [delivered_cons hempty, List.map_cons, String.join_cons]
        obtain ⟨hfile, hsource⟩ := h.listed hlisted name hname
        obtain ⟨hne, hslash⟩ := outputName_plain h.plain hfile hsource
        obtain ⟨_, rfl, _⟩ := h.outputSite hwithin hne hslash hl
        have hout : job.outputName name = file := by rw [outputName, hlayout]
        rw [hout] at hwithin' ih
        have hput : (t.put (dst ++ [file]) (.file (job.contentAfter t (dst ++ [file]) c.code))).get?
            (dst ++ [file]) = some (.file (text ++ c.code).toUTF8) := by
          rw [Tree.get?_put_self _ _ (by simp), contentAfter, hlayout]
          dsimp only
          rw [Tree.contentAt, htext]
          exact congrArg (some ∘ Entry.file) String.toByteArray_append.symm
        obtain ⟨hheld, helse⟩ := ih hwithin' hnames hput
        refine ⟨?_, fun k hk => ?_⟩
        · rw [hheld, String.append_assoc]
        · rw [helse k hk, Tree.get?_put_of_ne _ _ hk]

/-- **What a run has done to the tree when some of its sources have been taken.** -/
theorem holds (h : job.Ready opened dst) (hlisted : job.listing opened = .ok names)
    (hbegun : job.begun opened = .ok t) (hnames : done.map Prod.fst <+: names)
    (hcourse : Course job d t done d' u) : Holds opened dst (job.results done) u := by
  have hself := within_self job opened names
  have hwithin := hself.begun h.root hbegun
  rcases begun_eq_ok hbegun with ⟨extension, hlayout, rfl⟩ | ⟨file, l, hlayout, hl, rfl⟩
  · exact h.holds_perFile hlayout hlisted hwithin hnames.subset
      (hnames.sublist.nodup (nodup_listing hlisted)) hcourse
  · have hplain := h.plain
    rw [hlayout] at hplain
    obtain ⟨_, rfl, _⟩ := h.outputSite hself hplain.ne_empty hplain.noSlash hl
    have hput := Tree.get?_put_self opened (.file "".toUTF8) (l := dst ++ [file]) (by simp)
    obtain ⟨hheld, helse⟩ := h.holds_aggregate hlayout hlisted hwithin hnames.subset hput
      hcourse
    rw [results_aggregate hlayout]
    refine ⟨List.forall_mem_singleton.mpr ?_, fun k hk => ?_⟩
    · rw [hheld, String.empty_append]
    · have hk := List.forall_mem_singleton.mp hk
      rw [helse k hk, Tree.get?_put_of_ne _ _ hk]

/-- The path of each output leads to it, also before it is there. -/
theorem locate_results (h : job.Ready opened dst) (hlisted : job.listing opened = .ok names)
    (hbegun : job.begun opened = .ok t) (hnames : done.map Prod.fst ⊆ names)
    (hcourse : Course job d t done d' u) : ∀ f ∈ job.results done,
      opened.locate .write (Path.join job.destination f.1) = .ok (dst ++ [f.1]) := by
  have hself := within_self job opened names
  rcases begun_eq_ok hbegun with ⟨extension, hlayout, rfl⟩ | ⟨file, l, hlayout, hl, rfl⟩
  · rw [results_perFile hlayout]
    exact List.forall_mem_map.mpr fun s hs => (h.sites hlisted hself hnames hcourse s hs).2
  · rw [results_aggregate hlayout]
    have hplain := h.plain
    rw [hlayout] at hplain
    obtain ⟨_, rfl, hlocate⟩ := h.outputSite hself hplain.ne_empty hplain.noSlash hl
    exact List.forall_mem_singleton.mpr hlocate

/-- **Each output is read back by its path.** -/
theorem readText_results (h : job.Ready opened dst) (hlisted : job.listing opened = .ok names)
    (hbegun : job.begun opened = .ok t) (hnames : done.map Prod.fst <+: names)
    (hcourse : Course job d t done d' u) :
    ∀ f ∈ job.results done, u.readText (Path.join job.destination f.1) = .ok f.2 := by
  intro f hf
  have hwithin := ((within_self job opened names).begun h.root hbegun).course h.root hnames.subset
    hcourse
  exact hwithin.readText (h.locate_results hlisted hbegun hnames.subset hcourse f hf)
    ((h.holds hlisted hbegun hnames hcourse).file f hf)

end Ready

end Job

end IdlGlue.Batch
