/-
# IdlGlue.Proofs.PerFile -- an output for each source

A run with an output for each source takes the files of one folder, in the order of the bytes of
their names, and puts the glue of each into a file of its own in another folder:

| a source        | is reported as | its output                                               |
|-----------------|----------------|----------------------------------------------------------|
| declares a lot  | compiled       | has its name with another extension, and holds its glue  |
| declares nothing| skipped        | there is none                                            |

Which files are sources is told by their names (`Finds`). There is one more condition, for which
the run has a check of its own: a file whose path is too long to be followed is told and left
out, and the run goes on. So `dotted` names the folder `src` in a way in which no source is found
there.
-/
import IdlGlue.Proofs.Aggregate
import IdlGlue.Proofs.Compilation

namespace IdlGlue.Batch.Job

open IdlGlue.Disk

variable {job : Job} {t opened u : Tree} {src dst : Location} {name extension : String}
  {names : List String} {done : List (String × Compiled)} {d d' : Declared} {r : Report}

/-! ## Sources -/

/-- The folder at `src` has a source of this name: a file with the extension of sources, whose
path can be followed. -/
structure Finds (job : Job) (t : Tree) (src : Location) (name : String) : Prop where
  file : ∃ content, t.get? (src ++ [name]) = some (.file content)
  extension : ∃ stem, stem ≠ "" ∧ name = stem ++ "." ++ job.sourceExtension
  lastDot : '.' ∉ job.sourceExtension.toList
  pathLength : (job.sourcePath name).utf8ByteSize ≤ Tree.pathLimit
  nameLength : name.utf8ByteSize ≤ Tree.nameLimit
  noNul : '\x00' ∉ (job.sourcePath name).toList

theorem namesSource_iff : job.namesSource name = true ↔
    (∃ stem, stem ≠ "" ∧ name = stem ++ "." ++ job.sourceExtension) ∧
      '.' ∉ job.sourceExtension.toList := by
  have hsplit : job.namesSource name = true ↔
      ∃ stem, Path.splitExtension name = (stem, some job.sourceExtension) := by
    rw [namesSource, decide_eq_true_eq, Path.extension?]
    constructor
    · intro h
      exact ⟨(Path.splitExtension name).1, Prod.ext rfl h⟩
    · rintro ⟨stem, h⟩
      rw [h]
  simp only [hsplit, Path.splitExtension_eq_iff]
  constructor
  · rintro ⟨stem, hne, hname, hdot⟩
    exact ⟨⟨stem, hne, hname⟩, hdot⟩
  · rintro ⟨⟨stem, hne, hname⟩, hdot⟩
    exact ⟨stem, hne, hname, hdot⟩

/-- What is listed in a folder is what can be found there. -/
theorem mem_listing_iff (hno : opened.NoLinks) (hnames : opened.FileNames)
    (hlisted : job.listing opened = .ok names) (hsrc : opened.locate .find job.source = .ok src) :
    name ∈ names ↔ job.Finds opened src name := by
  obtain ⟨src', hsrc', hfolder, rfl⟩ := listing_eq_ok_iff.mp hlisted
  obtain rfl : src = src' := Except.ok.inj (hsrc.symm.trans hsrc')
  have hopens : opened.Opens job.source src :=
    (hno.opens_iff hfolder).mpr (Tree.reach_of_locate hsrc)
  rw [List.mem_mergeSort, List.mem_filter, List.mem_filter, Tree.mem_children_iff, namesSource_iff,
    leadsToFile_iff]
  constructor
  · rintro ⟨⟨hentry, hextension, hdot⟩, l, content, hl, hcontent⟩
    have hfile := hnames src name hentry
    obtain rfl := hno.locate_join hopens hfile hl
    obtain ⟨hpath, hname⟩ := (hno.locate_file_iff hopens hfile hcontent).mp hl
    obtain ⟨hnul, _, hlength⟩ := Tree.checkPath_eq_ok_iff.mp hpath
    exact ⟨⟨content, hcontent⟩, hextension, hdot, hlength, Tree.checkName_eq_ok_iff.mp hname, hnul⟩
  · rintro ⟨⟨content, hcontent⟩, hextension, hdot, hlength, hshort, hnul⟩
    have hentry : (opened.get? (src ++ [name])).isSome := by
      rw [hcontent]
      rfl
    have hfile := hnames src name hentry
    have hpath := Tree.checkPath_eq_ok_iff.mpr
      ⟨hnul, Path.join_ne_empty hfile.ne_empty hfile.noSlash, hlength⟩
    have hl := (hno.locate_file_iff hopens hfile hcontent).mpr
      ⟨hpath, Tree.checkName_eq_ok_iff.mpr hshort⟩
    exact ⟨⟨hentry, hextension, hdot⟩, _, content, hl, hcontent⟩

/-- New folders do not change what is found. -/
theorem finds_iff_of_addsFolders (h : t.AddsFolders opened) :
    job.Finds opened src name ↔ job.Finds t src name := by
  constructor
  · rintro ⟨⟨content, hfile⟩, hextension, hdot, hlength, hshort, hnul⟩
    exact ⟨⟨content, h.file_iff.mp hfile⟩, hextension, hdot, hlength, hshort, hnul⟩
  · rintro ⟨⟨content, hfile⟩, hextension, hdot, hlength, hshort, hnul⟩
    exact ⟨⟨content, h.file_iff.mpr hfile⟩, hextension, hdot, hlength, hshort, hnul⟩

theorem toUTF8_of_fromUTF8? {content : ByteArray} {text : String}
    (h : String.fromUTF8? content = some text) : content = text.toUTF8 := by
  unfold String.fromUTF8? at h
  split at h
  · cases h
    rfl
  · cases h

/-! ## What the run has done -/

/-- A source: its name, its text, what the text declares, and the glue of that. -/
structure Source where
  name : String
  text : String
  file : SourceFile
  glue : Compiled

/-- A source as a run takes it. -/
def Source.taken (s : Source) : String × Compiled := (s.name, s.glue)

/-- The sources of which something comes. -/
def declaring (sources : List Source) : List Source := sources.filter fun s => !s.file.isEmpty

/-- The sources that declare nothing. -/
def silent (sources : List Source) : List Source := sources.filter fun s => s.file.isEmpty

/-- The source stands at `l`. -/
structure Source.StandsAt (s : Source) (job : Job) (t : Tree) (l : Location) : Prop where
  holds : t.get? l = some (.file s.text.toUTF8)
  reads : SourceFile.ofText s.text = .ok s.file
  compiles : (compile job.options s.text).outcome = .ok s.glue

/-- The path is that of the source in the folder of the outputs, with another extension behind the
last dot, and without one where the extension is empty. The file there holds the glue. -/
structure Source.GoesTo (s : Source) (job : Job) (u : Tree) (extension path : String) : Prop where
  name : ∃ stem, s.name = stem ++ "." ++ job.sourceExtension ∧
    path = Path.join job.destination (if extension = "" then stem else stem ++ "." ++ extension)
  holds : u.readText path = .ok s.glue.code

/-- What a run with an output for each source reports in `r`, and what it makes of the tree `t`.
The sources are those of the folder at `src`, in their order. -/
structure CompilesEach (job : Job) (t u : Tree) (extension : String) (r : Report) (src : Location)
    (sources : List Source) : Prop where
  folder : (job.prepared t).reach job.source = .ok src
  found : ∀ name, name ∈ sources.map Source.name ↔ job.Finds t src name
  ascending : (sources.map Source.name).Pairwise fun a b => Text.bytes a < Text.bytes b
  stand : ∀ s ∈ sources, s.StandsAt job t (src ++ [s.name])
  compiled : r.compiled = (declaring sources).map fun s => job.sourcePath s.name
  skipped : r.skipped = (silent sources).map fun s => job.sourcePath s.name
  written : List.Forall₂ (fun s path => s.GoesTo job u extension path)
    (declaring sources) r.written
  distinct : r.written.Nodup
  /-- All else is as it was, but there may be new folders. -/
  elsewhere : ∀ k, (∀ path ∈ r.written, u.locate .find path ≠ .ok k) →
    u.get? k = t.get? k ∨ t.get? k = none ∧ u.get? k = some .folder

/-- What is compiled is empty just if nothing is declared. -/
theorem isEmpty_of_compile {options : Options} {text : String} {file : SourceFile} {c : Compiled}
    (hfile : SourceFile.ofText text = .ok file) (h : (compile options text).outcome = .ok c) :
    c.isEmpty = file.isEmpty := by
  obtain ⟨file', glue, hfile', _, rfl⟩ := compile_eq_ok_iff.mp h
  obtain rfl : file = file' := Except.ok.inj (hfile.symm.trans hfile')
  rw [Compiled.isEmpty, SourceFile.isEmpty, List.isEmpty_map, List.isEmpty_map, Bool.and_comm]

/-- A source that gives its glue stands in its folder. -/
theorem exists_source (hno : opened.NoLinks) (hnames : opened.FileNames)
    (hadds : t.AddsFolders opened) (hlisted : job.listing opened = .ok names)
    (hsrc : opened.locate .find job.source = .ok src) (hname : name ∈ names) {c : Compiled}
    (hglue : job.glueIn opened name = .ok c) :
    ∃ s : Source, s.taken = (name, c) ∧ s.StandsAt job t (src ++ [s.name]) := by
  obtain ⟨text, htext, hcompile⟩ := glueIn_eq_ok_iff.mp hglue
  obtain ⟨file, _, hfile, _⟩ := compile_eq_ok_iff.mp hcompile
  obtain ⟨src', _, hreach, _, hl', _⟩ := locate_source hno hnames hlisted hname
  obtain rfl : src = src' := Except.ok.inj ((Tree.reach_of_locate hsrc).symm.trans hreach)
  obtain ⟨l, content, hl, hcontent, hutf8⟩ := Tree.readText_eq_ok_iff.mp htext
  obtain rfl : src ++ [name] = l := Except.ok.inj (hl'.symm.trans hl)
  refine ⟨{ name, text, file, glue := c }, rfl, ?_, hfile, hcompile⟩
  rw [← toUTF8_of_fromUTF8? hutf8]
  exact hadds.file_iff.mp hcontent

/-- What holds of each holds of a list of them. -/
theorem exists_sources {P : Source → Prop}
    (h : ∀ s ∈ done, ∃ source : Source, source.taken = s ∧ P source) :
    ∃ sources : List Source, sources.map Source.taken = done ∧ ∀ s ∈ sources, P s := by
  induction done with
  | nil => exact ⟨[], rfl, List.forall_mem_nil _⟩
  | cons s done ih =>
      obtain ⟨hfirst, hrest⟩ := List.forall_mem_cons.mp h
      obtain ⟨source, hsource, hP⟩ := hfirst
      obtain ⟨sources, hsources, hall⟩ := ih hrest
      refine ⟨source :: sources, ?_, List.forall_mem_cons.mpr ⟨hP, hall⟩⟩
      rw [List.map_cons, hsource, hsources]

section

variable {sources : List Source} (h : ∀ s ∈ sources, s.glue.isEmpty = s.file.isEmpty)

include h

theorem delivered_taken : delivered (sources.map Source.taken) =
    (declaring sources).map Source.taken := by
  rw [delivered, List.filter_map, declaring]
  refine congrArg (List.map Source.taken) (List.filter_congr fun s hs => ?_)
  exact congrArg (!·) (h s hs)

theorem compiledNames_taken : compiledNames (sources.map Source.taken) =
    (declaring sources).map Source.name := by
  show (delivered (sources.map Source.taken)).map Prod.fst = _
  rw [delivered_taken h, List.map_map]
  rfl

theorem skippedNames_taken : skippedNames (sources.map Source.taken) =
    (silent sources).map Source.name := by
  rw [skippedNames, List.filter_map, List.map_map, silent]
  exact congrArg (List.map Source.name) (List.filter_congr fun s hs => h s hs)

end

/-! ## Outputs -/

/-- The path of an output is made of that of its source. -/
theorem outputPath_eq (hlayout : job.layout = .perFile extension)
    (hsource : job.namesSource name = true) (hentry : NamesEntry (job.outputName name)) :
    ∃ stem, name = stem ++ "." ++ job.sourceExtension ∧ job.outputPath name =
      Path.join job.destination (if extension = "" then stem else stem ++ "." ++ extension) := by
  have hpath : job.outputPath name =
      Path.join job.destination (Path.withExtension name extension) := by
    rw [outputPath, hlayout]
  rw [outputName, hlayout] at hentry
  rcases Path.withExtension_cases extension (isSome_extension? hsource) with
    hup | ⟨stem, old, hsplit, h⟩
  · exact absurd hup hentry.ne_up
  · have hold : some old = some job.sourceExtension := by
      rw [← decide_eq_true_eq.mp hsource, Path.extension?, hsplit]
    obtain rfl := Option.some.inj hold
    refine ⟨stem, (Path.splitExtension_eq_iff.mp hsplit).2.1, ?_⟩
    rw [hpath, h]
    simp only [String.isEmpty_iff]

/-- Outputs of different sources have different paths. -/
theorem Ready.nodup_outputPath (h : job.Ready opened dst)
    (hlayout : job.layout = .perFile extension) (hlisted : job.listing opened = .ok names)
    {kept : List String} (hkept : kept.Sublist names)
    (hentries : ∀ name ∈ kept, NamesEntry (job.outputName name)) :
    (kept.map job.outputPath).Nodup := by
  refine List.Nodup.map_on ?_ (hkept.nodup (nodup_listing hlisted))
  -- Two stems could agree with other extensions; all sources have the same one.
  intro name hname name' hname' heq
  have hplain : ∀ name ∈ kept, job.outputName name ≠ "" ∧ NoSlash (job.outputName name) := by
    intro name hname
    obtain ⟨hfile, hsource⟩ := h.listed hlisted name (hkept.subset hname)
    exact outputName_plain h.plain hfile hsource
  have houtput : job.outputName name = job.outputName name' :=
    Path.join_injective (hplain name hname).1 (hplain name hname).2 (hplain name' hname').1
      (hplain name' hname').2 heq
  exact h.outputName_injective hlayout hlisted (hkept.subset hname) (hkept.subset hname')
    (hentries name hname) houtput

theorem begun_perFile (hlayout : job.layout = .perFile extension) (t : Tree) :
    job.begun t = .ok t := by
  rw [begun, hlayout]

/-- The output of a source stands where its path leads, and it holds the glue. -/
theorem Ready.output (h : job.Ready opened dst) (hlayout : job.layout = .perFile extension)
    (hlisted : job.listing opened = .ok (done.map Prod.fst))
    (hcourse : Course job d opened done d' u) {s : String × Compiled} (hs : s ∈ delivered done) :
    NamesEntry (job.outputName s.1) ∧
      u.locate .find (job.outputPath s.1) = .ok (dst ++ [job.outputName s.1]) ∧
      u.readText (job.outputPath s.1) = .ok s.2.code := by
  have hself := within_self job opened (done.map Prod.fst)
  have hprefix := List.prefix_refl (done.map Prod.fst)
  have hwithin := hself.course h.root hprefix.subset hcourse
  obtain ⟨hentry, hwrite⟩ := h.sites hlisted hself hprefix.subset hcourse s hs
  have hread := h.readText_results hlisted (begun_perFile hlayout opened) hprefix hcourse
  rw [results_perFile hlayout] at hread
  refine ⟨hentry, Tree.locate_find_of_write (hwithin.refills.toFollows.locate hwrite), ?_⟩
  exact hread (job.outputName s.1, s.2.code) (List.mem_map.mpr ⟨s, hs, rfl⟩)

/-- Where no path of an output leads, nothing is changed. -/
theorem Ready.elsewhere (h : job.Ready opened dst) (hlayout : job.layout = .perFile extension)
    (hlisted : job.listing opened = .ok (done.map Prod.fst))
    (hcourse : Course job d opened done d' u) {k : Location}
    (hk : ∀ s ∈ delivered done, u.locate .find (job.outputPath s.1) ≠ .ok k) :
    u.get? k = opened.get? k := by
  have hholds := h.holds hlisted (begun_perFile hlayout opened) (List.prefix_refl _) hcourse
  rw [results_perFile hlayout] at hholds
  apply hholds.elsewhere
  intro f hf heq
  obtain ⟨s, hs, rfl⟩ := List.mem_map.mp hf
  apply hk s hs
  rw [heq]
  exact (h.output hlayout hlisted hcourse hs).2.1

section

variable {sources : List Source}

theorem map_fst_taken (sources : List Source) :
    (sources.map Source.taken).map Prod.fst = sources.map Source.name := List.map_map

theorem report_written (hlayout : job.layout = .perFile extension)
    (hempty : ∀ s ∈ sources, s.glue.isEmpty = s.file.isEmpty) :
    (job.report (compiledNames (sources.map Source.taken),
      skippedNames (sources.map Source.taken))).written =
      ((declaring sources).map Source.name).map job.outputPath := by
  show job.outputs (compiledNames _) = _
  rw [compiledNames_taken hempty, outputs, hlayout]

/-- What has come of the sources once all of them have been taken. -/
theorem Ready.compilesEach (h : job.Ready opened dst) (hlayout : job.layout = .perFile extension)
    (hprepared : job.prepared t = opened) (hadds : t.AddsFolders opened)
    (hsrc : opened.locate .find job.source = .ok src)
    (hlisted : job.listing opened = .ok ((sources.map Source.taken).map Prod.fst))
    (hstand : ∀ s ∈ sources, s.StandsAt job t (src ++ [s.name]))
    (hcourse : Course job d opened (sources.map Source.taken) d' u) :
    job.CompilesEach t u extension (job.report (compiledNames (sources.map Source.taken),
      skippedNames (sources.map Source.taken))) src sources := by
  have hempty : ∀ s ∈ sources, s.glue.isEmpty = s.file.isEmpty := fun s hs =>
    isEmpty_of_compile (hstand s hs).reads (hstand s hs).compiles
  have hdelivered : ∀ s ∈ declaring sources, s.taken ∈ delivered (sources.map Source.taken) := by
    intro s hs
    rw [delivered_taken hempty]
    exact List.mem_map_of_mem hs
  have hlist : ((declaring sources).map Source.name).Sublist
      ((sources.map Source.taken).map Prod.fst) := by
    rw [map_fst_taken]
    exact List.filter_sublist.map _
  refine ⟨?_, ?_, ?_, hstand, ?_, ?_, ?_, ?_, ?_⟩
  · rw [hprepared]
    exact Tree.reach_of_locate hsrc
  · intro name
    rw [← map_fst_taken, mem_listing_iff h.noLinks h.fileNames hlisted hsrc]
    exact finds_iff_of_addsFolders hadds
  · rw [← map_fst_taken]
    exact listing_ascending hlisted
  · show (compiledNames _).map job.sourcePath = _
    rw [compiledNames_taken hempty, List.map_map]
    rfl
  · show (skippedNames _).map job.sourcePath = _
    rw [skippedNames_taken hempty, List.map_map]
    rfl
  · rw [report_written hlayout hempty, List.map_map, List.forall₂_map_right_iff, List.forall₂_same]
    intro s hs
    obtain ⟨hentry, _, hread⟩ := h.output hlayout hlisted hcourse (hdelivered s hs)
    have hmem : s.name ∈ (sources.map Source.taken).map Prod.fst :=
      hlist.subset (List.mem_map_of_mem hs)
    exact ⟨outputPath_eq hlayout (h.listed hlisted s.name hmem).2 hentry, hread⟩
  · rw [report_written hlayout hempty]
    -- Sources that declare nothing have no output, and their names need not make one.
    refine h.nodup_outputPath hlayout hlisted hlist ?_
    intro name hname
    obtain ⟨s, hs, rfl⟩ := List.mem_map.mp hname
    exact (h.output hlayout hlisted hcourse (hdelivered s hs)).1
  · intro k hk
    -- The folders were made before the first source was taken.
    have hkept : u.get? k = opened.get? k := by
      apply h.elsewhere hlayout hlisted hcourse
      intro s hs
      rw [delivered_taken hempty] at hs
      obtain ⟨source, hsource, rfl⟩ := List.mem_map.mp hs
      apply hk
      rw [report_written hlayout hempty]
      exact List.mem_map_of_mem (List.mem_map_of_mem hsource)
    rw [hkept]
    exact hadds.entry k

end

/-- **A run with an output for each source compiles the sources of its folder, each to a file of
its own, and touches no other file.** -/
theorem compilesEach_of_perFile (hapart : job.Apart t) (hlayout : job.layout = .perFile extension)
    (hok : (job.runOn t).1.outcome = .ok r) :
    ∃ src sources, job.CompilesEach t (job.runOn t).2 extension r src sources := by
  have hends := job.runOn_ends t
  rw [hok] at hends
  generalize (job.runOn t).2 = final at hends ⊢
  cases hends with
  | @finished opened begun names done d final hbegins hnames hcourse =>
  subst hnames
  obtain rfl : opened = begun := by
    have hbegun := hbegins.begun
    rw [begun_perFile hlayout] at hbegun
    exact Except.ok.inj hbegun
  have hlisted := hbegins.listed
  have hadds := (Tree.makesFolders_makeFolders hbegins.made).1.adds
  obtain ⟨dst, hready⟩ := hapart.ready hbegins.made
  obtain ⟨hglues, _⟩ :=
    hbegins.taken hapart.sound.root (hready.keepsSources hlisted) (List.prefix_refl _) hcourse
  obtain ⟨src, hsrc, _, _⟩ := listing_eq_ok_iff.mp hlisted
  -- The run has not changed the sources, so each holds the text that it held before.
  have hsources : ∀ s ∈ done, ∃ source : Source, source.taken = s ∧
      source.StandsAt job t (src ++ [source.name]) := by
    intro s hs
    exact exists_source hready.noLinks hready.fileNames hadds hlisted hsrc
      (List.mem_map_of_mem hs) (hglues s hs)
  obtain ⟨sources, rfl, hstand⟩ := exists_sources hsources
  exact ⟨src, sources, hready.compilesEach hlayout hbegins.prepared hadds hsrc hlisted hstand
    hcourse⟩

theorem compilesEach_threeStalls :
    ∃ r, ((fromSrcToOut (.perFile "cpp")).runOn threeStalls).1.outcome = .ok r ∧
      ∃ src sources, (fromSrcToOut (.perFile "cpp")).CompilesEach threeStalls
        ((fromSrcToOut (.perFile "cpp")).runOn threeStalls).2 "cpp" r src sources := by
  have hlisted : (fromSrcToOut (.perFile "cpp")).listing
      ((fromSrcToOut (.perFile "cpp")).prepared threeStalls) = .ok ["a.idl", "b.idl", "c.idl"] :=
    listing_of_sorted (by decide +kernel) (by decide +kernel)
  have hok : ∃ r, ((fromSrcToOut (.perFile "cpp")).runOn threeStalls).1.outcome = .ok r :=
    finishes_of_takeAll (by decide +kernel) hlisted (by decide +kernel)
  have hapart : (fromSrcToOut (.perFile "cpp")).Apart threeStalls :=
    ⟨sound_threeSources _ _ _, noLinks_threeSources _ _ _, by decide, by decide +kernel⟩
  obtain ⟨r, hr⟩ := hok
  exact ⟨r, hr, compilesEach_of_perFile hapart rfl hr⟩

/-! ## A path that is too long -/

/-- The folder `src` behind steps that lead nowhere. -/
def dotted : Nat → String
  | 0 => "src"
  | n + 1 => "./" ++ dotted n

theorem toList_dotted (n : Nat) : (dotted (n + 1)).toList = '.' :: '/' :: (dotted n).toList := by
  rw [dotted, String.toList_append]
  rfl

theorem utf8ByteSize_dotted (n : Nat) : (dotted n).utf8ByteSize = 2 * n + 3 := by
  induction n with
  | zero => rfl
  | succ n ih =>
      have hstep : "./".utf8ByteSize = 2 := rfl
      rw [dotted, String.utf8ByteSize_append, ih, hstep]
      omega

theorem names_dotted (n : Nat) : Path.names (dotted n) = List.replicate n "." ++ ["src"] := by
  induction n with
  | zero => decide
  | succ n ih =>
      have hdot : Path.names "." = ["."] := by decide
      have hnames : Path.names (dotted (n + 1)) = Path.names "." ++ Path.names (dotted n) :=
        Path.names_slash (toList_dotted n)
      rw [hnames, hdot, ih]
      rfl

theorem endsInSlash_dotted (n : Nat) : Path.endsInSlash (dotted n) = false := by
  have hend : ∃ base, dotted n = base ++ "src" := by
    induction n with
    | zero => exact ⟨"", rfl⟩
    | succ n ih =>
        obtain ⟨base, hbase⟩ := ih
        exact ⟨"./" ++ base, by rw [dotted, hbase, String.append_assoc]⟩
  obtain ⟨base, hbase⟩ := hend
  exact Path.endsInSlash_of_noSlash (by decide) (by decide) hbase

theorem isAbsolute_dotted (n : Nat) : Path.isAbsolute (dotted n) = false := by
  cases n with
  | zero => decide
  | succ n =>
      rw [Path.isAbsolute, toList_dotted]
      rfl

theorem noNul_dotted (n : Nat) : '\x00' ∉ (dotted n).toList := by
  induction n with
  | zero => decide
  | succ n ih =>
      rw [toList_dotted]
      simp [ih]

theorem walk_dots (t : Tree) (links n : Nat) (l : Location) (rest : List String) :
    t.walk .find links l (List.replicate n "." ++ rest) = t.walk .find links l rest := by
  have hstraight : t.straight .find l (List.replicate n "." ++ rest) = t.straight .find l rest := by
    induction n with
    | zero => rfl
    | succ n ih =>
        rw [List.replicate_succ, List.cons_append, Tree.straight, if_pos (by decide), ih]
  rw [Tree.walk, Tree.walk, hstraight]

/-- Short enough, the path leads to `src`. -/
theorem locate_dotted (t : Tree) {n : Nat} (hn : 2 * n + 3 ≤ Tree.pathLimit) :
    t.locate .find (dotted n) = t.locate .find "src" := by
  have hcheck : Tree.checkPath (dotted n) = .ok () := by
    apply Tree.checkPath_eq_ok_iff.mpr
    refine ⟨noNul_dotted n, ?_, ?_⟩
    · intro hempty
      have hsize := utf8ByteSize_dotted n
      rw [hempty] at hsize
      simp at hsize
    · rw [utf8ByteSize_dotted]
      exact hn
  have hsteps : Path.steps (dotted n) = List.replicate n "." ++ ["src"] := by
    rw [Path.steps, endsInSlash_dotted, if_neg (by simp), names_dotted]
  rw [Tree.locate, hcheck, hsteps, Tree.start, isAbsolute_dotted]
  show t.walk .find Tree.linkLimit t.workingFolder _ = _
  rw [walk_dots]
  rfl

/-- The job whose source folder is named by the longest path there can be. -/
def fromDottedToOut : Job := { fromSrcToOut (.perFile "cpp") with source := dotted 2046 }

/-- No entry of the folder has a path that can be followed. -/
theorem not_finds_fromDottedToOut (hname : FileName name) : ¬fromDottedToOut.Finds t src name := by
  intro h
  have hlength := h.pathLength
  have hpath : fromDottedToOut.sourcePath name = dotted 2046 ++ "/" ++ name := by
    have hne : (dotted 2046).isEmpty = false := by
      rw [← Bool.not_eq_true, String.isEmpty_iff]
      intro hempty
      have hsize := utf8ByteSize_dotted 2046
      rw [hempty] at hsize
      simp at hsize
    show Path.join (dotted 2046) name = _
    rw [Path.join, hne, Path.isAbsolute_of_noSlash hname.noSlash, endsInSlash_dotted]
    rfl
  have hslash : "/".utf8ByteSize = 1 := rfl
  have hlimit : Tree.pathLimit = 4095 := rfl
  rw [hpath, String.utf8ByteSize_append, String.utf8ByteSize_append, utf8ByteSize_dotted, hslash,
    hlimit] at hlength
  omega

theorem listing_fromDottedToOut (hno : t.NoLinks) (hnames : t.FileNames)
    (hsrc : t.locate .find "src" = .ok src) (hfolder : t.get? src = some .folder) :
    fromDottedToOut.listing t = .ok [] := by
  have hlocate : t.locate .find fromDottedToOut.source = .ok src :=
    (locate_dotted t (by decide)).trans hsrc
  have hlisted : ∃ names, fromDottedToOut.listing t = .ok names :=
    ⟨_, listing_eq_ok_iff.mpr ⟨src, hlocate, hfolder, rfl⟩⟩
  obtain ⟨names, hlisted⟩ := hlisted
  have hnone : names = [] := by
    apply List.eq_nil_iff_forall_not_mem.mpr
    intro name hname
    have hfinds := (mem_listing_iff hno hnames hlisted hlocate).mp hname
    obtain ⟨content, hfile⟩ := hfinds.file
    have hentry : (t.get? (src ++ [name])).isSome := by
      rw [hfile]
      rfl
    exact not_finds_fromDottedToOut (hnames src name hentry) hfinds
  rw [hlisted, hnone]

/-- A run that finds no sources reports nothing. -/
theorem takeAll_nil (hlayout : job.layout = .perFile extension) (t : Tree) :
    job.takeAll [] t = (.ok { compiled := [], skipped := [], written := [] }, t) := by
  have hreport : job.report ([], []) = { compiled := [], skipped := [], written := [] } := by
    rw [report, outputs, hlayout]
    rfl
  rw [takeAll, begun_perFile hlayout, ← hreport]
  rfl

/-- A working folder with one source. -/
def oneSource : Tree where
  workingFolder := ["work"]
  entries := [
    (["work"], .folder),
    (["work", "src"], .folder),
    (["work", "src", "a.idl"], .file "interface A \x7b\x7d".toUTF8)]
  distinct := by simp

/-- A file with the extension of sources is left out, although it is in the folder, where its path
is too long. -/
theorem leftOut_fromDottedToOut :
    fromDottedToOut.Apart oneSource ∧ fromDottedToOut.layout = .perFile "cpp" ∧
      (fromDottedToOut.prepared oneSource).reach fromDottedToOut.source = .ok ["work", "src"] ∧
      oneSource.get? ["work", "src", "a.idl"] =
        some (.file "interface A \x7b\x7d".toUTF8) ∧
      Path.extension? "a.idl" = some fromDottedToOut.sourceExtension ∧
      (fromDottedToOut.runOn oneSource).1.outcome =
        .ok { compiled := [], skipped := [], written := [] } := by
  have hsound : oneSource.Sound := by
    refine Tree.sound_of_entries ?_ ?_
    · simp [oneSource, Tree.get?, Entry.isFolder]
    · simp +decide
  have hno : oneSource.NoLinks := Tree.noLinks_of_entries (by simp [oneSource, Entry.isLink])
  have hmade : (oneSource.makeFolders "out").1 = .ok () := by decide +kernel
  have hsrc : (fromDottedToOut.prepared oneSource).locate .find "src" = .ok ["work", "src"] := by
    decide +kernel
  have hout : (fromDottedToOut.prepared oneSource).reach "out" = .ok ["work", "out"] := by
    decide +kernel
  have hfolder : (fromDottedToOut.prepared oneSource).get? ["work", "src"] = some .folder := by
    rfl
  have hreach : (fromDottedToOut.prepared oneSource).reach fromDottedToOut.source =
      .ok ["work", "src"] :=
    Tree.reach_of_locate ((locate_dotted _ (by decide)).trans hsrc)
  have hapart : fromDottedToOut.Apart oneSource := by
    refine ⟨hsound, hno, by decide, ?_⟩
    rw [hreach]
    exact fun heq => absurd (heq.trans hout) (by decide)
  obtain ⟨dst, hready⟩ := hapart.ready (Prod.ext hmade rfl)
  have hlisted : fromDottedToOut.listing (fromDottedToOut.prepared oneSource) = .ok [] :=
    listing_fromDottedToOut hready.noLinks hready.fileNames hsrc hfolder
  have hrun : ((fromDottedToOut.runOn oneSource).1.outcome, (fromDottedToOut.runOn oneSource).2) =
      fromDottedToOut.takeAll [] (fromDottedToOut.prepared oneSource) :=
    runOn_eq_takeAll hmade hlisted
  rw [takeAll_nil rfl] at hrun
  exact ⟨hapart, rfl, hreach, rfl, by decide, (Prod.mk.inj hrun).1⟩

end IdlGlue.Batch.Job
