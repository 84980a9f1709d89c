/-
# IdlGlue.Proofs.Stopping -- what a run leaves when it stops

A run that stops has done what comes before the fault, and no part of what comes behind it:

| it stops at                    | it leaves                                                    |
|--------------------------------|--------------------------------------------------------------|
| the folder of the outputs      | new folders                                                  |
| the list of the sources        | new folders                                                  |
| the aggregate, to begin it     | new folders                                                  |
| a source, or at its output     | new folders, and the results of the sources before this one  |

So where it stops at a source, an output for this source or for one behind it is what it was
before, and an aggregate ends with the glue of the source before. The fault tells the path that
was refused, or it is a fault of the source in one layer with the path of the source; only a
registry of the caller's can tell of another file.
-/
import IdlGlue.Proofs.Clashes

namespace IdlGlue.Batch

open IdlGlue.Disk

namespace Job

variable {job : Job} {d d' : Declared} {t t' opened u : Tree} {name : String}
  {names : List String} {done : List (String × Compiled)} {dst : Location} {e : Fault}

/-! ## Why a run stops -/

/-- Why a run stops at a source, with those in `done` before it: the source cannot be read, it
does not compile, it declares a name that is taken, or its output cannot be opened. -/
inductive StopsFor (job : Job) (opened u : Tree) (done : List (String × Compiled))
    (name : String) : Fault → Prop
  | unreadable {cause : AccessCause} :
      opened.readText (job.sourcePath name) = .error cause →
      StopsFor job opened u done name (.fileAccess (job.sourcePath name) cause)
  | uncompiled {text : String} {f : Fault} : opened.readText (job.sourcePath name) = .ok text →
      (compile job.options text).outcome = .error f →
      StopsFor job opened u done name (f.blame (job.sourcePath name))
  | clashing {c : Compiled} {f : Fault} : job.glueIn opened name = .ok c → FirstClash done c f →
      StopsFor job opened u done name (.inFile (job.sourcePath name) f)
  | refused {cause : AccessCause} : u.outputSite (job.outputPath name) = .error cause →
      StopsFor job opened u done name (.fileAccess (job.outputPath name) cause)

theorem store_eq_error {code : String} {cause : AccessCause}
    (h : job.store t name code = .error cause) :
    t.outputSite (job.outputPath name) = .error cause := by
  rw [store_eq] at h
  exact Traversal.map_eq_error_iff.mp h

theorem firstClash_of_declare (hcourse : Course job .none t done d u) {c : Compiled}
    (hc : Proper c) (h : job.declare d c = .error e) : FirstClash done c e := by
  cases hlayout : job.layout with
  | perFile extension =>
      rw [declare, hlayout] at h
      cases h
  | aggregate file =>
      rw [declare_aggregate hlayout] at h
      exact firstClash_of_extend (hcourse.knows hlayout knows_none List.Pairwise.nil).1 hc h

/-- A source that is kept is found as it was, so what stops the run at it can be seen before. -/
theorem stopsFor_of_stops (hcourse : Course job .none t done d u)
    (hkept : job.glueIn u name = job.glueIn opened name) (h : Stops job d u name e) :
    StopsFor job opened u done name e := by
  cases h with
  | glue hglue =>
      rw [hkept] at hglue
      rcases glueIn_eq_error_iff.mp hglue with ⟨cause, hread, rfl⟩ | ⟨text, f, hread, hcompile, rfl⟩
      · exact .unreadable hread
      · exact .uncompiled hread hcompile
  | @clash c f hglue _ hdeclare =>
      have hfirst := firstClash_of_declare hcourse (proper_of_glueIn hglue) hdeclare
      rw [hfirst.blame_eq]
      exact .clashing (hkept.symm.trans hglue) hfirst
  | output _ _ _ hstore => exact .refused (store_eq_error hstore)

/-- The fault tells the path of the source, or of the output that is refused. -/
theorem StopsFor.tells (hregistry : job.options.registry.NamesNoFile)
    (h : StopsFor job opened u done name e) :
    e.Tells (job.sourcePath name) ∨
      ∃ cause, u.outputSite (job.outputPath name) = .error cause ∧
        e = .fileAccess (job.outputPath name) cause := by
  cases h with
  | unreadable => exact .inl rfl
  | uncompiled _ hcompile =>
      exact .inl (Fault.tells_blame (faults_compile hregistry _ _ hcompile) _)
  | clashing _ hfirst => exact .inl ⟨rfl, hfirst.namesNoFile⟩
  | refused hsite => exact .inr ⟨_, hsite, rfl⟩

/-! ## What it leaves -/

/-- The folder at the path of the outputs may be new, and folders above it; nothing else is. -/
structure OnlyFolders (job : Job) (t u : Tree) : Prop where
  adds : t.AddsFolders u
  leads : ∀ l, u.get? l ≠ t.get? l →
    ∃ path ∈ Path.chain job.destination, u.locate .find path = .ok l

theorem onlyFolders_of_makeFolders (ht : t.NoLinks) {result : Except AccessCause Unit}
    (h : t.makeFolders job.destination = (result, u)) : job.OnlyFolders t u :=
  ⟨(Tree.makesFolders_makeFolders h).1.adds, (Tree.makesFolders_makeFolders h).1.leads ht⟩

/-- The run has stopped at a source, when those in `done` had been taken. -/
structure StoppedAt (job : Job) (t u : Tree) (e : Fault) (done : List (String × Compiled))
    (name : String) (after : List String) (dst : Location) : Prop where
  folders : job.OnlyFolders t (job.prepared t)
  opens : (job.prepared t).Opens job.destination dst
  listed : job.listing (job.prepared t) = .ok (done.map Prod.fst ++ name :: after)
  ascending : (done.map Prod.fst ++ name :: after).Pairwise
    fun a b => Text.bytes a < Text.bytes b
  glues : ∀ s ∈ done, job.glueIn (job.prepared t) s.1 = .ok s.2
  /-- The results of the sources that were taken are all that has been written. -/
  holds : Holds (job.prepared t) dst (job.results done) u
  /-- So every other file is what it was at the start. -/
  files : ∀ k, (∀ f ∈ job.results done, k ≠ dst ++ [f.1]) → ∀ content,
    u.get? k = some (.file content) ↔ t.get? k = some (.file content)
  /-- The outputs of the source and of those behind it are not among them. -/
  spared : ∀ extension, job.layout = .perFile extension → ∀ later ∈ name :: after,
    ∀ f ∈ job.results done, f.1 ≠ job.outputName later
  fault : StopsFor job (job.prepared t) u done name e
  /-- The fault tells the path of the source, unless it is the output that is refused. Only a
  registry of the caller's could tell of another file. -/
  path : job.options.registry.NamesNoFile → e.Tells (job.sourcePath name) ∨
    ∃ cause, u.outputSite (job.outputPath name) = .error cause ∧
      e = .fileAccess (job.outputPath name) cause

/-- What a run can leave that ends in a fault: folders, where it has not come as far as to begin
its outputs, or the results of some sources. -/
inductive Leaves (job : Job) (t : Tree) : Fault → Tree → Prop
  | folders {path : String} {cause : AccessCause} {u : Tree} :
      (∀ names begun, ¬Begins job t (job.prepared t) names begun) →
      path ∈ [job.destination, job.source, job.outputPath ""] → job.OnlyFolders t u →
      Leaves job t (.fileAccess path cause) u
  | results {e : Fault} {u : Tree} (done : List (String × Compiled)) (name : String)
      (after : List String) (dst : Location) :
      job.StoppedAt t u e done name after dst → Leaves job t e u

/-- The outputs of sources that were not taken are not those of sources that were. -/
theorem Ready.spared (h : job.Ready opened dst) {extension : String} {after : List String}
    (hlayout : job.layout = .perFile extension)
    (hlisted : job.listing opened = .ok (done.map Prod.fst ++ after))
    (hwithin : job.Within opened (done.map Prod.fst ++ after) t)
    (hcourse : Course job d t done d' u) :
    ∀ later ∈ after, ∀ f ∈ job.results done, f.1 ≠ job.outputName later := by
  intro later hlater f hf heq
  rw [results_perFile hlayout] at hf
  obtain ⟨s, hs, rfl⟩ := List.mem_map.mp hf
  obtain ⟨hentry, _⟩ := h.sites hlisted hwithin (List.subset_append_left _ _) hcourse s hs
  have hs : s.1 ∈ done.map Prod.fst := List.mem_map_of_mem (List.mem_of_mem_filter hs)
  have hsame : s.1 = later := h.outputName_injective hlayout hlisted (List.mem_append_left _ hs)
    (List.mem_append_right _ hlater) hentry heq
  exact List.disjoint_of_nodup_append (nodup_listing hlisted) hs (hsame ▸ hlater)

/-- A run that stops at a source leaves the results of those before it. -/
theorem stoppedAt_of_stops (hapart : job.Apart t) {after : List String}
    (hbegins : Begins job t opened names t')
    (hnames : names = done.map Prod.fst ++ name :: after) (hcourse : Course job .none t' done d u)
    (hstop : Stops job d u name e) : ∃ dst, job.StoppedAt t u e done name after dst := by
  subst hnames
  have hprepared := hbegins.prepared
  have hlisted := hbegins.listed
  obtain ⟨dst, hready⟩ := hapart.ready hbegins.made
  obtain ⟨_, hwithin⟩ := hbegins.within hapart.sound.root
  obtain ⟨hglues, hkept⟩ := hbegins.taken hapart.sound.root (hready.keepsSources hlisted)
    (List.prefix_append _ _) hcourse
  have hfolders := onlyFolders_of_makeFolders hapart.noLinks hbegins.made
  have hholds := hready.holds hlisted hbegins.begun (List.prefix_append _ _) hcourse
  subst hprepared
  have hfault := stopsFor_of_stops hcourse (hkept name (by simp)) hstop
  exact ⟨dst,
    { folders := hfolders
      opens := hready.opens
      listed := hlisted
      ascending := listing_ascending hlisted
      glues := hglues
      holds := hholds
      files := fun k hk content => by rw [hholds.elsewhere k hk, hfolders.adds.file_iff]
      spared := fun _ hlayout => hready.spared hlayout hlisted hwithin hcourse
      fault := hfault
      path := hfault.tells }⟩

/-- **A run that ends in a fault leaves the results of the sources before the fault**, and nothing
of the source at fault or of those behind it. Where the sources cannot be listed it leaves
nothing but folders. -/
theorem leaves_of_error (hapart : job.Apart t) :
    (∀ cause, (t.makeFolders job.destination).1 = .ok () →
      job.listing (job.prepared t) = .error cause →
      (job.runOn t).1.outcome = .error (.fileAccess job.source cause) ∧
        job.OnlyFolders t (job.runOn t).2) ∧
      ∀ e, (job.runOn t).1.outcome = .error e → job.Leaves t e (job.runOn t).2 := by
  have hends := job.runOn_ends t
  generalize (job.runOn t).1.outcome = outcome at hends ⊢
  generalize (job.runOn t).2 = final at hends ⊢
  cases hends with
  | destination hmade =>
      refine ⟨fun cause hok _ => ?_, ?_⟩
      · rw [hmade] at hok
        cases hok
      · rintro _ ⟨⟩
        refine .folders (fun names begun h => ?_) (by simp)
          (onlyFolders_of_makeFolders hapart.noLinks hmade)
        cases hmade.symm.trans h.made
  | @listing cause final hmade hlisted =>
      have hprepared : job.prepared t = final := by rw [prepared, hmade]
      have hfolders := onlyFolders_of_makeFolders hapart.noLinks hmade
      refine ⟨fun cause' _ hlisted' => ?_, ?_⟩
      · rw [hprepared] at hlisted'
        obtain rfl := Except.error.inj (hlisted.symm.trans hlisted')
        exact ⟨rfl, hfolders⟩
      · rintro _ ⟨⟩
        refine .folders (fun names begun h => ?_) (by simp) hfolders
        rw [hprepared] at h
        cases hlisted.symm.trans h.listed
  | @opening names cause final hmade hlisted hbegun =>
      have hprepared : job.prepared t = final := by rw [prepared, hmade]
      refine ⟨fun cause' _ hlisted' => ?_, ?_⟩
      · rw [hprepared] at hlisted'
        cases hlisted.symm.trans hlisted'
      · rintro _ ⟨⟩
        refine .folders (fun names begun h => ?_) (by simp)
          (onlyFolders_of_makeFolders hapart.noLinks hmade)
        rw [hprepared] at h
        cases hbegun.symm.trans h.begun
  | @stopped opened begun names done name after d final e hbegins hnames hcourse hstop =>
      refine ⟨fun cause _ hlisted' => ?_, ?_⟩
      · rw [hbegins.prepared] at hlisted'
        cases hbegins.listed.symm.trans hlisted'
      · rintro _ ⟨⟩
        obtain ⟨dst, hstopped⟩ := stoppedAt_of_stops hapart hbegins hnames hcourse hstop
        exact .results done name after dst hstopped
  | @finished opened begun names done d final hbegins hnames hcourse =>
      refine ⟨fun cause _ hlisted' => ?_, ?_⟩
      · rw [hbegins.prepared] at hlisted'
        cases hbegins.listed.symm.trans hlisted'
      · rintro _ ⟨⟩

/-- Sources of which the second has a member that is none. -/
def spoiled : Tree :=
  threeSources "interface A \x7b int x(); \x7d" "interface B \x7b int oops(int; \x7d"
    "interface C \x7b int z(); \x7d"

theorem leaves_of_error_spoiled :
    (fromSrcToOut (.perFile "cpp")).options.registry.NamesNoFile ∧
      ((fromSrcToOut (.perFile "cpp")).runOn spoiled).1.outcome =
        .error (.inFile "src/b.idl" (.noStatement "int oops(int;")) ∧
      (fromSrcToOut (.perFile "cpp")).Leaves spoiled
        (.inFile "src/b.idl" (.noStatement "int oops(int;"))
        ((fromSrcToOut (.perFile "cpp")).runOn spoiled).2 := by
  have hlisted : (fromSrcToOut (.perFile "cpp")).listing
      ((fromSrcToOut (.perFile "cpp")).prepared spoiled) = .ok ["a.idl", "b.idl", "c.idl"] :=
    listing_of_sorted (by decide +kernel) (by decide +kernel)
  have houtcome : ((fromSrcToOut (.perFile "cpp")).runOn spoiled).1.outcome =
      .error (.inFile "src/b.idl" (.noStatement "int oops(int;")) :=
    (congrArg Prod.fst (runOn_eq_takeAll (by decide +kernel) hlisted)).trans (by decide +kernel)
  have hapart : (fromSrcToOut (.perFile "cpp")).Apart spoiled :=
    ⟨sound_threeSources _ _ _, noLinks_threeSources _ _ _, by decide, by decide +kernel⟩
  exact ⟨Registry.namesNoFile_hashed _ _, houtcome, (leaves_of_error hapart).2 _ houtcome⟩

/-- A registry that keeps its table in a file, and does not find this file. -/
def lostTable : Registry where
  prototype _ := .error (.fileAccess "types.db" .missing)

/-- A run of a caller who looks types up in that registry. -/
def withLostTable : Job :=
  { fromSrcToOut (.perFile "cpp") with
    options := { Options.standard with registry? := some lostTable } }

/-- Sources of which the second gives out a type that a registry resolves. -/
def anyTyped : Tree :=
  threeSources "interface A \x7b int x(); \x7d"
    "interface B \x7b readonly attribute anyof<S> s; \x7d" "interface C \x7b int z(); \x7d"

/-- Three classes, and a folder where the output of the second should go. -/
def blocked : Tree where
  workingFolder := ["work"]
  entries :=
    (threeSources "interface A \x7b int x(); \x7d" "interface B \x7b int y(); \x7d"
      "interface C \x7b int z(); \x7d").entries ++ [(["work", "out", "b.cpp"], .folder)]
  distinct := by simp [threeSources]

theorem apart_withLostTable : withLostTable.Apart anyTyped :=
  ⟨sound_threeSources _ _ _, noLinks_threeSources _ _ _, by decide, by decide +kernel⟩

theorem apart_blocked : (fromSrcToOut (.perFile "cpp")).Apart blocked where
  sound := by
    refine Tree.sound_of_entries ?_ ?_
    · simp [blocked, threeSources, Tree.get?, Entry.isFolder]
    · simp +decide
  noLinks := by
    refine Tree.noLinks_of_entries ?_
    simp [blocked, threeSources, Entry.isLink]
  plain := by decide
  different := by decide +kernel

/-- Not every fault at a source tells the path of this source. A fault of the caller's registry
that names a file is handed on as it is, and an output that is refused is told by its own path. -/
theorem not_tells_withLostTable :
    (withLostTable.Apart anyTyped ∧
      withLostTable.listing (withLostTable.prepared anyTyped) = .ok ["a.idl", "b.idl", "c.idl"] ∧
      withLostTable.glueIn (withLostTable.prepared anyTyped) "b.idl" =
        .error (.fileAccess "types.db" .missing) ∧
      (withLostTable.runOn anyTyped).1.outcome = .error (.fileAccess "types.db" .missing) ∧
      ¬Fault.Tells (withLostTable.sourcePath "b.idl") (.fileAccess "types.db" .missing)) ∧
    (fromSrcToOut (.perFile "cpp")).Apart blocked ∧
      ((fromSrcToOut (.perFile "cpp")).runOn blocked).1.outcome =
        .error (.fileAccess "out/b.cpp" .isFolder) ∧
      ¬Fault.Tells ((fromSrcToOut (.perFile "cpp")).sourcePath "b.idl")
        (.fileAccess "out/b.cpp" .isFolder) := by
  have hlisted : withLostTable.listing (withLostTable.prepared anyTyped) =
      .ok ["a.idl", "b.idl", "c.idl"] :=
    listing_of_sorted (by decide +kernel) (by decide +kernel)
  have hlost : (withLostTable.runOn anyTyped).1.outcome =
      .error (.fileAccess "types.db" .missing) :=
    (congrArg Prod.fst (runOn_eq_takeAll (by decide +kernel) hlisted)).trans (by decide +kernel)
  have hotherFile : "types.db" ≠ withLostTable.sourcePath "b.idl" := by decide +kernel
  have hblocked : (fromSrcToOut (.perFile "cpp")).listing
      ((fromSrcToOut (.perFile "cpp")).prepared blocked) = .ok ["a.idl", "b.idl", "c.idl"] :=
    listing_of_sorted (by decide +kernel) (by decide +kernel)
  have hrefused : ((fromSrcToOut (.perFile "cpp")).runOn blocked).1.outcome =
      .error (.fileAccess "out/b.cpp" .isFolder) :=
    (congrArg Prod.fst (runOn_eq_takeAll (by decide +kernel) hblocked)).trans (by decide +kernel)
  have hotherPath : "out/b.cpp" ≠ (fromSrcToOut (.perFile "cpp")).sourcePath "b.idl" := by
    decide +kernel
  exact ⟨⟨apart_withLostTable, hlisted, by decide +kernel, hlost, hotherFile⟩, apart_blocked,
    hrefused, hotherPath⟩

end Job

end IdlGlue.Batch
