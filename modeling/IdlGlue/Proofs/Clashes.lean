/-
# IdlGlue.Proofs.Clashes -- sources of one compilation unit

An aggregate is one compilation unit, so its sources may not share flat names. Within a source
there are no two of one name where it compiles at all, so a source can only clash with one before
it:

| two declarations of one flat name | in one source       | in two sources of an aggregate |
|-----------------------------------|---------------------|--------------------------------|
| interfaces                        | it does not compile | the later source is at fault   |
| delegates                         | it does not compile | the later source is at fault   |
| an interface and a delegate       | no clash            | no clash                       |

The run keeps the names in two lists, and `Knows` says what is in them. So a run over sources that
compile and are kept fails just where two of them clash, and it blames the first source that
clashes with one before it (`oneUnit_of_aggregate`).
-/
import IdlGlue.Proofs.Apart
import IdlGlue.Proofs.Faults
import Mathlib.Data.List.Pairwise

namespace IdlGlue

/-! ## The first element of a taken name -/

namespace Glue

variable {α β : Type} {key : α → String} {seen : List String} {xs : List α}

theorem firstRepeat?_map (key : β → String) (f : α → β) (seen : List String) (xs : List α) :
    firstRepeat? key seen (xs.map f) = (firstRepeat? (key ∘ f) seen xs).map f := by
  induction xs generalizing seen with
  | nil => rfl
  | cons x xs ih =>
      rw [List.map_cons, firstRepeat?, firstRepeat?, Function.comp_apply, ih]
      split
      · rfl
      · rfl

/-- Where no two keys are the same, a repeated key is one that was seen before. -/
theorem firstRepeat?_eq_find? {taken : α → Bool} (h : (xs.map key).Nodup)
    (htaken : ∀ x ∈ xs, taken x = true ↔ key x ∈ seen) :
    firstRepeat? key seen xs = xs.find? taken := by
  induction xs generalizing seen with
  | nil => rfl
  | cons x xs ih =>
      obtain ⟨hnew, hnodup⟩ := List.nodup_cons.mp h
      obtain ⟨hx, htaken⟩ := List.forall_mem_cons.mp htaken
      rw [firstRepeat?, List.find?_cons]
      by_cases hseen : key x ∈ seen
      · rw [if_pos hseen, hx.mpr hseen]
      · have hfree : taken x = false := by simpa using hx.not.mpr hseen
        rw [if_neg hseen, hfree]
        refine ih hnodup fun y hy => ?_
        have hne : key y ≠ key x := fun heq => hnew (heq ▸ List.mem_map_of_mem hy)
        rw [htaken y hy, List.mem_cons, or_iff_right hne]

end Glue

namespace Batch

open IdlGlue.Disk

/-- What a compilation gives: flat names beside the qualified ones, and none of them twice. -/
structure Proper (c : Compiled) : Prop where
  flatNames : c.flatNames = c.interfaces.map Name.flatten
  interfaces : (c.interfaces.map Name.flatten).Nodup
  delegates : (c.delegates.map Name.flatten).Nodup

/-- Two sources declare interfaces of one flat name, or delegates of one flat name. -/
def Clash (c c' : Compiled) : Prop :=
  (∃ i ∈ c.interfaces, ∃ i' ∈ c'.interfaces, Name.flatten i = Name.flatten i') ∨
    ∃ q ∈ c.delegates, ∃ q' ∈ c'.delegates, Name.flatten q = Name.flatten q'

theorem Clash.symm {c c' : Compiled} (h : Clash c c') : Clash c' c := by
  rcases h with ⟨i, hi, i', hi', heq⟩ | ⟨q, hq, q', hq', heq⟩
  · exact .inl ⟨i', hi', i, hi, heq.symm⟩
  · exact .inr ⟨q', hq', q, hq, heq.symm⟩

/-- The flat names of the interfaces of some sources. -/
def interfaceNames (sources : List (String × Compiled)) : List String :=
  sources.flatMap fun s => s.2.interfaces.map Name.flatten

/-- The flat names of the delegates of some sources. -/
def delegateNames (sources : List (String × Compiled)) : List String :=
  sources.flatMap fun s => s.2.delegates.map Name.flatten

/-- The first interface of a source whose flat name an interface before it has, or else the first
delegate whose flat name a delegate before it has. The fault tells its qualified name. -/
inductive FirstClash (before : List (String × Compiled)) (c : Compiled) : Fault → Prop
  | interface {name} :
      c.interfaces.find? (fun i => Name.flatten i ∈ interfaceNames before) = some name →
      FirstClash before c (.duplicateInterface name)
  | delegate {name} :
      c.interfaces.find? (fun i => Name.flatten i ∈ interfaceNames before) = none →
      c.delegates.find? (fun q => Name.flatten q ∈ delegateNames before) = some name →
      FirstClash before c (.duplicateDelegate name)

/-- The names that are declared are those of the sources. -/
structure Knows (d : Declared) (sources : List (String × Compiled)) : Prop where
  interfaces : ∀ x, x ∈ d.interfaces ↔ x ∈ interfaceNames sources
  delegates : ∀ x, x ∈ d.delegates ↔ x ∈ delegateNames sources

variable {d d' : Declared} {c : Compiled} {before sources : List (String × Compiled)}
  {name : String}

theorem mem_interfaceNames {x : String} :
    x ∈ interfaceNames sources ↔ ∃ s ∈ sources, ∃ i ∈ s.2.interfaces, Name.flatten i = x := by
  simp only [interfaceNames, List.mem_flatMap, List.mem_map]

theorem mem_delegateNames {x : String} :
    x ∈ delegateNames sources ↔ ∃ s ∈ sources, ∃ q ∈ s.2.delegates, Name.flatten q = x := by
  simp only [delegateNames, List.mem_flatMap, List.mem_map]

/-- No declaration of the source has a taken name just if it clashes with no source before. -/
theorem find?_eq_none_iff :
    c.interfaces.find? (fun i => Name.flatten i ∈ interfaceNames before) = none ∧
      c.delegates.find? (fun q => Name.flatten q ∈ delegateNames before) = none ↔
    ∀ s ∈ before, ¬Clash s.2 c := by
  simp only [List.find?_eq_none, decide_eq_true_eq, mem_interfaceNames, mem_delegateNames, Clash]
  constructor
  · rintro ⟨hinterfaces, hdelegates⟩ s hs (⟨i, hi, i', hi', heq⟩ | ⟨q, hq, q', hq', heq⟩)
    · exact hinterfaces i' hi' ⟨s, hs, i, hi, heq⟩
    · exact hdelegates q' hq' ⟨s, hs, q, hq, heq⟩
  · intro h
    refine ⟨fun i' hi' => ?_, fun q' hq' => ?_⟩
    · rintro ⟨s, hs, i, hi, heq⟩
      exact h s hs (.inl ⟨i, hi, i', hi', heq⟩)
    · rintro ⟨s, hs, q, hq, heq⟩
      exact h s hs (.inr ⟨q, hq, q', hq', heq⟩)

theorem exists_clash_of_firstClash {f : Fault} (h : FirstClash before c f) :
    ∃ s ∈ before, Clash s.2 c := by
  by_contra hnone
  have hfind := find?_eq_none_iff.mpr fun s hs hclash => hnone ⟨s, hs, hclash⟩
  cases h with
  | interface hfirst => cases hfind.1.symm.trans hfirst
  | delegate _ hfirst => cases hfind.2.symm.trans hfirst

theorem FirstClash.namesNoFile {f : Fault} (h : FirstClash before c f) : f.NamesNoFile := by
  cases h with
  | interface => trivial
  | delegate => trivial

/-- A clash is attributed to the source in one layer. -/
theorem FirstClash.blame_eq {f : Fault} (h : FirstClash before c f) (path : String) :
    f.blame path = .inFile path f :=
  Fault.blame_eq_inFile h.namesNoFile path

/-! ## One more source -/

/-- The names of a source are held against those of the sources before it. -/
theorem extend_eq (hknows : Knows d before) (hc : Proper c) : d.extend c =
    match c.interfaces.find? (fun i => Name.flatten i ∈ interfaceNames before) with
    | some name => .error (.duplicateInterface name)
    | none =>
      match c.delegates.find? (fun q => Name.flatten q ∈ delegateNames before) with
      | some name => .error (.duplicateDelegate name)
      | none => .ok {
          interfaces := c.flatNames ++ d.interfaces
          delegates := c.delegates.map Name.flatten ++ d.delegates } := by
  have hzip : c.flatNames.zip c.interfaces = c.interfaces.map fun i => (Name.flatten i, i) := by
    rw [hc.flatNames]
    exact List.map_prod_right_eq_zip.symm
  have hinterface : Glue.firstRepeat? Prod.fst d.interfaces (c.flatNames.zip c.interfaces) =
      (c.interfaces.find? fun i => Name.flatten i ∈ interfaceNames before).map
        fun i => (Name.flatten i, i) := by
    rw [hzip, Glue.firstRepeat?_map]
    refine congrArg (Option.map _) (Glue.firstRepeat?_eq_find? hc.interfaces fun i _ => ?_)
    rw [decide_eq_true_eq, hknows.interfaces]
    rfl
  have hdelegate : Glue.firstRepeat? Name.flatten d.delegates c.delegates =
      c.delegates.find? fun q => Name.flatten q ∈ delegateNames before := by
    refine Glue.firstRepeat?_eq_find? hc.delegates fun q _ => ?_
    rw [decide_eq_true_eq, hknows.delegates]
  unfold Declared.extend
  rw [hinterface, hdelegate]
  cases c.interfaces.find? fun i => Name.flatten i ∈ interfaceNames before with
  | some name => rfl
  | none => cases c.delegates.find? fun q => Name.flatten q ∈ delegateNames before <;> rfl

theorem firstClash_of_extend (hknows : Knows d before) (hc : Proper c) {f : Fault}
    (h : d.extend c = .error f) : FirstClash before c f := by
  rw [extend_eq hknows hc] at h
  split at h
  · next name hname =>
      cases h
      exact .interface hname
  · next hnone =>
      split at h
      · next name hname =>
          cases h
          exact .delegate hnone hname
      · cases h

theorem knows_concat (hknows : Knows d before)
    (hflat : c.flatNames = c.interfaces.map Name.flatten) :
    Knows { interfaces := c.flatNames ++ d.interfaces
            delegates := c.delegates.map Name.flatten ++ d.delegates } (before ++ [(name, c)]) where
  interfaces x := by
    rw [List.mem_append, hknows.interfaces, hflat, interfaceNames, interfaceNames,
      List.flatMap_append, List.mem_append, List.flatMap_singleton, or_comm]
  delegates x := by
    rw [List.mem_append, hknows.delegates, delegateNames, delegateNames, List.flatMap_append,
      List.mem_append, List.flatMap_singleton, or_comm]

theorem knows_of_extend (hknows : Knows d before) (hc : Proper c) (h : d.extend c = .ok d') :
    Knows d' (before ++ [(name, c)]) ∧ ∀ s ∈ before, ¬Clash s.2 c := by
  rw [extend_eq hknows hc] at h
  split at h
  · cases h
  · next hinterfaces =>
      split at h
      · cases h
      · next hdelegates =>
          cases h
          exact ⟨knows_concat hknows hc.flatNames,
            find?_eq_none_iff.mp ⟨hinterfaces, hdelegates⟩⟩

namespace Job

variable {job : Job} {t t' : Tree} {file : String} {done : List (String × Compiled)}

/-- A source that gives its glue has compiled. -/
theorem proper_of_glueIn (h : job.glueIn t name = .ok c) : Proper c := by
  obtain ⟨text, _, hcompile⟩ := glueIn_eq_ok_iff.mp h
  obtain ⟨hinterfaces, hdelegates⟩ := nodup_of_compile hcompile
  exact ⟨flatNames_of_compile hcompile, hinterfaces, hdelegates⟩

theorem declare_aggregate (hlayout : job.layout = .aggregate file) (d : Declared) (c : Compiled) :
    job.declare d c = d.extend c := by
  rw [declare, hlayout]

/-! ## All sources -/

/-- A source that is taken clashes with none before it, and its names are known from then on. -/
theorem Takes.knows (hlayout : job.layout = .aggregate file) (hknows : Knows d before)
    (h : Takes job d t name c d' t') :
    Knows d' (before ++ [(name, c)]) ∧ ∀ s ∈ before, ¬Clash s.2 c := by
  have hc := proper_of_glueIn h.glueIn
  rcases h.tree with ⟨hempty, rfl, _⟩ | ⟨_, hdeclare, _⟩
  · -- What declares nothing adds no names and clashes with nothing.
    obtain ⟨hinterfaces, hdelegates⟩ := Bool.and_eq_true_iff.mp hempty
    rw [List.isEmpty_iff] at hinterfaces hdelegates
    refine ⟨⟨fun x => ?_, fun x => ?_⟩, fun s _ => ?_⟩
    · rw [hknows.interfaces]
      simp [interfaceNames, hinterfaces]
    · rw [hknows.delegates]
      simp [delegateNames, hdelegates]
    · simp [Clash, hinterfaces, hdelegates]
  · rw [declare_aggregate hlayout] at hdeclare
    exact knows_of_extend hknows hc hdeclare

theorem Course.knows (hlayout : job.layout = .aggregate file) (hknows : Knows d before)
    (hbefore : before.Pairwise fun s s' => ¬Clash s.2 s'.2) (h : Course job d t done d' t') :
    Knows d' (before ++ done) ∧ (before ++ done).Pairwise fun s s' => ¬Clash s.2 s'.2 := by
  induction h generalizing before with
  | nil d t =>
      rw [List.append_nil]
      exact ⟨hknows, hbefore⟩
  | @cons d d' d'' t t' t'' name c rest htake _ ih =>
      obtain ⟨hknows', hnone⟩ := htake.knows hlayout hknows
      rw [List.append_cons]
      refine ih hknows' (List.pairwise_append.mpr ⟨hbefore, List.pairwise_singleton _ _, ?_⟩)
      intro s hs s' hs'
      rw [List.mem_singleton.mp hs']
      exact hnone s hs

theorem knows_none : Knows .none [] := ⟨fun _ => Iff.rfl, fun _ => Iff.rfl⟩

/-- The names of sources of which no two clash are all distinct. -/
theorem nodup_names (hproper : ∀ s ∈ sources, Proper s.2)
    (h : sources.Pairwise fun s s' => ¬Clash s.2 s'.2) :
    (interfaceNames sources).Nodup ∧ (delegateNames sources).Nodup := by
  constructor
  · refine List.nodup_flatMap.mpr ⟨fun s hs => (hproper s hs).interfaces, h.imp ?_⟩
    intro s s' hclash x hx hx'
    obtain ⟨i, hi, rfl⟩ := List.mem_map.mp hx
    obtain ⟨i', hi', heq⟩ := List.mem_map.mp hx'
    exact hclash (.inl ⟨i, hi, i', hi', heq.symm⟩)
  · refine List.nodup_flatMap.mpr ⟨fun s hs => (hproper s hs).delegates, h.imp ?_⟩
    intro s s' hclash x hx hx'
    obtain ⟨q, hq, rfl⟩ := List.mem_map.mp hx
    obtain ⟨q', hq', heq⟩ := List.mem_map.mp hx'
    exact hclash (.inr ⟨q, hq, q', hq', heq.symm⟩)

/-- What comes of sources as one compilation unit: in the order of their names, it fails just where
two of them clash, it blames the first source that clashes with one before it, and where it does
not fail all names that are declared are distinct. -/
structure OneUnit (job : Job) (sources : List (String × Compiled))
    (outcome : Except Fault Report) : Prop where
  ascending : (sources.map Prod.fst).Pairwise fun a b => Text.bytes a < Text.bytes b
  fails_iff : (∃ e, outcome = .error e) ↔
    ∃ s ∈ sources, ∃ s' ∈ sources, s.1 ≠ s'.1 ∧ Clash s.2 s'.2
  fault : ∀ e, outcome = .error e → ∃ before s after f, sources = before ++ s :: after ∧
    before.Pairwise (fun s s' => ¬Clash s.2 s'.2) ∧ FirstClash before s.2 f ∧
    e = .inFile (job.sourcePath s.1) f
  distinct : ∀ r, outcome = .ok r →
    (interfaceNames sources).Nodup ∧ (delegateNames sources).Nodup

theorem oneUnit_of_ok {r : Report}
    (hascending : (sources.map Prod.fst).Pairwise fun a b => Text.bytes a < Text.bytes b)
    (hproper : ∀ s ∈ sources, Proper s.2)
    (h : sources.Pairwise fun s s' => ¬Clash s.2 s'.2) : job.OneUnit sources (.ok r) where
  ascending := hascending
  fails_iff := by
    refine iff_of_false (fun ⟨e, he⟩ => nomatch he) ?_
    rintro ⟨s, hs, s', hs', hne, hclash⟩
    have hsymm : Std.Symm fun s s' : String × Compiled => ¬Clash s.2 s'.2 :=
      ⟨fun _ _ hnot hclash => hnot hclash.symm⟩
    exact h.forall hs hs' (fun heq => hne (congrArg Prod.fst heq)) hclash
  fault _ he := nomatch he
  distinct _ _ := nodup_names hproper h

theorem oneUnit_of_error {after : List (String × Compiled)} {s : String × Compiled} {f : Fault}
    (hascending : ((before ++ s :: after).map Prod.fst).Pairwise fun a b =>
      Text.bytes a < Text.bytes b)
    (h : before.Pairwise fun s s' => ¬Clash s.2 s'.2) (hfirst : FirstClash before s.2 f) :
    job.OneUnit (before ++ s :: after) (.error (.inFile (job.sourcePath s.1) f)) where
  ascending := hascending
  fails_iff := by
    refine iff_of_true ⟨_, rfl⟩ ?_
    obtain ⟨s', hs', hclash⟩ := exists_clash_of_firstClash hfirst
    refine ⟨s', List.mem_append_left _ hs', s, by simp, fun heq => ?_, hclash⟩
    rw [List.map_append, List.map_cons] at hascending
    have hlt := (List.pairwise_append.mp hascending).2.2 s'.1 (List.mem_map_of_mem hs') s.1
      List.mem_cons_self
    rw [heq] at hlt
    exact List.lt_irrefl _ hlt
  fault _ he := ⟨before, s, after, f, rfl, h, hfirst, (Except.error.inj he).symm⟩
  distinct _ hr := nomatch hr

/-- **Sources that compile are one compilation unit for a run into one file**, unless one of them
is the aggregate itself, or a file is refused to the run. (In a tree without links no source is
the aggregate where the two folders differ: `Ready.keepsSources`.) -/
theorem oneUnit_of_aggregate (hlayout : job.layout = .aggregate file)
    (hroot : t.FolderAt t.workingFolder)
    (hlisted : job.listing (job.prepared t) = .ok (sources.map Prod.fst))
    (hglues : ∀ s ∈ sources, job.glueIn (job.prepared t) s.1 = .ok s.2)
    (hkeeps : job.KeepsSources (job.prepared t) (sources.map Prod.fst))
    (hgranted : Granted (job.runOn t).1.outcome) :
    job.OneUnit sources (job.runOn t).1.outcome := by
  have hproper : ∀ s ∈ sources, Proper s.2 := fun s hs => proper_of_glueIn (hglues s hs)
  have hends := job.runOn_ends t
  generalize (job.runOn t).1.outcome = outcome at hgranted hends ⊢
  generalize (job.runOn t).2 = final at hends
  cases hends with
  | destination => exact absurd rfl (hgranted _ _)
  | listing => exact absurd rfl (hgranted _ _)
  | opening => exact absurd rfl (hgranted _ _)
  | @stopped opened begun names done name after d final e hbegins hnames hcourse hstop =>
      rw [hbegins.prepared] at hlisted hglues hkeeps
      obtain rfl := Except.ok.inj (hlisted.symm.trans hbegins.listed)
      obtain ⟨hglues', hkept⟩ :=
        hbegins.taken hroot hkeeps (hnames ▸ List.prefix_append _ _) hcourse
      obtain ⟨c, rest, rfl, hc⟩ := exists_eq_append hglues hglues' hnames
      obtain ⟨hknows, hpairwise⟩ := hcourse.knows hlayout knows_none List.Pairwise.nil
      have hglue : job.glueIn final name = .ok c := (hkept name (by simp)).trans hc
      cases hstop with
      | glue hfault => cases hglue.symm.trans hfault
      | output => exact absurd rfl (hgranted _ _)
      | @clash c' f hglue' _ hdeclare =>
          obtain rfl := Except.ok.inj (hglue.symm.trans hglue')
          rw [declare_aggregate hlayout] at hdeclare
          have hfirst := firstClash_of_extend hknows (proper_of_glueIn hglue) hdeclare
          rw [hfirst.blame_eq]
          exact oneUnit_of_error (listing_ascending hlisted) hpairwise hfirst
  | @finished opened begun names done d final hbegins hnames hcourse =>
      rw [hbegins.prepared] at hlisted hglues hkeeps
      obtain rfl := Except.ok.inj (hlisted.symm.trans hbegins.listed)
      obtain ⟨hglues', _⟩ := hbegins.taken hroot hkeeps (hnames ▸ List.prefix_refl _) hcourse
      obtain rfl := eq_of_glues hglues hglues' hnames
      obtain ⟨_, hpairwise⟩ := hcourse.knows hlayout knows_none List.Pairwise.nil
      exact oneUnit_of_ok (listing_ascending hlisted) hproper hpairwise

/-- Sources of which the first two have interfaces of one flat name. -/
def twins : Tree :=
  threeSources "interface Foo::Bar \x7b int x(); \x7d" "interface FooBar \x7b int y(); \x7d"
    "delegate void FooBar(int d);"

theorem oneUnit_of_aggregate_twins :
    ((fromSrcToOut (.aggregate "All.cpp")).runOn twins).1.outcome =
        .error (.inFile "src/b.idl" (.duplicateInterface "FooBar")) ∧
      ∃ sources, sources.map Prod.fst = ["a.idl", "b.idl", "c.idl"] ∧
        (fromSrcToOut (.aggregate "All.cpp")).OneUnit sources
          ((fromSrcToOut (.aggregate "All.cpp")).runOn twins).1.outcome := by
  have hlisted : (fromSrcToOut (.aggregate "All.cpp")).listing
      ((fromSrcToOut (.aggregate "All.cpp")).prepared twins) = .ok ["a.idl", "b.idl", "c.idl"] :=
    listing_of_sorted (by decide +kernel) (by decide +kernel)
  have hmade : (twins.makeFolders "out").1 = .ok () := by decide +kernel
  have houtcome : ((fromSrcToOut (.aggregate "All.cpp")).runOn twins).1.outcome =
      .error (.inFile "src/b.idl" (.duplicateInterface "FooBar")) :=
    (congrArg Prod.fst (runOn_eq_takeAll hmade hlisted)).trans (by decide +kernel)
  have hcompile : ∀ name ∈ ["a.idl", "b.idl", "c.idl"],
      ((fromSrcToOut (.aggregate "All.cpp")).glueIn
        ((fromSrcToOut (.aggregate "All.cpp")).prepared twins) name).isOk = true := by
    decide +kernel
  obtain ⟨a, ha⟩ := Traversal.isOk_iff.mp (hcompile "a.idl" (by simp))
  obtain ⟨b, hb⟩ := Traversal.isOk_iff.mp (hcompile "b.idl" (by simp))
  obtain ⟨c, hc⟩ := Traversal.isOk_iff.mp (hcompile "c.idl" (by simp))
  have hapart : (fromSrcToOut (.aggregate "All.cpp")).Apart twins :=
    ⟨sound_threeSources _ _ _, noLinks_threeSources _ _ _, by decide, by decide +kernel⟩
  obtain ⟨dst, hready⟩ := hapart.ready (Prod.ext hmade rfl)
  refine ⟨houtcome, [("a.idl", a), ("b.idl", b), ("c.idl", c)], rfl, ?_⟩
  refine oneUnit_of_aggregate rfl (sound_threeSources _ _ _).root hlisted ?_
    (hready.keepsSources hlisted) ?_
  · simp [ha, hb, hc]
  · rw [houtcome]
    exact nofun

/-- A run whose aggregate is the first of its sources. -/
def ontoSource : Job := fromSrcToOut (.aggregate "../src/a.idl")

/-- An aggregate that is one of the sources is emptied before this source is read, and what the
source declared is not known to the run: the first two sources clash, and the run finishes. -/
theorem not_oneUnit_ontoSource :
    (ontoSource.prepared twins).reach "src" ≠ (ontoSource.prepared twins).reach "out" ∧
      ∃ sources, ontoSource.listing (ontoSource.prepared twins) = .ok (sources.map Prod.fst) ∧
        (∀ s ∈ sources, ontoSource.glueIn (ontoSource.prepared twins) s.1 = .ok s.2) ∧
        (∃ s ∈ sources, ∃ s' ∈ sources, s.1 ≠ s'.1 ∧ Clash s.2 s'.2) ∧
        (∃ r, (ontoSource.runOn twins).1.outcome = .ok r) ∧
        ¬ontoSource.OneUnit sources (ontoSource.runOn twins).1.outcome := by
  have hlisted : ontoSource.listing (ontoSource.prepared twins) =
      .ok ["a.idl", "b.idl", "c.idl"] :=
    listing_of_sorted (by decide +kernel) (by decide +kernel)
  obtain ⟨r, hr⟩ := finishes_of_takeAll (by decide +kernel) hlisted (by decide +kernel)
  have hcompile : ∀ name ∈ ["a.idl", "b.idl", "c.idl"],
      (ontoSource.glueIn (ontoSource.prepared twins) name).isOk = true := by
    decide +kernel
  obtain ⟨a, ha⟩ := Traversal.isOk_iff.mp (hcompile "a.idl" (by simp))
  obtain ⟨b, hb⟩ := Traversal.isOk_iff.mp (hcompile "b.idl" (by simp))
  obtain ⟨c, hc⟩ := Traversal.isOk_iff.mp (hcompile "c.idl" (by simp))
  have hnames : ∀ p ∈ [("a.idl", "Foo::Bar"), ("b.idl", "FooBar")],
      (ontoSource.glueIn (ontoSource.prepared twins) p.1).map Compiled.interfaces = .ok [p.2] := by
    decide +kernel
  have hfirst : a.interfaces = ["Foo::Bar"] := by
    simpa [ha, Except.map] using hnames ("a.idl", "Foo::Bar") (by simp)
  have hsecond : b.interfaces = ["FooBar"] := by
    simpa [hb, Except.map] using hnames ("b.idl", "FooBar") (by simp)
  have hclash : Clash a b := by
    refine .inl ⟨"Foo::Bar", ?_, "FooBar", ?_, by decide⟩
    · rw [hfirst]
      exact List.mem_singleton_self _
    · rw [hsecond]
      exact List.mem_singleton_self _
  have hboth : ∃ s ∈ [("a.idl", a), ("b.idl", b), ("c.idl", c)],
      ∃ s' ∈ [("a.idl", a), ("b.idl", b), ("c.idl", c)], s.1 ≠ s'.1 ∧ Clash s.2 s'.2 :=
    ⟨("a.idl", a), by simp, ("b.idl", b), by simp, by simp, hclash⟩
  refine ⟨by decide +kernel, [("a.idl", a), ("b.idl", b), ("c.idl", c)], hlisted,
    by simp [ha, hb, hc], hboth, ⟨r, hr⟩, fun hunit => ?_⟩
  obtain ⟨e, he⟩ := hunit.fails_iff.mpr hboth
  cases hr.symm.trans he

end Job

end Batch

end IdlGlue
