/-
# IdlGlue.Proofs.Listing -- the sources of a run

The sources are the files of a folder whose names have the extension of sources. They are taken
in the order of the bytes of their names, and none is taken twice. In a tree without links the
path of a source leads to the entry that was listed.
-/
import IdlGlue.Proofs.ByteOrder
import IdlGlue.Proofs.Course

namespace IdlGlue.Batch.Job

open IdlGlue.Disk

variable {job : Job} {t : Tree} {names : List String} {name : String}

theorem listing_eq_ok_iff : job.listing t = .ok names ↔
    ∃ src, t.locate .find job.source = .ok src ∧ t.get? src = some .folder ∧
      names = (((t.children src).filter job.namesSource).filter
        (job.leadsToFile t)).mergeSort (· ≤ ·) := by
  unfold listing
  constructor
  · intro h
    cases hnames : t.names job.source with
    | error cause =>
        rw [hnames] at h
        cases h
    | ok all =>
        rw [hnames] at h
        cases h
        obtain ⟨src, hsrc, hfolder, rfl⟩ := Tree.names_eq_ok_iff.mp hnames
        exact ⟨src, hsrc, hfolder, rfl⟩
  · rintro ⟨src, hsrc, hfolder, rfl⟩
    rw [Tree.names_eq_ok_iff.mpr ⟨src, hsrc, hfolder, rfl⟩]
    rfl

/-- A folder that lists its sources in their order leaves nothing to sort. -/
theorem listing_of_sorted
    (h : (t.names job.source).map (fun all => (all.filter job.namesSource).filter
      (job.leadsToFile t)) = .ok names)
    (hsorted : names.Pairwise (· ≤ ·)) : job.listing t = .ok names := by
  unfold listing
  cases hnames : t.names job.source with
  | error cause =>
      rw [hnames] at h
      cases h
  | ok all =>
      rw [hnames] at h
      cases h
      exact congrArg Except.ok (List.mergeSort_of_pairwise (by simpa using hsorted))

theorem leadsToFile_iff : job.leadsToFile t name = true ↔
    ∃ l content, t.locate .find (job.sourcePath name) = .ok l ∧
      t.get? l = some (.file content) := by
  rw [← Tree.isRegular_eq_true_iff, leadsToFile]
  cases t.isRegular (job.sourcePath name) with
  | error cause => simp
  | ok regular => simp

/-- The names of a listing are in the folder, have the extension of sources, and lead to
files. -/
theorem mem_listing (h : job.listing t = .ok names) (hname : name ∈ names) :
    ∃ src, t.locate .find job.source = .ok src ∧ t.get? src = some .folder ∧
      (t.get? (src ++ [name])).isSome ∧ job.namesSource name = true ∧
      job.leadsToFile t name = true := by
  obtain ⟨src, hsrc, hfolder, rfl⟩ := listing_eq_ok_iff.mp h
  obtain ⟨hlisted, hfile⟩ := List.mem_filter.mp (List.mem_mergeSort.mp hname)
  obtain ⟨hchild, hsource⟩ := List.mem_filter.mp hlisted
  exact ⟨src, hsrc, hfolder, Tree.mem_children_iff.mp hchild, hsource, hfile⟩

theorem nodup_listing (h : job.listing t = .ok names) : names.Nodup := by
  obtain ⟨src, _, _, rfl⟩ := listing_eq_ok_iff.mp h
  rw [(List.mergeSort_perm _ _).nodup_iff]
  exact ((Tree.nodup_children t src).filter _).filter _

theorem ascending_mergeSort (names : List String) :
    (names.mergeSort (· ≤ ·)).Pairwise fun a b => decide (a ≤ b) = true := by
  refine List.pairwise_mergeSort (fun a b c hab hbc => ?_) (fun a b => ?_) _
  · rw [decide_eq_true_eq] at hab hbc ⊢
    exact String.le_trans hab hbc
  · rw [Bool.or_eq_true, decide_eq_true_eq, decide_eq_true_eq]
    exact String.le_total a b

/-- **The sources of a run come in the order of the bytes of their names.** -/
theorem listing_ascending (h : job.listing t = .ok names) :
    names.Pairwise fun a b => Text.bytes a < Text.bytes b := by
  obtain ⟨src, _, _, hsorted⟩ := listing_eq_ok_iff.mp h
  have hle : names.Pairwise fun a b => decide (a ≤ b) = true := by
    rw [hsorted]
    exact ascending_mergeSort _
  refine (hle.and (nodup_listing h)).imp fun {a b} hab => Text.bytes_lt ?_
  exact lt_of_le_of_ne (decide_eq_true_eq.mp hab.1) hab.2

/-- Without links the path of a source leads to the entry of its folder that was listed. -/
theorem locate_source (hno : t.NoLinks) (hnames : t.FileNames) (h : job.listing t = .ok names)
    (hname : name ∈ names) :
    ∃ src content, t.reach job.source = .ok src ∧ FileName name ∧
      t.locate .find (job.sourcePath name) = .ok (src ++ [name]) ∧
      t.get? (src ++ [name]) = some (.file content) := by
  obtain ⟨src, hsrc, hfolder, hentry, _, hfile⟩ := mem_listing h hname
  obtain ⟨l, content, hl, hcontent⟩ := leadsToFile_iff.mp hfile
  have hfileName := hnames src name hentry
  have hopens : t.Opens job.source src := (hno.opens_iff hfolder).mpr (Tree.reach_of_locate hsrc)
  obtain rfl := hno.locate_join hopens hfileName hl
  exact ⟨src, content, Tree.reach_of_locate hsrc, hfileName, hl, hcontent⟩

end IdlGlue.Batch.Job
