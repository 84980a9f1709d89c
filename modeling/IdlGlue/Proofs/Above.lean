/-
# IdlGlue.Proofs.Above -- the folders above a path

The chain of a path is the path and the folders above it, the nearest first. A name `.` stands for
the folder that it is in, so it is left out of the folders above; only a relative path that begins
with it keeps it there:

| path      | folders above it   |
|-----------|--------------------|
| `/a/./b`  | `/a`, `/`          |
| `./a/b/c` | `./a/b`, `./a`, `.` |
| `a/../b`  | `a/..`, `a`        |

The way along the names of a path leads through each of these folders (`chain_passesThrough`), and
it goes up only where the path does.
-/
import IdlGlue.Proofs.Paths

namespace IdlGlue.Disk.Path

variable {path folder : String} {xs ys : List String} {n : Nat}

/-! ## Names that lead on -/

/-- The names without those that stand for the folder they are in. -/
def moving (names : List String) : List String := names.filter (· != ".")

theorem moving_of_isPrefix (h : xs <+: ys) : moving xs <+: moving ys := h.filter _

theorem moving_moving (xs : List String) : moving (moving xs) = moving xs := by
  simp [moving]

theorem dropLast_moving_isPrefix (xs : List String) :
    (moving xs).dropLast <+: moving xs.dropLast := by
  rcases List.eq_nil_or_concat xs with rfl | ⟨before, last, rfl⟩
  · exact List.nil_prefix
  rw [List.concat_eq_append, List.dropLast_concat, moving, List.filter_append]
  by_cases hlast : last = "."
  · rw [List.filter_cons_of_neg (by simp [hlast]), List.filter_nil, List.append_nil]
    exact List.dropLast_prefix _
  · rw [List.filter_cons_of_pos (by simp [hlast]), List.filter_nil, List.dropLast_concat]
    exact List.prefix_rfl

theorem take_prefix_dropLast (h : n < xs.length) : xs.take n <+: xs.dropLast := by
  rw [List.dropLast_eq_take]
  exact List.take_prefix_take_left (by omega)

/-- The way to the entry of `path` leads through the folder. -/
structure PassesThrough (path folder : String) : Prop where
  isAbsolute : isAbsolute folder = isAbsolute path
  names : moving (names folder) <+: moving (names path).dropLast

/-! ## The path along some names -/

/-- The path from the root, or from where relative paths begin, along the names. -/
def along (absolute : Bool) (names : List String) : String :=
  (if absolute then "/" else "") ++ "/".intercalate names

theorem names_intercalate (h : ∀ name ∈ xs, name ≠ "" ∧ NoSlash name) :
    names ("/".intercalate xs) = xs := by
  induction xs with
  | nil => rfl
  | cons name rest ih =>
      obtain ⟨⟨hne, hslash⟩, hrest⟩ := List.forall_mem_cons.mp h
      cases rest with
      | nil => rw [String.intercalate_singleton, names_of_noSlash hne hslash]
      | cons next rest =>
          have hsplit : names ("/".intercalate (name :: next :: rest)) =
              names name ++ names ("/".intercalate (next :: rest)) := by
            refine names_slash ?_
            rw [String.intercalate_cons_cons, String.toList_append, String.toList_append,
              List.append_assoc]
            rfl
          rw [hsplit, ih hrest, names_of_noSlash hne hslash]
          rfl

theorem names_along {absolute : Bool} (h : ∀ name ∈ xs, name ≠ "" ∧ NoSlash name) :
    names (along absolute xs) = xs := by
  cases absolute with
  | false =>
      rw [along, if_neg (by simp), String.empty_append]
      exact names_intercalate h
  | true =>
      have hsplit : names (along true xs) = names "" ++ names ("/".intercalate xs) := by
        refine names_slash ?_
        rw [along, String.toList_append]
        rfl
      rw [hsplit, names_intercalate h]
      rfl

theorem isAbsolute_along {absolute : Bool} (h : ∀ name ∈ xs, name ≠ "" ∧ NoSlash name) :
    isAbsolute (along absolute xs) = absolute := by
  cases absolute with
  | true =>
      rw [along, isAbsolute, String.toList_append]
      rfl
  | false =>
      rw [along, if_neg (by simp), String.empty_append]
      cases xs with
      | nil => rfl
      | cons name rest =>
          obtain ⟨⟨hne, hslash⟩, _⟩ := List.forall_mem_cons.mp h
          obtain ⟨behind, hpath⟩ : ∃ behind, "/".intercalate (name :: rest) = name ++ behind := by
            cases rest with
            | nil => exact ⟨"", by rw [String.intercalate_singleton, String.append_empty]⟩
            | cons next rest =>
                exact ⟨_, by rw [String.intercalate_cons_cons, String.append_assoc]⟩
          have hlist : name.toList ≠ [] := fun hnil => hne (String.toList_eq_nil_iff.mp hnil)
          rw [hpath, isAbsolute, String.toList_append, List.head?_append_of_ne_nil _ hlist]
          exact isAbsolute_of_noSlash hslash

/-! ## The chain of a path -/

/-- What matters for the folders above a path are some of its names. -/
theorem mem_names_of_mem_essentialNames {name : String} (h : name ∈ essentialNames path) :
    name ∈ names path := by
  unfold essentialNames at h
  split at h
  · next rest _ hnames =>
      rw [hnames]
      rcases List.mem_cons.mp h with rfl | h
      · exact List.mem_cons_self
      · exact List.mem_cons_of_mem _ (List.mem_of_mem_filter h)
  · exact List.mem_of_mem_filter h

theorem plain_of_mem_essentialNames {name : String} (h : name ∈ essentialNames path) :
    name ≠ "" ∧ NoSlash name := by
  have hmem := mem_names_of_mem_essentialNames h
  refine ⟨?_, noSlash_of_mem_names hmem⟩
  rintro rfl
  exact empty_not_mem_names path hmem

theorem dropLast_essentialNames (path : String) :
    moving (essentialNames path).dropLast <+: moving (names path).dropLast := by
  have hmoving (xs : List String) : moving (moving xs).dropLast <+: moving xs.dropLast := by
    have h := moving_of_isPrefix (dropLast_moving_isPrefix xs)
    rwa [moving_moving] at h
  unfold essentialNames
  split
  · next rest _ hnames =>
      rw [hnames]
      show moving ("." :: moving rest).dropLast <+: _
      by_cases hrest : moving rest = []
      · rw [hrest]
        exact List.nil_prefix
      · have hne : rest ≠ [] := fun hnil => hrest (by rw [hnil]; rfl)
        rw [List.dropLast_cons_of_ne_nil hrest, List.dropLast_cons_of_ne_nil hne]
        exact hmoving rest
  · exact hmoving (names path)

/-- The folders above a path are those of its first names. -/
theorem mem_above (h : folder ∈ above path) : ∃ n < (essentialNames path).length,
    folder = along (isAbsolute path) ((essentialNames path).take n) := by
  obtain ⟨h, _⟩ := List.mem_filter.mp h
  obtain ⟨n, hn, rfl⟩ := List.mem_map.mp h
  exact ⟨n, List.mem_range.mp (List.mem_reverse.mp hn), rfl⟩

theorem passesThrough_along {absolute : Bool} {m : Nat}
    (h : ∀ name ∈ xs, name ≠ "" ∧ NoSlash name) (hm : m < n) (hn : n ≤ xs.length) :
    PassesThrough (along absolute (xs.take n)) (along absolute (xs.take m)) := by
  have htake (k : Nat) : ∀ name ∈ xs.take k, name ≠ "" ∧ NoSlash name :=
    fun name hname => h name (List.mem_of_mem_take hname)
  refine ⟨by rw [isAbsolute_along (htake m), isAbsolute_along (htake n)], ?_⟩
  rw [names_along (htake m), names_along (htake n)]
  have hfirst : (xs.take n).take m = xs.take m := by
    rw [List.take_take, Nat.min_eq_left hm.le]
  rw [← hfirst]
  exact moving_of_isPrefix (take_prefix_dropLast (by rw [List.length_take]; omega))

theorem passesThrough_above (h : folder ∈ above path) : PassesThrough path folder := by
  obtain ⟨n, hn, rfl⟩ := mem_above h
  have htake : ∀ name ∈ (essentialNames path).take n, name ≠ "" ∧ NoSlash name :=
    fun name hname => plain_of_mem_essentialNames (List.mem_of_mem_take hname)
  refine ⟨isAbsolute_along htake, ?_⟩
  rw [names_along htake]
  exact (moving_of_isPrefix (take_prefix_dropLast hn)).trans (dropLast_essentialNames path)

/-- **Each path of a chain passes through those behind it.** -/
theorem chain_passesThrough (path : String) : (chain path).Pairwise PassesThrough := by
  unfold chain
  split
  · exact .nil
  refine List.pairwise_cons.mpr ⟨fun _ => passesThrough_above, ?_⟩
  refine List.Pairwise.filter _ (List.pairwise_map.mpr (List.pairwise_reverse.mpr ?_))
  refine List.pairwise_lt_range.imp_of_mem fun {m n} _ hn hlt => ?_
  exact passesThrough_along (fun _ => plain_of_mem_essentialNames) hlt (List.mem_range.mp hn).le

theorem empty_not_mem_chain (path : String) : "" ∉ chain path := by
  unfold chain
  split
  · exact List.not_mem_nil
  · next hne =>
      rw [List.mem_cons, not_or]
      refine ⟨fun hempty => hne (by rw [← hempty]; rfl), fun hmem => ?_⟩
      exact absurd (List.mem_filter.mp hmem).2 (by simp)

/-- A chain goes up only where its path does. -/
theorem up_mem_names_of_mem_chain (h : folder ∈ chain path) (hup : ".." ∈ names folder) :
    ".." ∈ names path := by
  unfold chain at h
  split at h
  · cases h
  rcases List.mem_cons.mp h with rfl | h
  · exact hup
  have hmoving : ".." ∈ moving (names folder) := List.mem_filter.mpr ⟨hup, by decide⟩
  exact List.dropLast_subset _
    (List.mem_of_mem_filter ((passesThrough_above h).names.subset hmoving))

end IdlGlue.Disk.Path
