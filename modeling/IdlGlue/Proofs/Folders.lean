/-
# IdlGlue.Proofs.Folders -- folders and their entries in a tree without links

Without links every walk is one straight part, and a path says by its names alone which folders
it goes through. `Opens path g` says that these names lead to the folder at `g`; then the entry
`name` of the folder is at `g ++ [name]`, whatever it is followed for.

| made                                   | is new                                             |
|----------------------------------------|----------------------------------------------------|
| `makeFolder path`                      | the folder that `path` leads to from then on       |
| `makeFolders path`                     | such folders, for `path` and folders above it      |
-/
import IdlGlue.Disk.Access
import IdlGlue.Proofs.Growth
import Mathlib.Data.List.Infix
import Mathlib.Data.List.Nodup

namespace IdlGlue.Disk

/-- It is a symbolic link. -/
def Entry.isLink : Entry → Bool
  | .link _ => true
  | .file _ | .folder => false

theorem Entry.any_isFolder_iff {e : Option Entry} :
    e.any Entry.isFolder = true ↔ e = some .folder := by
  rcases e with - | - | - | -
  all_goals simp [Entry.isFolder]

namespace Tree

variable {t t' : Tree} {p : Purpose} {l g goal : Location} {path name : String}
  {xs ys names : List String}

/-! ## Walks without links -/

/-- No entry of the tree is a link. -/
def NoLinks (t : Tree) : Prop := ∀ l target, t.get? l ≠ some (.link target)

theorem NoLinks.follows (ht : t.NoLinks) (h : t.Follows t') : t'.NoLinks :=
  fun l target hl => ht l target ((h.link l target).mp hl)

theorem NoLinks.straight_ne_diverted (ht : t.NoLinks) {folder : Location} {target : String}
    {behind : List String} : t.straight p l names ≠ .ok (.diverted folder target behind) := by
  intro h
  induction names generalizing l with
  | nil => cases h
  | cons name rest ih =>
      rcases name_cases name with rfl | rfl | rfl | hname
      · exact ih h
      · exact ih h
      · exact ih h
      obtain ⟨_, _, h⟩ := (straight_name_eq_ok_iff hname).mp h
      rcases stepOn_eq_ok_iff.mp h with ⟨_, h⟩ | ⟨target, hlink, _⟩ | ⟨_, _, _, h⟩
      · exact ih h
      · exact ht _ _ hlink
      · cases h

theorem NoLinks.walk_eq_ok_iff (ht : t.NoLinks) {links : Nat} :
    t.walk p links l names = .ok goal ↔ t.straight p l names = .ok (.arrived goal) := by
  rw [Tree.walk_eq_ok_iff]
  refine ⟨fun h => h.resolve_right ?_, .inl⟩
  rintro ⟨_, _, _, _, _, hstop, _⟩
  exact ht.straight_ne_diverted hstop

/-- The names lead from the folder at `l` to the folder at `g`. -/
def OpensFrom (t : Tree) (l : Location) (names : List String) (g : Location) : Prop :=
  t.straight .find l (names ++ [""]) = .ok (.arrived g)

/-- The names of the path lead to the folder at `g`. -/
def Opens (t : Tree) (path : String) (g : Location) : Prop :=
  t.OpensFrom (start t.workingFolder path) (Path.names path) g

/-- A walk past a folder goes on from there. -/
theorem OpensFrom.straight_append (h : t.OpensFrom l xs g)
    (hslash : p = .write → "" ∉ xs ++ ys) :
    t.straight p l (xs ++ ys) = t.straight p g ys := by
  induction xs generalizing l with
  | nil =>
      cases h
      rfl
  | cons name xs ih =>
      have hrest : p = .write → "" ∉ xs ++ ys := fun hp hmem =>
        hslash hp (List.mem_cons_of_mem _ hmem)
      rw [OpensFrom, List.cons_append] at h
      rw [List.cons_append]
      rcases name_cases name with rfl | rfl | rfl | hname
      · exact ih h hrest
      · exact ih h hrest
      · exact ih h hrest
      obtain ⟨_, hcheck, h⟩ := (straight_name_eq_ok_iff hname).mp h
      rcases stepOn_eq_ok_iff.mp h with ⟨hfolder, h⟩ | ⟨_, _, hstop⟩ | ⟨_, _, hnil, _⟩
      · have hnot : ¬(p = .write ∧ xs ++ ys = [""]) := fun ⟨hp, hnames⟩ =>
          hrest hp (hnames ▸ List.mem_singleton_self "")
        have hon : t.stepOn p (l ++ [name]) (xs ++ ys) = t.straight p (l ++ [name]) (xs ++ ys) := by
          rw [stepOn, hfolder]
        rw [straight_name hname, if_neg (by simpa using hnot), hcheck]
        exact hon.trans (ih h hrest)
      · cases hstop
      · exact absurd hnil (by simp)

theorem OpensFrom.straight_find (h : t.OpensFrom l xs g) (ys : List String) :
    t.straight .find l (xs ++ ys) = t.straight .find g ys := by
  have hfind : Purpose.find = .write → "" ∉ xs ++ ys := nofun
  exact h.straight_append hfind

/-- A walk that does not get as far as a folder stops there whatever is behind. -/
theorem straight_append_eq_error {cause : AccessCause}
    (h : t.straight .find l (xs ++ [""]) = .error cause) (hys : ys ≠ []) :
    t.straight .find l (xs ++ ys) = .error cause := by
  induction xs generalizing l with
  | nil => cases h
  | cons name xs ih =>
      rw [List.cons_append] at h ⊢
      rcases name_cases name with rfl | rfl | rfl | hname
      · exact ih h
      · exact ih h
      · exact ih h
      rw [straight_name hname, if_neg (by simp)] at h ⊢
      rcases Traversal.bind_eq_error_iff.mp h with hcheck | ⟨_, hcheck, hon⟩
      · exact Traversal.bind_eq_error_iff.mpr (.inl hcheck)
      refine Traversal.bind_eq_error_iff.mpr (.inr ⟨(), hcheck, ?_⟩)
      have hempty : (xs ++ [""]).isEmpty = false := by simp
      have hempty' : (xs ++ ys).isEmpty = false := by simp [hys]
      unfold stepOn at hon ⊢
      cases hentry : t.get? (l ++ [name]) with
      | none => simpa [hentry, hempty, hempty'] using hon
      | some e =>
          rw [hentry] at hon
          cases e with
          | folder => exact ih hon
          | link target => cases hon
          | file content => simpa [hempty, hempty'] using hon

/-- Without links names lead to a folder, or there is an error on the way. -/
theorem NoLinks.opensFrom_or_error (ht : t.NoLinks) (l : Location) (xs : List String) :
    (∃ g, t.OpensFrom l xs g) ∨
      ∃ cause, t.straight .find l (xs ++ [""]) = .error cause := by
  cases hstop : t.straight .find l (xs ++ [""]) with
  | error cause => exact .inr ⟨cause, rfl⟩
  | ok stop =>
      cases stop with
      | arrived g => exact .inl ⟨g, hstop⟩
      | diverted => exact absurd hstop ht.straight_ne_diverted

/-- Names that lead to a folder do so with a slash behind them. -/
theorem opensFrom_iff : t.OpensFrom l xs g ∧ t.get? g = some .folder ↔
    t.straight .find l xs = .ok (.arrived g) ∧ t.get? g = some .folder := by
  refine and_congr_left fun hg => ⟨fun h => ?_, fun h => ?_⟩
  · have hend := h.straight_find []
    rwa [List.append_nil] at hend
  · induction xs generalizing l with
    | nil => exact h
    | cons name xs ih =>
        rcases name_cases name with rfl | rfl | rfl | hname
        · exact ih h
        · exact ih h
        · exact ih h
        obtain ⟨_, hcheck, h⟩ := (straight_name_eq_ok_iff hname).mp h
        refine (straight_name_eq_ok_iff hname).mpr ⟨nofun, hcheck, stepOn_eq_ok_iff.mpr ?_⟩
        rcases stepOn_eq_ok_iff.mp h with ⟨hfolder, h⟩ | ⟨_, _, hstop⟩ | ⟨hfolder, _, _, hgoal⟩
        · exact .inl ⟨hfolder, ih h⟩
        · cases hstop
        · cases hgoal
          exact absurd hg hfolder

theorem OpensFrom.follows (hg : t.OpensFrom l xs g) (h : t.Follows t') : t'.OpensFrom l xs g :=
  h.straight hg

theorem Opens.follows (hg : t.Opens path g) (h : t.Follows t') : t'.Opens path g := by
  rw [Opens, h.workingFolder]
  exact OpensFrom.follows hg h

theorem OpensFrom.folderAt (hg : t.OpensFrom l xs g) (hl : t.FolderAt l) : t.FolderAt g := by
  induction xs generalizing l with
  | nil =>
      cases hg
      exact hl
  | cons name xs ih =>
      rcases name_cases name with rfl | rfl | rfl | hname
      · exact ih hg hl
      · exact ih hg hl
      · exact ih hg hl.dropLast
      obtain ⟨_, _, h⟩ := (straight_name_eq_ok_iff hname).mp hg
      rcases stepOn_eq_ok_iff.mp h with ⟨hfolder, h⟩ | ⟨_, _, hstop⟩ | ⟨_, _, hnil, _⟩
      · exact ih h (hl.concat hfolder)
      · cases hstop
      · exact absurd hnil (by simp)

theorem Opens.folderAt (ht : t.FolderAt t.workingFolder) (hg : t.Opens path g) : t.FolderAt g :=
  OpensFrom.folderAt hg (folderAt_start ht path)

/-! ## Paths to folders -/

/-- Where the names of a path lead. An empty path has none, and so it stands for the folder
that relative paths are taken from. -/
def reach (t : Tree) (path : String) : Except AccessCause Location :=
  t.walk .find linkLimit (start t.workingFolder path) (Path.steps path)

theorem reach_of_locate (h : t.locate .find path = .ok l) : t.reach path = .ok l := by
  obtain ⟨_, _, h⟩ := Traversal.bind_eq_ok_iff.mp h
  exact h

/-- A path leads to a folder just if its names do. -/
theorem NoLinks.opens_iff (ht : t.NoLinks) (hg : t.get? g = some .folder) :
    t.Opens path g ↔ t.reach path = .ok g := by
  have hnames : t.Opens path g ↔
      t.straight .find (start t.workingFolder path) (Path.names path) = .ok (.arrived g) :=
    and_congr_left_iff.mp opensFrom_iff hg
  rw [reach, ht.walk_eq_ok_iff, Path.steps]
  split
  · exact Iff.rfl
  · exact hnames

/-! ## Entries of a folder -/

/-- The way to an entry goes on from its folder. -/
theorem Opens.straight_join (hg : t.Opens path g) (hne : name ≠ "") (hname : NoSlash name) :
    t.straight p (start t.workingFolder (Path.join path name))
      (Path.steps (Path.join path name)) = t.straight p g [name] := by
  have hslash : p = .write → "" ∉ Path.names path ++ [name] :=
    fun _ => Path.empty_not_mem_concat path hne
  have hstart : start t.workingFolder (Path.join path name) = start t.workingFolder path := by
    rw [start, start, Path.isAbsolute_join hname]
  rw [Path.steps_join hne hname, hstart]
  exact OpensFrom.straight_append hg hslash

/-- The path of an entry leads to it. -/
theorem NoLinks.locate_join (ht : t.NoLinks) (hg : t.Opens path g) (hname : FileName name)
    (h : t.locate p (Path.join path name) = .ok l) : l = g ++ [name] := by
  obtain ⟨_, _, h⟩ := Traversal.bind_eq_ok_iff.mp h
  rw [ht.walk_eq_ok_iff, hg.straight_join hname.ne_empty hname.noSlash] at h
  obtain ⟨_, _, hon⟩ := (straight_name_eq_ok_iff hname.toNamesEntry).mp h
  rcases stepOn_eq_ok_iff.mp hon with ⟨_, hstop⟩ | ⟨_, hlink, _⟩ | ⟨_, _, _, hstop⟩
  · cases hstop
    rfl
  · exact absurd hlink (ht _ _)
  · cases hstop
    rfl

theorem checkPath_eq_ok_iff : checkPath path = .ok () ↔
    '\x00' ∉ path.toList ∧ path ≠ "" ∧ path.utf8ByteSize ≤ pathLimit := by
  unfold checkPath
  split
  · next hnul => simp [hnul]
  · next hnul =>
      split
      · next hempty => simp [String.isEmpty_iff.mp hempty]
      · next hempty =>
          have hne : path ≠ "" := fun heq => hempty (String.isEmpty_iff.mpr heq)
          split
          · next hlong => simpa [hnul, hne] using hlong
          · next hshort => simpa [hnul, hne] using hshort

theorem checkName_eq_ok_iff : checkName name = .ok () ↔ name.utf8ByteSize ≤ nameLimit := by
  unfold checkName
  split
  · next hlong => simpa using hlong
  · next hshort => simpa using hshort

/-- The path of a file leads to it if it is not too long, and the name is not. -/
theorem NoLinks.locate_file_iff (ht : t.NoLinks) (hg : t.Opens path g) (hname : FileName name)
    {content : ByteArray} (hfile : t.get? (g ++ [name]) = some (.file content)) :
    t.locate .find (Path.join path name) = .ok (g ++ [name]) ↔
      checkPath (Path.join path name) = .ok () ∧ checkName name = .ok () := by
  have hwalk : t.walk .find linkLimit (start t.workingFolder (Path.join path name))
      (Path.steps (Path.join path name)) = .ok (g ++ [name]) ↔ checkName name = .ok () := by
    rw [ht.walk_eq_ok_iff, hg.straight_join hname.ne_empty hname.noSlash,
      straight_name_eq_ok_iff hname.toNamesEntry]
    constructor
    · intro h
      exact h.2.1
    · intro hcheck
      refine ⟨nofun, hcheck, stepOn_eq_ok_iff.mpr (.inr (.inr ⟨?_, ?_, rfl, rfl⟩))⟩
      · rw [hfile]
        exact nofun
      · intro target
        rw [hfile]
        exact nofun
  rw [locate, Traversal.bind_eq_ok_iff]
  constructor
  · rintro ⟨_, hcheck, h⟩
    exact ⟨hcheck, hwalk.mp h⟩
  · rintro ⟨hcheck, hname⟩
    exact ⟨(), hcheck, hwalk.mpr hname⟩

/-- A file that is opened for writing by the path of an entry stands in the folder. -/
theorem NoLinks.outputSite_join (ht : t.NoLinks) (hroot : t.FolderAt t.workingFolder)
    (hg : t.Opens path g) (hne : name ≠ "") (hname : NoSlash name)
    (h : t.outputSite (Path.join path name) = .ok l) :
    NamesEntry name ∧ t.FileSite l ∧ l = g ++ [name] := by
  obtain ⟨hl, hsite⟩ := outputSite_eq_ok hroot h
  have hentry : NamesEntry name := by
    -- The other names lead back to a folder, in which no file can be put.
    have hfolder := hg.folderAt hroot
    obtain ⟨_, _, hwalk⟩ := Traversal.bind_eq_ok_iff.mp hl
    rw [ht.walk_eq_ok_iff, hg.straight_join hne hname] at hwalk
    rcases name_cases name with rfl | rfl | rfl | hentry
    · exact absurd rfl hne
    · cases hwalk
      exact absurd hfolder.get? hsite.noFolder
    · cases hwalk
      exact absurd hfolder.dropLast.get? hsite.noFolder
    · exact hentry
  exact ⟨hentry, hsite, ht.locate_join hg ⟨hentry, hname⟩ hl⟩

/-- The last name leads to the same entry in every tree without links. -/
theorem NoLinks.straight_singleton (ht : t.NoLinks) (ht' : t'.NoLinks) (p : Purpose)
    (l : Location) (name : String) : t'.straight p l [name] = t.straight p l [name] := by
  have hend {t : Tree} (ht : t.NoLinks) :
      t.stepOn p (l ++ [name]) [] = .ok (.arrived (l ++ [name])) := by
    by_cases hfolder : t.get? (l ++ [name]) = some .folder
    · exact stepOn_eq_ok_iff.mpr (.inl ⟨hfolder, rfl⟩)
    · exact stepOn_eq_ok_iff.mpr (.inr (.inr ⟨hfolder, ht _, rfl, rfl⟩))
  rcases name_cases name with rfl | rfl | rfl | hname
  · rfl
  · rfl
  · rfl
  · rw [straight_name hname, straight_name hname, hend ht, hend ht']

theorem NoLinks.locate_join_eq (ht : t.NoLinks) (h : t.Follows t') (hg : t.Opens path g)
    (hne : name ≠ "") (hname : NoSlash name) :
    t'.locate .write (Path.join path name) = t.locate .write (Path.join path name) := by
  unfold locate
  refine congrArg (checkPath (Path.join path name) >>= ·) (funext fun _ => ?_)
  unfold walk
  rw [hg.straight_join hne hname, (hg.follows h).straight_join hne hname,
    ht.straight_singleton (ht.follows h)]
  cases hstop : t.straight .write g [name] with
  | error cause => rfl
  | ok stop =>
      cases stop with
      | arrived goal => rfl
      | diverted => exact absurd hstop ht.straight_ne_diverted

/-- Where only files are written, the path of an entry is opened for writing as before, or refused
as before. -/
theorem NoLinks.outputSite_eq (ht : t.NoLinks) (h : t.Refills t') (hg : t.Opens path g)
    (hne : name ≠ "") (hname : NoSlash name) :
    t'.outputSite (Path.join path name) = t.outputSite (Path.join path name) := by
  have hfolder (l : Location) : (t'.get? l).any Entry.isFolder = (t.get? l).any Entry.isFolder := by
    rw [Bool.eq_iff_iff, Entry.any_isFolder_iff, Entry.any_isFolder_iff]
    exact ⟨h.onlyFolder l, h.folder l⟩
  unfold outputSite
  rw [ht.locate_join_eq h.toFollows hg hne hname]
  refine congrArg (t.locate .write (Path.join path name) >>= ·) (funext fun l => ?_)
  rw [hfolder]

/-! ## Making folders -/

/-- Folders are made where there was nothing, and nothing else happens. -/
structure AddsFolders (t t' : Tree) : Prop where
  workingFolder : t'.workingFolder = t.workingFolder
  entry : ∀ l, t'.get? l = t.get? l ∨ t.get? l = none ∧ t'.get? l = some .folder

theorem AddsFolders.refl (t : Tree) : t.AddsFolders t := ⟨rfl, fun _ => .inl rfl⟩

theorem AddsFolders.trans {t'' : Tree} (h : t.AddsFolders t') (h' : t'.AddsFolders t'') :
    t.AddsFolders t'' where
  workingFolder := h'.workingFolder.trans h.workingFolder
  entry l := by
    rcases h.entry l with hl | ⟨hnone, hl⟩ <;> rcases h'.entry l with hl' | ⟨hnone', hl'⟩
    · exact .inl (hl'.trans hl)
    · exact .inr ⟨hl ▸ hnone', hl'⟩
    · exact .inr ⟨hnone, hl'.trans hl⟩
    · exact .inr ⟨hnone, hl'⟩

theorem AddsFolders.get?_of_some (h : t.AddsFolders t') {e : Entry} (he : t.get? l = some e) :
    t'.get? l = some e := by
  rcases h.entry l with hl | ⟨hnone, _⟩
  · rw [hl, he]
  · rw [hnone] at he
    cases he

/-- Whatever is no folder was there before. -/
theorem AddsFolders.get?_back (h : t.AddsFolders t') {e : Entry} (he : t'.get? l = some e)
    (hfolder : e ≠ .folder) : t.get? l = some e := by
  rcases h.entry l with hl | ⟨_, hl⟩
  · rw [← hl, he]
  · rw [hl] at he
    exact absurd (Option.some.inj he).symm hfolder

/-- Files are not touched. -/
theorem AddsFolders.file_iff (h : t.AddsFolders t') {content : ByteArray} :
    t'.get? l = some (.file content) ↔ t.get? l = some (.file content) :=
  ⟨fun hl => h.get?_back hl nofun, h.get?_of_some⟩

theorem AddsFolders.grows (h : t.AddsFolders t') : t.Grows t' where
  workingFolder := h.workingFolder
  folder _ hl := h.get?_of_some hl
  link _ _ := ⟨fun hl => h.get?_back hl nofun, fun hl => h.get?_of_some hl⟩
  file _ := fun ⟨content, hl⟩ => ⟨content, h.get?_of_some hl⟩

theorem addsFolders_put (hl : t.get? l = none) : t.AddsFolders (t.put l .folder) where
  workingFolder := rfl
  entry k := by
    by_cases hk : k = l
    · subst hk
      refine .inr ⟨hl, get?_put_self t _ ?_⟩
      rintro rfl
      cases hl
    · exact .inl (get?_put_of_ne t _ hk)

/-- The last name of a path that has one. -/
theorem names_eq_dropLast_concat {last : String} (h : (Path.names path).getLast? = some last) :
    Path.names path = (Path.names path).dropLast ++ [last] := by
  obtain ⟨before, hbefore⟩ := List.getLast?_eq_some_iff.mp h
  rw [hbefore, List.dropLast_concat]

/-- A name that is neither `.` nor `..` and stands last in a path is a file name. -/
theorem fileName_of_getLast? {last : String} (h : (Path.names path).getLast? = some last)
    (hdots : ¬(decide (last = ".") || decide (last = "..")) = true) : FileName last := by
  have hmem := List.mem_of_getLast? h
  simp only [Bool.or_eq_true, decide_eq_true_eq, not_or] at hdots
  refine ⟨⟨?_, hdots.1, hdots.2⟩, Path.noSlash_of_mem_names hmem⟩
  rintro rfl
  exact Path.empty_not_mem_names path hmem

/-- A folder that is made is new, and its path leads to it from then on. -/
theorem makeFolder_eq_ok (h : t.makeFolder path = .ok t') :
    ∃ folder last, FileName last ∧ t.get? (folder ++ [last]) = none ∧
      t' = t.put (folder ++ [last]) .folder ∧
      (t.NoLinks → t'.locate .find path = .ok (folder ++ [last])) := by
  obtain ⟨site, hsite, h⟩ := Traversal.bind_eq_ok_iff.mp h
  obtain ⟨_, hcheck, hsite⟩ := Traversal.bind_eq_ok_iff.mp hsite
  cases site with
  | none => cases h
  | some l =>
      dsimp only at h
      split at h
      · cases h
      next hnew =>
      have hnone : t.get? l = none := Option.not_isSome_iff_eq_none.mp hnew
      cases h
      split at hsite
      · cases hsite
      next last hlast =>
      obtain ⟨g, hg, hsite⟩ := Traversal.bind_eq_ok_iff.mp hsite
      split at hsite
      · cases hsite
      next hdots =>
      obtain ⟨_, hname, hsite⟩ := Traversal.bind_eq_ok_iff.mp hsite
      cases hsite
      have hentry := fileName_of_getLast? hlast hdots
      refine ⟨g, last, hentry, hnone, rfl, fun ht => ?_⟩
      have hadds := addsFolders_put hnone
      have hopens : (t.put (g ++ [last]) .folder).OpensFrom (start t.workingFolder path)
          (Path.names path).dropLast g :=
        OpensFrom.follows (ht.walk_eq_ok_iff.mp hg) hadds.grows.toFollows
      have hfolder : (t.put (g ++ [last]) .folder).get? (g ++ [last]) = some .folder :=
        get?_put_self t _ (by simp)
      have hat : (t.put (g ++ [last]) .folder).OpensFrom (start t.workingFolder path)
          (Path.names path) (g ++ [last]) := by
        rw [OpensFrom, names_eq_dropLast_concat hlast, List.append_assoc, hopens.straight_find]
        exact (straight_name_eq_ok_iff hentry.toNamesEntry).mpr
          ⟨nofun, hname, stepOn_eq_ok_iff.mpr (.inl ⟨hfolder, rfl⟩)⟩
      have hno := ht.follows hadds.grows.toFollows
      exact Traversal.bind_eq_ok_iff.mpr ⟨(), hcheck, (hno.opens_iff hfolder).mp hat⟩

/-- Make the folders of a chain in a tree. -/
def makeChain (t : Tree) (paths : List String) : Except AccessCause Unit × Tree :=
  StateT.run (m := Id) (FileAccess.makeChain (m := StateM Tree) paths) t

/-- One folder of a chain, once it has been tried to make it. -/
def settle (t : Tree) (path : String) : Except AccessCause Unit × Tree :=
  match t.makeFolder path with
  | .ok made => (.ok (), made)
  | .error cause => (if t.isFolder path then .ok () else .error cause, t)

/-- What is made for a chain of folders, one by one. -/
theorem makeChain_cons (t : Tree) (path : String) (rest : List String) :
    t.makeChain (path :: rest) =
      match t.makeFolder path with
      | .error .missing =>
        match t.makeChain rest with
        | (.ok (), s) => s.settle path
        | (.error cause, s) => (.error cause, s)
      | _ => t.settle path := by
  have hpresent (cause : AccessCause) (s : Tree) :
      StateT.run (m := Id) (do
        if ← FileAccess.isFolder (m := StateM Tree) path then return .ok ()
        else return .error cause) s =
      (if s.isFolder path then .ok () else (.error cause : Except AccessCause Unit), s) := by
    show StateT.run (m := Id) (if s.isFolder path then _ else _) s = _
    cases s.isFolder path with
    | false => rfl
    | true => rfl
  have hmake (s : Tree) : StateT.run (m := Id) (FileAccess.makeFolder (m := StateM Tree) path) s =
      match s.makeFolder path with
      | .ok made => (.ok (), made)
      | .error cause => (.error cause, s) := rfl
  unfold makeChain
  rw [FileAccess.makeChain]
  simp only [StateT.run_bind, hmake]
  unfold settle
  cases t.makeFolder path with
  | ok made => rfl
  | error cause =>
      cases cause with
      | missing =>
          show (StateT.run (m := Id) _ _ : Id _) = _
          rw [StateT.run_bind]
          obtain ⟨⟨made, s⟩, hrest⟩ : ∃ result,
              StateT.run (m := Id) (FileAccess.makeChain (m := StateM Tree) rest) t = result :=
            ⟨_, rfl⟩
          rw [hrest]
          cases made with
          | error cause => rfl
          | ok =>
              show (StateT.run (m := Id) _ s : Id _) = _
              rw [StateT.run_bind, hmake]
              dsimp only
              cases s.makeFolder path with
              | ok made => rfl
              | error cause => exact hpresent cause s
      | _ => exact hpresent _ t

/-- All entries have names that folders can list. -/
def FileNames (t : Tree) : Prop := ∀ l name, (t.get? (l ++ [name])).isSome → FileName name

/-- Folders are added, and one of the paths leads to each of them. -/
structure MakesFolders (paths : List String) (t t' : Tree) : Prop where
  adds : t.AddsFolders t'
  fileNames : t.FileNames → t'.FileNames
  leads : t.NoLinks → ∀ l, t'.get? l ≠ t.get? l → ∃ path ∈ paths, t'.locate .find path = .ok l

theorem MakesFolders.refl (paths : List String) (t : Tree) : MakesFolders paths t t :=
  ⟨.refl t, id, fun _ _ h => absurd rfl h⟩

theorem MakesFolders.trans {s : Tree} {rest : List String} (h : MakesFolders rest t s)
    (h' : MakesFolders [path] s t') : MakesFolders (path :: rest) t t' where
  adds := h.adds.trans h'.adds
  fileNames ht := h'.fileNames (h.fileNames ht)
  leads ht l hl := by
    by_cases hs : t'.get? l = s.get? l
    · obtain ⟨folder, hfolder, hlocate⟩ := h.leads ht l fun h => hl (hs.trans h)
      exact ⟨folder, List.mem_cons_of_mem _ hfolder, h'.adds.grows.locate hlocate⟩
    · obtain ⟨folder, hfolder, hlocate⟩ := h'.leads (ht.follows h.adds.grows.toFollows) l hs
      rw [List.mem_singleton] at hfolder
      exact ⟨folder, hfolder ▸ List.mem_cons_self, hlocate⟩

theorem isFolder_eq_true_iff : t.isFolder path = true ↔
    ∃ g, t.locate .find path = .ok g ∧ t.get? g = some .folder := by
  unfold isFolder
  cases hl : t.locate .find path with
  | error cause => simp
  | ok g => simp [Entry.any_isFolder_iff]

theorem NoLinks.opens_of_isFolder (ht : t.NoLinks) (h : t.isFolder path = true) :
    ∃ g, t.Opens path g := by
  obtain ⟨g, hg, hfolder⟩ := isFolder_eq_true_iff.mp h
  exact ⟨g, (ht.opens_iff hfolder).mpr (reach_of_locate hg)⟩

theorem makesFolders_settle {result : Except AccessCause Unit} (h : t.settle path = (result, t')) :
    MakesFolders [path] t t' ∧ (result = .ok () → t.NoLinks → t'.isFolder path = true) := by
  unfold settle at h
  split at h
  · next made hmade =>
      cases h
      obtain ⟨folder, last, hlast, hnone, rfl, hpath⟩ := makeFolder_eq_ok hmade
      have hfolder : (t.put (folder ++ [last]) .folder).get? (folder ++ [last]) = some .folder :=
        get?_put_self t _ (by simp)
      refine ⟨⟨addsFolders_put hnone, fun ht l name hl => ?_, fun ht l hl => ?_⟩,
        fun _ ht => isFolder_eq_true_iff.mpr ⟨_, hpath ht, hfolder⟩⟩
      · by_cases hsame : l ++ [name] = folder ++ [last]
        · obtain ⟨rfl⟩ := List.singleton_inj.mp (List.append_inj' hsame rfl).2
          exact hlast
        · rw [get?_put_of_ne t _ hsame] at hl
          exact ht l name hl
      · have hnew : l = folder ++ [last] := by
          by_contra hne
          exact hl (get?_put_of_ne t _ hne)
        exact ⟨path, List.mem_singleton_self path, hnew ▸ hpath ht⟩
  · split at h
    · next hfolder =>
        cases h
        exact ⟨.refl _ t, fun _ _ => hfolder⟩
    · cases h
      exact ⟨.refl _ t, nofun⟩

theorem makesFolders_makeChain {paths : List String} {result : Except AccessCause Unit}
    (h : t.makeChain paths = (result, t')) :
    MakesFolders paths t t' ∧
      (result = .ok () → t.NoLinks → ∀ path ∈ paths.head?, t'.isFolder path = true) := by
  induction paths generalizing t' result with
  | nil =>
      cases h
      exact ⟨.refl _ t, fun _ _ => nofun⟩
  | cons path rest ih =>
      rw [makeChain_cons] at h
      have hsettle {s : Tree} (hrest : MakesFolders rest t s) (h : s.settle path = (result, t')) :
          MakesFolders (path :: rest) t t' ∧
            (result = .ok () → t.NoLinks → ∀ path' ∈ (path :: rest).head?,
              t'.isFolder path' = true) := by
        obtain ⟨hmade, hfolder⟩ := makesFolders_settle h
        refine ⟨hrest.trans hmade, ?_⟩
        rintro hok ht _ ⟨⟩
        exact hfolder hok (ht.follows hrest.adds.grows.toFollows)
      split at h
      · split at h
        · next s hs => exact hsettle (ih hs).1 h
        · next cause s hs =>
            cases h
            have hrest := (ih hs).1
            refine ⟨hrest.trans (.refl _ _), nofun⟩
      · exact hsettle (.refl _ _) h

/-- Make a folder and the folders above it in a tree. -/
def makeFolders (t : Tree) (path : String) : Except AccessCause Unit × Tree :=
  t.makeChain (Path.chain path)

/-- **Making a folder adds folders and nothing else, and where that succeeds the path leads to
one.** -/
theorem makesFolders_makeFolders {result : Except AccessCause Unit}
    (h : t.makeFolders path = (result, t')) :
    MakesFolders (Path.chain path) t t' ∧
      (result = .ok () → t.NoLinks → ∃ g, t'.Opens path g) := by
  obtain ⟨hmade, hfolder⟩ := makesFolders_makeChain h
  refine ⟨hmade, fun hok ht => ?_⟩
  by_cases hpath : path.isEmpty
  · rw [String.isEmpty_iff] at hpath
    subst hpath
    exact ⟨_, rfl⟩
  · refine (ht.follows hmade.adds.grows.toFollows).opens_of_isFolder (hfolder hok ht path ?_)
    rw [Path.chain, if_neg hpath]
    rfl

/-! ## Listing a folder -/

/-- The name that an entry of the folder at `l` has there. -/
def nameIn (l k : Location) : Option String := if k.dropLast = l then k.getLast? else none

theorem nameIn_eq_some_iff {k : Location} : nameIn l k = some name ↔ k = l ++ [name] := by
  unfold nameIn
  constructor
  · intro h
    split at h
    · next hk =>
        obtain ⟨before, rfl⟩ := List.getLast?_eq_some_iff.mp h
        rw [List.dropLast_concat] at hk
        rw [hk]
    · cases h
  · rintro rfl
    rw [List.dropLast_concat, if_pos rfl, List.getLast?_concat]

theorem children_eq (t : Tree) (l : Location) :
    t.children l = (t.entries.map Prod.fst).filterMap (nameIn l) := by
  rw [List.filterMap_map]
  rfl

theorem mem_children_iff : name ∈ t.children l ↔ (t.get? (l ++ [name])).isSome := by
  have hget : t.get? (l ++ [name]) = t.entries.lookup (l ++ [name]) := by
    cases l with
    | nil => rfl
    | cons => rfl
  rw [children_eq, List.mem_filterMap, hget, List.lookup_isSome_iff]
  constructor
  · rintro ⟨k, hk, hname⟩
    obtain ⟨e, he, rfl⟩ := List.mem_map.mp hk
    exact ⟨e, he, beq_iff_eq.mpr (nameIn_eq_some_iff.mp hname).symm⟩
  · rintro ⟨e, he, hname⟩
    exact ⟨e.1, List.mem_map_of_mem he, nameIn_eq_some_iff.mpr (beq_iff_eq.mp hname).symm⟩

/-- No name stands twice in a folder. -/
theorem nodup_children (t : Tree) (l : Location) : (t.children l).Nodup := by
  rw [children_eq]
  refine List.Nodup.filterMap (fun k k' name hk hk' => ?_) t.distinct
  rw [nameIn_eq_some_iff.mp hk, nameIn_eq_some_iff.mp hk']

/-- What holds of every tree that is a disk: the working folder and the folders above it are
there, and entries have file names. -/
structure Sound (t : Tree) : Prop where
  root : t.FolderAt t.workingFolder
  fileNames : t.FileNames

/-- What stands below the root is one of the entries. -/
theorem mem_of_get?_eq_some {e : Entry} (hne : l ≠ []) (h : t.get? l = some e) :
    (l, e) ∈ t.entries := by
  cases l with
  | nil => exact absurd rfl hne
  | cons first rest =>
      obtain ⟨before, after, hentries, _⟩ := List.lookup_eq_some_iff.mp h
      rw [hentries]
      exact List.mem_append_right before List.mem_cons_self

theorem sound_of_entries
    (hroot : ∀ k ∈ t.workingFolder.inits, (t.get? k).any Entry.isFolder = true)
    (hnames : ∀ e ∈ t.entries, ∀ name ∈ e.1.getLast?, FileName name) : t.Sound where
  root k hk := Entry.any_isFolder_iff.mp (hroot k ((List.mem_inits _ _).mpr hk))
  fileNames l name hl := by
    obtain ⟨e, he⟩ := Option.isSome_iff_exists.mp hl
    exact hnames _ (mem_of_get?_eq_some (by simp) he) name List.getLast?_concat

theorem noLinks_of_entries (h : ∀ e ∈ t.entries, e.2.isLink = false) : t.NoLinks := by
  intro l target hl
  cases l with
  | nil => cases hl
  | cons first rest =>
      exact absurd (h _ (mem_of_get?_eq_some (by simp) hl)) (by simp [Entry.isLink])

end Tree

end IdlGlue.Disk
