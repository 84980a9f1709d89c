/-
# IdlGlue.Proofs.Growth -- trees in which nothing is lost

A run makes folders and writes files. It never takes an entry away, and it never puts one thing
in the place of another: a later tree of the run *grows* from an earlier one.

| at a location, before | after, where the tree grows      | where only files are written |
|-----------------------|----------------------------------|------------------------------|
| folder                | folder                           | folder                       |
| link                  | the same link                    | the same link                |
| file                  | file, of whatever content        | file                         |
| nothing               | nothing, a folder or a file      | nothing or a file            |

What matters of this is that paths keep their meaning, for which it is enough that folders and
links stay (`Follows`). A path that leads somewhere leads there in every later tree; where only
files are written, a path that leads somewhere in the later tree led there before.
-/
import IdlGlue.Disk.Tree
import IdlGlue.Proofs.Paths
import IdlGlue.Proofs.Traversal

namespace IdlGlue.Disk.Tree

/-- Folders stay from the first tree to the second, and links are the same. -/
structure Follows (t t' : Tree) : Prop where
  workingFolder : t'.workingFolder = t.workingFolder
  folder : ∀ l, t.get? l = some .folder → t'.get? l = some .folder
  link : ∀ l target, t'.get? l = some (.link target) ↔ t.get? l = some (.link target)

/-- Nothing is lost from the first tree to the second. -/
structure Grows (t t' : Tree) : Prop extends Follows t t' where
  file : ∀ l, (∃ content, t.get? l = some (.file content)) →
    ∃ content, t'.get? l = some (.file content)

/-- From the first tree to the second files are written, and nothing else happens. -/
structure Refills (t t' : Tree) : Prop extends Grows t t' where
  onlyFolder : ∀ l, t'.get? l = some .folder → t.get? l = some .folder

theorem Follows.refl (t : Tree) : t.Follows t := ⟨rfl, fun _ => id, fun _ _ => Iff.rfl⟩

theorem Follows.trans {t t' t'' : Tree} (h : t.Follows t') (h' : t'.Follows t'') :
    t.Follows t'' where
  workingFolder := h'.workingFolder.trans h.workingFolder
  folder l hl := h'.folder l (h.folder l hl)
  link l target := (h'.link l target).trans (h.link l target)

theorem Grows.refl (t : Tree) : t.Grows t := ⟨.refl t, fun _ => id⟩

theorem Grows.trans {t t' t'' : Tree} (h : t.Grows t') (h' : t'.Grows t'') : t.Grows t'' :=
  ⟨h.toFollows.trans h'.toFollows, fun l hl => h'.file l (h.file l hl)⟩

theorem Refills.refl (t : Tree) : t.Refills t := ⟨.refl t, fun _ => id⟩

theorem Refills.trans {t t' t'' : Tree} (h : t.Refills t') (h' : t'.Refills t'') :
    t.Refills t'' := ⟨h.toGrows.trans h'.toGrows, fun l hl => h.onlyFolder l (h'.onlyFolder l hl)⟩

/-- Where only files are written, folders and links are the same in both directions. -/
theorem Refills.follows_back {t t' : Tree} (h : t.Refills t') : t'.Follows t where
  workingFolder := h.workingFolder.symm
  folder := h.onlyFolder
  link l target := (h.link l target).symm

/-! ## One step of a walk -/

section Walks

variable {t t' : Tree} {p : Purpose} {l goal : Location} {name : String} {rest : List String}

/-- The step of a walk to the entry of a name, and on from there. -/
def stepOn (t : Tree) (p : Purpose) (l : Location) (rest : List String) :
    Except AccessCause Stop :=
  match t.get? l with
  | some .folder => t.straight p l rest
  | some (.link target) => .ok (.diverted l.dropLast target rest)
  | some (.file _) => if rest.isEmpty then .ok (.arrived l) else .error .notFolder
  | none => if rest.isEmpty then .ok (.arrived l) else .error .missing

/-- A walk goes on through folders, and it ends at what is neither folder nor link. -/
theorem stepOn_eq_ok_iff {stop : Stop} : t.stepOn p l rest = .ok stop ↔
    (t.get? l = some .folder ∧ t.straight p l rest = .ok stop) ∨
    (∃ target, t.get? l = some (.link target) ∧ stop = .diverted l.dropLast target rest) ∨
    (t.get? l ≠ some .folder ∧ (∀ target, t.get? l ≠ some (.link target)) ∧ rest = [] ∧
      stop = .arrived l) := by
  unfold stepOn
  cases hentry : t.get? l with
  | none =>
      cases rest with
      | nil => simp [eq_comm]
      | cons name rest => simp
  | some e =>
      cases e with
      | folder => simp
      | link target => simp [eq_comm]
      | file content =>
          cases rest with
          | nil => simp [eq_comm]
          | cons name rest => simp

theorem stepOn_concat (t : Tree) (p : Purpose) (l : Location) (name : String)
    (rest : List String) : t.stepOn p (l ++ [name]) rest =
      match t.get? (l ++ [name]) with
      | some .folder => t.straight p (l ++ [name]) rest
      | some (.link target) => .ok (.diverted l target rest)
      | some (.file _) => if rest.isEmpty then .ok (.arrived (l ++ [name])) else .error .notFolder
      | none => if rest.isEmpty then .ok (.arrived (l ++ [name])) else .error .missing := by
  unfold stepOn
  rw [List.dropLast_concat]

/-- The step to an entry. No file can be made under a name with a slash behind it. -/
theorem straight_name (h : NamesEntry name) :
    t.straight p l (name :: rest) =
      if p = .write && rest = [""] then .error .isFolder
      else checkName name >>= fun _ => t.stepOn p (l ++ [name]) rest := by
  have hstay : (decide (name = "") || decide (name = ".")) = false := by
    simp [h.ne_empty, h.ne_dot]
  rw [straight, if_neg (by simp [hstay]), if_neg h.ne_up]
  split
  · rfl
  · exact congrArg (checkName name >>= ·) (funext fun _ => (stepOn_concat ..).symm)

theorem straight_name_eq_ok_iff (h : NamesEntry name) {stop : Stop} :
    t.straight p l (name :: rest) = .ok stop ↔ ¬(p = .write ∧ rest = [""]) ∧
      checkName name = .ok () ∧ t.stepOn p (l ++ [name]) rest = .ok stop := by
  rw [straight_name h]
  by_cases hslash : p = .write ∧ rest = [""]
  · simp [hslash]
  · rw [if_neg (by simpa using hslash), Traversal.bind_eq_ok_iff]
    exact ⟨fun ⟨_, hcheck, hon⟩ => ⟨hslash, hcheck, hon⟩, fun ⟨_, hcheck, hon⟩ => ⟨(), hcheck, hon⟩⟩

/-- A walk arrives on its first straight part, or it follows a link and has one link less. -/
theorem walk_eq_ok_iff {links : Nat} {names : List String} : t.walk p links l names = .ok goal ↔
    t.straight p l names = .ok (.arrived goal) ∨
    ∃ left folder target behind, links = left + 1 ∧
      t.straight p l names = .ok (.diverted folder target behind) ∧
      t.walk p left (start folder target) (Path.steps target ++ behind) = .ok goal := by
  conv_lhs => unfold walk
  split
  · next hstop => simp [hstop]
  · next hstop => simp [hstop]
  · next hstop =>
      cases links with
      | zero => simp [hstop]
      | succ left => simp [hstop]

/-- A path that leads to where a file can be made leads there also when the file is looked
for. -/
theorem straight_find_of_write {stop : Stop} (h : t.straight .write l rest = .ok stop) :
    t.straight .find l rest = .ok stop := by
  induction rest generalizing l with
  | nil => exact h
  | cons name rest ih =>
      rcases name_cases name with rfl | rfl | rfl | hname
      · exact ih h
      · exact ih h
      · exact ih h
      obtain ⟨_, hcheck, hon⟩ := (straight_name_eq_ok_iff hname).mp h
      refine (straight_name_eq_ok_iff hname).mpr ⟨nofun, hcheck, ?_⟩
      rw [stepOn_eq_ok_iff] at hon ⊢
      exact hon.imp_left fun ⟨hfolder, hrest⟩ => ⟨hfolder, ih hrest⟩

theorem walk_find_of_write {links : Nat} (h : t.walk .write links l rest = .ok goal) :
    t.walk .find links l rest = .ok goal := by
  induction links generalizing l rest with
  | zero =>
      rw [walk_eq_ok_iff] at h ⊢
      rcases h with hstop | ⟨_, _, _, _, hlinks, _⟩
      · exact .inl (straight_find_of_write hstop)
      · cases hlinks
  | succ links ih =>
      rw [walk_eq_ok_iff] at h ⊢
      rcases h with hstop | ⟨left, folder, target, behind, hlinks, hstop, hgoal⟩
      · exact .inl (straight_find_of_write hstop)
      · cases hlinks
        exact .inr ⟨links, folder, target, behind, rfl, straight_find_of_write hstop, ih hgoal⟩

theorem locate_find_of_write {path : String} (h : t.locate .write path = .ok goal) :
    t.locate .find path = .ok goal := by
  obtain ⟨_, hcheck, hgoal⟩ := Traversal.bind_eq_ok_iff.mp h
  exact Traversal.bind_eq_ok_iff.mpr ⟨(), hcheck, walk_find_of_write hgoal⟩

end Walks

/-! ## Paths keep their meaning -/

section Growth

variable {t t' : Tree} {p : Purpose} {l : Location} {names : List String}

/-- Where a walk goes on in the first tree it goes on in the second. -/
theorem Follows.stepOn (h : t.Follows t') {stop : Stop} (hstop : t.stepOn p l names = .ok stop)
    (hon : t.straight p l names = .ok stop → t'.straight p l names = .ok stop) :
    t'.stepOn p l names = .ok stop := by
  rw [stepOn_eq_ok_iff] at hstop ⊢
  rcases hstop with ⟨hfolder, hstop⟩ | ⟨target, hlink, hstop⟩ | ⟨_, hlink, hnames, hstop⟩
  · exact .inl ⟨h.folder l hfolder, hon hstop⟩
  · exact .inr (.inl ⟨target, (h.link l target).mpr hlink, hstop⟩)
  · -- Where the walk ended there may be a folder now, but no link.
    subst hnames hstop
    have hlink' : ∀ target, t'.get? l ≠ some (.link target) :=
      fun target => (h.link l target).not.mpr (hlink target)
    by_cases hfolder' : t'.get? l = some .folder
    · exact .inl ⟨hfolder', rfl⟩
    · exact .inr (.inr ⟨hfolder', hlink', rfl, rfl⟩)

theorem Follows.straight (h : t.Follows t') {stop : Stop}
    (hstop : t.straight p l names = .ok stop) : t'.straight p l names = .ok stop := by
  induction names generalizing l with
  | nil => exact hstop
  | cons name rest ih =>
      rcases name_cases name with rfl | rfl | rfl | hname
      · exact ih hstop
      · exact ih hstop
      · exact ih hstop
      obtain ⟨hslash, hcheck, hon⟩ := (straight_name_eq_ok_iff hname).mp hstop
      exact (straight_name_eq_ok_iff hname).mpr
        ⟨hslash, hcheck, h.stepOn hon fun hrest => ih hrest⟩

theorem Follows.walk (h : t.Follows t') {links : Nat} {goal : Location}
    (hgoal : t.walk p links l names = .ok goal) : t'.walk p links l names = .ok goal := by
  induction links generalizing l names with
  | zero =>
      rw [walk_eq_ok_iff] at hgoal ⊢
      rcases hgoal with hstop | ⟨_, _, _, _, hlinks, _⟩
      · exact .inl (h.straight hstop)
      · cases hlinks
  | succ links ih =>
      rw [walk_eq_ok_iff] at hgoal ⊢
      rcases hgoal with hstop | ⟨left, folder, target, rest, hlinks, hstop, hgoal⟩
      · exact .inl (h.straight hstop)
      · cases hlinks
        exact .inr ⟨links, folder, target, rest, rfl, h.straight hstop, ih hgoal⟩

/-- **A path that leads somewhere leads there as long as folders and links stay.** -/
theorem Follows.locate (h : t.Follows t') {path : String} {goal : Location}
    (hgoal : t.locate p path = .ok goal) : t'.locate p path = .ok goal := by
  obtain ⟨_, hcheck, hgoal⟩ := Traversal.bind_eq_ok_iff.mp hgoal
  refine Traversal.bind_eq_ok_iff.mpr ⟨(), hcheck, ?_⟩
  rw [h.workingFolder]
  exact h.walk hgoal

end Growth

/-! ## Where walks end -/

section Ends

variable {t t' : Tree} {p : Purpose} {l goal : Location} {names : List String}

/-- There is a folder at the location, and there are folders all the way to it. -/
def FolderAt (t : Tree) (l : Location) : Prop := ∀ k, k <+: l → t.get? k = some .folder

/-- A file could stand at the location: there is a folder for it, and neither a folder nor a
link in its place. -/
structure FileSite (t : Tree) (l : Location) : Prop where
  ne_nil : l ≠ []
  above : t.FolderAt l.dropLast
  noFolder : t.get? l ≠ some .folder
  noLink : ∀ target, t.get? l ≠ some (.link target)

theorem folderAt_nil : t.FolderAt [] := by
  intro k hk
  rw [List.prefix_nil] at hk
  subst hk
  rfl

theorem FolderAt.get? (h : t.FolderAt l) : t.get? l = some .folder := h l (List.prefix_refl l)

theorem FolderAt.dropLast (h : t.FolderAt l) : t.FolderAt l.dropLast :=
  fun k hk => h k (hk.trans (List.dropLast_prefix l))

theorem FolderAt.concat {name : String} (h : t.FolderAt l)
    (hname : t.get? (l ++ [name]) = some .folder) : t.FolderAt (l ++ [name]) := by
  intro k hk
  rw [List.prefix_concat_iff] at hk
  rcases hk with rfl | hk
  · exact hname
  · exact h k hk

theorem FolderAt.follows (hl : t.FolderAt l) (h : t.Follows t') : t'.FolderAt l :=
  fun k hk => h.folder k (hl k hk)

/-- The folder that relative paths are taken from stays. -/
theorem Follows.root (h : t.Follows t') (hroot : t.FolderAt t.workingFolder) :
    t'.FolderAt t'.workingFolder := by
  rw [h.workingFolder]
  exact hroot.follows h

/-- A walk from a folder stops in a folder, or where a file could stand. -/
theorem straight_ends (hl : t.FolderAt l) {stop : Stop} (h : t.straight p l names = .ok stop) :
    (∃ goal, stop = .arrived goal ∧ (t.FolderAt goal ∨ t.FileSite goal)) ∨
      ∃ folder target rest, stop = .diverted folder target rest ∧ t.FolderAt folder := by
  induction names generalizing l with
  | nil => exact .inl ⟨l, (Except.ok.inj h).symm, .inl hl⟩
  | cons name rest ih =>
      rcases name_cases name with rfl | rfl | rfl | hname
      · exact ih hl h
      · exact ih hl h
      · exact ih hl.dropLast h
      obtain ⟨_, _, h⟩ := (straight_name_eq_ok_iff hname).mp h
      rcases stepOn_eq_ok_iff.mp h with ⟨hfolder, h⟩ | ⟨target, _, rfl⟩ | ⟨hfolder, hlink, _, rfl⟩
      · exact ih (hl.concat hfolder) h
      · refine .inr ⟨_, target, rest, rfl, ?_⟩
        rw [List.dropLast_concat]
        exact hl
      · refine .inl ⟨_, rfl, .inr ⟨by simp, ?_, hfolder, hlink⟩⟩
        rw [List.dropLast_concat]
        exact hl

theorem folderAt_start (hl : t.FolderAt l) (path : String) : t.FolderAt (start l path) := by
  unfold start
  split
  · exact folderAt_nil
  · exact hl

theorem walk_ends {links : Nat} (hl : t.FolderAt l) (h : t.walk p links l names = .ok goal) :
    t.FolderAt goal ∨ t.FileSite goal := by
  induction links generalizing l names with
  | zero =>
      rcases walk_eq_ok_iff.mp h with hstop | ⟨_, _, _, _, hlinks, _⟩
      · rcases straight_ends hl hstop with ⟨_, hgoal, hends⟩ | ⟨_, _, _, hgoal, _⟩
        · cases hgoal
          exact hends
        · cases hgoal
      · cases hlinks
  | succ links ih =>
      rcases walk_eq_ok_iff.mp h with hstop | ⟨_, _, target, _, hlinks, hstop, h⟩
      · rcases straight_ends hl hstop with ⟨_, hgoal, hends⟩ | ⟨_, _, _, hgoal, _⟩
        · cases hgoal
          exact hends
        · cases hgoal
      · cases hlinks
        rcases straight_ends hl hstop with ⟨_, hgoal, _⟩ | ⟨_, _, _, hgoal, hfolder⟩
        · cases hgoal
        · cases hgoal
          exact ih (folderAt_start hfolder target) h

theorem locate_ends (ht : t.FolderAt t.workingFolder) {path : String}
    (h : t.locate p path = .ok goal) : t.FolderAt goal ∨ t.FileSite goal := by
  obtain ⟨_, _, h⟩ := Traversal.bind_eq_ok_iff.mp h
  exact walk_ends (folderAt_start ht path) h

/-- A file is opened for writing where one could stand. -/
theorem outputSite_eq_ok (ht : t.FolderAt t.workingFolder) {path : String}
    (h : t.outputSite path = .ok l) : t.locate .write path = .ok l ∧ t.FileSite l := by
  obtain ⟨goal, hgoal, h⟩ := Traversal.bind_eq_ok_iff.mp h
  split at h
  · cases h
  · next hfolder =>
      cases h
      refine ⟨hgoal, (locate_ends ht hgoal).resolve_left fun hat => hfolder ?_⟩
      rw [hat.get?]
      rfl

end Ends

/-! ## What operations do -/

section Operations

variable {t t' : Tree} {l : Location} {path : String}

/-- A file that is put where one could stand is all that is new. -/
theorem refills_put (hl : t.FileSite l) (content : ByteArray) :
    t.Refills (t.put l (.file content)) where
  workingFolder := rfl
  folder k hk := by
    rw [get?_put_of_ne]
    · exact hk
    · rintro rfl
      exact hl.noFolder hk
  link k target := by
    by_cases hk : k = l
    · subst hk
      rw [get?_put_self _ _ hl.ne_nil]
      exact iff_of_false nofun (hl.noLink target)
    · rw [get?_put_of_ne _ _ hk]
  file k hk := by
    by_cases hkl : k = l
    · subst hkl
      exact ⟨content, get?_put_self _ _ hl.ne_nil⟩
    · rw [get?_put_of_ne _ _ hkl]
      exact hk
  onlyFolder k hk := by
    by_cases hkl : k = l
    · subst hkl
      rw [get?_put_self _ _ hl.ne_nil] at hk
      cases hk
    · rwa [get?_put_of_ne _ _ hkl] at hk

/-- A text is read from the file that the path leads to. -/
theorem readText_eq_ok_iff {text : String} : t.readText path = .ok text ↔
    ∃ l content, t.locate .find path = .ok l ∧ t.get? l = some (.file content) ∧
      String.fromUTF8? content = some text := by
  constructor
  · intro h
    obtain ⟨l, hl, h⟩ := Traversal.bind_eq_ok_iff.mp h
    split at h
    · next content hentry =>
        split at h
        · next hdecode =>
            cases h
            exact ⟨l, content, hl, hentry, hdecode⟩
        · cases h
    · cases h
    · cases h
    · cases h
  · rintro ⟨l, content, hl, hentry, hdecode⟩
    refine Traversal.bind_eq_ok_iff.mpr ⟨l, hl, ?_⟩
    rw [hentry]
    dsimp only
    rw [hdecode]
    rfl

/-- A path is read as before while it leads to the same entry. -/
theorem readText_eq_of_follows (h : t.Follows t') (hl : t.locate .find path = .ok l)
    (hentry : t'.get? l = t.get? l) : t'.readText path = t.readText path := by
  rw [readText, readText, hl, h.locate hl]
  simp only [bind, Except.bind, hentry]

theorem isRegular_eq_true_iff : t.isRegular path = .ok true ↔
    ∃ l content, t.locate .find path = .ok l ∧ t.get? l = some (.file content) := by
  constructor
  · intro h
    obtain ⟨l, hl, h⟩ := Traversal.bind_eq_ok_iff.mp h
    split at h
    · next content hentry => exact ⟨l, content, hl, hentry⟩
    · cases h
    · cases h
    · cases h
  · rintro ⟨l, content, hl, hentry⟩
    refine Traversal.bind_eq_ok_iff.mpr ⟨l, hl, ?_⟩
    rw [hentry]
    rfl

theorem names_eq_ok_iff {names : List String} : t.names path = .ok names ↔
    ∃ l, t.locate .find path = .ok l ∧ t.get? l = some .folder ∧ names = t.children l := by
  constructor
  · intro h
    obtain ⟨l, hl, h⟩ := Traversal.bind_eq_ok_iff.mp h
    split at h
    · next hentry => exact ⟨l, hl, hentry, (Except.ok.inj h).symm⟩
    · cases h
    · cases h
    · cases h
  · rintro ⟨l, hl, hentry, rfl⟩
    refine Traversal.bind_eq_ok_iff.mpr ⟨l, hl, ?_⟩
    rw [hentry]
    rfl

end Operations

end IdlGlue.Disk.Tree
