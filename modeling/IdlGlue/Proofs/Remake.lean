/-
# IdlGlue.Proofs.Remake -- making a folder a second time

To make a folder the folders above it are tried too, the nearest first, until one can be made or is
there. A second attempt goes over what the first has left and makes nothing more:

| first attempt | second attempt                                                                |
|---------------|-------------------------------------------------------------------------------|
| succeeds      | succeeds                                                                      |
| is refused    | is refused with the same cause, unless a file has come into the way           |

A file comes into the way when the path goes on behind it, and the way to it leads through a folder
that the first attempt has made. The first attempt ends at the file, which is there already; the
second ends on the way, since the file is no folder. A new folder is empty, so where every entry
stands in a folder only a path that goes up again (`..`) leads from there to a file.
-/
import IdlGlue.Proofs.Above
import IdlGlue.Proofs.Folders

namespace IdlGlue.Disk.Tree

variable {t s u : Tree} {l g : Location} {path folder last : String} {xs before paths : List String}
  {cause cause' : AccessCause}

/-! ## One folder -/

/-- A name for the folder that the walk is in does not change the walk to a folder. -/
theorem NoLinks.straight_moving (ht : t.NoLinks) (l : Location) (xs : List String) :
    t.straight .find l (Path.moving xs ++ [""]) = t.straight .find l (xs ++ [""]) := by
  induction xs generalizing l with
  | nil => rfl
  | cons name xs ih =>
      by_cases hdot : name = "."
      · subst hdot
        exact ih l
      have hmoving : Path.moving (name :: xs) = name :: Path.moving xs :=
        List.filter_cons_of_pos (by simpa using hdot)
      rw [hmoving, List.cons_append, List.cons_append]
      rcases name_cases name with rfl | rfl | rfl | hname
      · exact ih l
      · exact ih l
      · exact ih l.dropLast
      have hon : t.stepOn .find (l ++ [name]) (Path.moving xs ++ [""]) =
          t.stepOn .find (l ++ [name]) (xs ++ [""]) := by
        have hsome (xs : List String) : (xs ++ [""]).isEmpty = false := by simp
        unfold stepOn
        rw [ih, hsome, hsome]
        cases hentry : t.get? (l ++ [name]) with
        | none => rfl
        | some e =>
            cases e with
            | folder => rfl
            | file content => rfl
            -- Behind a link the names that are left would differ.
            | link target => exact absurd hentry (ht _ _)
      rw [straight_name hname, straight_name hname, if_neg (by simp), if_neg (by simp), hon]

/-- The folder is not made where the way to the folder above it is not there. -/
theorem makeFolder_of_error (hcheck : checkPath path = .ok ())
    (hlast : (Path.names path).getLast? = some last)
    (h : t.straight .find (start t.workingFolder path) ((Path.names path).dropLast ++ [""]) =
      .error cause) : t.makeFolder path = .error cause := by
  have hwalk : t.walk .find linkLimit (start t.workingFolder path)
      ((Path.names path).dropLast ++ [""]) = .error cause := by
    rw [walk, h]
  unfold makeFolder add site?
  rw [hcheck, hlast]
  simp only [bind, Except.bind, hwalk]

/-- What is done where the folder above it is there. -/
theorem makeFolder_of_opensFrom (hcheck : checkPath path = .ok ())
    (hlast : (Path.names path).getLast? = some last)
    (h : t.OpensFrom (start t.workingFolder path) (Path.names path).dropLast g) :
    t.makeFolder path =
      if last = "." || last = ".." then .error .present
      else checkName last >>= fun _ =>
        if (t.get? (g ++ [last])).isSome then .error .present
        else .ok (t.put (g ++ [last]) .folder) := by
  have hwalk : t.walk .find linkLimit (start t.workingFolder path)
      ((Path.names path).dropLast ++ [""]) = .ok g := by
    rw [walk, h]
  unfold makeFolder add site?
  rw [hcheck, hlast]
  simp only [bind, Except.bind, hwalk]
  by_cases hdots : (decide (last = ".") || decide (last = "..")) = true
  · rw [if_pos hdots, if_pos hdots]
    rfl
  · rw [if_neg hdots, if_neg hdots]
    cases checkName last with
    | error cause => rfl
    | ok => rfl

theorem NoLinks.isFolder_iff (ht : t.NoLinks) (hroot : t.FolderAt t.workingFolder) :
    t.isFolder path = true ↔ checkPath path = .ok () ∧ ∃ g, t.Opens path g := by
  constructor
  · intro h
    obtain ⟨g, hg, hfolder⟩ := isFolder_eq_true_iff.mp h
    obtain ⟨_, hcheck, _⟩ := Traversal.bind_eq_ok_iff.mp hg
    exact ⟨hcheck, ht.opens_of_isFolder h⟩
  · rintro ⟨hcheck, g, hg⟩
    have hfolder := (hg.folderAt hroot).get?
    have hreach := (ht.opens_iff hfolder).mp hg
    exact isFolder_eq_true_iff.mpr
      ⟨g, Traversal.bind_eq_ok_iff.mpr ⟨(), hcheck, hreach⟩, hfolder⟩

/-- A folder that is there is not made again. -/
theorem NoLinks.makeFolder_of_isFolder (ht : t.NoLinks) (h : t.isFolder path = true) :
    t.makeFolder path = .error .present := by
  obtain ⟨g, hg, hfolder⟩ := isFolder_eq_true_iff.mp h
  obtain ⟨_, hcheck, _⟩ := Traversal.bind_eq_ok_iff.mp hg
  have hopens := (ht.opens_iff hfolder).mpr (reach_of_locate hg)
  cases hlast : (Path.names path).getLast? with
  | none =>
      unfold makeFolder add site?
      rw [hcheck, hlast]
      rfl
  | some last =>
      rw [Opens, OpensFrom, names_eq_dropLast_concat hlast, List.append_assoc] at hopens
      rcases ht.opensFrom_or_error (start t.workingFolder path) (Path.names path).dropLast with
        ⟨parent, hparent⟩ | ⟨cause, herror⟩
      · rw [hparent.straight_find] at hopens
        rw [makeFolder_of_opensFrom hcheck hlast hparent]
        split
        · rfl
        · next hdots =>
            have hname := fileName_of_getLast? hlast hdots
            obtain ⟨_, hcheckName, hon⟩ := (straight_name_eq_ok_iff hname.toNamesEntry).mp hopens
            rcases stepOn_eq_ok_iff.mp hon with ⟨hentry, _⟩ | ⟨_, hlink, _⟩ | ⟨_, _, hnil, _⟩
            · rw [hcheckName, hentry]
              rfl
            · exact absurd hlink (ht _ _)
            · cases hnil
      · rw [straight_append_eq_error herror (by simp)] at hopens
        cases hopens

/-- Why a folder is not made in the folder at `g`, and why no walk leads through it: for one cause,
unless a file is in its place. -/
theorem NoLinks.refused_in (ht : t.NoLinks) (hcheck : checkPath path = .ok ())
    (hlast : (Path.names path).getLast? = some last)
    (hg : t.OpensFrom (start t.workingFolder path) (Path.names path).dropLast g)
    (hmake : t.makeFolder path = .error cause)
    (hwalk : t.straight .find g [last, ""] = .error cause') :
    cause' = cause ∨ cause = .present ∧ cause' = .notFolder ∧
      ∃ content, t.get? (g ++ [last]) = some (.file content) := by
  rw [makeFolder_of_opensFrom hcheck hlast hg] at hmake
  by_cases hdots : (decide (last = ".") || decide (last = "..")) = true
  · -- Such a name always leads on.
    have hdots : last = "." ∨ last = ".." := by simpa using hdots
    rcases hdots with rfl | rfl <;> cases hwalk
  rw [if_neg hdots] at hmake
  have hname := fileName_of_getLast? hlast hdots
  rw [straight_name hname.toNamesEntry, if_neg (by simp)] at hwalk
  cases hlength : checkName last with
  | error tooLong =>
      rw [hlength] at hwalk hmake
      cases hwalk
      cases hmake
      exact .inl rfl
  | ok =>
      rw [hlength] at hwalk hmake
      have hon : t.stepOn .find (g ++ [last]) [""] = .error cause' := hwalk
      unfold stepOn at hon
      cases hentry : t.get? (g ++ [last]) with
      | none =>
          rw [hentry] at hmake
          cases hmake
      | some e =>
          rw [hentry] at hmake hon
          cases e with
          | folder => cases hon
          | link target => exact absurd hentry (ht _ _)
          | file content =>
              cases hmake
              cases hon
              exact .inr ⟨rfl, rfl, content, rfl⟩

/-- A file stands where the folder should. -/
def Blocked (t : Tree) (path : String) : Prop :=
  ∃ g last content, (Path.names path).getLast? = some last ∧
    t.OpensFrom (start t.workingFolder path) (Path.names path).dropLast g ∧
    t.get? (g ++ [last]) = some (.file content)

theorem Blocked.not_missing (hcheck : checkPath path = .ok ()) (h : t.Blocked path) :
    t.makeFolder path ≠ .error .missing := by
  obtain ⟨g, last, content, hlast, hg, hfile⟩ := h
  rw [makeFolder_of_opensFrom hcheck hlast hg, hfile]
  intro hmissing
  split at hmissing
  · cases hmissing
  · rcases Traversal.bind_eq_error_iff.mp hmissing with hlength | ⟨_, _, hpresent⟩
    · unfold checkName at hlength
      split at hlength <;> cases hlength
    · cases hpresent

/-- A path that is refused is not followed any further either. -/
theorem NoLinks.refused (ht : t.NoLinks) (hroot : t.FolderAt t.workingFolder)
    (hcheck : checkPath path = .ok ()) (hmake : t.makeFolder path = .error cause)
    (hnot : t.isFolder path = false) :
    ∃ cause', t.straight .find (start t.workingFolder path) (Path.names path ++ [""]) =
        .error cause' ∧
      (cause' = cause ∨ cause = .present ∧ cause' = .notFolder ∧ t.Blocked path) := by
  rcases ht.opensFrom_or_error (start t.workingFolder path) (Path.names path) with
    ⟨g, hg⟩ | ⟨cause', herror⟩
  · rw [(ht.isFolder_iff hroot).mpr ⟨hcheck, g, hg⟩] at hnot
    cases hnot
  refine ⟨cause', herror, ?_⟩
  cases hlast : (Path.names path).getLast? with
  | none =>
      rw [List.getLast?_eq_none_iff.mp hlast] at herror
      cases herror
  | some last =>
      rw [names_eq_dropLast_concat hlast, List.append_assoc] at herror
      rcases ht.opensFrom_or_error (start t.workingFolder path) (Path.names path).dropLast with
        ⟨parent, hparent⟩ | ⟨above, habove⟩
      · rw [hparent.straight_find] at herror
        refine (ht.refused_in hcheck hlast hparent hmake herror).imp_right ?_
        rintro ⟨hpresent, hnotFolder, content, hfile⟩
        exact ⟨hpresent, hnotFolder, parent, last, content, hlast, hparent, hfile⟩
      · -- The walk ends before the last name, and so does the attempt.
        rw [straight_append_eq_error habove (by simp)] at herror
        rw [makeFolder_of_error hcheck hlast habove] at hmake
        exact .inl ((Except.error.inj herror).symm.trans (Except.error.inj hmake))

/-- A path is refused behind a folder that no walk leads to. -/
theorem NoLinks.refused_behind (ht : t.NoLinks) (hpasses : Path.PassesThrough path folder)
    (hcheck : checkPath path = .ok ())
    (herror : t.straight .find (start t.workingFolder folder) (Path.names folder ++ [""]) =
      .error cause) : t.makeFolder path = .error cause ∧ t.isFolder path = false := by
  have hbehind : t.straight .find (start t.workingFolder path)
      ((Path.names path).dropLast ++ [""]) = .error cause := by
    obtain ⟨behind, hnames⟩ := hpasses.names
    have hstart : start t.workingFolder path = start t.workingFolder folder := by
      rw [start, start, hpasses.isAbsolute]
    rw [hstart, ← ht.straight_moving, ← hnames, List.append_assoc]
    exact straight_append_eq_error ((ht.straight_moving _ _).trans herror) (by simp)
  cases hlast : (Path.names path).getLast? with
  | none =>
      rw [List.getLast?_eq_none_iff.mp hlast] at hbehind
      cases hbehind
  | some last =>
      refine ⟨makeFolder_of_error hcheck hlast hbehind, Bool.eq_false_iff.mpr fun hfolder => ?_⟩
      obtain ⟨g, hg⟩ := ht.opens_of_isFolder hfolder
      rw [Opens, OpensFrom, names_eq_dropLast_concat hlast, List.append_assoc,
        straight_append_eq_error hbehind (by simp)] at hg
      cases hg

/-- A path that only leads nowhere yet can be followed. -/
theorem checkPath_of_missing (hne : path ≠ "") (h : t.makeFolder path = .error .missing) :
    checkPath path = .ok () := by
  unfold makeFolder add site? at h
  cases hcheck : checkPath path with
  | ok => rfl
  | error cause =>
      rw [hcheck] at h
      cases h
      unfold checkPath at hcheck
      split at hcheck
      · cases hcheck
      · split at hcheck
        · next hempty => exact absurd (String.isEmpty_iff.mp hempty) hne
        · split at hcheck <;> cases hcheck

/-! ## A chain of folders -/

theorem settle_eq_error_iff : t.settle path = (.error cause, s) ↔
    t.makeFolder path = .error cause ∧ t.isFolder path = false ∧ s = t := by
  unfold settle
  cases t.makeFolder path with
  | ok made => simp
  | error cause' => cases t.isFolder path <;> simp [eq_comm]

theorem isFolder_of_follows (h : t.isFolder path = true) (hu : t.Follows u) :
    u.isFolder path = true := by
  obtain ⟨g, hg, hfolder⟩ := isFolder_eq_true_iff.mp h
  exact isFolder_eq_true_iff.mpr ⟨g, hu.locate hg, hu.folder g hfolder⟩

theorem settle_of_isFolder (ht : t.NoLinks) (h : t.isFolder path = true) :
    t.settle path = (.ok (), t) := by
  rw [settle, ht.makeFolder_of_isFolder h, h]
  rfl

/-- A chain that has been made need not be made again while its folders stay. -/
theorem makeChain_again (ht : t.NoLinks) (h : t.makeChain paths = (.ok (), s))
    (hu : s.Follows u) : u.makeChain paths = (.ok (), u) := by
  cases paths with
  | nil => rfl
  | cons path rest =>
      obtain ⟨hmade, hfolder⟩ := makesFolders_makeChain h
      have hno := (ht.follows hmade.adds.grows.toFollows).follows hu
      have hisFolder := isFolder_of_follows (hfolder rfl ht path rfl) hu
      rw [makeChain_cons, hno.makeFolder_of_isFolder hisFolder]
      exact settle_of_isFolder hno hisFolder

/-- Where the attempt to make a chain has come to an end: at the folder `folder`, with those
behind it made if they were not there. -/
structure StopsAt (t : Tree) (paths before : List String) (folder : String) (behind : List String)
    (cause : AccessCause) (s : Tree) : Prop where
  chain : paths = before ++ folder :: behind
  missing : ∀ path ∈ before, t.makeFolder path = .error .missing
  refused : s.makeFolder folder = .error cause
  noFolder : s.isFolder folder = false
  made : s = t ∨ t.makeFolder folder = .error .missing ∧ t.makeChain behind = (.ok (), s)

theorem makeChain_stopsAt (h : t.makeChain paths = (.error cause, s)) :
    ∃ before folder behind, StopsAt t paths before folder behind cause s := by
  induction paths generalizing s with
  | nil => cases h
  | cons path rest ih =>
      rw [makeChain_cons] at h
      split at h
      · next hmissing =>
          split at h
          · next s' hrest =>
              obtain ⟨hrefused, hnot, rfl⟩ := settle_eq_error_iff.mp h
              exact ⟨[], path, rest, rfl, List.forall_mem_nil _, hrefused, hnot,
                .inr ⟨hmissing, hrest⟩⟩
          · next cause' s' hrest =>
              cases h
              obtain ⟨before, folder, behind, hstops⟩ := ih hrest
              exact ⟨path :: before, folder, behind, congrArg (path :: ·) hstops.chain,
                List.forall_mem_cons.mpr ⟨hmissing, hstops.missing⟩, hstops.refused,
                hstops.noFolder, hstops.made⟩
      · obtain ⟨hrefused, hnot, rfl⟩ := settle_eq_error_iff.mp h
        exact ⟨[], path, rest, rfl, List.forall_mem_nil _, hrefused, hnot, .inl rfl⟩

/-- The chain is refused from any path in front on that is only missing. -/
theorem makeChain_of_missing {rest : List String}
    (hmissing : ∀ path ∈ before, t.makeFolder path = .error .missing)
    (h : t.makeChain rest = (.error cause, s)) :
    t.makeChain (before ++ rest) = (.error cause, s) := by
  induction before with
  | nil => exact h
  | cons path before ih =>
      obtain ⟨hpath, hbefore⟩ := List.forall_mem_cons.mp hmissing
      rw [List.cons_append, makeChain_cons, hpath, ih hbefore]

/-- The folder is refused again when those behind it are there. -/
theorem makeChain_of_refused {behind : List String} (hbehind : t.makeChain behind = (.ok (), t))
    (hrefused : t.makeFolder folder = .error cause) (hnot : t.isFolder folder = false) :
    t.makeChain (folder :: behind) = (.error cause, t) := by
  have hsettle : t.settle folder = (.error cause, t) :=
    settle_eq_error_iff.mpr ⟨hrefused, hnot, rfl⟩
  rw [makeChain_cons, hrefused]
  cases cause with
  | missing =>
      rw [hbehind]
      exact hsettle
  | _ => exact hsettle

/-- Paths in front that are all refused for one cause end the attempt themselves, or they let it
come to the chain behind. -/
theorem makeChain_append_refused {rest : List String}
    (hbefore : ∀ path ∈ before, t.makeFolder path = .error cause' ∧ t.isFolder path = false)
    (hrest : t.makeChain rest = (.error cause, t)) :
    ∃ last, t.makeChain (before ++ rest) = (.error last, t) ∧ (last = cause ∨ last = cause') := by
  cases before with
  | nil => exact ⟨cause, hrest, .inl rfl⟩
  | cons path before =>
      by_cases hcause : cause' = .missing
      · subst hcause
        have hmissing := fun path hpath => (hbefore path hpath).1
        exact ⟨cause, makeChain_of_missing hmissing hrest, .inl rfl⟩
      · obtain ⟨hrefused, hnot⟩ := hbefore path List.mem_cons_self
        have hsettle : t.settle path = (.error cause', t) :=
          settle_eq_error_iff.mpr ⟨hrefused, hnot, rfl⟩
        refine ⟨cause', ?_, .inr rfl⟩
        rw [List.cons_append, makeChain_cons, hrefused]
        cases cause' with
        | missing => exact absurd rfl hcause
        | _ => exact hsettle

/-- The attempt goes on behind a path only if the path is no more than missing. -/
theorem StopsAt.checkPath {behind : List String}
    (h : StopsAt t paths before folder behind cause s) (hne : "" ∉ paths)
    (hmissing : t.makeFolder folder = .error .missing) :
    ∀ path ∈ before ++ [folder], checkPath path = .ok () := by
  intro path hpath
  have hmem : path ∈ paths := by
    rw [h.chain, List.append_cons]
    exact List.mem_append_left behind hpath
  refine checkPath_of_missing (t := t) (fun hempty => hne (hempty ▸ hmem)) ?_
  rcases List.mem_append.mp hpath with hpath | hpath
  · exact h.missing path hpath
  · rw [List.mem_singleton.mp hpath]
    exact hmissing

/-- A file has come into the way of one of the folders, which was only missing before. -/
def ComesIntoWay (t s : Tree) (paths : List String) : Prop :=
  ∃ folder ∈ paths, t.makeFolder folder = .error .missing ∧ checkPath folder = .ok () ∧
    s.Blocked folder

theorem ComesIntoWay.ne (h : t.ComesIntoWay s paths) : s ≠ t := by
  rintro rfl
  obtain ⟨folder, _, hmissing, hcheck, hblocked⟩ := h
  exact hblocked.not_missing hcheck hmissing

/-- **A chain that is refused is refused again**, and nothing more is made. -/
theorem makeChain_refused_again (ht : t.NoLinks) (hroot : t.FolderAt t.workingFolder)
    (hchain : paths.Pairwise Path.PassesThrough) (hne : "" ∉ paths)
    (h : t.makeChain paths = (.error cause, s)) :
    ∃ cause', s.makeChain paths = (.error cause', s) ∧
      (cause' = cause ∨ cause = .present ∧ cause' = .notFolder ∧ t.ComesIntoWay s paths) := by
  obtain ⟨before, folder, behind, hstops⟩ := makeChain_stopsAt h
  -- If nothing has been made, the second attempt is the first one.
  rcases hstops.made with rfl | ⟨hmissing, hbehind⟩
  · exact ⟨cause, h, .inl rfl⟩
  have hfollows := (makesFolders_makeChain h).1.adds.grows.toFollows
  have hs := ht.follows hfollows
  have hchecks := hstops.checkPath hne hmissing
  have hfolder := hchecks folder (by simp)
  obtain ⟨cause', herror, hcauses⟩ :=
    hs.refused (hfollows.root hroot) hfolder hstops.refused hstops.noFolder
  have hbefore : ∀ path ∈ before, s.makeFolder path = .error cause' ∧ s.isFolder path = false := by
    intro path hpath
    refine hs.refused_behind ?_ (hchecks path (by simp [hpath])) herror
    rw [hstops.chain] at hchain
    exact (List.pairwise_append.mp hchain).2.2 path hpath folder List.mem_cons_self
  have hagain := makeChain_of_refused (makeChain_again ht hbehind (.refl s)) hstops.refused
    hstops.noFolder
  obtain ⟨last, hlast, hlasts⟩ := makeChain_append_refused hbefore hagain
  rw [hstops.chain]
  refine ⟨last, hlast, ?_⟩
  rcases hlasts with rfl | rfl
  · exact .inl rfl
  · exact hcauses.imp_right fun ⟨hpresent, hnotFolder, hblocked⟩ =>
      ⟨hpresent, hnotFolder, folder, by simp, hmissing, hfolder, hblocked⟩

/-! ## A folder and those above it -/

/-- Every entry stands in a folder. -/
def Closed (t : Tree) : Prop := ∀ l name, (t.get? (l ++ [name])).isSome → t.FolderAt l

theorem closed_of_entries (h : ∀ e ∈ t.entries, ∀ k ∈ e.1.dropLast.inits,
    (t.get? k).any Entry.isFolder = true) : t.Closed := by
  intro l name hl k hk
  obtain ⟨e, he⟩ := Option.isSome_iff_exists.mp hl
  have hmem := mem_of_get?_eq_some (by simp) he
  refine Entry.any_isFolder_iff.mp (h _ hmem k ?_)
  rw [List.dropLast_concat]
  exact (List.mem_inits _ _).mpr hk

theorem OpensFrom.isPrefix (hup : ".." ∉ xs) (h : t.OpensFrom l xs g) : l <+: g := by
  induction xs generalizing l with
  | nil =>
      cases h
      exact List.prefix_rfl
  | cons name xs ih =>
      rw [List.mem_cons, not_or] at hup
      rcases name_cases name with rfl | rfl | rfl | hname
      · exact ih hup.2 h
      · exact ih hup.2 h
      · exact absurd rfl hup.1
      obtain ⟨_, _, hon⟩ := (straight_name_eq_ok_iff hname).mp h
      rcases stepOn_eq_ok_iff.mp hon with ⟨_, hrest⟩ | ⟨_, _, hstop⟩ | ⟨_, _, hnil, _⟩
      · exact (List.prefix_append l [name]).trans (ih hup.2 hrest)
      · cases hstop
      · exact absurd hnil (by simp)

/-- A way that does not go up leads through the folders above its end. -/
theorem OpensFrom.of_folderAt (hup : ".." ∉ xs) (h : s.OpensFrom l xs g) (hg : t.FolderAt g) :
    t.OpensFrom l xs g := by
  induction xs generalizing l with
  | nil => exact h
  | cons name xs ih =>
      rw [List.mem_cons, not_or] at hup
      rcases name_cases name with rfl | rfl | rfl | hname
      · exact ih hup.2 h
      · exact ih hup.2 h
      · exact absurd rfl hup.1
      obtain ⟨_, hcheck, hon⟩ := (straight_name_eq_ok_iff hname).mp h
      rcases stepOn_eq_ok_iff.mp hon with ⟨_, hrest⟩ | ⟨_, _, hstop⟩ | ⟨_, _, hnil, _⟩
      · have hfolder : t.get? (l ++ [name]) = some .folder := hg _ (OpensFrom.isPrefix hup.2 hrest)
        exact (straight_name_eq_ok_iff hname).mpr
          ⟨nofun, hcheck, stepOn_eq_ok_iff.mpr (.inl ⟨hfolder, ih hup.2 hrest⟩)⟩
      · cases hstop
      · exact absurd hnil (by simp)

/-- A file has been in the way of a folder from the beginning if the way does not go up. -/
theorem up_of_comesIntoWay (hclosed : t.Closed) (hadds : t.AddsFolders s)
    (h : t.ComesIntoWay s (Path.chain path)) : ".." ∈ Path.names path := by
  obtain ⟨folder, hmem, hmissing, hcheck, g, last, content, hlast, hopens, hfile⟩ := h
  by_contra hup
  have hup' : ".." ∉ (Path.names folder).dropLast := fun hmem' =>
    hup (Path.up_mem_names_of_mem_chain hmem (List.dropLast_subset _ hmem'))
  have hbefore := hadds.file_iff.mp hfile
  have hentry : (t.get? (g ++ [last])).isSome := by
    rw [hbefore]
    rfl
  rw [hadds.workingFolder] at hopens
  have hblocked : t.Blocked folder :=
    ⟨g, last, content, hlast, hopens.of_folderAt hup' (hclosed g last hentry), hbefore⟩
  exact hblocked.not_missing hcheck hmissing

/-- **A folder that has been made need not be made again** while folders stay. -/
theorem makeFolders_again (ht : t.NoLinks) (h : t.makeFolders path = (.ok (), s))
    (hu : s.Follows u) : u.makeFolders path = (.ok (), u) := makeChain_again ht h hu

/-- **A folder that is refused is refused again, and nothing more is made.** The cause is the same
as before, unless a file has come into the way. -/
theorem makeFolders_refused_again (ht : t.NoLinks) (hroot : t.FolderAt t.workingFolder)
    (h : t.makeFolders path = (.error cause, s)) :
    ∃ cause', s.makeFolders path = (.error cause', s) ∧
      (cause' = cause ∨ cause = .present ∧ cause' = .notFolder ∧ s ≠ t ∧
        (t.Closed → ".." ∈ Path.names path)) := by
  obtain ⟨cause', hagain, hcauses⟩ := makeChain_refused_again ht hroot
    (Path.chain_passesThrough path) (Path.empty_not_mem_chain path) h
  refine ⟨cause', hagain, hcauses.imp_right fun ⟨hpresent, hnotFolder, hway⟩ => ?_⟩
  have hadds := (makesFolders_makeChain h).1.adds
  exact ⟨hpresent, hnotFolder, hway.ne, fun hclosed => up_of_comesIntoWay hclosed hadds hway⟩

end IdlGlue.Disk.Tree
