/-
# IdlGlue.Proofs.Paths -- paths that are put together from a folder and a file name

| path                     | its names                      | begins              |
|--------------------------|--------------------------------|---------------------|
| `join base name`         | those of `base`, then `name`   | where `base` begins |
| `withExtension name ext` | one name, without a slash      |                     |

Both hold of file names, that is of names that a folder can list: not empty, without a slash,
and neither `.` nor `..`. Names of one extension are given another without loss: two of them
become the same name only if they were the same before, or if they are no file names any more.
-/
import IdlGlue.Disk.Path
import IdlGlue.Proofs.Words
import Mathlib.Data.List.Basic

namespace IdlGlue.Disk

open IdlGlue.Scan

/-! ## File names -/

/-- The name does not hold a slash. -/
def NoSlash (name : String) : Prop := '/' ∉ name.toList

instance (name : String) : Decidable (NoSlash name) :=
  inferInstanceAs (Decidable ('/' ∉ name.toList))

theorem noSlash_append {s t : String} : NoSlash (s ++ t) ↔ NoSlash s ∧ NoSlash t := by
  simp only [NoSlash, String.toList_append, List.mem_append, not_or]

/-- The name stands for an entry, and not for the folder it is in or the one above. -/
structure NamesEntry (name : String) : Prop where
  ne_empty : name ≠ ""
  ne_dot : name ≠ "."
  ne_up : name ≠ ".."

instance (name : String) : Decidable (NamesEntry name) :=
  decidable_of_iff (name ≠ "" ∧ name ≠ "." ∧ name ≠ "..")
    ⟨fun ⟨h1, h2, h3⟩ => ⟨h1, h2, h3⟩, fun ⟨h1, h2, h3⟩ => ⟨h1, h2, h3⟩⟩

/-- A name that a folder can list. -/
structure FileName (name : String) : Prop extends NamesEntry name where
  noSlash : NoSlash name

instance (name : String) : Decidable (FileName name) :=
  decidable_of_iff (NamesEntry name ∧ NoSlash name) ⟨fun ⟨h, h'⟩ => ⟨h, h'⟩, fun ⟨h, h'⟩ => ⟨h, h'⟩⟩

/-- A name stands for the folder it is in, for the one above, or for an entry. -/
theorem name_cases (name : String) : name = "" ∨ name = "." ∨ name = ".." ∨ NamesEntry name := by
  by_cases h1 : name = ""
  · exact .inl h1
  by_cases h2 : name = "."
  · exact .inr (.inl h2)
  by_cases h3 : name = ".."
  · exact .inr (.inr (.inl h3))
  · exact .inr (.inr (.inr ⟨h1, h2, h3⟩))

namespace Path

/-! ## Names of a path -/

theorem pieces_of_noSlash {name : String} (h : NoSlash name) :
    Text.pieces (· == '/') name.toList = [name.toList] := by
  refine Text.pieces_of_allIn fun c hc => ?_
  rw [Bool.not_eq_true', beq_eq_false_iff_ne]
  rintro rfl
  exact h hc

theorem names_eq (path : String) : names path =
    ((Text.pieces (· == '/') path.toList).filter (fun name => !name.isEmpty)).map String.ofList :=
  rfl

theorem empty_not_mem_names (path : String) : "" ∉ names path := by
  intro h
  obtain ⟨cs, hcs, hempty⟩ := List.mem_map.mp h
  have hne := (List.mem_filter.mp hcs).2
  rw [← String.toList_inj, String.toList_ofList] at hempty
  rw [hempty] at hne
  cases hne

theorem empty_not_mem_concat (path : String) {name : String} (hne : name ≠ "") :
    "" ∉ names path ++ [name] := by
  intro h
  rcases List.mem_append.mp h with h | h
  · exact empty_not_mem_names path h
  · exact hne (List.mem_singleton.mp h).symm

theorem noSlash_of_mem_names {path name : String} (h : name ∈ names path) : NoSlash name := by
  obtain ⟨cs, hcs, rfl⟩ := List.mem_map.mp h
  rw [NoSlash, String.toList_ofList]
  intro hslash
  exact absurd (Text.not_mem_of_mem_pieces (List.mem_filter.mp hcs).1 _ hslash) (by decide)

/-- A slash splits the names of a path. -/
theorem names_slash {path base rest : String}
    (h : path.toList = base.toList ++ '/' :: rest.toList) :
    names path = names base ++ names rest := by
  rw [names_eq, h, Text.pieces_append rfl, List.filter_append, List.map_append]
  rfl

theorem names_of_noSlash {name : String} (hne : name ≠ "") (h : NoSlash name) :
    names name = [name] := by
  have hlist : name.toList ≠ [] := by
    rw [Ne, ← String.toList_empty, String.toList_inj]
    exact hne
  rw [names_eq, pieces_of_noSlash h, List.filter_cons_of_pos (by simp [hlist]), List.filter_nil,
    List.map_singleton, String.ofList_toList]

theorem endsInSlash_of_noSlash {path base name : String} (hne : name ≠ "") (h : NoSlash name)
    (hpath : path = base ++ name) : endsInSlash path = false := by
  have hlist : name.toList ≠ [] := by
    rw [Ne, ← String.toList_empty, String.toList_inj]
    exact hne
  rw [endsInSlash, hpath, String.toList_append, List.getLast?_append_of_ne_nil _ hlist,
    beq_eq_false_iff_ne]
  exact fun hlast => h (List.mem_of_getLast? hlast)

/-! ## Joined paths -/

theorem isAbsolute_of_noSlash {name : String} (h : NoSlash name) : isAbsolute name = false := by
  rw [isAbsolute, beq_eq_false_iff_ne]
  exact fun hhead => h (List.mem_of_mem_head? hhead)

theorem steps_join {base name : String} (hne : name ≠ "") (h : NoSlash name) :
    steps (join base name) = names base ++ [name] := by
  unfold join
  split
  · next hbase =>
      rw [isAbsolute_of_noSlash h, Bool.or_false, String.isEmpty_iff] at hbase
      subst hbase
      rw [steps, endsInSlash_of_noSlash hne h (String.empty_append).symm, if_neg (by simp),
        names_of_noSlash hne h]
      rfl
  · split
    · next hslash =>
        obtain ⟨cs, hcs⟩ := List.getLast?_eq_some_iff.mp (beq_iff_eq.mp hslash)
        have hbase : names base = names (String.ofList cs) ++ names "" :=
          names_slash (by rw [String.toList_ofList, hcs]; rfl)
        have hpath : names (base ++ name) = names (String.ofList cs) ++ names name := by
          refine names_slash ?_
          rw [String.toList_append, String.toList_ofList, hcs, List.append_assoc]
          rfl
        have hempty : names "" = [] := rfl
        rw [steps, endsInSlash_of_noSlash hne h rfl, if_neg (by simp), hpath, hbase, hempty,
          List.append_nil, names_of_noSlash hne h]
    · have hpath : names (base ++ "/" ++ name) = names base ++ names name := by
        refine names_slash ?_
        rw [String.toList_append, String.toList_append, List.append_assoc]
        rfl
      rw [steps, endsInSlash_of_noSlash hne h rfl, if_neg (by simp), hpath, names_of_noSlash hne h]

/-- In one folder different names have different paths. -/
theorem join_injective {base name name' : String} (hne : name ≠ "") (h : NoSlash name)
    (hne' : name' ≠ "") (h' : NoSlash name') (heq : join base name = join base name') :
    name = name' := by
  have hsteps : names base ++ [name] = names base ++ [name'] := by
    rw [← steps_join hne h, heq, steps_join hne' h']
  exact List.singleton_inj.mp (List.append_cancel_left hsteps)

theorem join_ne_empty {base name : String} (hne : name ≠ "") (h : NoSlash name) :
    join base name ≠ "" := by
  intro hempty
  have hsteps : steps "" = names base ++ [name] := by rw [← steps_join hne h, hempty]
  have hnone : steps "" = [] := rfl
  simp [hnone] at hsteps

theorem isAbsolute_join {base name : String} (h : NoSlash name) :
    isAbsolute (join base name) = isAbsolute base := by
  unfold join
  split
  · next hbase =>
      rw [isAbsolute_of_noSlash h, Bool.or_false, String.isEmpty_iff] at hbase
      subst hbase
      rw [isAbsolute_of_noSlash h]
      rfl
  · next hbase =>
      rw [isAbsolute_of_noSlash h, Bool.or_false, String.isEmpty_iff] at hbase
      have hlist : base.toList ≠ [] := by
        rw [Ne, ← String.toList_empty, String.toList_inj]
        exact hbase
      split
      · rw [isAbsolute, isAbsolute, String.toList_append, List.head?_append_of_ne_nil _ hlist]
      · rw [isAbsolute, isAbsolute, String.toList_append, String.toList_append, List.append_assoc,
          List.head?_append_of_ne_nil _ hlist]

/-! ## Extensions -/

theorem splitAtDot?_eq_some {cs before behind : List Char}
    (h : splitAtDot? cs = some (before, behind)) : cs = before ++ '.' :: behind := by
  induction cs generalizing before behind with
  | nil => cases h
  | cons c cs ih =>
      unfold splitAtDot? at h
      split at h
      · next hcs =>
          cases h
          rw [ih hcs, List.cons_append]
      · split at h
        · next hdot =>
            cases h
            rw [hdot]
            rfl
        · cases h

theorem splitAtDot?_eq_none {cs : List Char} (h : splitAtDot? cs = none) : '.' ∉ cs := by
  induction cs with
  | nil => exact List.not_mem_nil
  | cons c cs ih =>
      unfold splitAtDot? at h
      split at h
      · cases h
      · next hcs =>
          split at h
          · cases h
          · next hdot =>
              rw [List.mem_cons, not_or]
              exact ⟨fun heq => hdot heq.symm, ih hcs⟩

/-- It is the last dot. -/
theorem dot_not_mem_of_splitAtDot? {cs before behind : List Char}
    (h : splitAtDot? cs = some (before, behind)) : '.' ∉ behind := by
  induction cs generalizing before behind with
  | nil => cases h
  | cons c cs ih =>
      unfold splitAtDot? at h
      split at h
      · next hcs =>
          cases h
          exact ih hcs
      · next hcs =>
          split at h
          · cases h
            exact splitAtDot?_eq_none hcs
          · cases h

theorem splitAtDot?_of_not_mem {cs : List Char} (h : '.' ∉ cs) : splitAtDot? cs = none := by
  cases hsplit : splitAtDot? cs with
  | none => rfl
  | some parts =>
      rw [splitAtDot?_eq_some hsplit] at h
      simp at h

theorem splitAtDot?_append {behind : List Char} (h : '.' ∉ behind) (before : List Char) :
    splitAtDot? (before ++ '.' :: behind) = some (before, behind) := by
  induction before with
  | nil =>
      rw [List.nil_append, splitAtDot?, splitAtDot?_of_not_mem h]
      rfl
  | cons c before ih => rw [List.cons_append, splitAtDot?, ih]

/-- **A name has an extension just if something stands before its last dot.** -/
theorem splitExtension_eq_iff {name stem extension : String} :
    splitExtension name = (stem, some extension) ↔
      stem ≠ "" ∧ name = stem ++ "." ++ extension ∧ '.' ∉ extension.toList := by
  constructor
  · intro h
    unfold splitExtension at h
    split at h
    · cases h
    · cases h
    · next c before behind hsplit =>
        cases h
        refine ⟨by simp, ?_, ?_⟩
        · rw [← String.toList_inj, splitAtDot?_eq_some hsplit]
          simp
        · rw [String.toList_ofList]
          exact dot_not_mem_of_splitAtDot? hsplit
  · rintro ⟨hne, rfl, hdot⟩
    have hchars : (stem ++ "." ++ extension).toList = stem.toList ++ '.' :: extension.toList := by
      simp
    obtain ⟨c, before, hstem⟩ := List.exists_cons_of_ne_nil
      (fun hnil => hne (String.toList_eq_nil_iff.mp hnil))
    have hsplit := splitAtDot?_append hdot stem.toList
    rw [← hchars, hstem] at hsplit
    rw [splitExtension, hsplit]
    show (String.ofList (c :: before), some (String.ofList extension.toList)) =
      (stem, some extension)
    rw [← hstem, String.ofList_toList, String.ofList_toList]

/-- What a name with an extension becomes when it gets another one. -/
theorem withExtension_cases {name : String} (extension : String)
    (hname : (extension? name).isSome) :
    (withExtension name extension = "..") ∨
      ∃ stem old, splitExtension name = (stem, some old) ∧
        withExtension name extension =
          if extension.isEmpty then stem else stem ++ "." ++ extension := by
  obtain ⟨old, hold⟩ := Option.isSome_iff_exists.mp hname
  have hsplit : splitExtension name = ((splitExtension name).1, some old) := Prod.ext rfl hold
  unfold withExtension
  split
  · exact .inl rfl
  · next stem ext _ hstem =>
      rw [hstem] at hsplit
      exact .inr ⟨stem, old, hstem.trans hsplit, rfl⟩

theorem noSlash_withExtension {name extension : String} (hname : (extension? name).isSome)
    (hslash : NoSlash name) (hext : NoSlash extension) :
    NoSlash (withExtension name extension) := by
  rcases withExtension_cases extension hname with h | ⟨stem, old, hsplit, h⟩
  · rw [h]
    decide
  · have hstem := (splitExtension_eq_iff.mp hsplit).2.1
    rw [hstem, noSlash_append, noSlash_append] at hslash
    rw [h]
    split
    · exact hslash.1.1
    · exact noSlash_append.mpr ⟨noSlash_append.mpr ⟨hslash.1.1, by decide⟩, hext⟩

theorem withExtension_ne_empty {name extension : String} (hname : (extension? name).isSome) :
    withExtension name extension ≠ "" := by
  rcases withExtension_cases extension hname with h | ⟨stem, old, hsplit, h⟩
  · rw [h]
    decide
  · have hstem := (splitExtension_eq_iff.mp hsplit).1
    rw [h]
    split
    · exact hstem
    · simp [hstem]

/-- **Two names of one extension keep apart with another one, unless they are no file names
any more.** -/
theorem withExtension_injective {name name' old extension : String}
    (hname : extension? name = some old) (hname' : extension? name' = some old)
    (hentry : NamesEntry (withExtension name extension))
    (h : withExtension name extension = withExtension name' extension) : name = name' := by
  have hsome : (extension? name).isSome := by rw [hname]; rfl
  have hsome' : (extension? name').isSome := by rw [hname']; rfl
  rcases withExtension_cases extension hsome with hup | ⟨stem, e, hsplit, heq⟩
  · exact absurd hup hentry.ne_up
  rcases withExtension_cases extension hsome' with hup | ⟨stem', e', hsplit', heq'⟩
  · exact absurd (h.trans hup) hentry.ne_up
  have he : some e = some old := by rw [← hname, extension?, hsplit]
  have he' : some e' = some old := by rw [← hname', extension?, hsplit']
  have hstems : stem = stem' := by
    rw [heq, heq'] at h
    split at h
    · exact h
    · simpa using h
  obtain ⟨_, hparts, _⟩ := splitExtension_eq_iff.mp hsplit
  obtain ⟨_, hparts', _⟩ := splitExtension_eq_iff.mp hsplit'
  rw [hparts, hparts', hstems, Option.some.inj he, Option.some.inj he']

end Path

end IdlGlue.Disk
