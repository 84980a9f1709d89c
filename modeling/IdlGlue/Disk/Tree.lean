/-
# IdlGlue.Disk.Tree -- a disk that is a value

A tree holds files, folders and symbolic links under a root folder. A location is the
list of names that lead to an entry from the root on; an entry has one location, and
the order of the entries is the order in which a folder lists its names.

A path is resolved in two parts. `Tree.straight` goes from folder to folder and stops
where it arrives or at the first link; `Tree.walk` follows links, and gives up after
`linkLimit` of them. In a tree without links a walk is one straight part. What a path
is followed for matters at its end only: no file can be made under a name with a slash
behind it, whatever stands there.

Operations refuse with the cause that an operating system would give, and leave
everything else as it is: each of them changes the entry at one location at most
(`get?_put_of_ne`).
-/
import IdlGlue.Disk.Path
import IdlGlue.Fault

namespace IdlGlue.Disk

/-- The names that lead to an entry from the root on. -/
abbrev Location := List String

/-- What stands at a location. -/
inductive Entry where
  | file (content : ByteArray)
  | folder
  /-- A symbolic link, which stands for the path `target` from its folder on. -/
  | link (target : String)

/-- It is a folder. -/
def Entry.isFolder : Entry → Bool
  | .folder => true
  | .file _ | .link _ => false

/-- Files, folders and links under a root folder. -/
structure Tree where
  /-- Where relative paths begin. -/
  workingFolder : Location
  entries : List (Location × Entry)
  distinct : (entries.map Prod.fst).Nodup

namespace Tree

/-- A tree with nothing but an empty working folder. -/
def empty : Tree where
  workingFolder := ["work"]
  entries := [(["work"], .folder)]
  distinct := by simp

/-- What stands at a location. The root is always a folder. -/
def get? (t : Tree) : Location → Option Entry
  | [] => some .folder
  | name :: rest => t.entries.lookup (name :: rest)

/-- The names in the folder at a location, in the order in which they are listed. -/
def children (t : Tree) (l : Location) : List String :=
  t.entries.filterMap fun e => if e.1.dropLast = l then e.1.getLast? else none

/-! ## Changing one entry -/

/-- The entries with another one at `l`: in its place, or at the end. -/
def putEntry (l : Location) (e : Entry) : List (Location × Entry) → List (Location × Entry)
  | [] => [(l, e)]
  | (k, d) :: rest => if k = l then (k, e) :: rest else (k, d) :: putEntry l e rest

theorem mem_keys_putEntry {l k : Location} {e : Entry} {entries : List (Location × Entry)} :
    k ∈ (putEntry l e entries).map Prod.fst ↔ k = l ∨ k ∈ entries.map Prod.fst := by
  induction entries with
  | nil => simp [putEntry]
  | cons d rest ih =>
    by_cases h : d.1 = l
    · simp only [putEntry, h, if_true, List.map_cons, List.mem_cons]
      grind
    · simp only [putEntry, h, if_false, List.map_cons, List.mem_cons, ih]
      grind

theorem nodup_keys_putEntry {entries : List (Location × Entry)} (l : Location) (e : Entry)
    (h : (entries.map Prod.fst).Nodup) : ((putEntry l e entries).map Prod.fst).Nodup := by
  induction entries with
  | nil => simp [putEntry]
  | cons d rest ih =>
    rw [List.map_cons, List.nodup_cons] at h
    by_cases hd : d.1 = l
    · simpa [putEntry, hd] using ⟨by simpa [hd] using h.1, h.2⟩
    · simp only [putEntry, if_neg hd, List.map_cons, List.nodup_cons, mem_keys_putEntry]
      exact ⟨not_or.mpr ⟨hd, h.1⟩, ih h.2⟩

/-- The tree with the entry `e` at `l`. -/
def put (t : Tree) (l : Location) (e : Entry) : Tree where
  workingFolder := t.workingFolder
  entries := putEntry l e t.entries
  distinct := nodup_keys_putEntry l e t.distinct

/-- The tree without an entry at `l`. -/
def erase (t : Tree) (l : Location) : Tree where
  workingFolder := t.workingFolder
  entries := t.entries.filter (fun e => e.1 != l)
  distinct := t.distinct.sublist (List.filter_sublist.map Prod.fst)

theorem lookup_cons_eq (k : Location) (d : Location × Entry) (rest : List (Location × Entry)) :
    (d :: rest).lookup k = if k = d.1 then some d.2 else rest.lookup k := by
  obtain ⟨l, e⟩ := d
  by_cases h : k = l
  · simp [h]
  · simp [List.lookup_cons, h, beq_eq_false_iff_ne.mpr h]

theorem lookup_putEntry (l k : Location) (e : Entry) (entries : List (Location × Entry)) :
    (putEntry l e entries).lookup k = if k = l then some e else entries.lookup k := by
  induction entries with
  | nil => rw [putEntry, lookup_cons_eq]
  | cons d rest ih =>
    unfold putEntry
    split
    · simp_all [lookup_cons_eq]
    · rw [lookup_cons_eq, lookup_cons_eq, ih]
      grind

theorem get?_put_self (t : Tree) {l : Location} (e : Entry) (h : l ≠ []) :
    (t.put l e).get? l = some e := by
  cases l with
  | nil => exact absurd rfl h
  | cons name rest => simp [get?, put, lookup_putEntry]

theorem get?_put_of_ne (t : Tree) {l k : Location} (e : Entry) (h : k ≠ l) :
    (t.put l e).get? k = t.get? k := by
  cases k with
  | nil => rfl
  | cons name rest => simp [get?, put, lookup_putEntry, h]

/-! ## Resolving paths -/

/-- What a path is followed for. -/
inductive Purpose where
  /-- To find what is there. -/
  | find
  /-- To open a file for writing, and to make it where there is none. -/
  | write
deriving DecidableEq, Repr

/-- The most bytes of a name. -/
def nameLimit : Nat := 255

/-- The most bytes of a path that is followed, links not counted. -/
def pathLimit : Nat := 4095

/-- A path can be followed only if it is not empty, not too long, and without the null
character. -/
def checkPath (path : String) : Except AccessCause Unit :=
  if '\x00' ∈ path.toList then .error .nulInName
  else if path.isEmpty then .error .missing
  else if pathLimit < path.utf8ByteSize then .error .nameTooLong
  else .ok ()

/-- A name can be looked up in a folder only if it is not too long. -/
def checkName (name : String) : Except AccessCause Unit :=
  if nameLimit < name.utf8ByteSize then .error .nameTooLong else .ok ()

/-- Where a walk without links stops. -/
inductive Stop where
  /-- All names are used up. At the last of them there need not be an entry. -/
  | arrived (l : Location)
  /-- A link to `target` stands in the folder at `l`, and `rest` is still to be walked. -/
  | diverted (l : Location) (target : String) (rest : List String)

/-- The walk along names from the folder at `l` on, up to the first link. An empty
name is that of the folder itself. -/
def straight (t : Tree) (p : Purpose) (l : Location) : List String → Except AccessCause Stop
  | [] => .ok (.arrived l)
  | name :: rest =>
    if name = "" || name = "." then t.straight p l rest
    else if name = ".." then t.straight p l.dropLast rest
    else if p = .write && rest = [""] then .error .isFolder
    else do
      checkName name
      match t.get? (l ++ [name]) with
      | some .folder => t.straight p (l ++ [name]) rest
      | some (.link target) => .ok (.diverted l target rest)
      | some (.file _) => if rest.isEmpty then .ok (.arrived (l ++ [name])) else .error .notFolder
      | none => if rest.isEmpty then .ok (.arrived (l ++ [name])) else .error .missing

/-- Where the names of a path begin. -/
def start (l : Location) (path : String) : Location := if Path.isAbsolute path then [] else l

/-- The walk along names from the folder at `l` on. It follows up to `links` links,
the last name's too. -/
def walk (t : Tree) (p : Purpose) (links : Nat) (l : Location) (names : List String) :
    Except AccessCause Location :=
  match t.straight p l names with
  | .error cause => .error cause
  | .ok (.arrived goal) => .ok goal
  | .ok (.diverted folder target rest) =>
    match links with
    | 0 => .error .tooManyLinks
    | links + 1 => t.walk p links (start folder target) (Path.steps target ++ rest)

/-- The number of links that are followed on the way to one entry. -/
def linkLimit : Nat := 40

/-- The location that a path leads to. There need not be an entry. -/
def locate (t : Tree) (p : Purpose) (path : String) : Except AccessCause Location := do
  checkPath path
  t.walk p linkLimit (start t.workingFolder path) (Path.steps path)

/-- The location that the last name of a path stands for; its folder exists, and a
link at the location is not followed. There is no location where the last name is a
dot, two dots or the root. -/
def site? (t : Tree) (path : String) : Except AccessCause (Option Location) := do
  checkPath path
  match (Path.names path).getLast? with
  | none => return none
  | some last =>
    let folder ← t.walk .find linkLimit (start t.workingFolder path)
      ((Path.names path).dropLast ++ [""])
    if last = "." || last = ".." then return none
    checkName last
    return some (folder ++ [last])

/-! ## Reading -/

/-- The path leads to a folder. -/
def isFolder (t : Tree) (path : String) : Bool :=
  match t.locate .find path with
  | .ok l => (t.get? l).any Entry.isFolder
  | .error _ => false

/-- The path leads to a file. -/
def isRegular (t : Tree) (path : String) : Except AccessCause Bool := do
  match t.get? (← t.locate .find path) with
  | some (.file _) => return true
  | some .folder | some (.link _) => return false
  | none => throw .missing

/-- The names in a folder. -/
def names (t : Tree) (path : String) : Except AccessCause (List String) := do
  let l ← t.locate .find path
  match t.get? l with
  | some .folder => return t.children l
  | some (.file _) | some (.link _) => throw .notFolder
  | none => throw .missing

/-- The text of a file. -/
def readText (t : Tree) (path : String) : Except AccessCause String := do
  match t.get? (← t.locate .find path) with
  | some (.file content) =>
    match String.fromUTF8? content with
    | some text => return text
    | none => throw .notText
  | some .folder => throw .isFolder
  | some (.link _) | none => throw .missing

/-! ## Writing -/

/-- The location of the file that is opened for writing. -/
def outputSite (t : Tree) (path : String) : Except AccessCause Location := do
  let l ← t.locate .write path
  if (t.get? l).any Entry.isFolder then throw .isFolder
  return l

/-- What the file at a location holds; nothing, where there is none. -/
def contentAt (t : Tree) (l : Location) : ByteArray :=
  match t.get? l with
  | some (.file content) => content
  | _ => .empty

/-- A file with this content and no other. -/
def write (t : Tree) (path : String) (content : ByteArray) : Except AccessCause Tree := do
  return t.put (← t.outputSite path) (.file content)

/-- A file with this content behind what it holds. -/
def append (t : Tree) (path : String) (content : ByteArray) : Except AccessCause Tree := do
  let l ← t.outputSite path
  return t.put l (.file (t.contentAt l ++ content))

/-- A new entry where there is none. -/
def add (t : Tree) (path : String) (e : Entry) : Except AccessCause Tree := do
  match ← t.site? path with
  | none => throw .present
  | some l => if (t.get? l).isSome then throw .present else return t.put l e

/-- A new folder. -/
def makeFolder (t : Tree) (path : String) : Except AccessCause Tree := t.add path .folder

/-- A new link. -/
def makeLink (t : Tree) (path target : String) : Except AccessCause Tree :=
  t.add path (.link target)

/-- The tree without a file or a link. -/
def remove (t : Tree) (path : String) : Except AccessCause Tree := do
  match ← t.site? path with
  | none => throw .isFolder
  | some l =>
    match t.get? l with
    | some .folder => throw .isFolder
    | some _ => return t.erase l
    | none => throw .missing

end Tree

end IdlGlue.Disk
