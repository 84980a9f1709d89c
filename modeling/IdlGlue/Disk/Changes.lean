/-
# IdlGlue.Disk.Changes -- what a run has left on a disk

The folders that are new, and the files that are new or hold something else than
before. What stands outside the working folder is not told, and neither are links.
-/
import IdlGlue.Disk.Tree

namespace IdlGlue.Disk

/-- What a new or changed path holds. -/
inductive Content where
  | folder
  | text (text : String)
  /-- A file that holds no text. -/
  | binary
deriving DecidableEq, Repr

/-- A path that is new or holds something else than before. -/
structure Change where
  path : String
  content : Content
deriving DecidableEq, Repr

/-- The names that lead to a location from another one on; none, if they do not. -/
def namesBelow : Location → Location → List String
  | [], l => l
  | _ :: _, [] => []
  | a :: as, b :: bs => if a = b then namesBelow as bs else []

/-- What an entry holds, if it is one that changes tell of. -/
def Entry.content? : Entry → Option Content
  | .folder => some .folder
  | .file bytes => some (match String.fromUTF8? bytes with
    | some text => .text text
    | none => .binary)
  | .link _ => none

/-- Two entries are of one kind and hold the same. -/
def Entry.same : Entry → Entry → Bool
  | .folder, .folder => true
  | .file a, .file b => a.data = b.data
  | .link a, .link b => a = b
  | _, _ => false

/-- The changes from one tree to a later one. -/
def Tree.changes (before after : Tree) : List Change :=
  after.entries.filterMap fun (l, e) =>
    match namesBelow after.workingFolder l with
    | [] => none
    | names =>
      if (before.get? l).any e.same then none
      else e.content?.map fun content => { path := "/".intercalate names, content }

end IdlGlue.Disk
