/-
# IdlGlue.Disk.Access -- what a program may do on a disk

`FileAccess m` says that actions of `m` can look at files and change them. A run over
a directory is written for any such `m`; a disk that is a value (`Tree`) is one, and
theorems speak about it.
-/
import IdlGlue.Disk.Tree

namespace IdlGlue.Disk

/-- Access to files by their paths. An action that is refused gives its cause and
changes nothing. -/
class FileAccess (m : Type → Type) where
  /-- Make one folder, in a folder that is there. -/
  makeFolder : String → m (Except AccessCause Unit)
  /-- The path leads to a folder. -/
  isFolder : String → m Bool
  /-- The names in a folder, in any order. -/
  names : String → m (Except AccessCause (List String))
  /-- The path leads to a file, rather than to something else. -/
  isRegular : String → m (Except AccessCause Bool)
  /-- The text of a file. -/
  readText : String → m (Except AccessCause String)
  /-- Make the file if it is not there, and let it hold the text and nothing else. -/
  writeText : String → String → m (Except AccessCause Unit)
  /-- Add the text to what the file holds. -/
  appendText : String → String → m (Except AccessCause Unit)

namespace FileAccess

variable {m : Type → Type} [Monad m] [FileAccess m]

/-- Make the first folder of a chain, each of which stands in the next. Where the next
is not there it is made first. A folder that is there already need not be made. -/
def makeChain : List String → m (Except AccessCause Unit)
  | [] => return .ok ()
  | path :: rest => do
    let settle : Except AccessCause Unit → m (Except AccessCause Unit)
      | .ok () => return .ok ()
      | .error cause => do if ← isFolder path then return .ok () else return .error cause
    match ← makeFolder path with
    | .error .missing =>
      match ← makeChain rest with
      | .ok () => settle (← makeFolder path)
      | .error cause => return .error cause
    | made => settle made

/-- Make a folder and the folders above it, as far as they are not there. -/
def makeFolders (path : String) : m (Except AccessCause Unit) := makeChain (Path.chain path)

end FileAccess

/-! ## Access to a tree -/

/-- A change to the tree, unless it is refused. -/
def Tree.change (f : Tree → Except AccessCause Tree) : StateM Tree (Except AccessCause Unit) :=
  fun t =>
    match f t with
    | .ok t' => (.ok (), t')
    | .error cause => (.error cause, t)

instance : FileAccess (StateM Tree) where
  makeFolder path := Tree.change (·.makeFolder path)
  isFolder path := return (← get).isFolder path
  names path := return (← get).names path
  isRegular path := return (← get).isRegular path
  readText path := return (← get).readText path
  writeText path text := Tree.change (·.write path text.toUTF8)
  appendText path text := Tree.change (·.append path text.toUTF8)

end IdlGlue.Disk
