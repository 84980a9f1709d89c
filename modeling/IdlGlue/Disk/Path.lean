/-
# IdlGlue.Disk.Path -- how files and folders are named

A path is a text with slashes between names. Nothing here looks at a disk: paths are
joined, taken apart, and given another extension by their text alone. A path keeps
the form it was given in, so that a report shows `./src/a.idl` where the folder was
named `./src`.
-/
import IdlGlue.Text.Split

namespace IdlGlue.Disk.Path

/-- The path starts at the root. -/
def isAbsolute (path : String) : Bool := path.toList.head? == some '/'

/-- The path ends in a slash, and so can name a folder only. -/
def endsInSlash (path : String) : Bool := path.toList.getLast? == some '/'

/-- The names between the slashes. -/
def names (path : String) : List String :=
  ((Text.pieces (· == '/') path.toList).filter (fun name => !name.isEmpty)).map String.ofList

/-- The names that lead to what the path stands for. A slash at the end is one more
step, with an empty name: to the folder itself. -/
def steps (path : String) : List String :=
  if endsInSlash path then names path ++ [""] else names path

/-- The path of `name`, which is taken from the folder `base` on. -/
def join (base name : String) : String :=
  if base.isEmpty || isAbsolute name then name
  else if endsInSlash base then base ++ name
  else base ++ "/" ++ name

/-! ## Folders above a path -/

/-- The names of a path that matter for the folders above it: a `.` counts only where
a relative path begins with it. -/
def essentialNames (path : String) : List String :=
  match isAbsolute path, names path with
  | false, "." :: rest => "." :: rest.filter (· != ".")
  | _, all => all.filter (· != ".")

/-- The folders above a path, the nearest first; the folder that a relative path is
taken from is not among them. -/
def above (path : String) : List String :=
  let all := essentialNames path
  let root := if isAbsolute path then "/" else ""
  ((List.range all.length).reverse.map fun n => root ++ "/".intercalate (all.take n)).filter
    (fun folder => !folder.isEmpty)

/-- The path itself, unless it is empty, and the folders above it. -/
def chain (path : String) : List String := if path.isEmpty then [] else path :: above path

/-! ## Extensions -/

/-- What stands before the last dot, and what stands behind it. -/
def splitAtDot? : List Char → Option (List Char × List Char)
  | [] => none
  | c :: cs =>
    match splitAtDot? cs with
    | some (before, behind) => some (c :: before, behind)
    | none => if c = '.' then some ([], cs) else none

/-- A file name without its extension, and the extension. A name whose only dot is its
first character has none. -/
def splitExtension (name : String) : String × Option String :=
  match splitAtDot? name.toList with
  | none | some ([], _) => (name, none)
  | some (c :: before, behind) => (String.ofList (c :: before), some (String.ofList behind))

/-- The extension of a file name: what stands behind its last dot. -/
def extension? (name : String) : Option String := (splitExtension name).2

/-- A file name with `extension` for the extension it has, or added where it has none.
An empty extension takes the dot away with it. One name is no file name any more when
its extension is taken off behind the dot, since `..` is left of `..idl`; it becomes
that. -/
def withExtension (name extension : String) : String :=
  match splitExtension name with
  | (".", some _) => ".."
  | (stem, _) => if extension.isEmpty then stem else stem ++ "." ++ extension

end IdlGlue.Disk.Path
