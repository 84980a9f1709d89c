/-
# IdlGlue.Main -- the program

The disk of the machine gives file access; everything else is decided in
`CommandLine.respond`.
-/
import IdlGlue.CommandLine.Program

namespace IdlGlue.Machine

open IdlGlue.Disk

/-! ## The disk of the machine -/

/-- The cause with an error number of the machine, which some actions give negated. -/
def causeOfNumber? (code : UInt32) : Option AccessCause :=
  match if code < 0x80000000 then code else -code with
  | 2 => some .missing
  | 17 => some .present
  | 20 => some .notFolder
  | 21 => some .isFolder
  | 36 => some .nameTooLong
  | 40 => some .tooManyLinks
  | _ => none

/-- The cause of an error of the machine. -/
def causeOfError (e : IO.Error) : AccessCause :=
  let known? :=
    match e with
    | .noFileOrDirectory _ code _ | .alreadyExists _ code _ | .inappropriateType _ code _
    | .invalidArgument _ code _ => causeOfNumber? code
    | _ => none
  known?.getD (.other (toString e))

/-- An action, with the cause where it is refused. -/
def attempt {α : Type} (act : IO α) : IO (Except AccessCause α) := do
  match ← act.toBaseIO with
  | .ok a => return .ok a
  | .error e => return .error (causeOfError e)

/-- What stands at a path. -/
def entryOf (path : String) : IO.FS.DirEntry := ⟨path, ""⟩

instance : FileAccess IO where
  makeFolder path := attempt (IO.FS.createDir path)
  isFolder path := (entryOf path).root.isDir
  names path := attempt do
    return ((← (entryOf path).root.readDir).map (·.fileName)).toList
  isRegular path := attempt do
    return (← (entryOf path).root.metadata).type == .file
  readText path := do
    match ← attempt (IO.FS.readBinFile path) with
    | .error cause => return .error cause
    | .ok bytes =>
      match String.fromUTF8? bytes with
      | some text => return .ok text
      | none => return .error .notText
  writeText path text := attempt (IO.FS.writeFile path text)
  appendText path text := attempt (IO.FS.withFile path .append (·.putStr text))

end IdlGlue.Machine

/-! ## The program -/

namespace IdlGlue.CommandLine

/-- How the program is called. -/
def usage : String :=
  "Usage: chakra-idlc [options] <source folder> <destination folder>\n\n" ++
  "  -a, --aggregate                  one output for all sources\n" ++
  "      --aggregate-name <name>      its name (ScriptingGlue.cpp)\n" ++
  "      --source-ext <extension>     extension of sources (idl)\n" ++
  "      --output-ext <extension>     extension of outputs (cpp)\n" ++
  "      --binding-namespace <name>   namespace of the binding layer (Zmey::Chakra::Binding)\n" ++
  "  -v, --verbose                    tell every interface and delegate\n" ++
  "  -h, --help                       show this text"

end IdlGlue.CommandLine

open IdlGlue.CommandLine

/-- Answers a command line: the log goes to the error stream, help to the output. -/
def main (words : List String) : IO UInt32 := do
  let response ← respond (m := IO) words
  match response with
  | .help => IO.println usage
  | .misuse => IO.eprintln usage
  | .finished log | .failed log => log.forM fun l => IO.eprintln l.text
  return response.exitCode.toUInt32
