/-
# IdlGlue.Fault -- what can go wrong, and how it is told

One type for every way in which a compilation or a run over a directory stops. A
fault holds its cause; the wording is in `Fault.message` alone. A fault that belongs
to one source file is attributed to it once (`Fault.blame`), and file access
faults, which name their path already, are never attributed.
-/
import IdlGlue.Text.Split

namespace IdlGlue

/-- Why the operating system, or the decoding of a file, refused. -/
inductive AccessCause where
  | missing
  | present
  | notFolder
  | isFolder
  | nameTooLong
  | tooManyLinks
  /-- The path holds the null character, which no path can. -/
  | nulInName
  | notText
  | other (text : String)
deriving DecidableEq, Repr

/-- The wording of the operating system, with its error number. -/
def AccessCause.message : AccessCause → String
  | .missing => "No such file or directory (os error 2)"
  | .present => "File exists (os error 17)"
  | .notFolder => "Not a directory (os error 20)"
  | .isFolder => "Is a directory (os error 21)"
  | .nameTooLong => "File name too long (os error 36)"
  | .tooManyLinks => "Too many levels of symbolic links (os error 40)"
  | .nulInName => "file name contained an unexpected NUL byte"
  | .notText => "stream did not contain valid UTF-8"
  | .other text => text

/-- Why a registry cannot resolve a type set by its callback. -/
inductive ResolverProblem where
  | unregistered
  | undeclared (delegate : String)
  | wrongArity (delegate : String)
deriving DecidableEq, Repr

/-- The wording of a registry's refusal. -/
def ResolverProblem.message : ResolverProblem → String
  | .unregistered => "no resolver registered"
  | .undeclared delegate => "resolver delegate `" ++ delegate ++ "` is not declared"
  | .wrongArity delegate => "resolver delegate `" ++ delegate ++ "` must take one argument"

/-- Where a type stands that cannot stand there. -/
inductive Position where
  /-- A declared parameter. -/
  | parameter (name : String)
  /-- The native local that would hold the value. -/
  | storage (name : String)
  /-- A value read from the script or passed to native code. -/
  | argument (name : String)
  /-- A value handed to the script. -/
  | result
  /-- A function pointer type. -/
  | signature
  /-- A set of classes that the registry does not resolve. -/
  | registry (problem : ResolverProblem)
  /-- A position with a wording of its own. -/
  | described (text : String)
deriving DecidableEq, Repr

/-- The wording of a position. -/
def Position.message : Position → String
  | .parameter name => "parameter `" ++ name ++ "`"
  | .storage name => "storage for `" ++ name ++ "`"
  | .argument name => "argument `" ++ name ++ "`"
  | .result => "result"
  | .signature => "native signature"
  | .registry problem => "type registry (" ++ problem.message ++ ")"
  | .described text => text

/-- What stops a compilation. -/
inductive Fault where
  /-- No member statement begins where one should; the text there. -/
  | noStatement (fragment : String)
  /-- A type without a rule for its position. -/
  | unsupportedType (type : String) (position : Position)
  /-- Text where an interface block should begin. -/
  | noInterface (fragment : String)
  /-- Two interfaces share a flat name; the qualified name of the later one. -/
  | duplicateInterface (name : String)
  /-- Two delegates share a flat name; the qualified name of the later one. -/
  | duplicateDelegate (name : String)
  /-- A file or folder could not be read or written. -/
  | fileAccess (path : String) (cause : AccessCause)
  /-- Another fault, with the source file that it belongs to. -/
  | inFile (path : String) (fault : Fault)
deriving DecidableEq, Repr

namespace Fault

/-- No member statement begins at this text. -/
def noStatementAt (rest : List Char) : Fault :=
  .noStatement (String.ofList (Text.excerpt rest))

/-- No interface block begins at this text. -/
def noInterfaceAt (rest : List Char) : Fault :=
  .noInterface (String.ofList (Text.excerpt rest))

/-- The fault with the source file it belongs to. A fault that names a path already
is left as it is. -/
def blame (path : String) : Fault → Fault
  | .fileAccess p cause => .fileAccess p cause
  | .inFile p fault => .inFile p fault
  | fault => .inFile path fault

/-- The fault without the files it is attributed to. -/
def root : Fault → Fault
  | .inFile _ fault => fault.root
  | fault => fault

/-- The diagnostic text. -/
def message : Fault → String
  | .noStatement fragment => "no statement matches at: `" ++ fragment ++ "`"
  | .unsupportedType type position =>
    "unsupported type `" ++ type ++ "` in " ++ position.message
  | .noInterface fragment => "expected an interface block, found: `" ++ fragment ++ "`"
  | .duplicateInterface name =>
    "interface `" ++ name ++ "` is declared more than once in this compilation unit"
  | .duplicateDelegate name =>
    "delegate `" ++ name ++ "` is declared more than once in this compilation unit"
  | .fileAccess path cause => "i/o error on " ++ path ++ ": " ++ cause.message
  | .inFile path fault => path ++ ": " ++ fault.message

end Fault

end IdlGlue
