/-
# IdlGlue.Declaration -- what a source file declares

A source file is include lines, delegates (callback signatures) and interfaces
(native classes), each in the order of the file. An interface holds constructors,
methods and properties. The types here also admit files that no text reads as, for
instance a parameter of type `void`; what generation refuses is decided there.
-/
import IdlGlue.IdlType
import IdlGlue.Name
import IdlGlue.Fault

namespace IdlGlue

/-- A parameter of a constructor, method or delegate. -/
structure Param where
  type : IdlType
  name : String
  /-- The position in the declared list, counted from zero. -/
  index : Nat
deriving DecidableEq, Repr

/-- The place of a parameter in the argument array of a script call, whose place zero
is the receiver. -/
def Param.scriptIndex (p : Param) : Nat := p.index + 1

/-- A method of a native class. -/
structure Method where
  result : IdlType
  name : String
  params : List Param
  /-- The native method is called by the name as it is, without a capital. -/
  nameAsIs : Bool
deriving DecidableEq, Repr

/-- A property of a native class. -/
structure Property where
  type : IdlType
  name : String
  readonly : Bool
  /-- The native field is accessed by the name as it is, without a capital. -/
  nameAsIs : Bool
deriving DecidableEq, Repr

/-- A member of an interface. -/
inductive Member where
  | constructor (params : List Param)
  | method (decl : Method)
  | property (decl : Property)
deriving DecidableEq, Repr

/-- An interface: a native class that scripts may use. -/
structure Interface where
  name : String
  members : List Member
deriving DecidableEq, Repr

/-- The key of all symbols generated for the interface. -/
def Interface.flatName (i : Interface) : String := Name.flatten i.name

/-- The class name that scripts see. -/
def Interface.shortName (i : Interface) : String := Name.short i.name

/-- A delegate: the signature of a callback. -/
structure Delegate where
  result : IdlType
  name : String
  params : List Param
deriving DecidableEq, Repr

/-- The key of all symbols generated for the delegate. -/
def Delegate.flatName (d : Delegate) : String := Name.flatten d.name

/-- The declarations of one source file. -/
structure SourceFile where
  /-- Include lines, copied into the output as they are. -/
  headers : List String
  delegates : List Delegate
  interfaces : List Interface
deriving DecidableEq, Repr

/-- The file declares neither a delegate nor an interface. -/
def SourceFile.isEmpty (f : SourceFile) : Bool :=
  f.delegates.isEmpty && f.interfaces.isEmpty

/-- A type may stand in a parameter list: an object, or any primitive type. -/
def IdlType.checkParam (type : IdlType) (name : String) : Except Fault Unit :=
  match type with
  | .primitive _ | .object _ => .ok ()
  | .void | .reference _ | .anyOf _ =>
    .error (.unsupportedType type.spelling (.parameter name))

namespace Param

/-- The parameter that one piece of a parameter list declares: its first two words.
A word that is not there is empty, and words after the second do not count. -/
def ofPiece (piece : List Char) (index : Nat) : Except Fault Param := do
  let words := Text.wordsOf piece
  let type := IdlType.ofToken (String.ofList (words.headD []))
  let name := String.ofList (words.tail.headD [])
  type.checkParam name
  return { type, name, index }

/-- The pieces of a parameter list that declare something: those between commas that
are not blank. -/
def piecesOf (args : List Char) : List (List Char) :=
  ((Text.pieces (· == ',') args).map Text.trim).filter (fun p => !p.isEmpty)

/-- The parameters of a parameter list, numbered from zero; the first parameter of a
type that cannot be one is the fault. -/
def listOfText (args : List Char) : Except Fault (List Param) :=
  (piecesOf args).zipIdx.mapM (fun p => ofPiece p.1 p.2)

end Param

end IdlGlue
