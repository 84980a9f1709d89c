/-
# IdlGlue.Glue.File -- the glue of one source file

    runtime include lines, the file's own include lines
    delegates
    namespace
    {
    prototype slots
    interfaces, in the order of the file
    }

Flat names key every symbol, so no two interfaces and no two delegates of a file may
share one; that is settled before anything else. The file defines a slot for each of
its interfaces, and declares one, defined elsewhere, for each class that a method or
property gives out and that is not among them.
-/
import IdlGlue.Glue.Interface
import IdlGlue.Glue.Callback

namespace IdlGlue.Glue

open IdlGlue.Native

/-- A prototype slot that a file declares. -/
structure Slot where
  flatName : String
  /-- The slot is defined elsewhere. -/
  foreign : Bool
deriving DecidableEq, Repr

/-- The declaration as it is written. -/
def Slot.code (s : Slot) : String :=
  (if s.foreign then "extern " else "") ++ "JsValueRef " ++
    (Symbol.prototype s.flatName).spelling ++ ";\n"

/-- The glue of a source file. -/
structure FileGlue where
  headers : List String
  callbacks : List CallbackGlue
  slots : List Slot
  interfaces : List InterfaceGlue
deriving DecidableEq, Repr

/-- The code of the file. -/
def FileGlue.code (g : FileGlue) : String :=
  String.join (g.headers.map (· ++ "\n")) ++
    String.join (g.callbacks.map fun c => "\n" ++ c.code) ++
    "\nnamespace\n\x7b\n" ++
    String.join (g.slots.map Slot.code) ++
    String.join (g.interfaces.map InterfaceGlue.code) ++
    "\n\x7d\n"

/-! ## Checks and slots -/

/-- The first element whose key is among `seen` or is the key of an element before. -/
def firstRepeat? {α : Type} (key : α → String) (seen : List String) : List α → Option α
  | [] => none
  | x :: xs => if key x ∈ seen then some x else firstRepeat? key (key x :: seen) xs

/-- No two interfaces and no two delegates share a flat name. -/
def checkNames (file : SourceFile) : Except Fault Unit := do
  if let some i := firstRepeat? Interface.flatName [] file.interfaces then
    throw (.duplicateInterface i.name)
  if let some d := firstRepeat? Delegate.flatName [] file.delegates then
    throw (.duplicateDelegate d.name)

/-- The type that a member gives out. -/
def givenType? : Member → Option IdlType
  | .constructor _ => none
  | .method m => some m.result
  | .property p => some p.type

/-- The flat names of the classes that the file gives out, in the order of their first
mention and each once. -/
def givenClasses (file : SourceFile) : List String :=
  ((file.interfaces.flatMap (·.members)).filterMap fun m =>
    (givenType? m).bind fun type => type.className?.map Name.flatten).eraseDups

/-- The slots of a file: its own, then those of foreign classes that it gives out. -/
def slotsOf (file : SourceFile) : List Slot :=
  let own := file.interfaces.map Interface.flatName
  own.map ({ flatName := ·, foreign := false }) ++
    ((givenClasses file).filter (· ∉ own)).map ({ flatName := ·, foreign := true })

/-- The glue of a source file. There is none unless every delegate and every interface
has its glue. -/
def fileGlue (dialect : Dialect) (registry : Registry) (file : SourceFile) : Logged FileGlue := do
  let rules : Rules := { dialect, registry, delegates := file.delegates }
  checkNames file
  let callbacks ← file.delegates.mapM (callbackGlue rules)
  let interfaces ← file.interfaces.mapM (interfaceGlue rules)
  return {
    headers := dialect.runtimeHeaders ++ file.headers
    callbacks
    slots := slotsOf file
    interfaces }

end IdlGlue.Glue
