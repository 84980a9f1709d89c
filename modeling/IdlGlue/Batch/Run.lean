/-
# IdlGlue.Batch.Run -- compiling the sources of a folder

A run makes the folder of the outputs, lists the sources, and compiles them one after
the other in the order of their names. The first fault ends it: what has been written
until then stays, and nothing is written for the source at fault. An aggregate is one
compilation unit, so no two of its sources may declare the same flat name.
-/
import IdlGlue.LoggedT
import IdlGlue.Batch.Job
import IdlGlue.Disk.Access

namespace IdlGlue.Batch

open IdlGlue.Disk

variable {m : Type → Type} [Monad m] [FileAccess m]

/-! ## Names of an aggregate -/

/-- The flat names that the sources of an aggregate have declared so far. -/
structure Declared where
  interfaces : List String
  delegates : List String

/-- Nothing is declared yet. -/
def Declared.none : Declared := { interfaces := [], delegates := [] }

/-- The names with those of one more source. The first interface, or else the first
delegate, whose flat name is taken is the fault. -/
def Declared.extend (d : Declared) (c : Compiled) : Except Fault Declared := do
  if let some i := Glue.firstRepeat? Prod.fst d.interfaces (c.flatNames.zip c.interfaces) then
    throw (.duplicateInterface i.2)
  if let some name := Glue.firstRepeat? Name.flatten d.delegates c.delegates then
    throw (.duplicateDelegate name)
  return {
    interfaces := c.flatNames ++ d.interfaces
    delegates := c.delegates.map Name.flatten ++ d.delegates }

namespace Job

/-! ## Sources -/

/-- The path of a source leads to a file. What does not is told and left out. -/
def isSource (job : Job) (name : String) : LoggedT m Bool := do
  match ← (FileAccess.isRegular (job.sourcePath name) : m _) with
  | .ok true => return true
  | .ok false =>
    LoggedT.tell (.notRegular (job.sourcePath name))
    return false
  | .error cause =>
    LoggedT.tell (.cannotStat (job.sourcePath name) cause)
    return false

/-- The names of the sources, in their order. -/
def sources (job : Job) : LoggedT m (List String) := do
  let names ← LoggedT.onPath job.source (FileAccess.names (m := m) job.source)
  let found ← (names.filter job.namesSource).filterM job.isSource
  return found.mergeSort (· ≤ ·)

/-! ## Outputs -/

/-- Begin the outputs: an aggregate begins empty. -/
def begin (job : Job) : LoggedT m Unit :=
  match job.layout with
  | .perFile _ => return
  | .aggregate file =>
    let path := Path.join job.destination file
    LoggedT.onPath path (FileAccess.writeText (m := m) path "")

/-- The glue of a source. -/
def glueOf (job : Job) (name : String) : LoggedT m Compiled := do
  let path := job.sourcePath name
  let text ← LoggedT.onPath path (FileAccess.readText (m := m) path)
  (compile job.options text).blame path

/-- Bring the glue of a source to its output. -/
def deliver (job : Job) (declared : Declared) (name : String) (glue : Compiled) :
    LoggedT m Declared := do
  let source := job.sourcePath name
  let output := job.outputPath name
  match job.layout with
  | .perFile _ =>
    LoggedT.onPath output (FileAccess.writeText (m := m) output glue.code)
    LoggedT.tell (.written output)
    return declared
  | .aggregate _ =>
    let declared ← (Logged.ofExcept (declared.extend glue)).blame source
    LoggedT.onPath output (FileAccess.appendText (m := m) output glue.code)
    LoggedT.tell (.appended source output)
    return declared

/-- Compile the sources of these names one after the other. The names of those that
gave glue come first in the result, then the names of those that declare nothing. -/
def compileAll (job : Job) : Declared → List String → LoggedT m (List String × List String)
  | _, [] => return ([], [])
  | declared, name :: names => do
    let glue ← job.glueOf name
    if glue.isEmpty then
      LoggedT.tell (.nothingDeclared (job.sourcePath name))
      let (compiled, skipped) ← job.compileAll declared names
      return (compiled, name :: skipped)
    else
      let declared ← job.deliver declared name glue
      let (compiled, skipped) ← job.compileAll declared names
      return (name :: compiled, skipped)

/-- Run the job. -/
def run (job : Job) : LoggedT m Report := do
  LoggedT.onPath job.destination (FileAccess.makeFolders (m := m) job.destination)
  let names ← job.sources
  LoggedT.tell (.foundSources names.length job.source)
  job.begin
  let (compiled, skipped) ← job.compileAll .none names
  return {
    compiled := compiled.map job.sourcePath
    skipped := skipped.map job.sourcePath
    written := job.outputs compiled }

/-- Run the job on a tree: what comes of it, and the tree that is left. -/
def runOn (job : Job) (t : Tree) : Logged Report × Tree :=
  StateT.run (m := Id) (LoggedT.run job.run) t

end Job

end IdlGlue.Batch
