/-
# IdlGlue.Batch.Job -- a folder of sources and where their glue goes

A job names the folder of the sources, the folder of the outputs, and how the outputs
are laid out there: a file for each source, or one file for them all. The paths that
a run reads, writes and reports are made here.
-/
import IdlGlue.Compile
import IdlGlue.Disk.Path

namespace IdlGlue.Batch

open IdlGlue.Disk

/-- How the outputs are laid out. -/
inductive Layout where
  /-- Each source has an output of its own name, with this extension. -/
  | perFile (extension : String)
  /-- One file of this name holds everything. -/
  | aggregate (name : String)
deriving DecidableEq, Repr

/-- What is to be compiled, and to where. -/
structure Job where
  /-- The folder of the sources. -/
  source : String
  /-- The folder of the outputs. -/
  destination : String
  /-- The extension by which a source is known. -/
  sourceExtension : String
  layout : Layout
  options : Options

/-- The extension of sources where none is chosen. -/
def standardSourceExtension : String := "idl"

/-- The extension of outputs where none is chosen. -/
def standardOutputExtension : String := "cpp"

namespace Job

/-- The path of a source. -/
def sourcePath (job : Job) (name : String) : String := Path.join job.source name

/-- The path of the output that the glue of a source goes to. -/
def outputPath (job : Job) (name : String) : String :=
  Path.join job.destination (match job.layout with
    | .perFile extension => Path.withExtension name extension
    | .aggregate file => file)

/-- The outputs that there are once the sources of these names have given glue. -/
def outputs (job : Job) (compiled : List String) : List String :=
  match job.layout with
  | .perFile _ => compiled.map job.outputPath
  | .aggregate file => [Path.join job.destination file]

/-- A name has the extension of a source. -/
def namesSource (job : Job) (name : String) : Bool :=
  Path.extension? name = some job.sourceExtension

end Job

/-- What a run has done. All are paths. -/
structure Report where
  /-- The sources that gave glue. -/
  compiled : List String
  /-- The sources that declare nothing. -/
  skipped : List String
  written : List String
deriving DecidableEq, Repr

end IdlGlue.Batch
