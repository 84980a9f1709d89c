/-
# IdlGlue.CommandLine.Program -- the answer to a command line

The words of the command line become a job, the job is run, and what happened becomes
the lines of a log and an exit code: 0 for a run that ends and for help, 1 for a run
that stops with a fault, 2 for a command line that asks for no run.
-/
import IdlGlue.Batch.Run
import IdlGlue.CommandLine.Invocation

namespace IdlGlue.CommandLine

open IdlGlue.Batch IdlGlue.Disk

/-- The invocation that a command line asks for. Options that are not given have their
standard values. -/
def Invocation.ofWords (words : List String) : Except Refusal Invocation := do
  let given ← Given.none.readWords words
  let value (setting : Setting) (standard : String) : String :=
    (given.settings.lookup setting).getD standard
  match given.folders with
  | [source, destination] => return {
      source, destination
      aggregate := Flag.aggregate ∈ given.flags
      verbose := Flag.verbose ∈ given.flags
      aggregateName := value .aggregateName standardAggregateName
      sourceExtension := value .sourceExtension standardSourceExtension
      outputExtension := value .outputExtension standardOutputExtension
      bindingNamespace := value .bindingNamespace Dialect.standard.bindingNamespace }
  | _ => throw .misuse

/-- The job of an invocation. -/
def Invocation.job (i : Invocation) : Job where
  source := i.source
  destination := i.destination
  sourceExtension := i.sourceExtension
  layout := if i.aggregate then .aggregate i.aggregateName else .perFile i.outputExtension
  options := { Options.standard with
    dialect := { Dialect.standard with bindingNamespace := i.bindingNamespace } }

/-- What the program answers. -/
inductive Response where
  | help
  | misuse
  | finished (log : List LogLine)
  | failed (log : List LogLine)
deriving DecidableEq, Repr

namespace Response

/-- The exit code. -/
def exitCode : Response → Nat
  | .help | .finished _ => 0
  | .failed _ => 1
  | .misuse => 2

/-- The log. -/
def log : Response → List LogLine
  | .help | .misuse => []
  | .finished log | .failed log => log

/-- The lines that are seen of the log. -/
def seen (r : Response) : List String := r.log.flatMap LogLine.seen

end Response

/-- A line of the program itself. -/
def ownLine (level : Level) (message : String) : LogLine :=
  { level, speaker := "chakra_idlc", message, fields := [] }

/-- The line that sums up a run. -/
def summaryLine (report : Report) : LogLine :=
  ownLine .info ("Compiled " ++ toString report.compiled.length ++ " file(s), skipped " ++
    toString report.skipped.length ++ ", wrote " ++ toString report.written.length)

/-- The lines that are shown of what happened. -/
def shownLines (verbose : Bool) (events : List Event) : List LogLine :=
  (events.map Event.line).filter fun l => verbose || l.level != .debug

/-- The answer to a run. -/
def Response.ofRun (verbose : Bool) (run : Logged Report) : Response :=
  let shown := shownLines verbose run.events
  match run.outcome with
  | .ok report => .finished (shown ++ [summaryLine report])
  | .error fault => .failed (shown ++ [ownLine .error fault.message])

/-- The answer to a command line. -/
def respond {m : Type → Type} [Monad m] [FileAccess m] (words : List String) : m Response :=
  match Invocation.ofWords words with
  | .error .help => return .help
  | .error .misuse => return .misuse
  | .ok invocation => return .ofRun invocation.verbose (← invocation.job.run.run)

end IdlGlue.CommandLine
