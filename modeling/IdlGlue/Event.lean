/-
# IdlGlue.Event -- what is told while a compilation runs

An event says what has happened; its level, its wording and its fields follow from
it. A log line shows the level, the part of the program that speaks, the wording, and
the fields behind it. The wording can quote a source or the name of a file, so it is
shown in its harmless spelling; the fields are not.
-/
import IdlGlue.Fault
import IdlGlue.Text.Quoted
import IdlGlue.Text.Split

namespace IdlGlue

/-- How much an event matters. -/
inductive Level where
  | debug
  | info
  | warn
  | error
deriving DecidableEq, Repr

/-- The level as it is written. -/
def Level.text : Level → String
  | .debug => "DEBUG"
  | .info => "INFO"
  | .warn => "WARN"
  | .error => "ERROR"

/-- A named value of an event. -/
structure Field where
  name : String
  value : String
  /-- A log line shows the value between double quotes. -/
  quoted : Bool
deriving DecidableEq, Repr

/-- The field in a log line. -/
def Field.text (f : Field) : String :=
  f.name ++ "=" ++ (if f.quoted then Text.quoted f.value else f.value)

/-- One line of a log. -/
structure LogLine where
  level : Level
  /-- The part of the program that speaks. -/
  speaker : String
  message : String
  fields : List Field
deriving DecidableEq, Repr

/-- The line as it is written. -/
def LogLine.text (l : LogLine) : String :=
  l.level.text ++ " " ++ l.speaker ++ ": " ++
    " ".intercalate (Text.harmless l.message :: l.fields.map Field.text)

/-- The lines that are seen of it: more than one if the name of a file holds a line
end. -/
def LogLine.seen (l : LogLine) : List String :=
  (Text.lines l.text.toList).map String.ofList

/-- Something that has happened. -/
inductive Event where
  /-- A folder has been listed. -/
  | foundSources (count : Nat) (folder : String)
  /-- A name with the source extension is no regular file. -/
  | notRegular (path : String)
  /-- A name with the source extension leads nowhere. -/
  | cannotStat (path : String) (cause : AccessCause)
  /-- A source declares neither an interface nor a delegate. -/
  | nothingDeclared (path : String)
  /-- The output of one source has been written. -/
  | written (path : String)
  /-- The output of one source has been added to the aggregate. -/
  | appended (source aggregate : String)
  | delegateGenerated (name : String)
  | interfaceGenerated (name : String) (methods properties : Nat) (constructorParams : Option Nat)
  /-- An interface declares a constructor after its first. -/
  | constructorRedeclared (name : String)
deriving DecidableEq, Repr

namespace Event

/-- A count that may be missing, as a field shows it. -/
def countText? : Option Nat → String
  | none => "None"
  | some n => "Some(" ++ toString n ++ ")"

/-- The log line of an event. -/
def line : Event → LogLine
  | .foundSources count folder =>
    { level := .debug, speaker := "chakra_idl::driver", message := "found IDL sources"
      fields := [⟨"count", toString count, false⟩, ⟨"dir", folder, false⟩] }
  | .notRegular path =>
    { level := .debug, speaker := "chakra_idl::driver"
      message := path ++ " is not a regular file, skipping", fields := [] }
  | .cannotStat path cause =>
    { level := .warn, speaker := "chakra_idl::driver"
      message := "cannot stat " ++ path ++ ": " ++ cause.message ++ ", skipping", fields := [] }
  | .nothingDeclared path =>
    { level := .warn, speaker := "chakra_idl::driver"
      message := path ++ " declares no interface or delegate, skipping", fields := [] }
  | .written path =>
    { level := .info, speaker := "chakra_idl::driver"
      message := "Done with file " ++ path, fields := [] }
  | .appended source aggregate =>
    { level := .info, speaker := "chakra_idl::driver"
      message := "Appended " ++ source ++ " to " ++ aggregate, fields := [] }
  | .delegateGenerated name =>
    { level := .debug, speaker := "chakra_idl::codegen::delegate"
      message := "generated delegate", fields := [⟨"delegate", name, false⟩] }
  | .interfaceGenerated name methods properties constructorParams =>
    { level := .debug, speaker := "chakra_idl::codegen::interface"
      message := "generated interface glue"
      fields :=
        [⟨"interface", name, true⟩, ⟨"methods", toString methods, false⟩,
          ⟨"properties", toString properties, false⟩,
          ⟨"constructor_params", countText? constructorParams, false⟩] }
  | .constructorRedeclared name =>
    { level := .warn, speaker := "chakra_idl::codegen::interface"
      message := name ++ " declares more than one constructor; the last one wins", fields := [] }

end Event

end IdlGlue
