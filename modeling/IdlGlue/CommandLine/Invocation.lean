/-
# IdlGlue.CommandLine.Invocation -- what the words of a command line ask for

A command line names two folders, and options before, between or behind them:

    -a, --aggregate                 -v, --verbose                 -h, --help
    --aggregate-name <name>         --source-ext <extension>
    --output-ext <extension>        --binding-namespace <namespace>

Flags of one letter may be joined. A value is the next word, or stands behind `=`. A
word that begins with a dash is no value, a dash alone excepted. Behind `--` every
word names a folder. Nothing is given twice. Words are read from the left, and the
first that is wrong, or asks for help, settles the answer.
-/
import IdlGlue.Text.Split

namespace IdlGlue.CommandLine

/-- An option without a value. -/
inductive Flag where
  | aggregate
  | verbose
deriving DecidableEq, Repr

/-- An option with a value. -/
inductive Setting where
  | aggregateName
  | sourceExtension
  | outputExtension
  | bindingNamespace
deriving DecidableEq, Repr

/-- Why a command line asks for no run. -/
inductive Refusal where
  | help
  | misuse
deriving DecidableEq, Repr

/-- What an option is. -/
inductive OptionKind where
  | help
  | flag (flag : Flag)
  | setting (setting : Setting)
deriving DecidableEq, Repr

/-- The option of a name. -/
def OptionKind.ofName? : String → Option OptionKind
  | "help" => some .help
  | "aggregate" => some (.flag .aggregate)
  | "verbose" => some (.flag .verbose)
  | "aggregate-name" => some (.setting .aggregateName)
  | "source-ext" => some (.setting .sourceExtension)
  | "output-ext" => some (.setting .outputExtension)
  | "binding-namespace" => some (.setting .bindingNamespace)
  | _ => none

/-- The option of a letter. -/
def OptionKind.ofLetter? : Char → Option OptionKind
  | 'h' => some .help
  | 'a' => some (.flag .aggregate)
  | 'v' => some (.flag .verbose)
  | _ => none

/-! ## Words -/

/-- What a word is by its form. -/
inductive Word where
  | plain (text : String)
  /-- Two dashes and nothing else. -/
  | endOfOptions
  /-- A name behind two dashes, with the value behind `=` if there is one. -/
  | long (name : String) (value? : Option String)
  /-- Letters behind one dash. -/
  | letters (letters : List Char)
deriving DecidableEq, Repr

/-- The form of a word. -/
def Word.ofText (text : String) : Word :=
  match text.toList with
  | ['-', '-'] => .endOfOptions
  | '-' :: '-' :: cs =>
    let name := String.ofList (cs.takeWhile (· != '='))
    match cs.dropWhile (· != '=') with
    | [] => .long name none
    | _ :: value => .long name (some (String.ofList value))
  | '-' :: c :: cs => .letters (c :: cs)
  | _ => .plain text

/-! ## Reading -/

/-- What the words read so far have given. -/
structure Given where
  folders : List String
  flags : List Flag
  settings : List (Setting × String)
deriving DecidableEq, Repr

namespace Given

/-- Nothing is given. -/
def none : Given := { folders := [], flags := [], settings := [] }

/-- One more folder. There are two at most, and none has an empty name. -/
def addFolder (g : Given) (path : String) : Except Refusal Given :=
  if path.isEmpty || 2 ≤ g.folders.length then .error .misuse
  else .ok { g with folders := g.folders ++ [path] }

/-- One more flag. -/
def addFlag (g : Given) (flag : Flag) : Except Refusal Given :=
  if flag ∈ g.flags then .error .misuse else .ok { g with flags := flag :: g.flags }

/-- One more option with its value. -/
def addSetting (g : Given) (setting : Setting) (value : String) : Except Refusal Given :=
  if setting ∈ g.settings.map Prod.fst then .error .misuse
  else .ok { g with settings := (setting, value) :: g.settings }

/-- An option that stands without a value. -/
def addBare (g : Given) : Option OptionKind → Except Refusal Given
  | some .help => .error .help
  | some (.flag flag) => g.addFlag flag
  | some (.setting _) | Option.none => .error .misuse

/-- The words of a command line, read from the left. -/
def readWords (g : Given) : List String → Except Refusal Given
  | [] => .ok g
  | word :: rest =>
    match Word.ofText word with
    | .plain text => do (← g.addFolder text).readWords rest
    | .endOfOptions => rest.foldlM addFolder g
    | .letters letters => do
      (← letters.foldlM (fun g letter => g.addBare (OptionKind.ofLetter? letter)) g).readWords rest
    | .long name value? =>
      match OptionKind.ofName? name, value? with
      | some (.setting setting), some value => do (← g.addSetting setting value).readWords rest
      | some (.setting setting), Option.none =>
        match rest with
        | [] => .error .misuse
        | next :: rest =>
          match Word.ofText next with
          | .plain value => do (← g.addSetting setting value).readWords rest
          | _ => .error .misuse
      | _, some _ => .error .misuse
      | kind?, Option.none => do (← g.addBare kind?).readWords rest

end Given

/-- What a command line asks for. -/
structure Invocation where
  /-- The folder of the sources. -/
  source : String
  /-- The folder of the outputs. -/
  destination : String
  /-- Everything goes into one file. -/
  aggregate : Bool
  /-- Everything is told that happens. -/
  verbose : Bool
  aggregateName : String
  sourceExtension : String
  outputExtension : String
  bindingNamespace : String
deriving DecidableEq, Repr

/-- The name of the aggregate where none is chosen. -/
def standardAggregateName : String := "ScriptingGlue.cpp"

end IdlGlue.CommandLine
