/-
# IdlGlue.Proofs.Faults -- what the faults of a compilation tell of

A compilation knows of no files, and its faults name none:

| part                | its faults tell of                                      |
|---------------------|---------------------------------------------------------|
| reading             | text where no statement begins, types of parameters     |
| names               | interfaces and delegates of one flat name               |
| glue                | types without a rule, and what the registry refuses     |

A registry may be the caller's. What it refuses is handed on as it is, so a fault of a compilation
names a file only if it is one that the registry gave. Neither of the registries that are provided
gives such a fault.
-/
import IdlGlue.Proofs.Compilation

namespace IdlGlue

variable {α β : Type}

/-! ## Faults without a file -/

/-- The fault names no file. -/
def Fault.NamesNoFile : Fault → Prop
  | .fileAccess _ _ | .inFile _ _ => False
  | .noStatement _ | .unsupportedType _ _ | .noInterface _ | .duplicateInterface _
  | .duplicateDelegate _ => True

/-- Such a fault is attributed to a file in one layer. -/
theorem Fault.blame_eq_inFile {f : Fault} (h : f.NamesNoFile) (path : String) :
    f.blame path = .inFile path f := by
  cases f with
  | fileAccess | inFile => cases h
  | _ => rfl

/-- The fault tells the path as that of a file without access, or in one layer around a fault
that names no file. -/
def Fault.Tells (path : String) : Fault → Prop
  | .fileAccess p _ => p = path
  | .inFile p f => p = path ∧ f.NamesNoFile
  | _ => False

theorem Fault.tells_blame {f : Fault} (h : f.NamesNoFile) (path : String) :
    (f.blame path).Tells path := by
  rw [blame_eq_inFile h]
  exact ⟨rfl, h⟩

/-- Every fault of the computation is of this kind. -/
def Faults (P : Fault → Prop) (x : Except Fault α) : Prop := ∀ e, x = .error e → P e

section

variable {P : Fault → Prop} {x : Except Fault α}

theorem faults_ok (a : α) : Faults P (.ok a : Except Fault α) := nofun

theorem faults_error {e : Fault} (h : P e) : Faults P (.error e : Except Fault α) := by
  rintro _ ⟨⟩
  exact h

theorem Faults.bind {f : α → Except Fault β} (hx : Faults P x) (hf : ∀ a, Faults P (f a)) :
    Faults P (x >>= f) := by
  intro e h
  rcases Traversal.bind_eq_error_iff.mp h with h | ⟨a, _, h⟩
  · exact hx e h
  · exact hf a e h

theorem faults_mapM {f : α → Except Fault β} (hf : ∀ a, Faults P (f a)) (xs : List α) :
    Faults P (xs.mapM f) := by
  induction xs with
  | nil => exact faults_ok []
  | cons a xs ih =>
      rw [List.mapM_cons]
      exact (hf a).bind fun b => ih.bind fun bs => faults_ok (b :: bs)

end

/-! ## Reading -/

section Reading

variable {P : Fault → Prop}

theorem faults_expectEnd (fault : List Char → Fault) (h : ∀ rest, P (fault rest))
    (rest : List Char) : Faults P (expectEnd fault rest) := by
  unfold expectEnd
  split
  · exact faults_ok ()
  · exact faults_error (h rest)

variable (htype : ∀ type position, P (.unsupportedType type position))

include htype

theorem faults_checkParam (type : IdlType) (name : String) : Faults P (type.checkParam name) := by
  cases type with
  | primitive | object => exact faults_ok ()
  | void | reference | anyOf => exact faults_error (htype _ _)

theorem faults_listOfText (args : List Char) : Faults P (Param.listOfText args) :=
  faults_mapM (fun _ => (faults_checkParam htype _ _).bind fun _ => faults_ok _) _

theorem faults_delegateOfStatement (s : Statement.DelegateText) :
    Faults P (Delegate.ofStatement s) :=
  (faults_listOfText htype s.args).bind fun _ => faults_ok _

theorem faults_memberOfStatement (s : Statement.MemberText) : Faults P (Member.ofStatement s) := by
  cases s with
  | constructor args => exact (faults_listOfText htype args).bind fun _ => faults_ok _
  | method s => exact (faults_listOfText htype s.args).bind fun _ => faults_ok _
  | property s => exact faults_ok _

theorem faults_interfaceOfStatement (hstatement : ∀ rest, P (.noStatementAt rest))
    (s : Statement.InterfaceText) : Faults P (Interface.ofStatement s) := by
  refine Faults.bind ?_ fun _ => faults_ok _
  exact (faults_mapM (faults_memberOfStatement htype) _).bind fun _ =>
    (faults_expectEnd .noStatementAt hstatement _).bind fun _ => faults_ok _

end Reading

theorem faults_ofText (text : String) : Faults Fault.NamesNoFile (SourceFile.ofText text) :=
  (faults_mapM (faults_delegateOfStatement fun _ _ => trivial) _).bind fun _ =>
    (faults_mapM (faults_interfaceOfStatement (fun _ _ => trivial) fun _ => trivial) _).bind
      fun _ =>
        (faults_expectEnd .noInterfaceAt (fun _ => trivial) _).bind fun _ => faults_ok _

/-! ## Glue -/

/-- The registry names no file when it refuses. -/
def Registry.NamesNoFile (registry : Registry) : Prop :=
  ∀ request, Faults Fault.NamesNoFile (registry.prototype request)

theorem Registry.namesNoFile_hashed (bindingNamespace hashFunction : String) :
    (Registry.hashed bindingNamespace hashFunction).NamesNoFile := fun _ => faults_ok _

theorem Registry.namesNoFile_ofCallbacks (callbacks : Registry.Callbacks) :
    (Registry.ofCallbacks callbacks).NamesNoFile := by
  intro request
  unfold ofCallbacks
  dsimp only
  split
  · exact faults_error trivial
  · split
    · exact faults_error trivial
    · split
      · exact faults_ok _
      · exact faults_error trivial

namespace Glue

theorem namesNoFile_of_argumentRefused {type : IdlType} {name : String} {e : Fault}
    (h : ArgumentRefused type name e) : e.NamesNoFile := by
  cases h with
  | storage => trivial
  | argument => trivial

theorem namesNoFile_of_paramsRefused {params : List Param} {e : Fault}
    (h : ParamsRefused params e) : e.NamesNoFile := by
  obtain ⟨_, _, _, _, _, h⟩ := h
  exact namesNoFile_of_argumentRefused h

theorem namesNoFile_of_resultRefused {registry : Registry} {delegates : List Delegate}
    {selector : String} {type : IdlType} {e : Fault} (hregistry : registry.NamesNoFile)
    (h : ResultRefused registry delegates selector type e) : e.NamesNoFile := by
  cases h with
  | storage => trivial
  | registry hrefused => exact hregistry _ e hrefused

theorem namesNoFile_of_memberRefused {registry : Registry} {delegates : List Delegate}
    {m : Member} {e : Fault} (hregistry : registry.NamesNoFile)
    (h : Member.Refused registry delegates m e) : e.NamesNoFile := by
  cases h with
  | constructor h => exact namesNoFile_of_paramsRefused h
  | param h => exact namesNoFile_of_paramsRefused h
  | result _ _ h => exact namesNoFile_of_resultRefused hregistry h
  | getter h => exact namesNoFile_of_resultRefused hregistry h
  | setter _ _ _ h => exact namesNoFile_of_argumentRefused h

theorem faults_fileGlue (dialect : Dialect) {registry : Registry}
    (hregistry : registry.NamesNoFile) (file : SourceFile) :
    Faults Fault.NamesNoFile (fileGlue dialect registry file).outcome := by
  rw [outcome_fileGlue]
  refine Faults.bind (fun e h => ?_) fun _ => (faults_mapM (fun d e h => ?_) _).bind fun _ =>
    (faults_mapM (fun i e h => ?_) _).bind fun _ => faults_ok _
  · rcases ((checkNames_verdict file).error_iff e).mp h with ⟨i, _, rfl⟩ | ⟨_, d, _, rfl⟩
    · trivial
    · trivial
  · cases ((callbackGlue_verdict _ d).error_iff e).mp h with
    | long => trivial
  · obtain ⟨_, _, _, _, _, h⟩ := ((interfaceGlue_verdict _ i).error_iff e).mp h
    exact namesNoFile_of_memberRefused hregistry h

end Glue

/-- **No fault of a compilation names a file**, if no fault of its registry does. -/
theorem faults_compile {options : Options} (hregistry : options.registry.NamesNoFile)
    (text : String) : Faults Fault.NamesNoFile (compile options text).outcome := by
  rw [outcome_compile]
  exact (faults_ofText text).bind fun file =>
    (Glue.faults_fileGlue options.dialect hregistry file).bind fun glue => faults_ok _

end IdlGlue
