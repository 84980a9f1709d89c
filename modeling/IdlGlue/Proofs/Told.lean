/-
# IdlGlue.Proofs.Told -- what is told while the glue of a file is made

| part      | it tells                                               | when                       |
|-----------|--------------------------------------------------------|----------------------------|
| delegate  | its name                                               | once its types are spelled |
| member    | a constructor behind the first: a warning              | before its own check       |
| interface | the sizes of its tables, and of the last constructor   | behind its last member     |

The events are those of the delegates and then those of the interfaces, in the order of the file. A
refusal ends them where it stands. Names that are repeated are looked for before anything else, so
in front of them nothing is told; a delegate that is refused has not told its name yet; and an
interface has told no sizes, but its warnings up to the refused member, that one included
(`Stopped`).

A warning depends on the draft only by whether a constructor is waiting in it, and one is waiting
when a constructor was among the members taken. So the warnings are told by the members alone
(`events_ofMembers`).
-/
import IdlGlue.Proofs.Layout
import Mathlib.Data.List.Induction

namespace IdlGlue

/-! ## Passes -/

namespace Logged

variable {α β : Type} {f : α → Logged β} {x : α} {xs : List α}

/-- What is made of the value of a computation tells nothing. -/
theorem events_bind_pure (y : Logged α) (g : α → β) :
    (y >>= fun a => (pure (g a) : Logged β)).events = y.events := by
  rw [events_bind]
  split
  · exact List.append_nil _
  · exact List.append_nil _

/-- A pass tells what its elements tell, as long as none of them stops it. -/
theorem events_mapM_append (ys : List α) (h : ∀ a ∈ xs, ∃ b, (f a).outcome = .ok b) :
    ((xs ++ ys).mapM f).events = xs.flatMap (fun a => (f a).events) ++ (ys.mapM f).events := by
  induction xs with
  | nil => rfl
  | cons a xs ih =>
      obtain ⟨⟨b, hb⟩, hxs⟩ := List.forall_mem_cons.mp h
      rw [List.cons_append, List.mapM_cons, bind_of_ok hb, List.flatMap_cons, List.append_assoc,
        ← ih hxs, events_bind_pure]

theorem events_mapM (h : ∀ a ∈ xs, ∃ b, (f a).outcome = .ok b) :
    (xs.mapM f).events = xs.flatMap fun a => (f a).events := by
  have hall := events_mapM_append [] h
  rw [List.append_nil] at hall
  exact hall.trans (List.append_nil _)

/-- The element that stops a pass is the last to tell anything. -/
theorem events_mapM_of_error {e : Fault} (h : (f x).outcome = .error e) :
    ((x :: xs).mapM f).events = (f x).events := by
  rw [List.mapM_cons, bind_of_error h]

/-- Outcomes by themselves tell nothing. -/
theorem events_mapM_liftM (f : α → Except Fault β) (xs : List α) :
    (xs.mapM fun a => (liftM (f a) : Logged β)).events = [] := by
  induction xs with
  | nil => rfl
  | cons a xs ih =>
      rw [List.mapM_cons, events_bind]
      cases f a with
      | error e => rfl
      | ok b =>
          show [] ++ (List.mapM _ xs >>= fun bs => (pure (b :: bs) : Logged (List β))).events = []
          rw [List.nil_append, events_bind_pure, ih]

end Logged

/-! ## What the parts tell -/

/-- One warning for each constructor of the members after the first. -/
def redeclarations (name : String) (members : List Member) : List Event :=
  (members.filterMap Member.constructor?).tail.map fun _ => .constructorRedeclared name

/-- The sizes of an interface: of its methods, its properties and its last constructor. -/
def Interface.summary (i : Interface) : Event :=
  .interfaceGenerated i.name (i.members.filterMap Member.methodName?).length
    (i.members.filterMap Member.propertyEntry?).length
    ((lastConstructor? i.members).map List.length)

/-- What a whole interface tells. -/
def Interface.told (i : Interface) : List Event := redeclarations i.name i.members ++ [i.summary]

/-- What a delegate tells. -/
def Delegate.told (d : Delegate) : Event := .delegateGenerated d.name

theorem redeclarations_append (name : String) (members : List Member) (m : Member) :
    redeclarations name (members ++ [m]) = redeclarations name members ++
      if (lastConstructor? members).isSome ∧ m.constructor?.isSome then
        [.constructorRedeclared name] else [] := by
  rw [redeclarations, redeclarations, lastConstructor?, List.filterMap_append]
  cases hm : m.constructor? with
  | none => simp [hm]
  | some params =>
      cases members.filterMap Member.constructor? with
      | nil => simp [hm]
      | cons first others => simp [hm]

namespace Glue

/-! ## Members -/

section Members

variable {c : Context} {members rest : List Member} {m : Member} {d : Draft}

/-- **One member.** Only a constructor tells anything, and only where one is waiting. -/
theorem events_accept (c : Context) (d : Draft) (m : Member) :
    (d.accept c m).events =
      if d.constructor.isSome ∧ m.constructor?.isSome then [.constructorRedeclared c.name]
      else [] := by
  cases m with
  | constructor params =>
      rw [Draft.accept]
      cases d.constructor.isSome with
      | true =>
          rw [if_pos rfl, Logged.bind_of_ok rfl]
          exact congrArg ([.constructorRedeclared c.name] ++ ·) (Logged.events_bind_pure _ _)
      | false => exact Logged.events_bind_pure _ _
  | method m =>
      exact (Logged.events_bind_pure _ _).trans (if_neg fun h => Bool.false_ne_true h.2).symm
  | property p =>
      exact (Logged.events_bind_pure _ _).trans (if_neg fun h => Bool.false_ne_true h.2).symm

theorem outcome_ofMembers (c : Context) (members : List Member) :
    (members.foldlM (Draft.accept c) Draft.empty).outcome = Draft.ofMembers c members :=
  Logged.outcome_foldlM _ _ _

/-- Behind members that are taken the next one is told by its kind. -/
theorem events_ofMembers_append (taken : List Member) (m : Member)
    (h : ∀ m ∈ taken, m.Admissible c.rules.registry c.rules.delegates) :
    ((taken ++ [m]).foldlM (Draft.accept c) Draft.empty).events =
      (taken.foldlM (Draft.accept c) Draft.empty).events ++
        if (lastConstructor? taken).isSome ∧ m.constructor?.isSome then
          [.constructorRedeclared c.name] else [] := by
  obtain ⟨d, hd⟩ := (Draft.ofMembers_verdict c taken).ok_iff.mpr h
  have hwaits := (Draft.of_ofMembers hd).pending.2
  rw [← outcome_ofMembers] at hd
  rw [List.foldlM_append, Logged.bind_of_ok hd, List.foldlM_cons, ← hwaits, ← events_accept c d m]
  exact congrArg _ (Logged.events_bind_pure _ id)

/-- Members that are taken tell the warnings of their constructors. -/
theorem events_ofMembers (h : ∀ m ∈ members, m.Admissible c.rules.registry c.rules.delegates) :
    (members.foldlM (Draft.accept c) Draft.empty).events = redeclarations c.name members := by
  induction members using List.reverseRecOn with
  | nil => rfl
  | append_singleton taken m ih =>
      have htaken := (List.forall_mem_append.mp h).1
      rw [events_ofMembers_append taken m htaken, ih htaken, redeclarations_append]

/-- So does the member that is refused, and none behind it. -/
theorem events_ofMembers_of_refused {taken : List Member}
    (htaken : ∀ m ∈ taken, m.Admissible c.rules.registry c.rules.delegates)
    (hm : ¬ m.Admissible c.rules.registry c.rules.delegates) :
    ((taken ++ m :: rest).foldlM (Draft.accept c) Draft.empty).events =
      redeclarations c.name (taken ++ [m]) := by
  have hrun := Draft.ofMembers_verdict c (taken ++ [m])
  obtain ⟨e, he⟩ := hrun.exists_refused fun hall => hm (hall m (by simp))
  have he := (outcome_ofMembers c (taken ++ [m])).trans ((hrun.error_iff e).mpr he)
  rw [List.append_cons, List.foldlM_append, Logged.bind_of_error he,
    events_ofMembers_append taken m htaken, events_ofMembers htaken, redeclarations_append]

/-- The sizes that are told of a draft are those of its interface. -/
theorem Draft.Of.summary {i : Interface} (hd : d.Of c i.members) (hname : c.name = i.name) :
    d.summary c = i.summary := by
  have hlast : d.constructor.map PendingConstructor.paramCount =
      (lastConstructor? i.members).map List.length := by
    have hpending := hd.constructor
    cases hlast : lastConstructor? i.members with
    | none =>
        rw [hlast] at hpending
        rw [← Except.ok.inj hpending]
        rfl
    | some params =>
        rw [hlast] at hpending
        obtain ⟨pending, hconstructor, h⟩ := Traversal.bind_eq_ok_iff.mp hpending
        obtain ⟨function, _, hmade⟩ := Traversal.bind_eq_ok_iff.mp hconstructor
        rw [← Except.ok.inj h, ← Except.ok.inj hmade]
        rfl
  rw [Draft.summary, Interface.summary, hd.methods, hd.properties, hlast, hname]

end Members

/-! ## Interfaces and delegates -/

/-- The sizes that are told of an interface are those of the tables of its glue. -/
def Summarised (i : Interface) (g : InterfaceGlue) : Prop :=
  i.summary = .interfaceGenerated i.name g.methods.length g.properties.length
    ((lastConstructor? i.members).map List.length)

section Interfaces

variable {rules : Rules} {i : Interface} {d : Delegate} {g : InterfaceGlue}

theorem events_interfaceGlue (h : ∀ m ∈ i.members, m.Admissible rules.registry rules.delegates) :
    (interfaceGlue rules i).events = i.told := by
  let c : Context := { name := i.name, rules }
  obtain ⟨d, hd⟩ := (Draft.ofMembers_verdict c i.members).ok_iff.mpr h
  have hsummary : d.summary c = i.summary := (Draft.of_ofMembers hd).summary rfl
  rw [← outcome_ofMembers] at hd
  rw [interfaceGlue, Logged.bind_of_ok hd]
  show (i.members.foldlM (Draft.accept c) Draft.empty).events ++ [d.summary c] = _
  rw [events_ofMembers (c := c) h, hsummary]
  rfl

theorem events_interfaceGlue_of_refused {taken rest : List Member} {m : Member}
    (hmembers : i.members = taken ++ m :: rest)
    (htaken : ∀ m ∈ taken, m.Admissible rules.registry rules.delegates)
    (hm : ¬ m.Admissible rules.registry rules.delegates) :
    (interfaceGlue rules i).events = redeclarations i.name (taken ++ [m]) := by
  let c : Context := { name := i.name, rules }
  have hrun := Draft.ofMembers_verdict c i.members
  obtain ⟨e, he⟩ := hrun.exists_refused fun hall => hm (hall m (by simp [hmembers]))
  have he := (outcome_ofMembers c i.members).trans ((hrun.error_iff e).mpr he)
  rw [interfaceGlue, Logged.bind_of_error he, hmembers]
  exact events_ofMembers_of_refused (c := c) htaken hm

theorem summarised_interfaceGlue (h : (interfaceGlue rules i).outcome = .ok g) :
    Summarised i g := by
  rw [outcome_interfaceGlue] at h
  obtain ⟨d, hd, h⟩ := Traversal.bind_eq_ok_iff.mp h
  cases h
  have hof := Draft.of_ofMembers hd
  show Interface.summary i = .interfaceGenerated i.name d.methods.length d.properties.length _
  rw [hof.methods, hof.properties]
  rfl

/-- A delegate tells its name with its glue, and nothing without. -/
theorem events_callbackGlue (rules : Rules) (d : Delegate) :
    (callbackGlue rules d).events =
      if (callbackGlue rules d).outcome.isOk then [d.told] else [] := by
  rw [callbackGlue]
  cases rules.signatureType d.result with
  | error e => rfl
  | ok result =>
      have hquiet := Logged.events_mapM_liftM (fun p : Param => rules.signatureType p.type) d.params
      rw [Logged.bind_of_ok (a := result) rfl]
      cases hparams : (d.params.mapM fun p : Param =>
          (liftM (rules.signatureType p.type) : Logged String)).outcome with
      | error e =>
          rw [Logged.bind_of_error hparams]
          exact hquiet
      | ok params =>
          rw [Logged.bind_of_ok hparams]
          exact congrArg (· ++ [d.told]) hquiet

theorem events_callbackGlue_of_error {e : Fault} (h : (callbackGlue rules d).outcome = .error e) :
    (callbackGlue rules d).events = [] := by
  rw [events_callbackGlue, h]
  rfl

end Interfaces

/-! ## Files -/

/-- The file is refused with the fault, and these are the events. Those of a refused member are of
the delegates, of the interfaces before its own, and of the constructors of this one up to it. -/
inductive Stopped (registry : Registry) (file : SourceFile) : Fault → List Event → Prop
  | duplicateInterface {i : Interface} : FirstRepeat Interface.flatName file.interfaces i →
      Stopped registry file (.duplicateInterface i.name) []
  | duplicateDelegate {d : Delegate} : (file.interfaces.map Interface.flatName).Nodup →
      FirstRepeat Delegate.flatName file.delegates d →
      Stopped registry file (.duplicateDelegate d.name) []
  | delegate {e : Fault} {before after : List Delegate} {d : Delegate} :
      (file.interfaces.map Interface.flatName).Nodup →
      (file.delegates.map Delegate.flatName).Nodup →
      file.delegates = before ++ d :: after → (∀ d ∈ before, d.Admissible) → d.Refused e →
      Stopped registry file e (before.map Delegate.told)
  | member {e : Fault} {before after : List Interface} {i : Interface} {taken rest : List Member}
      {m : Member} : (file.interfaces.map Interface.flatName).Nodup →
      (file.delegates.map Delegate.flatName).Nodup → (∀ d ∈ file.delegates, d.Admissible) →
      file.interfaces = before ++ i :: after →
      (∀ j ∈ before, ∀ m ∈ j.members, m.Admissible registry file.delegates) →
      i.members = taken ++ m :: rest → (∀ m ∈ taken, m.Admissible registry file.delegates) →
      m.Refused registry file.delegates e →
      Stopped registry file e (file.delegates.map Delegate.told ++ before.flatMap Interface.told ++
        redeclarations i.name (taken ++ [m]))

/-- What is told while the glue of a file is made, and where it is refused. -/
structure TellsFile (registry : Registry) (file : SourceFile) (x : Logged FileGlue) : Prop where
  made : ∀ glue, x.outcome = .ok glue →
    x.events = file.delegates.map Delegate.told ++ file.interfaces.flatMap Interface.told ∧
      List.Forall₂ Summarised file.interfaces glue.interfaces
  stopped : ∀ e, x.outcome = .error e → Stopped registry file e x.events

section Files

variable {dialect : Dialect} {registry : Registry} {file : SourceFile}

/-- Delegates that are admissible have their glue, and tell one event each. -/
theorem events_callbacks (rules : Rules) {delegates : List Delegate}
    (h : ∀ d ∈ delegates, d.Admissible) :
    (∀ d ∈ delegates, ∃ g, (callbackGlue rules d).outcome = .ok g) ∧
      delegates.flatMap (fun d => (callbackGlue rules d).events) = delegates.map Delegate.told := by
  have hok : ∀ d ∈ delegates, ∃ g, (callbackGlue rules d).outcome = .ok g := fun d hd =>
    (callbackGlue_verdict rules d).ok_iff.mpr (h d hd)
  refine ⟨hok, ?_⟩
  rw [List.map_eq_flatMap, List.flatMap_congr]
  intro d hd
  rw [events_callbackGlue, if_pos (Traversal.isOk_iff.mpr (hok d hd))]

/-- Interfaces that are admissible have their glue, and tell what whole interfaces tell. -/
theorem events_interfaces (rules : Rules) {interfaces : List Interface}
    (h : ∀ i ∈ interfaces, ∀ m ∈ i.members, m.Admissible rules.registry rules.delegates) :
    (∀ i ∈ interfaces, ∃ g, (interfaceGlue rules i).outcome = .ok g) ∧
      interfaces.flatMap (fun i => (interfaceGlue rules i).events) =
        interfaces.flatMap Interface.told := by
  refine ⟨fun i hi => (interfaceGlue_verdict rules i).ok_iff.mpr (h i hi), ?_⟩
  rw [List.flatMap_congr]
  intro i hi
  exact events_interfaceGlue (h i hi)

theorem events_fileGlue_of_repeat {e : Fault} (h : checkNames file = .error e) :
    (fileGlue dialect registry file).events = [] := by
  rw [fileGlue, Logged.bind_of_error h]
  rfl

/-- Where no name is repeated, the delegates tell before the interfaces. -/
theorem events_fileGlue_of_ok {callbacks : List CallbackGlue} (hnames : checkNames file = .ok ())
    (h : (file.delegates.mapM (callbackGlue (rulesFor dialect registry file))).outcome =
      .ok callbacks) :
    (fileGlue dialect registry file).events =
      (file.delegates.mapM (callbackGlue (rulesFor dialect registry file))).events ++
        (file.interfaces.mapM (interfaceGlue (rulesFor dialect registry file))).events := by
  rw [fileGlue, Logged.bind_of_ok (a := ()) hnames]
  show [] ++ (file.delegates.mapM (callbackGlue (rulesFor dialect registry file)) >>= _).events = _
  rw [List.nil_append, Logged.bind_of_ok h]
  exact congrArg _ (Logged.events_bind_pure _ _)

theorem events_fileGlue_of_error {e : Fault} (hnames : checkNames file = .ok ())
    (h : (file.delegates.mapM (callbackGlue (rulesFor dialect registry file))).outcome =
      .error e) :
    (fileGlue dialect registry file).events =
      (file.delegates.mapM (callbackGlue (rulesFor dialect registry file))).events := by
  rw [fileGlue, Logged.bind_of_ok (a := ()) hnames]
  show [] ++ (file.delegates.mapM (callbackGlue (rulesFor dialect registry file)) >>= _).events = _
  rw [List.nil_append, Logged.bind_of_error h]

theorem checkNames_of_nodup (hinterfaces : (file.interfaces.map Interface.flatName).Nodup)
    (hdelegates : (file.delegates.map Delegate.flatName).Nodup) : checkNames file = .ok () := by
  obtain ⟨⟨⟩, hnames⟩ := (checkNames_verdict file).ok_iff.mpr ⟨hinterfaces, hdelegates⟩
  exact hnames

theorem exists_callbacks (rules : Rules) {delegates : List Delegate}
    (h : ∀ d ∈ delegates, d.Admissible) :
    ∃ callbacks, (delegates.mapM (callbackGlue rules)).outcome = .ok callbacks := by
  rw [Logged.outcome_mapM]
  exact (Verdict.mapM fun d _ => callbackGlue_verdict rules d).ok_iff.mpr h

/-- A file that has its glue tells of all its delegates and of all its interfaces. -/
theorem events_fileGlue {glue : FileGlue}
    (h : (fileGlue dialect registry file).outcome = .ok glue) :
    (fileGlue dialect registry file).events =
      file.delegates.map Delegate.told ++ file.interfaces.flatMap Interface.told := by
  let rules : Rules := rulesFor dialect registry file
  have hadmissible := (fileGlue_verdict dialect registry file).ok_iff.mp ⟨glue, h⟩
  obtain ⟨callbacks, hcallbacks⟩ := exists_callbacks rules hadmissible.delegates
  obtain ⟨hok, hevents⟩ := events_callbacks rules hadmissible.delegates
  obtain ⟨hok', hevents'⟩ := events_interfaces rules hadmissible.members
  have hnames := checkNames_of_nodup hadmissible.interfaceNames hadmissible.delegateNames
  rw [events_fileGlue_of_ok hnames hcallbacks, Logged.events_mapM hok, Logged.events_mapM hok',
    hevents, hevents']

/-- A file that is refused at a delegate tells of the delegates before that. -/
theorem events_fileGlue_of_delegate {e : Fault} {before after : List Delegate} {d : Delegate}
    (hnames : checkNames file = .ok ()) (hfile : file.delegates = before ++ d :: after)
    (hbefore : ∀ d ∈ before, d.Admissible) (hd : d.Refused e) :
    (fileGlue dialect registry file).events = before.map Delegate.told := by
  let rules : Rules := rulesFor dialect registry file
  have hpass : (file.delegates.mapM (callbackGlue rules)).outcome = .error e := by
    rw [Logged.outcome_mapM]
    exact ((Verdict.mapM fun d _ => callbackGlue_verdict rules d).error_iff e).mpr
      ⟨before, d, after, hfile, hbefore, hd⟩
  obtain ⟨hok, hevents⟩ := events_callbacks rules hbefore
  have hrefused := ((callbackGlue_verdict rules d).error_iff e).mpr hd
  rw [events_fileGlue_of_error hnames hpass, hfile, Logged.events_mapM_append _ hok,
    Logged.events_mapM_of_error hrefused, hevents, events_callbackGlue_of_error hrefused,
    List.append_nil]

/-- A file that is refused at a member tells of its delegates, of the interfaces before that, and
the warnings of this one up to the member. -/
theorem events_fileGlue_of_member {e : Fault} {before after : List Interface} {i : Interface}
    {taken rest : List Member} {m : Member} (hnames : checkNames file = .ok ())
    (hdelegates : ∀ d ∈ file.delegates, d.Admissible)
    (hfile : file.interfaces = before ++ i :: after)
    (hbefore : ∀ j ∈ before, ∀ m ∈ j.members, m.Admissible registry file.delegates)
    (hmembers : i.members = taken ++ m :: rest)
    (htaken : ∀ m ∈ taken, m.Admissible registry file.delegates)
    (hm : m.Refused registry file.delegates e) :
    (fileGlue dialect registry file).events =
      file.delegates.map Delegate.told ++ before.flatMap Interface.told ++
        redeclarations i.name (taken ++ [m]) := by
  let rules : Rules := rulesFor dialect registry file
  obtain ⟨callbacks, hcallbacks⟩ := exists_callbacks rules hdelegates
  obtain ⟨hok, hevents⟩ := events_callbacks rules hdelegates
  obtain ⟨hok', hevents'⟩ := events_interfaces rules hbefore
  have hrefused : (interfaceGlue rules i).outcome = .error e :=
    ((interfaceGlue_verdict rules i).error_iff e).mpr ⟨taken, m, rest, hmembers, htaken, hm⟩
  have hnot := (accept_verdict { name := i.name, rules } Draft.empty m).not_accepted hm
  rw [events_fileGlue_of_ok hnames hcallbacks, Logged.events_mapM hok, hevents, hfile,
    Logged.events_mapM_append _ hok', Logged.events_mapM_of_error hrefused, hevents',
    events_interfaceGlue_of_refused hmembers htaken hnot, ← List.append_assoc]

/-- **A file that has its glue tells of each delegate and then of each interface, in its order: the
warnings of the constructors after the first, and the sizes of its tables and of its last
constructor.** A refused file tells the same up to the place where it is refused. -/
theorem tells_fileGlue (dialect : Dialect) (registry : Registry) (file : SourceFile) :
    TellsFile registry file (fileGlue dialect registry file) := by
  refine ⟨fun glue hglue => ⟨events_fileGlue hglue, ?_⟩, fun e he => ?_⟩
  · exact (fileGlue_parts hglue).2.2.imp fun i g h => summarised_interfaceGlue h
  · have hnames := (checkNames_verdict file).error_iff
    cases ((fileGlue_verdict dialect registry file).error_iff e).mp he with
    | @duplicateInterface i hi =>
        rw [events_fileGlue_of_repeat ((hnames _).mpr (Or.inl ⟨i, hi, rfl⟩))]
        exact .duplicateInterface hi
    | @duplicateDelegate d hinterfaces hd =>
        rw [events_fileGlue_of_repeat ((hnames _).mpr (Or.inr ⟨hinterfaces, d, hd, rfl⟩))]
        exact .duplicateDelegate hinterfaces hd
    | delegate hinterfaces hdelegates h =>
        obtain ⟨before, d, after, hfile, hbefore, hd⟩ := h
        rw [events_fileGlue_of_delegate (checkNames_of_nodup hinterfaces hdelegates) hfile hbefore
          hd]
        exact .delegate hinterfaces hdelegates hfile hbefore hd
    | member hinterfaces hdelegates htypes h =>
        obtain ⟨before, i, after, hfile, hbefore, hi⟩ := firstRefused_flatMap.mp h
        obtain ⟨taken, m, rest, hmembers, htaken, hm⟩ := hi
        rw [events_fileGlue_of_member (checkNames_of_nodup hinterfaces hdelegates) htypes hfile
          hbefore hmembers htaken hm]
        exact .member hinterfaces hdelegates htypes hfile hbefore hmembers htaken hm

end Files

end Glue

end IdlGlue
