/-
# IdlGlue.Proofs.Resolvers -- which delegate resolves a set

A registry of callbacks is made by calls that register a delegate for a set. Of several calls for
one set the last counts, so a set is resolved in a file by a delegate (`ResolvedBy`) if

    the last call for the set names it, the file declares it, and it has one parameter

and for each of these there is a refusal where it fails (`Unresolved`). `CallbackLaw` follows this
through the glue of a file: which members pass, what is told of the first that does not, and what
is written for those that do, where the cast that is called is defined, and what its argument is.

Delegates are looked up by their qualified names and told apart by the flat ones. The registry is
asked after the flat names are found to be distinct, and so a name is that of one delegate.
-/
import IdlGlue.Proofs.CastLines
import IdlGlue.Proofs.Requests

namespace IdlGlue

open IdlGlue.Native

/-! ## Calls -/

/-- The name in the last call for the set. -/
def LastCall (calls : List (String × String)) (set name : String) : Prop :=
  ∃ before after, calls = before ++ (set, name) :: after ∧ ∀ call ∈ after, call.1 ≠ set

/-- The callbacks that are registered by the calls, one after the other. -/
def Registry.Callbacks.ofCalls (bindingNamespace : String) (calls : List (String × String)) :
    Callbacks :=
  calls.foldl (fun c call => c.register call.1 call.2) (.empty bindingNamespace)

/-- The registry after the calls. -/
def Registry.ofCalls (bindingNamespace : String) (calls : List (String × String)) : Registry :=
  .ofCallbacks (.ofCalls bindingNamespace calls)

section Calls

variable {bindingNamespace : String} {calls : List (String × String)} {set name : String}

/-- The latest call comes first in what is registered. -/
theorem foldl_register (c : Registry.Callbacks) :
    calls.foldl (fun c call => c.register call.1 call.2) c =
      { c with resolvers := calls.reverse ++ c.resolvers } := by
  induction calls generalizing c with
  | nil => rfl
  | cons call calls ih =>
      rw [List.foldl_cons, ih, List.reverse_cons, List.append_assoc]
      rfl

theorem ofCalls_eq : Registry.Callbacks.ofCalls bindingNamespace calls =
    { bindingNamespace, resolvers := calls.reverse } := by
  rw [Registry.Callbacks.ofCalls, foldl_register, Registry.Callbacks.empty, List.append_nil]

theorem resolver?_eq_some_iff :
    (Registry.Callbacks.ofCalls bindingNamespace calls).resolver? set = some name ↔
      LastCall calls set name := by
  rw [ofCalls_eq, Registry.Callbacks.resolver?, List.lookup_eq_some_iff]
  constructor
  · rintro ⟨later, earlier, h, hlater⟩
    refine ⟨earlier.reverse, later.reverse, ?_, fun call hcall => ?_⟩
    · rw [← List.reverse_reverse calls]
      simp only at h
      rw [h]
      simp
    · exact (bne_iff_ne.mp (hlater call (List.mem_reverse.mp hcall))).symm
  · rintro ⟨before, after, rfl, hafter⟩
    refine ⟨after.reverse, before.reverse, by simp, fun call hcall => ?_⟩
    exact bne_iff_ne.mpr (hafter call (List.mem_reverse.mp hcall)).symm

theorem resolver?_eq_none_iff :
    (Registry.Callbacks.ofCalls bindingNamespace calls).resolver? set = none ↔
      ∀ call ∈ calls, call.1 ≠ set := by
  rw [ofCalls_eq, Registry.Callbacks.resolver?, List.lookup_eq_none_iff]
  constructor
  · intro h call hcall
    exact (bne_iff_ne.mp (h call (List.mem_reverse.mpr hcall))).symm
  · intro h call hcall
    exact bne_iff_ne.mpr (h call (List.mem_reverse.mp hcall)).symm

theorem LastCall.mem (h : LastCall calls set name) : (set, name) ∈ calls := by
  obtain ⟨before, after, rfl, _⟩ := h
  exact List.mem_append_right _ List.mem_cons_self

theorem LastCall.unique {name' : String} (h : LastCall calls set name)
    (h' : LastCall calls set name') : name = name' := by
  have hname : (Registry.Callbacks.ofCalls "" calls).resolver? set = some name :=
    resolver?_eq_some_iff.mpr h
  rw [resolver?_eq_some_iff.mpr h'] at hname
  exact (Option.some.inj hname).symm

/-- Calls for other sets do not count. -/
theorem lookup_filter (calls : List (String × String)) :
    (calls.filter (·.1 = set)).lookup set = calls.lookup set := by
  induction calls with
  | nil => rfl
  | cons call calls ih =>
      obtain ⟨key, value⟩ := call
      by_cases hkey : key = set
      · subst hkey
        simp
      · rw [List.filter_cons_of_neg (by simpa using hkey), ih, List.lookup_cons,
          beq_eq_false_iff_ne.mpr (Ne.symm hkey)]

theorem resolver?_eq_of_filter {calls' : List (String × String)}
    (h : calls.filter (·.1 = set) = calls'.filter (·.1 = set)) :
    (Registry.Callbacks.ofCalls bindingNamespace calls).resolver? set =
      (Registry.Callbacks.ofCalls bindingNamespace calls').resolver? set := by
  rw [ofCalls_eq, ofCalls_eq, Registry.Callbacks.resolver?, Registry.Callbacks.resolver?,
    ← lookup_filter, ← lookup_filter calls'.reverse, List.filter_reverse, List.filter_reverse, h]

end Calls

/-! ## Sets in a file -/

/-- The set is resolved by the delegate: the last call for it names the delegate, which is declared
and has one parameter. -/
structure ResolvedBy (calls : List (String × String)) (delegates : List Delegate) (set : String)
    (d : Delegate) : Prop where
  last : LastCall calls set d.name
  declared : d ∈ delegates
  one : d.params.length = 1

/-- Why a set is not resolved. -/
inductive Unresolved (calls : List (String × String)) (delegates : List Delegate) (set : String) :
    ResolverProblem → Prop
  | unregistered : (∀ call ∈ calls, call.1 ≠ set) → Unresolved calls delegates set .unregistered
  | undeclared {name : String} : LastCall calls set name → (∀ d ∈ delegates, d.name ≠ name) →
      Unresolved calls delegates set (.undeclared name)
  | wrongArity {d : Delegate} : LastCall calls set d.name → d ∈ delegates → d.params.length ≠ 1 →
      Unresolved calls delegates set (.wrongArity d.name)

/-- The call of the callback of a delegate with the selector. -/
def Delegate.resolution (d : Delegate) (bindingNamespace selector : String) : String :=
  "As" ++ d.flatName ++ "(" ++ bindingNamespace ++ "::GetRegisteredCallback(L\"" ++ d.name ++
    "\"))(" ++ selector ++ ")"

section Prototype

variable {bindingNamespace set selector : String} {calls : List (String × String)}
  {delegates : List Delegate} {d : Delegate}

/-- Where the flat names are distinct, a name is that of one delegate. -/
theorem eq_of_name_eq {d' : Delegate} (hnames : (delegates.map Delegate.flatName).Nodup)
    (hd : d ∈ delegates) (hd' : d' ∈ delegates) (hname : d.name = d'.name) : d = d' := by
  have hflat : d.flatName = d'.flatName := by
    rw [Delegate.flatName, hname]
    rfl
  exact List.inj_on_of_nodup_map hnames hd hd' hflat

/-- The refusal of a set. -/
def refusal (set : String) (problem : ResolverProblem) : Fault :=
  .unsupportedType ("anyof<" ++ set ++ ">") (.registry problem)

/-- What is resolved has no reason not to be. -/
theorem ResolvedBy.not_unresolved {problem : ResolverProblem}
    (hnames : (delegates.map Delegate.flatName).Nodup) (h : ResolvedBy calls delegates set d) :
    ¬ Unresolved calls delegates set problem := by
  intro hproblem
  cases hproblem with
  | unregistered hcalls => exact hcalls _ h.last.mem rfl
  | undeclared hlast hundeclared => exact hundeclared d h.declared (h.last.unique hlast)
  | @wrongArity d' hlast hdeclared harity =>
      have heq : d = d' := eq_of_name_eq hnames h.declared hdeclared (h.last.unique hlast)
      rw [← heq] at harity
      exact harity h.one

/-- There is one reason at most. -/
theorem Unresolved.unique {problem problem' : ResolverProblem}
    (h : Unresolved calls delegates set problem) (h' : Unresolved calls delegates set problem') :
    problem = problem' := by
  cases h with
  | unregistered hcalls =>
      cases h' with
      | unregistered => rfl
      | undeclared hlast => exact absurd rfl (hcalls _ hlast.mem)
      | wrongArity hlast => exact absurd rfl (hcalls _ hlast.mem)
  | undeclared hlast hundeclared =>
      cases h' with
      | unregistered hcalls => exact absurd rfl (hcalls _ hlast.mem)
      | undeclared hlast' => rw [hlast.unique hlast']
      | wrongArity hlast' hdeclared => exact absurd (hlast'.unique hlast) (hundeclared _ hdeclared)
  | wrongArity hlast hdeclared =>
      cases h' with
      | unregistered hcalls => exact absurd rfl (hcalls _ hlast.mem)
      | undeclared hlast' hundeclared =>
          exact absurd (hlast.unique hlast') (hundeclared _ hdeclared)
      | wrongArity hlast' => rw [hlast.unique hlast']

/-- The answer of the registry: the call of the callback of the delegate that resolves the set, or
what is missing. -/
theorem prototype_ofCalls_cases (bindingNamespace set selector : String)
    (calls : List (String × String)) (delegates : List Delegate) :
    (∃ d, ResolvedBy calls delegates set d ∧
      (Registry.ofCalls bindingNamespace calls).prototype { set, selector, delegates } =
        .ok (d.resolution bindingNamespace selector)) ∨
    ∃ problem, Unresolved calls delegates set problem ∧
      (Registry.ofCalls bindingNamespace calls).prototype { set, selector, delegates } =
        .error (refusal set problem) := by
  -- The registry looks for the set, then for the delegate, and then at the number of parameters.
  simp only [Registry.ofCalls, Registry.ofCallbacks]
  split
  · next hnone => exact Or.inr ⟨_, .unregistered (resolver?_eq_none_iff.mp hnone), rfl⟩
  · next name hsome =>
      have hlast := resolver?_eq_some_iff.mp hsome
      split
      · next hnone =>
          refine Or.inr ⟨_, .undeclared hlast fun d hd => ?_, rfl⟩
          simpa using List.find?_eq_none.mp hnone d hd
      · next d hfind =>
          have hd : d ∈ delegates := List.mem_of_find?_eq_some hfind
          obtain rfl : d.name = name := by simpa using List.find?_some hfind
          split
          · next hone =>
              refine Or.inl ⟨d, ⟨hlast, hd, hone⟩, ?_⟩
              rw [ofCalls_eq]
              rfl
          · next harity => exact Or.inr ⟨_, .wrongArity hlast hd harity, rfl⟩

/-- **A set is passed exactly if it is resolved in the file**, with the call of the callback of its
delegate; otherwise it is refused for what is missing. -/
theorem prototype_ofCalls_verdict (bindingNamespace set selector : String)
    (calls : List (String × String)) (hnames : (delegates.map Delegate.flatName).Nodup) :
    Verdict ((Registry.ofCalls bindingNamespace calls).prototype { set, selector, delegates })
      (∃ d, ResolvedBy calls delegates set d)
      (fun e => ∃ problem, Unresolved calls delegates set problem ∧ e = refusal set problem) := by
  rcases prototype_ofCalls_cases bindingNamespace set selector calls delegates with
    ⟨d, hd, hok⟩ | ⟨problem, hproblem, herror⟩
  · rw [hok]
    refine (Verdict.ok _).congr (iff_of_true trivial ⟨d, hd⟩) fun e => iff_of_false id ?_
    rintro ⟨problem, hproblem, _⟩
    exact hd.not_unresolved hnames hproblem
  · rw [herror]
    refine (Verdict.error _).congr (iff_of_false id ?_) fun e => ?_
    · rintro ⟨d, hd⟩
      exact hd.not_unresolved hnames hproblem
    · constructor
      · rintro rfl
        exact ⟨problem, hproblem, rfl⟩
      · rintro ⟨problem', hproblem', rfl⟩
        rw [hproblem.unique hproblem']

end Prototype

/-! ## Files -/

/-- No parameter of the member is refused. -/
def Member.ParamsPass : Member → Prop
  | .constructor params => ∀ p ∈ params, p.type.Passable
  | .method m => ∀ p ∈ m.params, p.type.Passable
  | .property _ => True

/-- Nothing that comes before the type which the member gives out is refused. -/
structure SourceFile.Reaches (registry : Registry) (file : SourceFile) (before : List Member)
    (m : Member) : Prop where
  interfaceNames : (file.interfaces.map Interface.flatName).Nodup
  delegateNames : (file.delegates.map Delegate.flatName).Nodup
  delegates : ∀ d ∈ file.delegates, d.Admissible
  before : ∀ m ∈ before, m.Admissible registry file.delegates
  params : m.ParamsPass

namespace Glue

/-- Prototypes in the glue are found by the delegates that resolve the sets. -/
structure FileGlue.FindsBy (bindingNamespace : String) (calls : List (String × String))
    (file : SourceFile) (glue : FileGlue) : Prop where
  /-- Whatever a member asks for is found. -/
  produced : ∀ i ∈ file.interfaces, ∀ m ∈ i.members, ∀ set selector, m.Asks set selector →
    ∃ d, ResolvedBy calls file.delegates set d ∧ ∃ g ∈ glue.interfaces, ∃ f ∈ g.functions,
      ∃ s ∈ f.body, .prototype (.resolved (d.resolution bindingNamespace selector)) ∈ s.operands
  /-- And nothing else is. -/
  found : ∀ g ∈ glue.interfaces, ∀ f ∈ g.functions, ∀ before s after expression,
    f.body = before ++ s :: after → .prototype (.resolved expression) ∈ s.operands →
    ∃ i ∈ file.interfaces, ∃ m ∈ i.members, ∃ set selector d, m.Asks set selector ∧
      ResolvedBy calls file.delegates set d ∧
      expression = d.resolution bindingNamespace selector ∧ Ready before m selector

/-- What the calls that register delegates have to do with the glue of a file. -/
structure CallbackLaw (dialect : Dialect) (bindingNamespace : String)
    (calls : List (String × String)) (file : SourceFile) : Prop where
  /-- Sets pass that are resolved. -/
  passed : (file.delegates.map Delegate.flatName).Nodup → ∀ set selector,
    Verdict ((Registry.ofCalls bindingNamespace calls).prototype
        { set, selector, delegates := file.delegates })
      (∃ d, ResolvedBy calls file.delegates set d)
      (fun e => ∃ problem, Unresolved calls file.delegates set problem ∧ e = refusal set problem)
  /-- There is glue if all sets that are asked for pass, and there is glue with the registry that
  knows every set. -/
  generated : ∀ hashFunction,
    (∃ glue, (fileGlue dialect (.ofCalls bindingNamespace calls) file).outcome = .ok glue) ↔
      (∃ glue, (fileGlue dialect (.hashed bindingNamespace hashFunction) file).outcome =
        .ok glue) ∧
      ∀ i ∈ file.interfaces, ∀ m ∈ i.members, ∀ set selector, m.Asks set selector →
        ∃ d, ResolvedBy calls file.delegates set d
  /-- For a set that does not pass there is no glue, and it is told why unless something before
  is refused. -/
  refused : ∀ before m after set selector,
    file.interfaces.flatMap Interface.members = before ++ m :: after → m.Asks set selector →
    (¬ ∃ d, ResolvedBy calls file.delegates set d) →
    ∃ e, (fileGlue dialect (.ofCalls bindingNamespace calls) file).outcome = .error e ∧
      (file.Reaches (.ofCalls bindingNamespace calls) before m →
        ∃ problem, Unresolved calls file.delegates set problem ∧ e = refusal set problem)
  finds : ∀ glue, (fileGlue dialect (.ofCalls bindingNamespace calls) file).outcome = .ok glue →
    glue.FindsBy bindingNamespace calls file
  /-- The code has an alias and a cast for each delegate, ahead of its namespace. -/
  writes : ∀ glue, (fileGlue dialect (.ofCalls bindingNamespace calls) file).outcome = .ok glue →
    glue.WritesDelegates (rulesFor dialect (.ofCalls bindingNamespace calls) file) file
  /-- And where the file is read from a text, nothing else in the code is such a cast. -/
  castOnce : dialect.Plain → Lacks '\n' bindingNamespace →
    (∃ text, SourceFile.ofText text = .ok file) →
    ∀ glue, (fileGlue dialect (.ofCalls bindingNamespace calls) file).outcome = .ok glue →
      ∀ d ∈ file.delegates, CastOnce d.flatName glue.code
  /-- Calls for other sets change nothing. -/
  others : ∀ calls' : List (String × String),
    (∀ i ∈ file.interfaces, ∀ m ∈ i.members, ∀ set selector, m.Asks set selector →
      calls.filter (·.1 = set) = calls'.filter (·.1 = set)) →
    fileGlue dialect (.ofCalls bindingNamespace calls') file =
      fileGlue dialect (.ofCalls bindingNamespace calls) file

section Files

variable {dialect : Dialect} {bindingNamespace : String} {calls : List (String × String)}
  {file : SourceFile} {glue : FileGlue}

theorem exists_fileGlue_iff {registry : Registry} :
    (∃ glue, (fileGlue dialect registry file).outcome = .ok glue) ↔ file.Admissible registry :=
  (fileGlue_verdict dialect registry file).ok_iff

/-- Files are admissible if they are with the registry that knows every set, and what their
members ask for is answered. -/
theorem sourceFile_admissible_iff_asks {registry : Registry}
    (bindingNamespace hashFunction : String) :
    file.Admissible registry ↔ file.Admissible (.hashed bindingNamespace hashFunction) ∧
      ∀ i ∈ file.interfaces, ∀ m ∈ i.members, ∀ set selector, m.Asks set selector →
        ∃ expression, registry.prototype { set, selector, delegates := file.delegates } =
          .ok expression := by
  constructor
  · rintro ⟨hinterfaces, hdelegates, htypes, hmembers⟩
    have hboth := fun i hi m hm =>
      (admissible_iff_asks bindingNamespace hashFunction).mp (hmembers i hi m hm)
    exact ⟨⟨hinterfaces, hdelegates, htypes, fun i hi m hm => (hboth i hi m hm).1⟩,
      fun i hi m hm => (hboth i hi m hm).2⟩
  · rintro ⟨⟨hinterfaces, hdelegates, htypes, hmembers⟩, hanswers⟩
    exact ⟨hinterfaces, hdelegates, htypes, fun i hi m hm =>
      (admissible_iff_asks bindingNamespace hashFunction).mpr
        ⟨hmembers i hi m hm, hanswers i hi m hm⟩⟩

theorem generated_ofCalls (hashFunction : String) :
    (∃ glue, (fileGlue dialect (.ofCalls bindingNamespace calls) file).outcome = .ok glue) ↔
      (∃ glue, (fileGlue dialect (.hashed bindingNamespace hashFunction) file).outcome =
        .ok glue) ∧
      ∀ i ∈ file.interfaces, ∀ m ∈ i.members, ∀ set selector, m.Asks set selector →
        ∃ d, ResolvedBy calls file.delegates set d := by
  rw [exists_fileGlue_iff, exists_fileGlue_iff,
    sourceFile_admissible_iff_asks bindingNamespace hashFunction]
  refine and_congr_right fun hadmissible => ?_
  have hpass := fun set selector => (prototype_ofCalls_verdict bindingNamespace set selector calls
    hadmissible.delegateNames).ok_iff
  simp only [hpass]

/-- What a member that is reached asks for is told where it does not pass. -/
theorem firstFault_of_asks {registry : Registry} {before after : List Member} {m : Member}
    {set selector : String} {e : Fault}
    (hmembers : file.interfaces.flatMap Interface.members = before ++ m :: after)
    (hasks : m.Asks set selector) (hreach : file.Reaches registry before m)
    (h : registry.prototype { set, selector, delegates := file.delegates } = .error e) :
    file.FirstFault registry e := by
  -- The request is what comes last in a method and first in a property.
  have hrefused : m.Refused registry file.delegates e := by
    cases hasks with
    | @method m _ hresult =>
        refine .result hreach.params (by simp [hresult]) ?_
        rw [hresult]
        exact .registry h
    | @property p _ htype =>
        refine .getter ?_
        rw [htype]
        exact .registry h
  exact .member hreach.interfaceNames hreach.delegateNames hreach.delegates
    ⟨before, m, after, hmembers, hreach.before, hrefused⟩

theorem refused_ofCalls {before after : List Member} {m : Member} {set selector : String}
    (hmembers : file.interfaces.flatMap Interface.members = before ++ m :: after)
    (hasks : m.Asks set selector) (hset : ¬ ∃ d, ResolvedBy calls file.delegates set d) :
    ∃ e, (fileGlue dialect (.ofCalls bindingNamespace calls) file).outcome = .error e ∧
      (file.Reaches (.ofCalls bindingNamespace calls) before m →
        ∃ problem, Unresolved calls file.delegates set problem ∧ e = refusal set problem) := by
  have hmem : m ∈ file.interfaces.flatMap Interface.members := by
    rw [hmembers]
    exact List.mem_append_right _ List.mem_cons_self
  obtain ⟨i, hi, hm⟩ := List.mem_flatMap.mp hmem
  cases houtcome : (fileGlue dialect (.ofCalls bindingNamespace calls) file).outcome with
  | ok glue =>
      have hall := ((generated_ofCalls "").mp ⟨glue, houtcome⟩).2
      exact absurd (hall i hi m hm set selector hasks) hset
  | error e =>
      refine ⟨e, rfl, fun hreach => ?_⟩
      rcases prototype_ofCalls_cases bindingNamespace set selector calls file.delegates with
        ⟨d, hd, _⟩ | ⟨problem, hproblem, herror⟩
      · exact absurd ⟨d, hd⟩ hset
      · have hfault := firstFault_of_asks hmembers hasks hreach herror
        have htold := ((fileGlue_verdict dialect _ file).error_iff _).mpr hfault
        rw [houtcome] at htold
        exact ⟨problem, hproblem, Except.error.inj htold⟩

theorem findsBy_of_fileGlue
    (h : (fileGlue dialect (.ofCalls bindingNamespace calls) file).outcome = .ok glue) :
    glue.FindsBy bindingNamespace calls file := by
  obtain ⟨_, _, hinterfaces⟩ := fileGlue_parts h
  have hanswer : ∀ {set selector expression},
      (Registry.ofCalls bindingNamespace calls).prototype
        { set, selector, delegates := file.delegates } = .ok expression →
      ∃ d, ResolvedBy calls file.delegates set d ∧
        expression = d.resolution bindingNamespace selector := by
    intro set selector expression hok
    rcases prototype_ofCalls_cases bindingNamespace set selector calls file.delegates with
      ⟨d, hd, hresolution⟩ | ⟨_, _, herror⟩
    · rw [hok] at hresolution
      exact ⟨d, hd, Except.ok.inj hresolution⟩
    · rw [hok] at herror
      cases herror
  constructor
  · intro i hi m hm set selector hasks
    have hall : ∀ i ∈ file.interfaces, ∃ g ∈ glue.interfaces,
        (interfaceGlue (rulesFor dialect (.ofCalls bindingNamespace calls) file) i).outcome =
          .ok g :=
      Traversal.forall_mem_of_forall₂ hinterfaces.flip fun g hg i hi => ⟨g, hg, hi⟩
    obtain ⟨g, hg, hinterface⟩ := hall i hi
    obtain ⟨f, hf, s, hs, expression, hfound, hok⟩ := finds_interfaceGlue hinterface hm hasks
    obtain ⟨d, hd, rfl⟩ := hanswer hok
    exact ⟨d, hd, g, hg, f, hf, s, hs, hfound⟩
  · intro g hg f hf before s after expression hbody hs
    have hall : ∀ g ∈ glue.interfaces, ∃ i ∈ file.interfaces,
        (interfaceGlue (rulesFor dialect (.ofCalls bindingNamespace calls) file) i).outcome =
          .ok g :=
      Traversal.forall_mem_of_forall₂ hinterfaces fun i hi g hg => ⟨i, hi, hg⟩
    obtain ⟨i, hi, hinterface⟩ := hall g hg
    have hmade : ∀ f ∈ g.functions, ∃ e m, m ∈ i.members ∧ MadeOf _ m e f :=
      Traversal.forall_mem_of_forall₂ (madeOf_interfaceGlue hinterface)
        fun e _ f ⟨m, hm, hmade⟩ => ⟨e, m, hm, hmade⟩
    obtain ⟨e, m, hm, hmade⟩ := hmade f hf
    obtain ⟨set, selector, hasks, hready, hok⟩ := hmade.found hbody hs
    obtain ⟨d, hd, rfl⟩ := hanswer hok
    exact ⟨i, hi, m, hm, set, selector, d, hasks, hd, rfl, hready⟩

/-- The calls of callbacks end no line. -/
theorem bareRules_ofCalls (hdialect : dialect.Plain) (hbinding : Lacks '\n' bindingNamespace)
    (hdelegates : ∀ d ∈ file.delegates, d.Named) :
    BareRules '\n' (rulesFor dialect (.ofCalls bindingNamespace calls) file) where
  stringType := hdialect.stringType
  registry := by
    intro set selector expression _ hselector hok
    rcases prototype_ofCalls_cases bindingNamespace set selector calls file.delegates with
      ⟨d, hd, hresolution⟩ | ⟨_, _, herror⟩
    · have hname : Lacks '\n' d.name := lacks_of_isNamePart (hdelegates d hd.declared).name
      have hflat : Lacks '\n' d.flatName := lacks_flatten hname
      obtain rfl := Except.ok.inj (hresolution.symm.trans hok)
      unfold Delegate.resolution
      simp +decide only [lacks_append, hflat, hbinding, hname, hselector]
    · cases hok.symm.trans herror

/-- Registries made by calls that agree on a set answer alike. -/
theorem prototype_ofCalls_congr {calls' : List (String × String)} {set selector : String}
    {delegates : List Delegate} (h : calls.filter (·.1 = set) = calls'.filter (·.1 = set)) :
    (Registry.ofCalls bindingNamespace calls).prototype { set, selector, delegates } =
      (Registry.ofCalls bindingNamespace calls').prototype { set, selector, delegates } := by
  have hresolver : (Registry.Callbacks.ofCalls bindingNamespace calls).resolver? set =
      (Registry.Callbacks.ofCalls bindingNamespace calls').resolver? set :=
    resolver?_eq_of_filter h
  have hcall : ∀ d, (Registry.Callbacks.ofCalls bindingNamespace calls).call d selector =
      (Registry.Callbacks.ofCalls bindingNamespace calls').call d selector := by
    intro d
    rw [ofCalls_eq, ofCalls_eq]
    rfl
  simp only [Registry.ofCalls, Registry.ofCallbacks, hresolver, hcall]

/-- **Whatever calls are made, a member that gives out an `anyof` value passes exactly if the last
call for its set names a delegate of the file with one parameter**, and then its prototype is found
by the callback of this delegate, whose cast stands once in the code and ahead of its namespace. -/
theorem callbackLaw_ofCalls (dialect : Dialect) (bindingNamespace : String)
    (calls : List (String × String)) (file : SourceFile) :
    CallbackLaw dialect bindingNamespace calls file where
  passed hnames set selector := prototype_ofCalls_verdict bindingNamespace set selector calls hnames
  generated := generated_ofCalls
  refused before m after set selector hmembers hasks hset := refused_ofCalls hmembers hasks hset
  finds glue h := findsBy_of_fileGlue h
  writes glue h := writesDelegates_of_fileGlue h
  castOnce := by
    rintro hdialect hbinding ⟨text, hfile⟩ glue h
    exact castOnce_of_fileGlue hfile hdialect
      (bareRules_ofCalls hdialect hbinding (SourceFile.delegates_named hfile)) h
  others calls' h := by
    apply fileGlue_congr
    intro i hi m hm set selector hasks
    exact prototype_ofCalls_congr (h i hi m hm set selector hasks)

/-- A class that gives out what it holds by number, and what it holds last. -/
def pickText : String :=
  "delegate Zmey::Prototype Game::Pick(int type);\ndelegate void Game::Hit();\n" ++
    "interface Game::Bag \x7b anyof<Items> at(int number); " ++
    "readonly attribute anyof<Items> last; \x7d"

def pickFile : SourceFile where
  headers := []
  delegates := [
    { result := .object "Zmey::Prototype", name := "Game::Pick"
      params := [{ type := .primitive .int, name := "type", index := 0 }] },
    { result := .void, name := "Game::Hit", params := [] }]
  interfaces := [
    { name := "Game::Bag"
      members := [
        .method {
          result := .anyOf "Items", name := "at"
          params := [{ type := .primitive .int, name := "number", index := 0 }]
          nameAsIs := false },
        .property {
          type := .anyOf "Items", name := "last", readonly := true, nameAsIs := false }] }]

theorem ofText_pickText : SourceFile.ofText pickText = .ok pickFile := by decide +kernel

theorem plain_standard : Dialect.standard.Plain where
  bindingNamespace := by decide
  stringType := by decide
  headers := by
    have hheads : ∀ line ∈ Dialect.standard.runtimeHeaders,
        Lacks '\n' line ∧ line.toList.head? = some '#' := by decide
    intro line hline
    obtain ⟨hnewline, hhead⟩ := hheads line hline
    refine ⟨hnewline, fun flat heq => ?_⟩
    exact noCast_of_head? (by rw [hhead]; decide) flat (congrArg String.toList heq)

/-- Calls for this class, of which the first is made void by the last. -/
def pickCalls : List (String × String) :=
  [("Items", "Game::Hit"), ("Actors", "Game::Missing"), ("Items", "Game::Pick")]

theorem findsBy_pickFile :
    ∃ glue, (fileGlue .standard (.ofCalls "Binding" pickCalls) pickFile).outcome = .ok glue ∧
      glue.FindsBy "Binding" pickCalls pickFile ∧
      ∀ d ∈ pickFile.delegates, CastOnce d.flatName glue.code := by
  have hok : (fileGlue .standard (.ofCalls "Binding" pickCalls) pickFile).outcome.isOk = true := by
    decide +kernel
  obtain ⟨glue, hglue⟩ := Traversal.isOk_iff.mp hok
  have hlaw := callbackLaw_ofCalls .standard "Binding" pickCalls pickFile
  have honce := hlaw.castOnce plain_standard (by decide) ⟨pickText, ofText_pickText⟩ glue hglue
  exact ⟨glue, hglue, hlaw.finds glue hglue, honce⟩

/-- The same calls the other way round: a delegate without parameters comes last. -/
example : (fileGlue .standard (.ofCalls "Binding" pickCalls.reverse) pickFile).outcome =
    .error (refusal "Items" (.wrongArity "Game::Hit")) := by
  decide +kernel

end Files

end Glue

end IdlGlue
