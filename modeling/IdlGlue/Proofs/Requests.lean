/-
# IdlGlue.Proofs.Requests -- what a file asks its registry

A registry is asked by the members that give out an `anyof` value, and by nothing else:

| member   | selector                                                     |
|----------|--------------------------------------------------------------|
| method   | the local of its first parameter, or the receiver without one |
| property | the receiver, in its getter                                  |

So two registries that answer these requests alike make the same glue of the file
(`fileGlue_congr`). And where a function finds a prototype by an expression, that expression is the
answer to the request of its member, and its selector stands for something that the statements
before have made: the receiver is cast there, or the parameter is declared and read from its place
(`MadeOf.found`). Every request of a member is answered so in one of its functions
(`exists_found`).
-/
import IdlGlue.Proofs.Acceptance
import IdlGlue.Proofs.Arguments
import IdlGlue.Proofs.Layout

namespace IdlGlue

open IdlGlue.Native

/-- The member asks for the prototype of a set, with this selector. -/
inductive Member.Asks : Member → String → String → Prop
  | method {m : Method} {set : String} : m.result = .anyOf set → Asks (.method m) set m.selector
  | property {p : Property} {set : String} : p.type = .anyOf set → Asks (.property p) set "ptr"

/-- The registries answer alike what the member asks in a file with these delegates. -/
def Member.SameAnswers (delegates : List Delegate) (registry registry' : Registry) (m : Member) :
    Prop :=
  ∀ set selector, m.Asks set selector →
    registry.prototype { set, selector, delegates } =
      registry'.prototype { set, selector, delegates }

/-- The rules with another registry. -/
def Rules.withRegistry (r : Rules) (registry : Registry) : Rules := { r with registry }

/-- The context with another registry. -/
def Glue.Context.withRegistry (c : Context) (registry : Registry) : Context :=
  { c with rules := c.rules.withRegistry registry }

/-! ## Registries that answer -/

/-- A member is admissible if it is with the registry that knows every set, and what it asks for is
answered. -/
theorem admissible_iff_asks {registry : Registry} {delegates : List Delegate} {m : Member}
    (bindingNamespace hashFunction : String) :
    m.Admissible registry delegates ↔
      m.Admissible (.hashed bindingNamespace hashFunction) delegates ∧
      ∀ set selector, m.Asks set selector →
        ∃ expression, registry.prototype { set, selector, delegates } = .ok expression := by
  have hhashed : ∀ selector type,
      (Registry.hashed bindingNamespace hashFunction).Resolves delegates selector type :=
    fun _ _ _ _ => ⟨_, rfl⟩
  cases m with
  | constructor params => exact (and_iff_left nofun).symm
  | method m =>
      constructor
      · rintro ⟨hparams, hresult, hresolved⟩
        refine ⟨⟨hparams, hresult, hhashed _ _⟩, fun set selector hasks => ?_⟩
        cases hasks with
        | method hset => exact hresolved set hset
      · rintro ⟨⟨hparams, hresult, _⟩, hresolved⟩
        exact ⟨hparams, hresult, fun set hset => hresolved set _ (.method hset)⟩
  | property p =>
      constructor
      · rintro ⟨htype, hresolved, hwritable⟩
        refine ⟨⟨htype, hhashed _ _, hwritable⟩, fun set selector hasks => ?_⟩
        cases hasks with
        | property hset => exact hresolved set hset
      · rintro ⟨⟨htype, _, hwritable⟩, hresolved⟩
        exact ⟨htype, fun set hset => hresolved set _ (.property hset), hwritable⟩

namespace Glue

/-! ## Registries that answer alike -/

section Congr

variable {r : Rules} {c : Context} {registry' : Registry}

theorem giveResult_congr {type : IdlType} {selector : String}
    (h : ∀ set, type = .anyOf set →
      r.registry.prototype { set, selector, delegates := r.delegates } =
        registry'.prototype { set, selector, delegates := r.delegates }) :
    (r.withRegistry registry').giveResult type selector = r.giveResult type selector := by
  cases type with
  | anyOf set =>
      show registry'.prototype { set, selector, delegates := r.delegates } >>= _ =
        r.registry.prototype { set, selector, delegates := r.delegates } >>= _
      rw [h set rfl]
  | primitive kind => cases kind <;> rfl
  | void | object | reference => rfl

theorem giveAccess_congr {type : IdlType} {selector : String} (source : Access)
    (h : ∀ set, type = .anyOf set →
      r.registry.prototype { set, selector, delegates := r.delegates } =
        registry'.prototype { set, selector, delegates := r.delegates }) :
    giveAccess (r.withRegistry registry') type source selector =
      giveAccess r type source selector := by
  rw [giveAccess, giveAccess, giveResult_congr h]
  rfl

/-- Parameters are read without a registry. -/
theorem readParams_congr (params : List Param) :
    readParams (r.withRegistry registry') params = readParams r params := by
  induction params with
  | nil => rfl
  | cons p ps ih =>
      rw [readParams, readParams, ih]
      rfl

theorem methodFunction_congr {m : Method}
    (h : (Member.method m).SameAnswers c.rules.delegates c.rules.registry registry') :
    methodFunction (c.withRegistry registry') m = methodFunction c m := by
  have hask : ∀ source,
      methodAsk (c.rules.withRegistry registry') m source = methodAsk c.rules m source := by
    intro source
    unfold methodAsk
    rw [methodSelector_eq, giveAccess_congr source fun set hset => h set _ (.method hset)]
  rw [methodFunction_eq, methodFunction_eq]
  show readParams (c.rules.withRegistry registry') m.params >>= _ = _
  rw [readParams_congr]
  simp only [Context.withRegistry, hask]
  rfl

theorem propertyFunctions_congr {p : Property}
    (h : (Member.property p).SameAnswers c.rules.delegates c.rules.registry registry') :
    propertyFunctions (c.withRegistry registry') p = propertyFunctions c p := by
  have hgive : ∀ source, giveAccess (c.rules.withRegistry registry') p.type source receiverName =
      giveAccess c.rules p.type source receiverName :=
    fun source => giveAccess_congr source fun set hset => h set _ (.property hset)
  have hgetter : getterFunction (c.withRegistry registry') p = getterFunction c p := by
    rw [getterFunction, getterFunction]
    show giveAccess (c.rules.withRegistry registry') _ _ _ >>= _ = _
    rw [hgive]
    rfl
  rw [propertyFunctions, propertyFunctions, hgetter]
  rfl

theorem constructorFunction_congr (params : List Param) :
    constructorFunction (c.withRegistry registry') params = constructorFunction c params := by
  rw [constructorFunction, constructorFunction]
  show readParams (c.rules.withRegistry registry') params >>= _ = _
  rw [readParams_congr]
  rfl

theorem accept_congr (d : Draft) {m : Member}
    (h : m.SameAnswers c.rules.delegates c.rules.registry registry') :
    d.accept (c.withRegistry registry') m = d.accept c m := by
  cases m with
  | constructor params =>
      rw [Draft.accept, Draft.accept, constructorFunction_congr]
      rfl
  | method m => rw [Draft.accept, Draft.accept, methodFunction_congr h]
  | property p => rw [Draft.accept, Draft.accept, propertyFunctions_congr h]

theorem foldlM_accept_congr (d : Draft) {members : List Member}
    (h : ∀ m ∈ members, m.SameAnswers c.rules.delegates c.rules.registry registry') :
    members.foldlM (Draft.accept (c.withRegistry registry')) d =
      members.foldlM (Draft.accept c) d := by
  induction members generalizing d with
  | nil => rfl
  | cons m members ih =>
      obtain ⟨hm, hmembers⟩ := List.forall_mem_cons.mp h
      rw [List.foldlM_cons, List.foldlM_cons, accept_congr d hm]
      exact congrArg _ (funext fun d' => ih d' hmembers)

theorem interfaceGlue_congr {i : Interface}
    (h : ∀ m ∈ i.members, m.SameAnswers r.delegates r.registry registry') :
    interfaceGlue (r.withRegistry registry') i = interfaceGlue r i := by
  have hmembers := foldlM_accept_congr (c := { name := i.name, rules := r }) Draft.empty h
  rw [interfaceGlue, interfaceGlue]
  show i.members.foldlM (Draft.accept (Context.withRegistry { name := i.name, rules := r } _))
    _ >>= _ = _
  rw [hmembers]
  rfl

theorem mapM_interfaceGlue_congr {interfaces : List Interface}
    (h : ∀ i ∈ interfaces, ∀ m ∈ i.members, m.SameAnswers r.delegates r.registry registry') :
    interfaces.mapM (interfaceGlue (r.withRegistry registry')) =
      interfaces.mapM (interfaceGlue r) := by
  induction interfaces with
  | nil => rfl
  | cons i interfaces ih =>
      obtain ⟨hi, hinterfaces⟩ := List.forall_mem_cons.mp h
      rw [List.mapM_cons, List.mapM_cons, interfaceGlue_congr hi, ih hinterfaces]

/-- **Registries that answer alike what the file asks make the same glue**, and tell the same on
the way. -/
theorem fileGlue_congr (dialect : Dialect) {registry registry' : Registry} {file : SourceFile}
    (h : ∀ i ∈ file.interfaces, ∀ m ∈ i.members,
      m.SameAnswers file.delegates registry registry') :
    fileGlue dialect registry' file = fileGlue dialect registry file := by
  have hinterfaces := mapM_interfaceGlue_congr (r := rulesFor dialect registry file) h
  rw [fileGlue, fileGlue]
  simp only [rulesFor, Rules.withRegistry] at hinterfaces
  simp only [hinterfaces]
  rfl

end Congr

/-! ## What a function finds -/

/-- No operand of the statement is a prototype that is found when the program runs. -/
def FindsNone (s : Stmt) : Prop := ∀ expression, .prototype (.resolved expression) ∉ s.operands

section Finds

variable {r : Rules} {part before after : List Stmt}

theorem findsNone_readArgument {type : IdlType} {name : String} {place : Nat}
    (h : Rules.readArgument type name place = .ok part) : ∀ s ∈ part, FindsNone s := by
  cases type with
  | primitive kind =>
      cases kind with
      | long => cases h
      | int | float | double | string =>
          cases h
          simp [Rules.readText, FindsNone, Stmt.operands]
  | object className =>
      cases h
      simp [FindsNone, Stmt.operands]
  | void | reference | anyOf => cases h

theorem findsNone_readLocal {type : IdlType} {name : String} {place : Nat}
    (h : readLocal r type name place = .ok part) : ∀ s ∈ part, FindsNone s := by
  obtain ⟨decl, _, h⟩ := Traversal.bind_eq_ok_iff.mp h
  obtain ⟨read, hread, h⟩ := Traversal.bind_eq_ok_iff.mp h
  cases h
  exact List.forall_mem_cons.mpr ⟨fun _ => List.not_mem_nil, findsNone_readArgument hread⟩

theorem findsNone_readParams {params : List Param} (h : readParams r params = .ok part) :
    ∀ s ∈ part, FindsNone s := by
  induction params generalizing part with
  | nil =>
      cases h
      exact List.forall_mem_nil _
  | cons p ps ih =>
      obtain ⟨first, hfirst, h⟩ := Traversal.bind_eq_ok_iff.mp h
      obtain ⟨others, hothers, h⟩ := Traversal.bind_eq_ok_iff.mp h
      cases h
      exact List.forall_mem_append.mpr ⟨findsNone_readLocal hfirst, ih hothers⟩

/-- The operands of a native call are locals. -/
theorem not_prototype_of_callOperands {params : List Param} {operands : List Operand}
    (h : callOperands params = .ok operands) (p : Prototype) : .prototype p ∉ operands := by
  intro hmem
  have hlocal : none ∈ params.map fun p => some (localName p.name) := by
    rw [← local_callOperands h]
    exact List.mem_map_of_mem hmem
  obtain ⟨_, _, hp⟩ := List.mem_map.mp hlocal
  cases hp

theorem findsNone_receiver (className : String) : ∀ s ∈ receiver className, FindsNone s := by
  simp [receiver, FindsNone, Stmt.operands]

/-- Of two statements that find a prototype one stands in the parts around the other. -/
theorem before_eq_of_append {front back : List Stmt} {s t : Stmt} {expression : String}
    (hfront : ∀ s ∈ front, FindsNone s) (hback : ∀ s ∈ back, FindsNone s)
    (h : front ++ t :: back = before ++ s :: after)
    (hs : .prototype (.resolved expression) ∈ s.operands) : before = front ∧ s = t := by
  rcases List.append_eq_append_iff.mp h with ⟨mid, rfl, htail⟩ | ⟨mid, rfl, htail⟩
  · cases mid with
    | nil => exact ⟨List.append_nil front, (List.cons.inj htail).1.symm⟩
    | cons x mid =>
        have hmem : s ∈ back := by
          rw [(List.cons.inj htail).2]
          exact List.mem_append_right _ List.mem_cons_self
        exact absurd hs (hback s hmem expression)
  · cases mid with
    | nil => exact ⟨(List.append_nil before).symm, (List.cons.inj htail).1⟩
    | cons x mid =>
        have hmem : s ∈ before ++ x :: mid := by
          rw [(List.cons.inj htail).1]
          exact List.mem_append_right _ List.mem_cons_self
        exact absurd hs (hfront s hmem expression)

/-- The statement that gives a prototype that is found to the wrapped object. -/
def setFound (expression : String) : Stmt :=
  .invoke "JsSetPrototype" [.value outputName, .prototype (.resolved expression)]

/-- What gives a value to the script finds a prototype for `anyof` values, and then last. -/
theorem giveAccess_cases {type : IdlType} {source : Access} {selector : String}
    (h : giveAccess r type source selector = .ok part)
    (hsource : ∀ p, .prototype p ∉ source.operands) :
    (∀ s ∈ part, FindsNone s) ∨ ∃ set expression first, type = .anyOf set ∧
      r.registry.prototype { set, selector, delegates := r.delegates } = .ok expression ∧
      part = first ++ [setFound expression] ∧ ∀ s ∈ first, FindsNone s := by
  obtain ⟨decl, _, h⟩ := Traversal.bind_eq_ok_iff.mp h
  obtain ⟨conversion, _, h⟩ := Traversal.bind_eq_ok_iff.mp h
  obtain ⟨give, hgive, h⟩ := Traversal.bind_eq_ok_iff.mp h
  cases h
  have hdeclare : FindsNone (.declare decl) := fun _ => List.not_mem_nil
  have hstore : FindsNone (.store resultName conversion source) := fun _ => hsource _
  have hplain : (∀ s ∈ give, FindsNone s) →
      ∀ s ∈ .declare decl :: .store resultName conversion source :: give, FindsNone s :=
    fun h => List.forall_mem_cons.mpr ⟨hdeclare, List.forall_mem_cons.mpr ⟨hstore, h⟩⟩
  cases type with
  | primitive kind =>
      cases kind with
      | long => cases hgive
      | int | float | double | string =>
          cases hgive
          exact Or.inl (hplain (by simp [Rules.giveText, FindsNone, Stmt.operands]))
  | object | reference =>
      cases hgive
      exact Or.inl (hplain (by simp [Rules.wrapObject, FindsNone, Stmt.operands]))
  | anyOf set =>
      obtain ⟨expression, hexpression, hgive⟩ := Traversal.bind_eq_ok_iff.mp hgive
      cases hgive
      refine Or.inr ⟨set, expression, [.declare decl, .store resultName conversion source,
        .invoke "JsCreateExternalObject" [.value resultName, .null, .address outputName]], rfl,
        hexpression, rfl, ?_⟩
      have hcreate : FindsNone (.invoke "JsCreateExternalObject"
          [.value resultName, .null, .address outputName]) := by
        simp [FindsNone, Stmt.operands]
      simp only [List.forall_mem_cons]
      exact ⟨hdeclare, hstore, hcreate, List.forall_mem_nil _⟩
  | void => cases hgive

end Finds

/-- The selector stands for something that the statements have made: the receiver is cast, or the
first parameter is declared and read from its place. -/
inductive Ready (before : List Stmt) : Member → String → Prop
  | receiver {m : Member} {className : String} : .castReceiver className ∈ before →
      Ready before m receiverName
  | parameter {m : Method} {p : Param} {ps : List Param} {part : List Stmt} :
      m.params = p :: ps → ReadsParam p p.scriptIndex part → part <:+: before →
      Ready before (.method m) (localName p.name)

theorem ready_of_readParams {c : Context} {m : Method} {reads last : List Stmt}
    (h : readParams c.rules m.params = .ok reads) (opening : Stmt) :
    Ready (opening :: receiver c.name ++ reads ++ last) (.method m) m.selector := by
  rw [← methodSelector_eq]
  cases hparams : m.params with
  | nil =>
      have hcast : .castReceiver c.name ∈ opening :: receiver c.name ++ reads ++ last := by
        simp [receiver]
      exact .receiver hcast
  | cons p ps =>
      rw [hparams] at h
      obtain ⟨first, hfirst, h⟩ := Traversal.bind_eq_ok_iff.mp h
      obtain ⟨others, _, h⟩ := Traversal.bind_eq_ok_iff.mp h
      cases h
      exact .parameter hparams (readsParam_readLocal hfirst)
        ⟨opening :: receiver c.name, others ++ last, by simp⟩

section Functions

variable {c : Context} {f : Function} {before after : List Stmt} {s : Stmt} {expression : String}

/-- A function whose statements find none finds none. -/
theorem not_found_of_findsNone (hall : ∀ s ∈ f.body, FindsNone s)
    (hbody : f.body = before ++ s :: after) : .prototype (.resolved expression) ∉ s.operands := by
  refine hall s ?_ expression
  rw [hbody]
  exact List.mem_append_right _ List.mem_cons_self

theorem findsNone_constructorFunction {params : List Param}
    (h : constructorFunction c params = .ok f) : ∀ s ∈ f.body, FindsNone s := by
  obtain ⟨reads, hreads, h⟩ := Traversal.bind_eq_ok_iff.mp h
  obtain ⟨operands, hoperands, h⟩ := Traversal.bind_eq_ok_iff.mp h
  cases h
  have hreads := findsNone_readParams hreads
  have hcreate : FindsNone (.create c.name operands) :=
    fun _ => not_prototype_of_callOperands hoperands _
  have hwrap : ∀ s ∈ Rules.wrapObject objectName (.slot c.flat), FindsNone s := by
    simp [Rules.wrapObject, FindsNone, Stmt.operands]
  have hrest : ∀ s ∈ [.invoke (Symbol.registration c.flat).spelling [.value outputName],
      .returnOutput], FindsNone s := by
    simp [FindsNone, Stmt.operands]
  have hopening : ∀ s ∈ [.expectCall true (params.length + 1), .openOutput], FindsNone s := by
    simp [FindsNone, Stmt.operands]
  have hall := List.forall_mem_append.mpr ⟨hopening, hreads⟩
  have hall := List.forall_mem_append.mpr ⟨hall, List.forall_mem_singleton.mpr hcreate⟩
  have hall := List.forall_mem_append.mpr ⟨hall, hwrap⟩
  exact List.forall_mem_append.mpr ⟨hall, hrest⟩

theorem findsNone_opening (construct : Bool) (count : Nat) (className : String) :
    ∀ s ∈ .expectCall construct count :: receiver className, FindsNone s :=
  List.forall_mem_cons.mpr ⟨fun _ => List.not_mem_nil, findsNone_receiver className⟩

theorem findsNone_return : ∀ s ∈ [Stmt.returnOutput], FindsNone s :=
  List.forall_mem_singleton.mpr fun _ => List.not_mem_nil

theorem findsNone_setterFunction {p : Property} (h : setterFunction c p = .ok f) :
    ∀ s ∈ f.body, FindsNone s := by
  obtain ⟨read, hread, h⟩ := Traversal.bind_eq_ok_iff.mp h
  obtain ⟨value, hvalue, h⟩ := Traversal.bind_eq_ok_iff.mp h
  cases h
  have hwrite : FindsNone (.writeField (memberName p.name p.nameAsIs) value) := by
    intro expression hmem
    have hlocal := local_operand hvalue
    rw [← List.mem_singleton.mp hmem] at hlocal
    cases hlocal
  have hall := List.forall_mem_append.mpr
    ⟨findsNone_opening false 2 c.name, findsNone_readLocal hread⟩
  exact List.forall_mem_append.mpr ⟨hall, List.forall_mem_cons.mpr ⟨hwrite, findsNone_return⟩⟩

/-- Where a function ends with what it gives to the script, it is there that it finds a
prototype. -/
theorem found_of_giveAccess {type : IdlType} {source : Access} {selector : String}
    {opening give : List Stmt} (hgive : giveAccess c.rules type source selector = .ok give)
    (hsource : ∀ p, .prototype p ∉ source.operands) (hopening : ∀ s ∈ opening, FindsNone s)
    (hbody : opening ++ give ++ [.returnOutput] = before ++ s :: after)
    (hs : .prototype (.resolved expression) ∈ s.operands) :
    ∃ set first, type = .anyOf set ∧ before = opening ++ first ∧
      c.rules.registry.prototype { set, selector, delegates := c.rules.delegates } =
        .ok expression := by
  rcases giveAccess_cases hgive hsource with hall | ⟨set, found, first, htype, hfound, rfl, hfirst⟩
  · have hnone := List.forall_mem_append.mpr ⟨hopening, hall⟩
    have hnone := List.forall_mem_append.mpr ⟨hnone, findsNone_return⟩
    refine absurd hs (hnone s ?_ expression)
    rw [hbody]
    exact List.mem_append_right _ List.mem_cons_self
  · have hfront := List.forall_mem_append.mpr ⟨hopening, hfirst⟩
    have hcut : (opening ++ first) ++ setFound found :: [.returnOutput] = before ++ s :: after := by
      rw [← hbody]
      simp
    -- Only one statement of the body finds a prototype, so this is the one.
    obtain ⟨rfl, rfl⟩ := before_eq_of_append hfront findsNone_return hcut hs
    obtain rfl : expression = found := by simpa [setFound, Stmt.operands] using hs
    exact ⟨set, first, htype, rfl, hfound⟩

/-- **Where a function finds a prototype, it is by the answer of the registry to its member**, and
the selector of the request is ready there. -/
theorem MadeOf.found {m : Member} {e : Entry} (h : MadeOf c m e f)
    (hbody : f.body = before ++ s :: after)
    (hs : .prototype (.resolved expression) ∈ s.operands) :
    ∃ set selector, m.Asks set selector ∧ Ready before m selector ∧
      c.rules.registry.prototype { set, selector, delegates := c.rules.delegates } =
        .ok expression := by
  cases h with
  | constructor h =>
      exact absurd hs (not_found_of_findsNone (findsNone_constructorFunction h) hbody)
  | setter h => exact absurd hs (not_found_of_findsNone (findsNone_setterFunction h) hbody)
  | getter h =>
      obtain ⟨give, hgive, h⟩ := Traversal.bind_eq_ok_iff.mp h
      cases h
      obtain ⟨set, first, htype, rfl, hfound⟩ := found_of_giveAccess hgive
        (fun _ => List.not_mem_nil) (findsNone_opening false 1 c.name) hbody hs
      have hcast : .castReceiver c.name ∈ .expectCall false 1 :: receiver c.name ++ first := by
        simp [receiver]
      exact ⟨set, _, .property htype, .receiver hcast, hfound⟩
  | @method m _ h =>
      rw [methodFunction_eq] at h
      obtain ⟨reads, hreads, h⟩ := Traversal.bind_eq_ok_iff.mp h
      obtain ⟨operands, hoperands, h⟩ := Traversal.bind_eq_ok_iff.mp h
      obtain ⟨ask, hask, h⟩ := Traversal.bind_eq_ok_iff.mp h
      cases h
      have hopening := List.forall_mem_append.mpr
        ⟨findsNone_opening false (m.params.length + 1) c.name, findsNone_readParams hreads⟩
      have hsource := not_prototype_of_callOperands hoperands
      -- A method without a result gives nothing to the script, and asks for nothing.
      unfold methodAsk at hask
      split at hask
      · cases hask
        have hperform : FindsNone (.perform (.call (memberName m.name m.nameAsIs) operands)) :=
          fun _ => hsource _
        have hall := List.forall_mem_append.mpr
          ⟨hopening, List.forall_mem_singleton.mpr hperform⟩
        have hall := List.forall_mem_append.mpr ⟨hall, findsNone_return⟩
        exact absurd hs (not_found_of_findsNone hall hbody)
      · obtain ⟨set, first, htype, rfl, hfound⟩ :=
          found_of_giveAccess hask hsource hopening hbody hs
        rw [methodSelector_eq] at hfound
        exact ⟨set, _, .method htype, ready_of_readParams hreads _, hfound⟩

/-- What gives an `anyof` value to the script gives it a prototype that is found. -/
theorem setFound_of_giveAccess {r : Rules} {set selector : String} {source : Access}
    {part : List Stmt} (h : giveAccess r (.anyOf set) source selector = .ok part) :
    ∃ expression, r.registry.prototype { set, selector, delegates := r.delegates } =
      .ok expression ∧ setFound expression ∈ part := by
  obtain ⟨decl, _, h⟩ := Traversal.bind_eq_ok_iff.mp h
  obtain ⟨conversion, _, h⟩ := Traversal.bind_eq_ok_iff.mp h
  obtain ⟨give, hgive, h⟩ := Traversal.bind_eq_ok_iff.mp h
  cases h
  obtain ⟨expression, hexpression, hgive⟩ := Traversal.bind_eq_ok_iff.mp hgive
  cases hgive
  exact ⟨expression, hexpression, by simp [Rules.wrapObject, setFound]⟩

/-- One of the functions finds a prototype by the answer to the request. -/
def Finds (r : Rules) (set selector : String) (fs : List Function) : Prop :=
  ∃ f ∈ fs, ∃ s ∈ f.body, ∃ expression, .prototype (.resolved expression) ∈ s.operands ∧
    r.registry.prototype { set, selector, delegates := r.delegates } = .ok expression

/-- A member that asks for a prototype finds it in one of its functions. -/
theorem exists_found {m : Member} {set selector : String} {fs : List Function}
    (hasks : m.Asks set selector) (h : plainFunctions c m = .ok fs) :
    Finds c.rules set selector fs := by
  have hmem : ∀ expression, .prototype (.resolved expression) ∈ (setFound expression).operands := by
    simp [setFound, Stmt.operands]
  cases hasks with
  | @method m _ hresult =>
      obtain ⟨function, hfunction, h⟩ := Traversal.bind_eq_ok_iff.mp h
      cases h
      rw [methodFunction_eq] at hfunction
      obtain ⟨reads, _, hfunction⟩ := Traversal.bind_eq_ok_iff.mp hfunction
      obtain ⟨operands, _, hfunction⟩ := Traversal.bind_eq_ok_iff.mp hfunction
      obtain ⟨ask, hask, hfunction⟩ := Traversal.bind_eq_ok_iff.mp hfunction
      cases hfunction
      have hvalue : m.result ≠ .void := by simp [hresult]
      rw [methodAsk, if_neg hvalue, hresult, methodSelector_eq] at hask
      obtain ⟨expression, hexpression, hfound⟩ := setFound_of_giveAccess hask
      refine ⟨_, List.mem_singleton_self _, setFound expression, ?_, expression, hmem _,
        hexpression⟩
      simp [hfound]
  | @property p _ htype =>
      obtain ⟨getter, hgetter, h⟩ := Traversal.bind_eq_ok_iff.mp h
      -- The getter comes first, whether there is a setter or not.
      have hfs : getter ∈ fs := by
        split at h
        · cases h
          exact List.mem_singleton_self _
        · obtain ⟨setter, _, h⟩ := Traversal.bind_eq_ok_iff.mp h
          cases h
          exact List.mem_cons_self
      obtain ⟨give, hgive, hgetter⟩ := Traversal.bind_eq_ok_iff.mp hgetter
      cases hgetter
      rw [htype] at hgive
      obtain ⟨expression, hexpression, hfound⟩ := setFound_of_giveAccess hgive
      refine ⟨_, hfs, setFound expression, ?_, expression, hmem _, hexpression⟩
      simp [hfound]

theorem mem_plainMembers_of_asks {members : List Member} {m : Member} {set selector : String}
    (hasks : m.Asks set selector) (hm : m ∈ members) : m ∈ plainMembers members := by
  cases hasks with
  | method => exact List.mem_filter.mpr ⟨hm, rfl⟩
  | property => exact List.mem_filter.mpr ⟨hm, rfl⟩

/-- The glue of an interface finds the prototypes that its members ask for. -/
theorem finds_interfaceGlue {r : Rules} {i : Interface} {g : InterfaceGlue} {m : Member}
    {set selector : String} (h : (interfaceGlue r i).outcome = .ok g) (hm : m ∈ i.members)
    (hasks : m.Asks set selector) : Finds r set selector g.functions := by
  rw [outcome_interfaceGlue] at h
  obtain ⟨draft, hdraft, h⟩ := Traversal.bind_eq_ok_iff.mp h
  cases h
  obtain ⟨glue, hglue, hfunctions⟩ := (Draft.of_ofMembers hdraft).functions
  have hall : ∀ m ∈ plainMembers i.members, ∃ fs ∈ glue,
      plainFunctions { name := i.name, rules := r } m = .ok fs :=
    Traversal.forall_mem_of_forall₂ (Traversal.mapM_eq_ok_iff.mp hglue).flip
      fun fs hfs m hm => ⟨fs, hfs, hm⟩
  obtain ⟨fs, hfs, hm⟩ := hall m (mem_plainMembers_of_asks hasks hm)
  obtain ⟨f, hf, hfinds⟩ := exists_found hasks hm
  refine ⟨f, ?_, hfinds⟩
  rw [functions_finish, hfunctions]
  exact List.mem_append_left _ (List.mem_flatten_of_mem hfs hf)

end Functions

end Glue

end IdlGlue
