/-
# IdlGlue.Proofs.Acceptance -- generation succeeds exactly for admissible files

One verdict for each function of the generator, from the rules for single types up to
whole files. The rules are tables, and their verdicts are read off them; every other
verdict is put together from those of the functions that are called.
-/
import IdlGlue.Proofs.Admissible
import IdlGlue.Proofs.Outcome

namespace IdlGlue

open IdlGlue.Native

/-! ## The rules for types -/

theorem IdlType.storable_of_passable {type : IdlType} (h : type.Passable) : type.Storable := by
  cases h with
  | int | float | double | string | object => exact ⟨by simp, by simp⟩

/-- What can be stored and not passed on is an `anyof` value or a reference. -/
theorem IdlType.passable_iff {type : IdlType} (h : type.Storable) :
    type.Passable ↔ (∀ set, type ≠ .anyOf set) ∧ ∀ name, type ≠ .reference name := by
  constructor
  · intro hpass
    cases hpass with
    | int | float | double | string | object => exact ⟨by simp, by simp⟩
  · rintro ⟨hset, hreference⟩
    cases type with
    | void => exact absurd rfl h.2
    | primitive kind =>
        cases kind with
        | int => exact .int
        | float => exact .float
        | double => exact .double
        | string => exact .string
        | long => exact absurd rfl h.1
    | object name => exact .object name
    | reference name => exact absurd rfl (hreference name)
    | anyOf set => exact absurd rfl (hset set)

namespace Rules

variable (r : Rules) (type : IdlType) (name : String)

theorem storage_verdict : Verdict (r.storage type name) type.Storable fun e =>
    ¬ type.Storable ∧ e = .unsupportedType type.spelling (.storage name) := by
  cases type with
  | void => exact .uncovered fun h => h.2 rfl
  | primitive kind =>
      cases kind with
      | long => exact .uncovered fun h => h.1 rfl
      | int | float | double | string => exact .covered _ ⟨by simp, by simp⟩
  | object | reference | anyOf => exact .covered _ ⟨by simp, by simp⟩

theorem readArgument_verdict (index : Nat) :
    Verdict (readArgument type name index) type.Passable fun e =>
      ¬ type.Passable ∧ e = .unsupportedType type.spelling (.argument name) := by
  cases type with
  | primitive kind =>
      cases kind with
      | int => exact .covered _ .int
      | float => exact .covered _ .float
      | double => exact .covered _ .double
      | string => exact .covered _ .string
      | long => exact .uncovered nofun
  | object name => exact .covered _ (.object name)
  | void | reference | anyOf => exact .uncovered nofun

theorem operand_verdict : Verdict (operand type name) type.Passable fun e =>
    ¬ type.Passable ∧ e = .unsupportedType type.spelling (.argument name) := by
  cases type with
  | primitive kind =>
      cases kind with
      | int => exact .covered _ .int
      | float => exact .covered _ .float
      | double => exact .covered _ .double
      | string => exact .covered _ .string
      | long => exact .uncovered nofun
  | object name => exact .covered _ (.object name)
  | void | reference | anyOf => exact .uncovered nofun

theorem conversion_verdict : Verdict (conversion type) type.Storable fun e =>
    ¬ type.Storable ∧ e = .unsupportedType type.spelling .result := by
  cases type with
  | void => exact .uncovered fun h => h.2 rfl
  | primitive kind =>
      cases kind with
      | long => exact .uncovered fun h => h.1 rfl
      | int | float | double | string => exact .covered _ ⟨by simp, by simp⟩
  | object | reference | anyOf => exact .covered _ ⟨by simp, by simp⟩

theorem signatureType_verdict :
    Verdict (r.signatureType type) (type ≠ .primitive .long) fun e =>
      ¬ type ≠ .primitive .long ∧ e = .unsupportedType "long" .signature := by
  cases type with
  | primitive kind =>
      cases kind with
      | long => exact .uncovered fun h => h rfl
      | int | float | double | string => exact .covered _ (by simp)
  | void | object | reference | anyOf => exact .covered _ (by simp)

/-- A result that can be stored is refused by the registry only. -/
theorem giveResult_verdict (selector : String) (h : type.Storable) :
    Verdict (r.giveResult type selector) (r.registry.Resolves r.delegates selector type)
      (fun e => ∃ set, type = .anyOf set ∧
        r.registry.prototype { set, selector, delegates := r.delegates } = .error e) := by
  have hplain : ∀ {type : IdlType} (statements : List Stmt), (∀ set, type ≠ .anyOf set) →
      Verdict (.ok statements) (r.registry.Resolves r.delegates selector type) fun e =>
        ∃ set, type = .anyOf set ∧
          r.registry.prototype { set, selector, delegates := r.delegates } = .error e := by
    intro type statements hno
    refine (Verdict.ok statements).congr ?_ fun e => ?_
    · exact iff_of_true trivial fun set hset => absurd hset (hno set)
    · exact iff_of_false id fun ⟨set, hset, _⟩ => hno set hset
  cases type with
  | void => exact absurd rfl h.2
  | primitive kind =>
      cases kind with
      | long => exact absurd rfl h.1
      | int | float | double | string => exact hplain _ nofun
  | object | reference => exact hplain _ nofun
  | anyOf set =>
      refine ((Verdict.self _).bind_pure fun expression =>
        wrapObject resultName (.resolved expression)).congr ?_ fun e => ?_
      · exact ⟨fun hset _ heq => IdlType.anyOf.inj heq ▸ hset, fun hall => hall set rfl⟩
      · exact ⟨fun he => ⟨set, rfl, he⟩, fun ⟨_, heq, he⟩ => IdlType.anyOf.inj heq ▸ he⟩

end Rules

/-! ## Members -/

namespace Glue

theorem readLocal_verdict (r : Rules) (type : IdlType) (name : String) (index : Nat) :
    Verdict (readLocal r type name index) type.Passable (ArgumentRefused type name) := by
  refine ((r.storage_verdict type name).bind fun decl _ =>
    (Rules.readArgument_verdict type name index).bind_pure (.declare decl :: ·)).congr ?_ ?_
  · exact and_iff_right_of_imp IdlType.storable_of_passable
  · intro e
    constructor
    · rintro (⟨h, rfl⟩ | ⟨h, h', rfl⟩)
      · exact .storage h
      · exact .argument h h'
    · intro h
      cases h with
      | storage h => exact Or.inl ⟨h, rfl⟩
      | argument h h' => exact Or.inr ⟨h, h', rfl⟩

theorem readParams_verdict (r : Rules) (params : List Param) :
    Verdict (readParams r params) (∀ p ∈ params, p.type.Passable) (ParamsRefused params) := by
  induction params with
  | nil =>
      refine (Verdict.ok []).congr ?_ fun e => ?_
      · exact iff_of_true trivial (List.forall_mem_nil _)
      · exact iff_of_false id not_firstRefused_nil
  | cons p ps ih =>
      refine ((readLocal_verdict r p.type (localName p.name) p.scriptIndex).bind
        fun first _ => ih.bind_pure (first ++ ·)).congr ?_ fun e => ?_
      · rw [List.forall_mem_cons]
      · rw [ParamsRefused, firstRefused_cons]
        rfl

/-- Where the locals can be read, the call can be written. -/
theorem callOperands_verdict {params : List Param} (h : ∀ p ∈ params, p.type.Passable) :
    Verdict (callOperands params) True fun _ => False := by
  have hall : Verdict (callOperands params) _ _ :=
    Verdict.mapM fun p _ => Rules.operand_verdict p.type (localName p.name)
  refine hall.congr (iff_of_true h trivial) fun e => iff_of_false ?_ id
  rintro ⟨before, p, after, rfl, _, hp, _⟩
  exact hp (h p (by simp))

theorem resultRefused_iff {registry : Registry} {delegates : List Delegate}
    {selector : String} {type : IdlType} {e : Fault} :
    ResultRefused registry delegates selector type e ↔
      (¬ type.Storable ∧ e = .unsupportedType type.spelling (.storage "_result")) ∨
      ∃ set, type = .anyOf set ∧ registry.prototype { set, selector, delegates } = .error e := by
  constructor
  · intro h
    cases h with
    | storage h => exact Or.inl ⟨h, rfl⟩
    | registry h => exact Or.inr ⟨_, rfl, h⟩
  · rintro (⟨h, rfl⟩ | ⟨set, rfl, h⟩)
    · exact .storage h
    · exact .registry h

/-- What is given to scripts is refused as its local, or else by the registry. -/
theorem giveAccess_verdict (r : Rules) (type : IdlType) (source : Access) (selector : String) :
    Verdict (giveAccess r type source selector)
      (type.Storable ∧ r.registry.Resolves r.delegates selector type)
      (ResultRefused r.registry r.delegates selector type) := by
  have hstorage := r.storage_verdict type resultName
  have hstorable : ∀ decl, r.storage type resultName = .ok decl → type.Storable :=
    fun decl hdecl => hstorage.ok_iff.mp ⟨decl, hdecl⟩
  refine (hstorage.bind fun decl hdecl => (Rules.conversion_verdict type).bind fun _ _ =>
    (r.giveResult_verdict type selector (hstorable decl hdecl)).bind_pure _).congr ?_ fun e => ?_
  · exact ⟨fun h => h.2, fun h => ⟨h.1, h⟩⟩
  · rw [resultRefused_iff]
    constructor
    · rintro (h | ⟨hs, ⟨hs', _⟩ | ⟨_, h⟩⟩)
      · exact Or.inl h
      · exact absurd hs hs'
      · exact Or.inr h
    · rintro (h | ⟨set, rfl, h⟩)
      · exact Or.inl h
      · have hs : (IdlType.anyOf set).Storable := ⟨nofun, nofun⟩
        exact Or.inr ⟨hs, Or.inr ⟨hs, set, rfl, h⟩⟩

theorem methodSelector_eq (m : Method) : methodSelector m.params = m.selector := by
  unfold methodSelector Method.selector
  cases m.params with
  | nil => rfl
  | cons p ps => rfl

theorem methodAsk_verdict (r : Rules) (m : Method) (source : Access) :
    Verdict (methodAsk r m source)
      (m.result ≠ .primitive .long ∧ r.registry.Resolves r.delegates m.selector m.result)
      (fun e => m.result ≠ .void ∧
        ResultRefused r.registry r.delegates m.selector m.result e) := by
  unfold methodAsk
  split
  · next hvoid =>
      refine (Verdict.ok _).congr (iff_of_true trivial ?_) fun e => iff_of_false id ?_
      · rw [hvoid]
        exact ⟨nofun, nofun⟩
      · exact fun h => h.1 hvoid
  · next hvalue =>
      rw [methodSelector_eq]
      refine (giveAccess_verdict r m.result source m.selector).congr ?_ fun e => ?_
      · exact and_congr_left fun _ => and_iff_left hvalue
      · exact (and_iff_right hvalue).symm

theorem methodFunction_verdict (c : Context) (m : Method) :
    Verdict (methodFunction c m) (m.Admissible c.rules.registry c.rules.delegates)
      (Member.Refused c.rules.registry c.rules.delegates (.method m)) := by
  have hparams := readParams_verdict c.rules m.params
  rw [methodFunction_eq]
  refine (hparams.bind fun reads hreads =>
    (callOperands_verdict (hparams.ok_iff.mp ⟨reads, hreads⟩)).bind fun operands _ =>
      (methodAsk_verdict c.rules m _).bind_pure _).congr ?_ fun e => ?_
  · constructor
    · rintro ⟨hpass, _, hresult, hresolved⟩
      exact ⟨hpass, hresult, hresolved⟩
    · rintro ⟨hpass, hresult, hresolved⟩
      exact ⟨hpass, trivial, hresult, hresolved⟩
  · constructor
    · rintro (h | ⟨hpass, hfalse | ⟨_, hvalue, h⟩⟩)
      · exact .param h
      · exact hfalse.elim
      · exact .result hpass hvalue h
    · intro h
      cases h with
      | param h => exact Or.inl h
      | result hpass hvalue h => exact Or.inr ⟨hpass, Or.inr ⟨trivial, hvalue, h⟩⟩

theorem getterFunction_verdict (c : Context) (p : Property) :
    Verdict (getterFunction c p)
      (p.type.Storable ∧ c.rules.registry.Resolves c.rules.delegates "ptr" p.type)
      (ResultRefused c.rules.registry c.rules.delegates "ptr" p.type) :=
  (giveAccess_verdict c.rules p.type _ receiverName).bind_pure _

theorem setterFunction_verdict (c : Context) (p : Property) :
    Verdict (setterFunction c p) p.type.Passable
      (ArgumentRefused p.type ("_" ++ p.name)) := by
  refine ((readLocal_verdict c.rules p.type (localName p.name) 1).bind fun read _ =>
    (Rules.operand_verdict p.type (localName p.name)).bind_pure _).congr ?_ fun e => ?_
  · exact and_self_iff
  · -- A local that has been read can also be written, so only reading is refused.
    exact or_iff_left fun h => h.2.1 h.1

theorem propertyFunctions_verdict (c : Context) (p : Property) :
    Verdict (propertyFunctions c p) (p.Admissible c.rules.registry c.rules.delegates)
      (Member.Refused c.rules.registry c.rules.delegates (.property p)) := by
  have hsetter : ∀ getter : Function, Verdict
      (if p.readonly then pure [getter]
        else setterFunction c p >>= fun setter => pure [getter, setter])
      (p.readonly = false → p.type.Passable)
      (fun e => p.readonly = false ∧ ArgumentRefused p.type ("_" ++ p.name) e) := by
    intro getter
    split
    · next hreadonly =>
        refine (Verdict.ok _).congr (iff_of_true trivial ?_) fun e => iff_of_false id ?_
        · simp [hreadonly]
        · simp [hreadonly]
    · next hwritable =>
        have hwritable : p.readonly = false := by simpa using hwritable
        refine ((setterFunction_verdict c p).bind_pure _).congr ?_ fun e => ?_
        · exact ⟨fun h _ => h, fun h => h hwritable⟩
        · exact (and_iff_right hwritable).symm
  refine ((getterFunction_verdict c p).bind fun getter _ => hsetter getter).congr ?_ fun e => ?_
  · constructor
    · rintro ⟨⟨hstorable, hresolved⟩, hset⟩
      exact ⟨hstorable, hresolved, fun h => (IdlType.passable_iff hstorable).mp (hset h)⟩
    · rintro ⟨hstorable, hresolved, hwritable⟩
      exact ⟨⟨hstorable, hresolved⟩, fun h =>
        (IdlType.passable_iff hstorable).mpr (hwritable h)⟩
  · constructor
    · rintro (h | ⟨⟨hstorable, hresolved⟩, hset, h⟩)
      · exact .getter h
      · exact .setter hstorable hresolved hset h
    · intro h
      cases h with
      | getter h => exact Or.inl h
      | setter hstorable hresolved hset h => exact Or.inr ⟨⟨hstorable, hresolved⟩, hset, h⟩

theorem constructorFunction_verdict (c : Context) (params : List Param) :
    Verdict (constructorFunction c params) (∀ p ∈ params, p.type.Passable)
      (ParamsRefused params) := by
  refine ((readParams_verdict c.rules params).bind fun reads hreads =>
    (callOperands_verdict ?_).bind_pure _).congr ?_ fun e => ?_
  · exact (readParams_verdict c.rules params).ok_iff.mp ⟨reads, hreads⟩
  · exact and_iff_left trivial
  · exact or_iff_left fun h => h.2

/-! ## Interfaces and delegates -/

theorem accept_verdict (c : Context) (d : Draft) (m : Member) :
    Verdict (d.accept c m).outcome (m.Admissible c.rules.registry c.rules.delegates)
      (Member.Refused c.rules.registry c.rules.delegates m) := by
  cases m with
  | constructor params =>
      rw [outcome_accept_constructor]
      refine ((constructorFunction_verdict c params).bind_pure _).congr Iff.rfl fun e => ?_
      constructor
      · exact .constructor
      · intro h
        cases h with
        | constructor h => exact h
  | method m =>
      rw [outcome_accept_method]
      exact (methodFunction_verdict c m).bind_pure _
  | property p =>
      rw [outcome_accept_property]
      exact (propertyFunctions_verdict c p).bind_pure _

theorem interfaceGlue_verdict (rules : Rules) (i : Interface) :
    Verdict (interfaceGlue rules i).outcome
      (∀ m ∈ i.members, m.Admissible rules.registry rules.delegates)
      (FirstRefused (Member.Admissible rules.registry rules.delegates)
        (Member.Refused rules.registry rules.delegates) i.members) := by
  rw [outcome_interfaceGlue]
  exact (Verdict.foldlM (fun d m _ => accept_verdict { name := i.name, rules } d m)
    Draft.empty).bind_pure (Draft.finish { name := i.name, rules })

theorem callbackGlue_verdict (rules : Rules) (d : Delegate) :
    Verdict (callbackGlue rules d).outcome d.Admissible d.Refused := by
  rw [outcome_callbackGlue]
  have hseq := (rules.signatureType_verdict d.result).bind fun result _ =>
    (Verdict.mapM fun (p : Param) (_ : p ∈ d.params) =>
      rules.signatureType_verdict p.type).bind_pure
      fun params => ({ flatName := d.flatName, result, params } : CallbackGlue)
  have htypes : (d.result ≠ .primitive .long ∧ ∀ p ∈ d.params, p.type ≠ .primitive .long) ↔
      d.Admissible := by
    rw [Delegate.Admissible, Delegate.types, List.forall_mem_cons, List.forall_mem_map]
  refine hseq.congr htypes fun e => ?_
  have hrefused : ∀ {e}, ((¬ d.result ≠ .primitive .long ∧ e = .unsupportedType "long" .signature) ∨
      d.result ≠ .primitive .long ∧ FirstRefused (fun p : Param => p.type ≠ .primitive .long)
        (fun p e => ¬ p.type ≠ .primitive .long ∧ e = .unsupportedType "long" .signature)
        d.params e) → d.Refused e := by
    rintro e (⟨h, rfl⟩ | ⟨_, before, p, after, hparams, _, h, rfl⟩)
    · exact .long fun hall => h (hall _ List.mem_cons_self)
    · refine .long fun hall => h (hall _ (List.mem_cons_of_mem _ ?_))
      rw [hparams]
      exact List.mem_map_of_mem (by simp)
  refine ⟨hrefused, fun h => ?_⟩
  cases h with
  | long h =>
      -- Every fault of the delegate is this one, and there is a fault.
      obtain ⟨e, he⟩ := hseq.exists_refused (fun hall => h (htypes.mp hall))
      cases hrefused he with
      | long _ => exact he

/-! ## Names -/

section Names

variable {α : Type} {key : α → String} {seen : List String} {xs : List α} {x : α}

/-- The keys are distinct, and none has been seen. -/
def FreshKeys (key : α → String) (seen : List String) (xs : List α) : Prop :=
  (xs.map key).Nodup ∧ ∀ x ∈ xs, key x ∉ seen

theorem freshKeys_nil : FreshKeys key seen [] := ⟨List.nodup_nil, List.forall_mem_nil _⟩

theorem freshKeys_cons :
    FreshKeys key seen (x :: xs) ↔ key x ∉ seen ∧ FreshKeys key (key x :: seen) xs := by
  rw [FreshKeys, FreshKeys, List.map_cons, List.nodup_cons, List.forall_mem_cons]
  simp only [List.mem_cons, not_or, List.mem_map, not_exists, not_and]
  constructor
  · rintro ⟨⟨hnew, hnodup⟩, hx, hxs⟩
    exact ⟨hx, hnodup, fun y hy => ⟨hnew y hy, hxs y hy⟩⟩
  · rintro ⟨hx, hnodup, hxs⟩
    exact ⟨⟨fun y hy => (hxs y hy).1, hnodup⟩, hx, fun y hy => (hxs y hy).2⟩

theorem firstRepeat?_eq_none_iff : firstRepeat? key seen xs = none ↔ FreshKeys key seen xs := by
  induction xs generalizing seen with
  | nil => exact iff_of_true rfl freshKeys_nil
  | cons y xs ih =>
      rw [firstRepeat?, freshKeys_cons]
      split
      · next hseen => exact iff_of_false nofun fun h => h.1 hseen
      · next hnew => rw [ih, and_iff_right hnew]

/-- The search for a repeated key goes past elements whose keys are fresh. -/
theorem firstRepeat?_eq_some_iff : firstRepeat? key seen xs = some x ↔
    ∃ before after, xs = before ++ x :: after ∧ FreshKeys key seen before ∧
      (key x ∈ seen ∨ key x ∈ before.map key) := by
  induction xs generalizing seen with
  | nil => simp [firstRepeat?]
  | cons y xs ih =>
      rw [firstRepeat?]
      split
      · next hseen =>
          -- The key of `y` has been seen, so no element before `x` can be fresh: `y` is `x`.
          constructor
          · rintro ⟨⟩
            exact ⟨[], xs, rfl, freshKeys_nil, Or.inl hseen⟩
          · rintro ⟨before, after, h, hfresh, _⟩
            cases before with
            | nil =>
                obtain ⟨rfl, rfl⟩ := List.cons.inj h
                rfl
            | cons z before =>
                obtain ⟨rfl, rfl⟩ := List.cons.inj h
                exact absurd hseen (freshKeys_cons.mp hfresh).1
      · next hnew =>
          -- The key of `y` moves from the keys before `x` to the seen ones.
          rw [ih]
          constructor
          · rintro ⟨before, after, rfl, hfresh, hx⟩
            refine ⟨y :: before, after, rfl, freshKeys_cons.mpr ⟨hnew, hfresh⟩, ?_⟩
            rw [List.mem_cons, or_right_comm] at hx
            rw [List.map_cons, List.mem_cons]
            exact hx.elim (fun h => h.elim (fun h => Or.inr (Or.inl h)) fun h => Or.inr (Or.inr h))
              Or.inl
          · rintro ⟨before, after, h, hfresh, hx⟩
            cases before with
            | nil =>
                obtain ⟨rfl, rfl⟩ := List.cons.inj h
                exact absurd hx (by simp [hnew])
            | cons z before =>
                obtain ⟨rfl, rfl⟩ := List.cons.inj h
                refine ⟨before, after, rfl, (freshKeys_cons.mp hfresh).2, ?_⟩
                rw [List.map_cons, List.mem_cons] at hx
                rw [List.mem_cons]
                exact hx.elim (fun h => Or.inl (Or.inr h)) fun h =>
                  h.elim (fun h => Or.inl (Or.inl h)) Or.inr

/-- The check that no key is repeated; `fault` tells of the first element that repeats one. -/
def expectDistinct (key : α → String) (fault : α → Fault) (xs : List α) : Except Fault Unit :=
  match firstRepeat? key [] xs with
  | some x => throw (fault x)
  | none => pure ()

theorem expectDistinct_verdict (fault : α → Fault) :
    Verdict (expectDistinct key fault xs)
      (xs.map key).Nodup (fun e => ∃ x, FirstRepeat key xs x ∧ e = fault x) := by
  have hnone : firstRepeat? key [] xs = none ↔ (xs.map key).Nodup := by
    rw [firstRepeat?_eq_none_iff, FreshKeys]
    exact and_iff_left fun x _ => List.not_mem_nil
  have hsome : ∀ x, firstRepeat? key [] xs = some x ↔ FirstRepeat key xs x := by
    intro x
    rw [firstRepeat?_eq_some_iff, FirstRepeat]
    simp only [FreshKeys, List.not_mem_nil, not_false_eq_true, implies_true, and_true, false_or]
  simp only [← hnone, ← hsome]
  unfold expectDistinct
  split
  · next x hx =>
      refine (Verdict.error (fault x)).congr ?_ fun e => ?_
      · exact iff_of_false id fun h => nomatch hx.symm.trans h
      · constructor
        · rintro rfl
          exact ⟨x, hx, rfl⟩
        · rintro ⟨y, hy, rfl⟩
          rw [Option.some.inj (hx.symm.trans hy)]
  · next hx =>
      refine (Verdict.ok ()).congr (iff_of_true trivial hx) fun e => iff_of_false id ?_
      rintro ⟨y, hy, _⟩
      cases hx.symm.trans hy

end Names

theorem checkNames_verdict (file : SourceFile) :
    Verdict (checkNames file)
      ((file.interfaces.map Interface.flatName).Nodup ∧
        (file.delegates.map Delegate.flatName).Nodup)
      (fun e => (∃ i, FirstRepeat Interface.flatName file.interfaces i ∧
          e = .duplicateInterface i.name) ∨
        (file.interfaces.map Interface.flatName).Nodup ∧
          ∃ d, FirstRepeat Delegate.flatName file.delegates d ∧
            e = .duplicateDelegate d.name) := by
  have hnames : checkNames file =
      expectDistinct Interface.flatName (fun i => .duplicateInterface i.name) file.interfaces >>=
        fun _ => expectDistinct Delegate.flatName (fun d => .duplicateDelegate d.name)
          file.delegates := by
    unfold checkNames expectDistinct
    cases firstRepeat? Interface.flatName [] file.interfaces with
    | some i => rfl
    | none => cases firstRepeat? Delegate.flatName [] file.delegates <;> rfl
  rw [hnames]
  exact (expectDistinct_verdict _).bind fun _ _ => expectDistinct_verdict _

/-! ## Files -/

theorem sourceFile_admissible_iff {registry : Registry} {file : SourceFile} :
    file.Admissible registry ↔
      ((file.interfaces.map Interface.flatName).Nodup ∧
        (file.delegates.map Delegate.flatName).Nodup) ∧
      (∀ d ∈ file.delegates, d.Admissible) ∧
      ∀ i ∈ file.interfaces, ∀ m ∈ i.members, m.Admissible registry file.delegates := by
  constructor
  · rintro ⟨hinterfaces, hdelegates, htypes, hmembers⟩
    exact ⟨⟨hinterfaces, hdelegates⟩, htypes, hmembers⟩
  · rintro ⟨⟨hinterfaces, hdelegates⟩, htypes, hmembers⟩
    exact ⟨hinterfaces, hdelegates, htypes, hmembers⟩

/-- What is accepted of a file, and with which fault the others are refused. -/
theorem fileGlue_verdict (dialect : Dialect) (registry : Registry) (file : SourceFile) :
    Verdict (fileGlue dialect registry file).outcome (file.Admissible registry)
      (file.FirstFault registry) := by
  have hseq := (checkNames_verdict file).bind fun _ _ =>
    (Verdict.mapM fun d (_ : d ∈ file.delegates) =>
      callbackGlue_verdict (rulesFor dialect registry file) d).bind fun callbacks _ =>
        (Verdict.mapM fun i (_ : i ∈ file.interfaces) =>
          interfaceGlue_verdict (rulesFor dialect registry file) i).bind_pure fun interfaces =>
            ({ headers := dialect.runtimeHeaders ++ file.headers, callbacks
               slots := slotsOf file, interfaces } : FileGlue)
  -- What is left is to sort the faults of the sequence by where they come from.
  rw [outcome_fileGlue]
  refine hseq.congr sourceFile_admissible_iff.symm fun e => ?_
  constructor
  · rintro ((⟨i, hi, rfl⟩ | ⟨hinterfaces, d, hd, rfl⟩) |
      ⟨⟨hinterfaces, hdelegates⟩, h | ⟨htypes, h⟩⟩)
    · exact .duplicateInterface hi
    · exact .duplicateDelegate hinterfaces hd
    · exact .delegate hinterfaces hdelegates h
    · exact .member hinterfaces hdelegates htypes (firstRefused_flatMap.mpr h)
  · intro h
    cases h with
    | duplicateInterface hi => exact Or.inl (Or.inl ⟨_, hi, rfl⟩)
    | duplicateDelegate hinterfaces hd => exact Or.inl (Or.inr ⟨hinterfaces, _, hd, rfl⟩)
    | delegate hinterfaces hdelegates h =>
        exact Or.inr ⟨⟨hinterfaces, hdelegates⟩, Or.inl h⟩
    | member hinterfaces hdelegates htypes h =>
        exact Or.inr ⟨⟨hinterfaces, hdelegates⟩, Or.inr ⟨htypes, firstRefused_flatMap.mp h⟩⟩

/-- **A file has glue exactly when it is admissible; and when it is not, the fault that is
told is the first one of the file.** -/
theorem fileGlue_outcome_law (dialect : Dialect) (registry : Registry) (file : SourceFile) :
    ((∃ glue, (fileGlue dialect registry file).outcome = .ok glue) ↔
      file.Admissible registry) ∧
    ∀ e, (fileGlue dialect registry file).outcome = .error e ↔
      file.FirstFault registry e :=
  ⟨(fileGlue_verdict dialect registry file).ok_iff,
    (fileGlue_verdict dialect registry file).error_iff⟩

end Glue

end IdlGlue
