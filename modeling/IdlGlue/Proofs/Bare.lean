/-
# IdlGlue.Proofs.Bare -- no name in generated code opens a bracket or ends a line

Names of a source text are made of name characters. What the generator makes of them, flat
names, capitals and the locals of parameters, has none of the `Mark`s of generated code either,
the bracket and the newline, and nor do the native spellings of the standard dialect and the
expressions of the hashed registry. So the only brackets in a generated function are those behind
`arguments`, and its lines are those that its statements end.
-/
import IdlGlue.Compile
import IdlGlue.Proofs.Entries
import IdlGlue.Proofs.Names
import IdlGlue.Proofs.Subscripts

namespace IdlGlue

open IdlGlue.Native IdlGlue.Text IdlGlue.Scan

/-! ## Marks -/

/-- A character that generated code is taken apart at: what opens a subscript, or ends a line. -/
class Mark (k : Char) : Prop where
  eq_or_eq : k = '[' ∨ k = '\n'

instance : Mark '[' := ⟨.inl rfl⟩

instance : Mark '\n' := ⟨.inr rfl⟩

/-- What holds of both marks holds of a mark. -/
theorem Mark.elim {k : Char} [hk : Mark k] {P : Char → Prop} (h : P '[' ∧ P '\n') : P k := by
  rcases hk.eq_or_eq with rfl | rfl
  · exact h.1
  · exact h.2

theorem Mark.lacks {k : Char} [Mark k] {text : String} (h : Lacks '[' text ∧ Lacks '\n' text) :
    Lacks k text :=
  Mark.elim (P := fun k => Lacks k text) h

/-! ## Names -/

theorem mem_of_mem_flattenChars {c : Char} {cs : List Char} (h : c ∈ Name.flattenChars cs) :
    c ∈ cs := by
  fun_induction Name.flattenChars cs with
  | case1 cs ih => exact List.mem_cons_of_mem _ (List.mem_cons_of_mem _ (ih h))
  | case2 d cs _ ih =>
      rw [List.mem_cons] at h ⊢
      exact h.imp_right ih
  | case3 => exact h

theorem lacks_flatten {k : Char} {name : String} (h : Lacks k name) :
    Lacks k (Name.flatten name) := by
  rw [Name.flatten, lacks_ofList]
  exact fun hmem => h (mem_of_mem_flattenChars hmem)

theorem mem_of_lastPart? {c : Char} {cs part : List Char} (h : Name.lastPart? cs = some part)
    (hc : c ∈ part) : c ∈ cs := by
  fun_induction Name.lastPart? cs with
  | case1 => cases h
  | case2 d cs part' hrest ih =>
      cases h
      exact List.mem_cons_of_mem _ (ih hrest)
  | case3 part' =>
      cases h
      exact List.mem_cons_of_mem _ (List.mem_cons_of_mem _ hc)
  | case4 => cases h

theorem lacks_short {k : Char} {name : String} (h : Lacks k name) : Lacks k (Name.short name) := by
  rw [Name.short, lacks_ofList]
  intro hmem
  rw [Name.shortChars] at hmem
  cases hpart : Name.lastPart? name.toList with
  | none =>
      rw [hpart] at hmem
      exact h hmem
  | some part =>
      rw [hpart] at hmem
      exact h (mem_of_lastPart? hpart hmem)

section Names

variable {k : Char} [Mark k]

theorem lacks_of_isNamePart {name : String} (h : AllIn isNamePart name.toList) : Lacks k name := by
  have hk : isNamePart k = false :=
    Mark.elim (P := fun k => isNamePart k = false) (by decide +kernel)
  intro hmem
  rw [h k hmem] at hk
  cases hk

theorem lacks_of_isWord {name : String} (h : AllIn isWord name.toList) : Lacks k name :=
  lacks_of_isNamePart fun c hc => isNamePart_of_isWord (h c hc)

/-- No capital is a mark. -/
theorem mark_not_mem_capitalOf {c : Char} (hc : k ≠ c) : k ∉ capitalOf c := by
  have hexpansions : ∀ e ∈ capitalExpansions, k ∉ e.2.map Char.ofNat :=
    Mark.elim (P := fun k => ∀ e ∈ capitalExpansions, k ∉ e.2.map Char.ofNat) (by decide +kernel)
  have hruns : ∀ r ∈ capitalRuns, r.holds (k.toNat - r.shift).toNat = false :=
    Mark.elim (P := fun k => ∀ r ∈ capitalRuns, r.holds (k.toNat - r.shift).toNat = false)
      (by decide +kernel)
  have hpositive : 0 < k.toNat := Mark.elim (P := fun k => 0 < k.toNat) (by decide)
  unfold capitalOf
  split
  · next points hpoints =>
      obtain ⟨before, after, htable, _⟩ := List.lookup_eq_some_iff.mp hpoints
      refine hexpansions (c.toNat, points) ?_
      rw [htable]
      exact List.mem_append_right _ List.mem_cons_self
  · split
    · next run hrun =>
        rw [List.mem_singleton]
        intro hcapital
        -- The table would hold a letter at the distance of the run from the mark.
        have hpoint : (c.toNat + run.shift).toNat = k.toNat := by
          have hvalue : k.toNat = (Char.ofNat (c.toNat + run.shift).toNat).toNat :=
            congrArg Char.toNat hcapital
          by_cases hvalid : (c.toNat + run.shift).toNat.isValidChar
          · rw [Char.ofNat, dif_pos hvalid] at hvalue
            exact hvalue.symm
          · rw [Char.ofNat, dif_neg hvalid] at hvalue
            exact absurd hvalue hpositive.ne'
        have hletter : c.toNat = (k.toNat - run.shift).toNat := by omega
        have hholds := List.find?_some hrun
        rw [hletter, hruns run (List.mem_of_find?_eq_some hrun)] at hholds
        cases hholds
    · exact fun h => hc (List.mem_singleton.mp h)

theorem mark_not_mem_capitalize {cs : List Char} (h : k ∉ cs) : k ∉ capitalize cs := by
  cases cs with
  | nil => exact List.not_mem_nil
  | cons c cs =>
      obtain ⟨hc, hcs⟩ := List.ne_and_not_mem_of_not_mem_cons h
      rw [capitalize, List.mem_append, not_or]
      exact ⟨mark_not_mem_capitalOf hc, hcs⟩

theorem lacks_memberName {name : String} (h : Lacks k name) (asIs : Bool) :
    Lacks k (memberName name asIs) := by
  unfold memberName
  split
  · exact h
  · rw [lacks_ofList]
    exact mark_not_mem_capitalize h

/-- The mark is not in what the type names. -/
def IdlType.Bare (k : Char) : IdlType → Prop
  | .void | .primitive _ => True
  | .object name | .reference name | .anyOf name => Lacks k name

theorem IdlType.Named.bare {type : IdlType} (h : type.Named) : type.Bare k := by
  cases h with
  | void | primitive => trivial
  | object h | reference h | anyOf h => exact lacks_of_isNamePart h

theorem lacks_localName {name : String} (h : Lacks k name) : Lacks k (localName name) := by
  simp +decide only [Mark.lacks, localName, lacks_append, h]

end Names

namespace Glue

/-! ## Rules -/

section Parts

variable {k : Char}

/-- All statements are bare. -/
def BarePart (k : Char) (part : List Stmt) : Prop := ∀ s ∈ part, s.Bare k

theorem barePart_cons {s : Stmt} {part : List Stmt} :
    BarePart k (s :: part) ↔ s.Bare k ∧ BarePart k part := List.forall_mem_cons

theorem barePart_append {part part' : List Stmt} :
    BarePart k (part ++ part') ↔ BarePart k part ∧ BarePart k part' := List.forall_mem_append

end Parts

variable {k : Char} [Mark k]

/-- The mark is in no spelling of the dialect, and the registry brings it into no expression. -/
structure BareRules (k : Char) (r : Rules) : Prop where
  stringType : Lacks k r.dialect.stringType
  registry : ∀ set selector expression, Lacks k set → Lacks k selector →
    r.registry.prototype { set, selector, delegates := r.delegates } = .ok expression →
    Lacks k expression

/-- The standard options bring in no mark. -/
theorem bareRules_standard (delegates : List Delegate) :
    BareRules k ⟨Options.standard.dialect, Options.standard.registry, delegates⟩ where
  stringType := by
    show Lacks k "stl::string"
    exact Mark.lacks (by decide)
  registry := by
    intro set selector expression hset hselector h
    cases h
    show Lacks k (_ ++ _ ++ _ ++ _ ++ _ ++ _ ++ _ ++ _)
    simp +decide only [Mark.lacks, lacks_append, hset, hselector]

variable {r : Rules} {type : IdlType} {name : String}

theorem bare_storage (hr : BareRules k r) (htype : type.Bare k) (hname : Lacks k name)
    {decl : Local} (h : r.storage type name = .ok decl) : (Stmt.declare decl).Bare k := by
  cases type with
  | void => cases h
  | primitive kind =>
      cases kind with
      | long => cases h
      | int | float | double =>
          cases h
          refine ⟨Mark.lacks ?_, hname⟩
          dsimp only
          decide
      | string =>
          cases h
          exact ⟨hr.stringType, hname⟩
  | object className | reference className =>
      cases h
      have hclass : Lacks k className := htype
      exact ⟨by simp +decide only [Mark.lacks, lacks_append, hclass], hname⟩
  | anyOf set =>
      cases h
      refine ⟨Mark.lacks ?_, hname⟩
      dsimp only
      decide

theorem bare_readText (hname : Lacks k name) (place : Nat) :
    BarePart k (Rules.readText name place) := by
  simp +decide [Mark.lacks, Rules.readText, BarePart, Stmt.Bare, Operand.Bare, hname]

theorem bare_readArgument (hname : Lacks k name) {place : Nat} {part : List Stmt}
    (h : Rules.readArgument type name place = .ok part) : BarePart k part := by
  cases type with
  | primitive kind =>
      cases kind with
      | long => cases h
      | int | float | double =>
          cases h
          simp +decide [Mark.lacks, BarePart, Stmt.Bare, Operand.Bare, hname]
      | string =>
          cases h
          exact bare_readText hname place
  | object className =>
      cases h
      simp +decide [Mark.lacks, BarePart, Stmt.Bare, Operand.Bare, hname]
  | void | reference | anyOf => cases h

theorem bare_operand (htype : type.Bare k) (hname : Lacks k name) {x : Operand}
    (h : Rules.operand type name = .ok x) : x.Bare k := by
  cases type with
  | primitive kind =>
      cases kind with
      | long => cases h
      | int | float | double =>
          cases h
          exact ⟨Mark.lacks (by decide), hname⟩
      | string =>
          cases h
          exact hname
  | object className =>
      cases h
      have hclass : Lacks k className := htype
      exact ⟨by simp +decide only [Mark.lacks, lacks_append, hclass], hname⟩
  | void | reference | anyOf => cases h

theorem bare_conversion (htype : type.Bare k) {conversion : Conversion}
    (h : Rules.conversion type = .ok conversion) : Lacks k (conversion.apply "") := by
  cases type with
  | primitive kind =>
      cases kind with
      | long => cases h
      | int | float | double | string =>
          cases h
          exact Mark.lacks (by decide)
  | object className =>
      cases h
      have hclass : Lacks k className := htype
      simp +decide only [Mark.lacks, Conversion.apply, lacks_append, hclass]
  | reference | anyOf =>
      cases h
      exact Mark.lacks (by decide)
  | void => cases h

theorem bare_wrapObject (hname : Lacks k name) {prototype : Prototype}
    (hprototype : Lacks k prototype.text) : BarePart k (Rules.wrapObject name prototype) := by
  simp +decide [Mark.lacks, Rules.wrapObject, BarePart, Stmt.Bare, Operand.Bare, hname, hprototype]

theorem lacks_slot {flat : String} (h : Lacks k flat) :
    Lacks k (Prototype.slot flat).text := by
  show Lacks k ("Js" ++ flat ++ "Prototype")
  simp +decide only [Mark.lacks, lacks_append, h]

theorem bare_giveResult (hr : BareRules k r) (htype : type.Bare k) {selector : String}
    (hselector : Lacks k selector) {part : List Stmt}
    (h : r.giveResult type selector = .ok part) : BarePart k part := by
  have hresult : Lacks k resultName := Mark.lacks (by decide)
  cases type with
  | void => cases h
  | primitive kind =>
      cases kind with
      | long => cases h
      | int | float | double | string =>
          cases h
          simp +decide [Mark.lacks, Rules.giveText, BarePart, Stmt.Bare, Operand.Bare]
  | object className | reference className =>
      cases h
      exact bare_wrapObject hresult (lacks_slot (lacks_flatten htype))
  | anyOf set =>
      obtain ⟨expression, hexpression, h⟩ := Traversal.bind_eq_ok_iff.mp h
      cases h
      exact bare_wrapObject hresult (hr.registry set selector _ htype hselector hexpression)

theorem lacks_signatureType (hr : BareRules k r) (htype : type.Bare k) {spelling : String}
    (h : r.signatureType type = .ok spelling) : Lacks k spelling := by
  cases type with
  | void | anyOf =>
      cases h
      exact Mark.lacks (by decide)
  | primitive kind =>
      cases kind with
      | long => cases h
      | int | float | double =>
          cases h
          exact Mark.lacks (by decide)
      | string =>
          cases h
          simp +decide only [Mark.lacks, lacks_append, hr.stringType]
  | object className | reference className =>
      cases h
      have hclass : Lacks k className := htype
      simp +decide only [Mark.lacks, lacks_append, hclass]

/-! ## Parts of a body -/

theorem bare_receiver (hname : Lacks k name) : BarePart k (receiver name) := by
  simp +decide [Mark.lacks, receiver, BarePart, Stmt.Bare, hname]

theorem bare_readLocal (hr : BareRules k r) (htype : type.Bare k) (hname : Lacks k name)
    {place : Nat} {part : List Stmt} (h : readLocal r type name place = .ok part) :
    BarePart k part := by
  obtain ⟨decl, hdecl, h⟩ := Traversal.bind_eq_ok_iff.mp h
  obtain ⟨read, hread, h⟩ := Traversal.bind_eq_ok_iff.mp h
  cases h
  exact barePart_cons.mpr ⟨bare_storage hr htype hname hdecl, bare_readArgument hname hread⟩

theorem lacks_localName_of_named {p : Param} (h : p.Named) :
    Lacks k (localName p.name) := lacks_localName (lacks_of_isWord h.name)

theorem bare_readParams (hr : BareRules k r) {params : List Param} (hparams : ∀ p ∈ params, p.Named)
    {part : List Stmt} (h : readParams r params = .ok part) : BarePart k part := by
  induction params generalizing part with
  | nil =>
      cases h
      exact List.forall_mem_nil _
  | cons p ps ih =>
      obtain ⟨first, hfirst, h⟩ := Traversal.bind_eq_ok_iff.mp h
      obtain ⟨others, hothers, h⟩ := Traversal.bind_eq_ok_iff.mp h
      cases h
      obtain ⟨hp, hps⟩ := List.forall_mem_cons.mp hparams
      exact barePart_append.mpr
        ⟨bare_readLocal hr hp.type.bare (lacks_localName_of_named hp) hfirst, ih hps hothers⟩

theorem bare_callOperands {params : List Param} (hparams : ∀ p ∈ params, p.Named)
    {operands : List Operand} (h : callOperands params = .ok operands) :
    ∀ x ∈ operands, x.Bare k := by
  have hall := Traversal.mapM_eq_ok_iff.mp h
  induction hall with
  | nil => exact List.forall_mem_nil _
  | cons hx hxs ih =>
      obtain ⟨hp, hps⟩ := List.forall_mem_cons.mp hparams
      exact List.forall_mem_cons.mpr
        ⟨bare_operand hp.type.bare (lacks_localName_of_named hp) hx,
          ih hps (Traversal.mapM_eq_ok_iff.mpr hxs)⟩

theorem bare_giveAccess (hr : BareRules k r) (htype : type.Bare k) {source : Access}
    (hsource : source.Bare k) {selector : String} (hselector : Lacks k selector)
    {part : List Stmt} (h : giveAccess r type source selector = .ok part) : BarePart k part := by
  obtain ⟨decl, hdecl, h⟩ := Traversal.bind_eq_ok_iff.mp h
  obtain ⟨conversion, hconversion, h⟩ := Traversal.bind_eq_ok_iff.mp h
  obtain ⟨give, hgive, h⟩ := Traversal.bind_eq_ok_iff.mp h
  cases h
  have hresult : Lacks k resultName := Mark.lacks (by decide)
  refine barePart_cons.mpr ⟨bare_storage hr htype hresult hdecl, barePart_cons.mpr ⟨?_, ?_⟩⟩
  · exact ⟨hresult, bare_conversion htype hconversion, hsource⟩
  · exact bare_giveResult hr htype hselector hgive

theorem lacks_methodSelector {params : List Param} (hparams : ∀ p ∈ params, p.Named) :
    Lacks k (methodSelector params) := by
  cases params with
  | nil =>
      show Lacks k receiverName
      exact Mark.lacks (by decide)
  | cons p ps => exact lacks_localName_of_named (List.forall_mem_cons.mp hparams).1

theorem bare_methodAsk (hr : BareRules k r) {m : Method} (hm : m.Named) {source : Access}
    (hsource : source.Bare k) {part : List Stmt} (h : methodAsk r m source = .ok part) :
    BarePart k part := by
  unfold methodAsk at h
  split at h
  · cases h
    exact List.forall_mem_singleton.mpr hsource
  · exact bare_giveAccess hr hm.result.bare hsource (lacks_methodSelector hm.params) h

/-! ## Functions -/

/-- The mark is neither in the name of the function nor in a name of its statements. -/
structure BareFunction (k : Char) (f : Function) : Prop where
  symbol : Lacks k f.symbol.spelling
  body : BarePart k f.body

variable {c : Context} {f : Function}

theorem bare_methodFunction (hr : BareRules k c.rules) (hc : Lacks k c.name) {m : Method}
    (hm : m.Named) (h : methodFunction c m = .ok f) : BareFunction k f := by
  rw [methodFunction_eq] at h
  obtain ⟨reads, hreads, h⟩ := Traversal.bind_eq_ok_iff.mp h
  obtain ⟨operands, hoperands, h⟩ := Traversal.bind_eq_ok_iff.mp h
  obtain ⟨ask, hask, h⟩ := Traversal.bind_eq_ok_iff.mp h
  cases h
  have hflat : Lacks k c.flat := lacks_flatten hc
  have hname : Lacks k m.name := lacks_of_isWord hm.name
  refine ⟨?_, barePart_cons.mpr ⟨trivial, ?_⟩⟩
  · show Lacks k ("Js" ++ c.flat ++ m.name)
    simp +decide only [Mark.lacks, lacks_append, hflat, hname]
  · have hsource : (Access.call (memberName m.name m.nameAsIs) operands).Bare k :=
      ⟨lacks_memberName hname _, bare_callOperands hm.params hoperands⟩
    have hask := bare_methodAsk hr hm hsource hask
    simp only [List.append_eq, barePart_append]
    exact ⟨⟨⟨bare_receiver hc, bare_readParams hr hm.params hreads⟩, hask⟩,
      List.forall_mem_singleton.mpr trivial⟩

theorem bare_getterFunction (hr : BareRules k c.rules) (hc : Lacks k c.name) {p : Property}
    (hp : p.Named) (h : getterFunction c p = .ok f) : BareFunction k f := by
  obtain ⟨give, hgive, h⟩ := Traversal.bind_eq_ok_iff.mp h
  cases h
  have hflat : Lacks k c.flat := lacks_flatten hc
  have hname : Lacks k p.name := lacks_of_isWord hp.name
  refine ⟨?_, barePart_cons.mpr ⟨trivial, ?_⟩⟩
  · show Lacks k ("Js" ++ c.flat ++ p.name ++ "Getter")
    simp +decide only [Mark.lacks, lacks_append, hflat, hname]
  · have hsource : (Access.field (memberName p.name p.nameAsIs)).Bare k :=
      lacks_memberName hname _
    have hgive := bare_giveAccess hr hp.type.bare hsource (Mark.lacks (by decide)) hgive
    simp only [List.append_eq, barePart_append]
    exact ⟨⟨bare_receiver hc, hgive⟩, List.forall_mem_singleton.mpr trivial⟩

theorem bare_setterFunction (hr : BareRules k c.rules) (hc : Lacks k c.name) {p : Property}
    (hp : p.Named) (h : setterFunction c p = .ok f) : BareFunction k f := by
  obtain ⟨read, hread, h⟩ := Traversal.bind_eq_ok_iff.mp h
  obtain ⟨value, hvalue, h⟩ := Traversal.bind_eq_ok_iff.mp h
  cases h
  have hflat : Lacks k c.flat := lacks_flatten hc
  have hname : Lacks k p.name := lacks_of_isWord hp.name
  have hlocal := lacks_localName hname
  refine ⟨?_, barePart_cons.mpr ⟨trivial, ?_⟩⟩
  · show Lacks k ("Js" ++ c.flat ++ p.name ++ "Setter")
    simp +decide only [Mark.lacks, lacks_append, hflat, hname]
  · have hread := bare_readLocal hr hp.type.bare hlocal hread
    have hwrite : (Stmt.writeField (memberName p.name p.nameAsIs) value).Bare k :=
      ⟨lacks_memberName hname _, bare_operand hp.type.bare hlocal hvalue⟩
    simp only [List.append_eq, barePart_append]
    exact ⟨⟨bare_receiver hc, hread⟩, barePart_cons.mpr
      ⟨hwrite, List.forall_mem_singleton.mpr trivial⟩⟩

theorem bare_constructorFunction (hr : BareRules k c.rules) (hc : Lacks k c.name)
    {params : List Param} (hparams : ∀ p ∈ params, p.Named)
    (h : constructorFunction c params = .ok f) : BareFunction k f := by
  obtain ⟨reads, hreads, h⟩ := Traversal.bind_eq_ok_iff.mp h
  obtain ⟨operands, hoperands, h⟩ := Traversal.bind_eq_ok_iff.mp h
  cases h
  have hflat : Lacks k c.flat := lacks_flatten hc
  have hobject : Lacks k objectName := Mark.lacks (by decide)
  have houtput : Lacks k outputName := Mark.lacks (by decide)
  refine ⟨?_, barePart_cons.mpr ⟨trivial, barePart_cons.mpr ⟨trivial, ?_⟩⟩⟩
  · show Lacks k ("Js" ++ c.flat ++ "Constructor")
    simp +decide only [Mark.lacks, lacks_append, hflat]
  · have hcreate : (Stmt.create c.name operands).Bare k :=
      ⟨hc, bare_callOperands hparams hoperands⟩
    have hregister :
        (Stmt.invoke (Symbol.registration c.flat).spelling [.value outputName]).Bare k := by
      refine ⟨?_, List.forall_mem_singleton.mpr houtput⟩
      show Lacks k ("Js" ++ c.flat ++ "DefineProperties")
      simp +decide only [Mark.lacks, lacks_append, hflat]
    simp only [List.append_eq, barePart_append]
    exact ⟨⟨⟨bare_readParams hr hparams hreads, List.forall_mem_singleton.mpr hcreate⟩,
      bare_wrapObject hobject (lacks_slot hflat)⟩,
      barePart_cons.mpr ⟨hregister, List.forall_mem_singleton.mpr trivial⟩⟩

/-- A function that is made of a member with names of name characters has no mark in a name. -/
theorem MadeOf.bare {m : Member} {e : Entry} (h : MadeOf c m e f) (hr : BareRules k c.rules)
    (hc : Lacks k c.name) (hm : m.Named) : BareFunction k f := by
  cases h with
  | constructor h => exact bare_constructorFunction hr hc hm h
  | method h => exact bare_methodFunction hr hc hm h
  | getter h => exact bare_getterFunction hr hc hm h
  | setter h => exact bare_setterFunction hr hc hm h

/-- No function of an interface has a mark in a name. -/
theorem bare_interfaceGlue {rules : Rules} {i : Interface} {g : InterfaceGlue}
    (hrules : BareRules k rules) (hi : i.Named) (h : (interfaceGlue rules i).outcome = .ok g) :
    ∀ f ∈ g.functions, BareFunction k f := by
  refine Traversal.forall_mem_of_forall₂ (madeOf_interfaceGlue h) ?_
  rintro e _ f ⟨m, hm, hmade⟩
  exact hmade.bare hrules (lacks_of_isNamePart hi.name) (hi.members m hm)

/-- **The texts of the functions of an interface subscript the places that the functions read,
and nothing else.** -/
theorem subscripts_interfaceGlue {rules : Rules} {i : Interface} {g : InterfaceGlue}
    (hrules : BareRules '[' rules) (hi : i.Named) (h : (interfaceGlue rules i).outcome = .ok g) :
    ∀ f ∈ g.functions, subscripts f.text.toList = f.argumentsRead.map numeral := by
  intro f hf
  have hbare := bare_interfaceGlue hrules hi h f hf
  exact subscripts_text hbare.symbol hbare.body

end Glue

end IdlGlue
