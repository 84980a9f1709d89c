/-
# IdlGlue.Proofs.CastLines -- each delegate has its cast once

    inline XCallback AsX(void* callback)

With this line the cast of a delegate with the flat name `X` begins. `Casts` says of a text of whole
lines which of them begin casts. The block of a delegate has one such line, and nothing else in
the code of a file has any:

| part of the code          | how its lines begin, or end                                 |
|---------------------------|-------------------------------------------------------------|
| include lines             | begin with `#`; a broken one goes on with a blank, `<`, `"` |
| aliases                   | begin with `using`                                          |
| slots                     | begin with `JsValueRef` or `extern`                         |
| functions, registrations  | begin with `JsValueRef`, `void`, a brace or a tab           |
| tables of methods         | begin with `const`                                          |
| projection records        | the first ends in `(`; the others begin with a tab or `)`   |

So the line of each delegate stands once in the code, ahead of the namespace (`CastOnce`). The names
in the code are those of an accepted text, which hold no newline; the dialect may bring in
anything, and `Dialect.Plain` is what it must not bring in.
-/
import IdlGlue.Proofs.HeaderBlock
import IdlGlue.Proofs.Tables

namespace IdlGlue

open IdlGlue.Native IdlGlue.Text IdlGlue.Scan

open Glue.CallbackGlue (castLine)

/-- What a dialect must not bring into the code of a file: line ends, and casts of its own. -/
structure Dialect.Plain (dialect : Dialect) : Prop where
  bindingNamespace : Lacks '\n' dialect.bindingNamespace
  stringType : Lacks '\n' dialect.stringType
  headers : ∀ line ∈ dialect.runtimeHeaders, Lacks '\n' line ∧ ∀ flat, line ≠ castLine flat

namespace Glue

/-! ## Lines that begin casts -/

/-- The line begins no cast. -/
def NoCast (line : List Char) : Prop := ∀ flat, line ≠ (castLine flat).toList

section Casts

variable {s t line flat : String} {flats flats' : List String}

theorem noCast_of_head? {line : List Char} (h : line.head? ≠ some 'i') : NoCast line := by
  rintro flat rfl
  simp [castLine] at h

theorem noCast_of_getLast? {line : List Char} (h : line.getLast? ≠ some ')') : NoCast line := by
  rintro flat rfl
  refine h ?_
  rw [castLine, String.toList_append, List.getLast?_append]
  rfl

theorem castLine_injective : Function.Injective castLine := by
  intro a b h
  have hchars : (castLine a).toList = (castLine b).toList := congrArg String.toList h
  have hlength : a.toList.length = b.toList.length := by
    have hlengths := congrArg List.length hchars
    simp only [castLine, String.toList_append, List.length_append] at hlengths
    omega
  simp only [castLine, String.toList_append, List.append_assoc] at hchars
  exact String.toList_inj.mp (List.append_inj (List.append_cancel_left hchars) hlength).1

/-- The text is whole lines, of which those that begin casts are the casts of these flat names. -/
def Casts (text : String) (flats : List String) : Prop :=
  ∃ lines, HasLines text lines ∧ ∀ flat, lines.count (castLine flat).toList = flats.count flat

theorem casts_empty : Casts "" [] := ⟨[], hasLines_empty, fun _ => rfl⟩

theorem Casts.append (hs : Casts s flats) (ht : Casts t flats') :
    Casts (s ++ t) (flats ++ flats') := by
  obtain ⟨lines, hs, hcount⟩ := hs
  obtain ⟨lines', ht, hcount'⟩ := ht
  refine ⟨lines ++ lines', hs.append ht, fun flat => ?_⟩
  rw [List.count_append, List.count_append, hcount, hcount']

theorem casts_join {α : Type} {text : α → String} {flatsOf : α → List String} {xs : List α}
    (h : ∀ x ∈ xs, Casts (text x) (flatsOf x)) :
    Casts (String.join (xs.map text)) (xs.flatMap flatsOf) := by
  induction xs with
  | nil => exact casts_empty
  | cons x xs ih =>
      obtain ⟨hx, hxs⟩ := List.forall_mem_cons.mp h
      rw [List.map_cons, String.join_cons, List.flatMap_cons]
      exact hx.append (ih hxs)

/-- Texts without casts have none together. -/
theorem casts_join_none {α : Type} {text : α → String} {xs : List α}
    (h : ∀ x ∈ xs, Casts (text x) []) : Casts (String.join (xs.map text)) [] := by
  have hall := casts_join h
  rwa [List.flatMap_eq_nil_iff.mpr fun _ _ => rfl] at hall

theorem casts_line (h : Lacks '\n' line) (hline : NoCast line.toList) : Casts (line ++ "\n") [] :=
  ⟨_, hasLines_line h, fun flat => by simp [hline flat]⟩

/-- Lines that open or close something, or are empty. -/
theorem casts_mark {mark : String} (h : mark ∈ ["", "\x7b", "\x7d", ");", "namespace"]) :
    Casts (mark ++ "\n") [] := by
  refine casts_line ?_ (noCast_of_head? ?_) <;> revert mark <;> decide

theorem casts_castLine (h : Lacks '\n' flat) : Casts (castLine flat ++ "\n") [flat] := by
  have hline : Lacks '\n' (castLine flat) := by
    unfold castLine
    simp +decide only [lacks_append, h]
  refine ⟨_, hasLines_line hline, fun other => ?_⟩
  simp only [List.count_singleton, beq_iff_eq, String.toList_inj, castLine_injective.eq_iff]

theorem casts_indented (h : Indented s) : Casts s [] := by
  obtain ⟨lines, hlines, htab⟩ := h
  refine ⟨lines, hlines, fun flat => List.count_eq_zero.mpr fun hmem => ?_⟩
  exact noCast_of_head? (by rw [htab _ hmem]; decide) flat rfl

end Casts

/-! ## Include lines -/

theorem head?_of_mem_linePieces {blanks rest line : List Char} (hblanks : AllIn isBlank blanks)
    (hrest : '\n' ∉ rest) (hhead : rest.head? ≠ some 'i')
    (h : line ∈ linePieces (blanks ++ rest)) : line.head? ≠ some 'i' := by
  induction blanks generalizing line with
  | nil =>
      rw [List.nil_append, linePieces_of_not_mem hrest] at h
      rw [List.mem_singleton.mp h]
      exact hhead
  | cons b blanks ih =>
      obtain ⟨hb, hblanks⟩ := allIn_cons.mp hblanks
      by_cases hnewline : b = '\n'
      · have hpieces : linePieces (b :: blanks ++ rest) = [] :: linePieces (blanks ++ rest) := by
          rw [hnewline]
          exact linePieces_append_cons [] _
        rw [hpieces] at h
        rcases List.mem_cons.mp h with rfl | h
        · simp
        · exact ih hblanks h
      · -- A blank that ends no line is put in front of the first line of the rest.
        have hone : '\n' ∉ [b] := by simpa using Ne.symm hnewline
        obtain ⟨first, others, hpieces, hall⟩ := linePieces_start hone (blanks ++ rest)
        have hall : linePieces (b :: blanks ++ rest) = (b :: first) :: others := hall
        rw [hall] at h
        rcases List.mem_cons.mp h with rfl | h
        · rintro ⟨⟩
          exact absurd hb (by decide)
        · refine ih hblanks ?_
          rw [hpieces]
          exact List.mem_cons_of_mem _ h

/-- An include line is no cast, broken or not. -/
theorem casts_header {p : HeaderForm} (h : line.toList = p.text) : Casts (line ++ "\n") [] := by
  refine ⟨_, hasLines_newline line, fun flat => List.count_eq_zero.mpr fun hmem => ?_⟩
  refine noCast_of_head? ?_ flat rfl
  -- What stands behind the blanks is on one line, and begins with a mark.
  obtain ⟨path, hwritten⟩ : ∃ path,
      p.marks.opening.toList ++ (p.path.1 ++ [p.marks.closing]) = path := ⟨_, rfl⟩
  have hpath : '\n' ∉ path ∧ path.head? ≠ some 'i' := by
    have hinner : '\n' ∉ p.path.1 := fun hmem => by simpa using p.path.2.2 '\n' hmem
    obtain ⟨mark, hopening, hmark, hi, hclosing⟩ := p.marks.opening_eq
    rw [← hwritten, hopening]
    simp [hmark, hi, hclosing, hinner]
  have hword : '\n' ∉ "#include".toList := by decide
  obtain ⟨first, others, hpieces, hall⟩ := linePieces_start hword (p.blanks.1 ++ path)
  have htext : line.toList = "#include".toList ++ (p.blanks.1 ++ path) :=
    h.trans (congrArg (fun path => "#include".toList ++ (p.blanks.1 ++ path)) hwritten)
  have hall : linePieces line.toList = ("#include".toList ++ first) :: others :=
    (congrArg linePieces htext).trans hall
  rw [hall] at hmem
  rcases List.mem_cons.mp hmem with hfirst | hothers
  · simp [hfirst]
  · refine head?_of_mem_linePieces p.blanks.2 hpath.1 hpath.2 ?_
    rw [hpieces]
    exact List.mem_cons_of_mem _ hothers

/-! ## Definitions of interfaces -/

section Definitions

variable {f : Native.Function} {r : Registration} {p : Projection} {symbols : List Symbol}

/-- A definition in braces behind its first line. -/
theorem casts_braced {line body : String} (hline : Lacks '\n' line)
    (hhead : line.toList.head? ≠ some 'i') (hbody : Indented body) :
    Casts ("\n" ++ line ++ "\n\x7b\n" ++ body ++ "\x7d\n") [] := by
  have htext : "\n" ++ line ++ "\n\x7b\n" ++ body ++ "\x7d\n" =
      "" ++ "\n" ++ (line ++ "\n") ++ ("\x7b" ++ "\n") ++ body ++ ("\x7d" ++ "\n") := by
    apply String.toList_inj.mp
    simp
  rw [htext]
  exact ((((casts_mark (by simp)).append (casts_line hline (noCast_of_head? hhead))).append
    (casts_mark (by simp))).append (casts_indented hbody)).append (casts_mark (by simp))

theorem casts_function (h : BareFunction '\n' f) : Casts f.text [] := by
  let line := "JsValueRef CALLBACK " ++ f.symbol.spelling ++
    "(JsValueRef callee, bool isConstructCall, JsValueRef* arguments, " ++
    "unsigned short argumentCount, void* callbackState)"
  have htext : f.text = "\n" ++ line ++ "\n\x7b\n" ++ bodyText f.body ++ "\x7d\n" := by
    apply String.toList_inj.mp
    simp [f.text_eq, line]
  rw [htext]
  refine casts_braced ?_ (by simp [line]) (indented_body h.body)
  simp +decide only [line, lacks_append, h.symbol]

theorem lacks_addressList (h : ∀ s ∈ symbols, Lacks '\n' s.spelling) :
    Lacks '\n' (addressList symbols) := by
  refine lacks_intercalate (by decide) (List.forall_mem_map.mpr fun s hs => ?_)
  simp +decide only [lacks_append, h s hs]

theorem lacks_accessors {flat : String} {e : PropertyEntry} (hflat : Lacks '\n' flat)
    (hname : Lacks '\n' e.name) : Lacks '\n' (addressList (e.accessors flat)) := by
  refine lacks_addressList fun s hs => ?_
  rw [PropertyEntry.accessors] at hs
  have hpair : s ∈ [Symbol.getter flat e.name, .setter flat e.name] := by
    split at hs
    · exact List.mem_cons.mpr (Or.inl (List.mem_singleton.mp hs))
    · exact hs
  rcases List.mem_pair.mp hpair with rfl | rfl <;>
    simp +decide only [Symbol.spelling, lacks_append, hflat, hname]

theorem casts_registration (hflat : Lacks '\n' r.flat) (hbinding : Lacks '\n' r.bindingNamespace)
    (hnames : ∀ e ∈ r.entries, Lacks '\n' e.name) : Casts r.text [] := by
  let line := "void Js" ++ r.flat ++ "DefineProperties(JsValueRef object)"
  have htext : r.text = "\n" ++ line ++ "\n\x7b\n" ++ String.join (r.entries.map r.entryLine) ++
      "\x7d\n" := by
    apply String.toList_inj.mp
    simp [r.text_eq, line, Symbol.spelling]
  rw [htext]
  refine casts_braced ?_ (by simp [line]) (indented_join (List.forall_mem_map.mpr fun e he => ?_))
  · simp +decide only [line, lacks_append, hflat]
  · refine indented_bodyLine ?_
    have haccessors := lacks_accessors hflat (hnames e he)
    simp +decide only [wideLiteral, lacks_append, hbinding, hnames e he, haccessors]

/-- The arguments of a record stand on lines of their own. -/
theorem indented_arguments {first : String} {others : List String}
    (h : ∀ x ∈ first :: others, Lacks '\n' x) :
    Indented (",\n".intercalate ((first :: others).map ("\t" ++ ·)) ++ "\n") := by
  induction others generalizing first with
  | nil =>
      rw [List.map_cons, List.map_nil, String.intercalate_singleton]
      exact indented_bodyLine (h first List.mem_cons_self)
  | cons second others ih =>
      obtain ⟨hfirst, hothers⟩ := List.forall_mem_cons.mp h
      have hline : Lacks '\n' (first ++ ",") := by simp +decide only [lacks_append, hfirst]
      have htext : ",\n".intercalate ((first :: second :: others).map ("\t" ++ ·)) ++ "\n" =
          bodyLine (first ++ ",") ++
            (",\n".intercalate ((second :: others).map ("\t" ++ ·)) ++ "\n") := by
        rw [List.map_cons, List.map_cons, String.intercalate_cons_cons, ← List.map_cons]
        apply String.toList_inj.mp
        simp [bodyLine]
      rw [htext]
      exact (indented_bodyLine hline).append (ih hothers)

theorem lacks_arguments (hflat : Lacks '\n' p.flat) (hshort : Lacks '\n' p.shortName) :
    ∀ x ∈ p.arguments, Lacks '\n' x := by
  have hsymbols : ∀ s ∈ [Symbol.prototype p.flat, .constructor p.flat, .memberNames p.flat,
      .memberFunctions p.flat], Lacks '\n' s.spelling := by
    simp +decide [Symbol.spelling, hflat]
  have hname : Lacks '\n' (wideLiteral p.shortName) := by
    simp +decide only [wideLiteral, lacks_append, hshort]
  have hconstructor :
      Lacks '\n' ((p.constructorSymbol?.map fun s => "&" ++ s.spelling).getD "nullptr") := by
    rw [Projection.constructorSymbol?]
    cases p.hasConstructor with
    | false =>
        show Lacks '\n' "nullptr"
        decide
    | true =>
        show Lacks '\n' ("&" ++ (Symbol.constructor p.flat).spelling)
        exact (lacks_append ..).mpr ⟨by decide, hsymbols _ (by simp)⟩
  rw [Projection.arguments, List.forall_mem_append]
  constructor
  · simp only [List.forall_mem_cons]
    exact ⟨hname, hconstructor, hsymbols _ (by simp), List.forall_mem_nil _⟩
  · split
    · exact List.forall_mem_nil _
    · simp only [List.forall_mem_cons]
      exact ⟨lacks_numeral _, hsymbols _ (by simp), hsymbols _ (by simp), List.forall_mem_nil _⟩

theorem casts_tables (hflat : Lacks '\n' p.flat) (hmethods : ∀ name ∈ p.methods, Lacks '\n' name) :
    Casts p.tables [] := by
  have hnames : Lacks '\n' (", ".intercalate (p.methods.map wideLiteral)) := by
    refine lacks_intercalate (by decide) (List.forall_mem_map.mpr fun name hname => ?_)
    simp +decide only [wideLiteral, lacks_append, hmethods name hname]
  have hfunctions : Lacks '\n' (addressList p.methodSymbols) := by
    refine lacks_addressList (List.forall_mem_map.mpr fun name hname => ?_)
    simp +decide only [Symbol.spelling, lacks_append, hflat, hmethods name hname]
  let names := "const wchar_t* " ++ p.flat ++ "MemberNames[] = \x7b" ++
    ", ".intercalate (p.methods.map wideLiteral) ++ "\x7d;"
  let functions := "const JsNativeFunction " ++ p.flat ++ "MemberFuncs[] = \x7b" ++
    addressList p.methodSymbols ++ "\x7d;"
  have htext : p.namesTable ++ p.functionsTable = names ++ "\n" ++ (functions ++ "\n") := by
    unfold Projection.namesTable Projection.functionsTable
    apply String.toList_inj.mp
    simp [names, functions, Symbol.spelling]
  rw [p.tables_eq]
  split
  · exact casts_empty
  · rw [htext]
    refine (casts_line ?_ (noCast_of_head? (by simp [names]))).append
      (casts_line ?_ (noCast_of_head? (by simp [functions])))
    · simp +decide only [names, lacks_append, hflat, hnames]
    · simp +decide only [functions, lacks_append, hflat, hfunctions]

theorem casts_projection (hflat : Lacks '\n' p.flat) (hshort : Lacks '\n' p.shortName)
    (hbinding : Lacks '\n' p.bindingNamespace) (hmethods : ∀ name ∈ p.methods, Lacks '\n' name) :
    Casts p.text [] := by
  obtain ⟨first, others, harguments⟩ : ∃ first others, p.arguments = first :: others := ⟨_, _, rfl⟩
  let line := p.bindingNamespace ++ "::AutoNativeClassProjecter " ++ p.flat ++ "Projector("
  let arguments := ",\n".intercalate ((first :: others).map ("\t" ++ ·)) ++ "\n"
  have htext : p.text =
      "" ++ "\n" ++ p.tables ++ (line ++ "\n") ++ arguments ++ (");" ++ "\n") := by
    rw [p.text_eq]
    unfold Projection.record
    apply String.toList_inj.mp
    simp [harguments, line, arguments, Symbol.spelling]
  have hline : Lacks '\n' line := by simp +decide only [line, lacks_append, hbinding, hflat]
  have hopens : line.toList.getLast? = some '(' := by
    rw [String.toList_append, List.getLast?_append]
    rfl
  have hindented : Indented arguments :=
    indented_arguments (harguments ▸ lacks_arguments hflat hshort)
  rw [htext]
  exact ((((casts_mark (by simp)).append (casts_tables hflat hmethods)).append
    (casts_line hline (noCast_of_getLast? (by rw [hopens]; decide)))).append
    (casts_indented hindented)).append (casts_mark (by simp))

end Definitions

/-! ## Interfaces -/

section Interfaces

variable {rules : Rules} {i : Interface} {g : InterfaceGlue}

theorem lacks_of_propertyEntry? {m : Member} (hm : m.Named) {e : PropertyEntry}
    (h : m.propertyEntry? = some e) : Lacks '\n' e.name := by
  cases m with
  | constructor params | method m => cases h
  | property p =>
      cases h
      exact lacks_of_isWord hm.name

theorem lacks_of_methodName? {m : Member} (hm : m.Named) {name : String}
    (h : m.methodName? = some name) : Lacks '\n' name := by
  cases m with
  | constructor params | property p => cases h
  | method m =>
      cases h
      exact lacks_of_isWord hm.name

/-- No line of an interface begins a cast. -/
theorem casts_interface (hrules : BareRules '\n' rules)
    (hbinding : Lacks '\n' rules.dialect.bindingNamespace) (hi : i.Named)
    (h : (interfaceGlue rules i).outcome = .ok g) : Casts g.code [] := by
  have hname : Lacks '\n' i.name := lacks_of_isNamePart hi.name
  have hflat : Lacks '\n' i.flatName := lacks_flatten hname
  rw [outcome_interfaceGlue] at h
  obtain ⟨d, hd, h⟩ := Traversal.bind_eq_ok_iff.mp h
  cases h
  have hempty : Draft.empty.Holds ⟨i.name, rules⟩ [] := ⟨.nil, .nil⟩
  have hholds : d.Holds ⟨i.name, rules⟩ i.members := hempty.foldlM hd
  have hmade : ∀ e f, MadeOfAny ⟨i.name, rules⟩ i.members e f → Casts f.text [] := by
    rintro e f ⟨m, hm, hmade⟩
    exact casts_function (hmade.bare hrules hname (hi.members m hm))
  have hfunctions : ∀ f ∈ d.functions, Casts f.text [] :=
    Traversal.forall_mem_of_forall₂ hholds.functions fun e _ f => hmade e f
  have hconstructor :
      Casts (((d.constructor.map PendingConstructor.function).map Native.Function.text).getD "")
        [] := by
    have hall := Traversal.forall_mem_of_forall₂ hholds.constructor fun e _ f => hmade e f
    cases hpending : d.constructor.map PendingConstructor.function with
    | none => exact casts_empty
    | some f =>
        rw [hpending] at hall
        exact hall f List.mem_cons_self
  have hregistration : Casts (registrationText rules.dialect.bindingNamespace i) [] := by
    rw [← text_registrationOf]
    refine casts_registration hflat hbinding fun e he => ?_
    obtain ⟨m, hm, hentry⟩ := List.mem_filterMap.mp he
    exact lacks_of_propertyEntry? (hi.members m hm) hentry
  have hprojection : Casts (projectionText rules.dialect.bindingNamespace i) [] := by
    rw [← text_projectionOf]
    refine casts_projection hflat (lacks_short hname) hbinding fun name hmethod => ?_
    obtain ⟨m, hm, hmethod⟩ := List.mem_filterMap.mp hmethod
    exact lacks_of_methodName? (hi.members m hm) hmethod
  rw [code_eq_tables (Draft.of_ofMembers hd)]
  exact (((casts_join_none hfunctions).append hregistration).append hconstructor).append
    hprojection

end Interfaces

/-! ## Delegates -/

section Delegates

variable {rules : Rules} {d : Delegate} {c : CallbackGlue}

/-- The block of a delegate has one cast. -/
theorem casts_block (hrules : BareRules '\n' rules) (hd : d.Named) (h : c.Of rules d) :
    Casts ("\n" ++ c.aliasLine ++ c.castHelper) [d.flatName] := by
  have hflat : Lacks '\n' c.flatName := by
    rw [h.flatName]
    exact lacks_flatten (lacks_of_isNamePart hd.name)
  have hresult : Lacks '\n' c.result := lacks_signatureType hrules hd.result.bare h.result
  have hparams : ∀ type ∈ c.params, Lacks '\n' type :=
    Traversal.forall_mem_of_forall₂ h.params fun p hp type htype =>
      lacks_signatureType hrules (hd.params p hp).type.bare htype
  have hlist : Lacks '\n' (", ".intercalate c.params) := lacks_intercalate (by decide) hparams
  let first := "using " ++ c.flatName ++ "Callback = " ++ c.result ++ "(*)(" ++
    ", ".intercalate c.params ++ ");"
  let content := "return reinterpret_cast<" ++ c.flatName ++ "Callback>(callback);"
  have htext : "\n" ++ c.aliasLine ++ c.castHelper =
      "" ++ "\n" ++ (first ++ "\n") ++ (castLine c.flatName ++ "\n") ++ ("\x7b" ++ "\n") ++
        bodyLine content ++ ("\x7d" ++ "\n") := by
    unfold CallbackGlue.aliasLine CallbackGlue.castHelper
    apply String.toList_inj.mp
    simp [first, content, bodyLine]
  have hfirst : Lacks '\n' first := by
    simp +decide only [first, lacks_append, hflat, hresult, hlist]
  have hcontent : Lacks '\n' content := by simp +decide only [content, lacks_append, hflat]
  rw [htext, ← h.flatName]
  exact (((((casts_mark (by simp)).append
    (casts_line hfirst (noCast_of_head? (by simp [first])))).append (casts_castLine hflat)).append
    (casts_mark (by simp))).append (casts_indented (indented_bodyLine hcontent))).append
    (casts_mark (by simp))

theorem casts_blocks {delegates : List Delegate} {callbacks : List CallbackGlue}
    (hrules : BareRules '\n' rules) (hdelegates : ∀ d ∈ delegates, d.Named)
    (h : List.Forall₂ (CallbackGlue.Of rules) delegates callbacks) :
    Casts (String.join (callbacks.map fun c => "\n" ++ c.aliasLine ++ c.castHelper))
      (delegates.map Delegate.flatName) := by
  induction h with
  | nil => exact casts_empty
  | cons hc _ ih =>
      obtain ⟨hd, hdelegates⟩ := List.forall_mem_cons.mp hdelegates
      rw [List.map_cons, List.map_cons, String.join_cons]
      exact (casts_block hrules hd hc).append (ih hdelegates)

end Delegates

/-! ## Files -/

section Files

variable {dialect : Dialect} {registry : Registry} {file : SourceFile} {glue : FileGlue}

theorem lacks_givenClass {m : Member} (hm : m.Named) {type : IdlType}
    (htype : givenType? m = some type) {name : String} (hname : type.className? = some name) :
    Lacks '\n' (Name.flatten name) := by
  have hnamed : type.Named := by
    cases m with
    | constructor params => cases htype
    | method m =>
        cases htype
        exact hm.result
    | property p =>
        cases htype
        exact hm.type
  have hbare : type.Bare '\n' := hnamed.bare
  cases type with
  | void | primitive | anyOf => cases hname
  | object className | reference className =>
      cases hname
      exact lacks_flatten hbare

theorem lacks_slotsOf (hinterfaces : ∀ i ∈ file.interfaces, i.Named) :
    ∀ s ∈ slotsOf file, Lacks '\n' s.flatName := by
  intro s hs
  rcases List.mem_append.mp hs with hs | hs
  · obtain ⟨flat, hflat, rfl⟩ := List.mem_map.mp hs
    obtain ⟨i, hi, rfl⟩ := List.mem_map.mp hflat
    exact lacks_flatten (lacks_of_isNamePart (hinterfaces i hi).name)
  · obtain ⟨flat, hflat, rfl⟩ := List.mem_map.mp hs
    obtain ⟨m, hm, hgiven⟩ :=
      List.mem_filterMap.mp (List.mem_eraseDups.mp (List.mem_filter.mp hflat).1)
    obtain ⟨i, hi, hm⟩ := List.mem_flatMap.mp hm
    obtain ⟨type, htype, hgiven⟩ := Option.bind_eq_some_iff.mp hgiven
    obtain ⟨name, hname, rfl⟩ := Option.map_eq_some_iff.mp hgiven
    exact lacks_givenClass ((hinterfaces i hi).members m hm) htype hname

theorem casts_slot {s : Slot} (h : Lacks '\n' s.flatName) : Casts s.code [] := by
  let line := (if s.foreign then "extern " else "") ++ "JsValueRef Js" ++ s.flatName ++ "Prototype;"
  have htext : s.code = line ++ "\n" := by
    unfold Slot.code
    apply String.toList_inj.mp
    simp [line, Symbol.spelling]
  have hline : Lacks '\n' line := by
    have hforeign : Lacks '\n' (if s.foreign then "extern " else "") := by
      cases s.foreign <;> decide
    simp +decide only [line, lacks_append, hforeign, h]
  have hhead : line.toList.head? ≠ some 'i' := by
    cases hforeign : s.foreign <;> simp [line, hforeign]
  rw [htext]
  exact casts_line hline (noCast_of_head? hhead)

/-- No line inside the namespace begins a cast. -/
theorem casts_inside (hrules : BareRules '\n' (rulesFor dialect registry file))
    (hbinding : Lacks '\n' dialect.bindingNamespace) (hinterfaces : ∀ i ∈ file.interfaces, i.Named)
    (h : (fileGlue dialect registry file).outcome = .ok glue) : Casts glue.inside [] := by
  obtain ⟨_, hslots, hmade⟩ := fileGlue_parts h
  have hslot : ∀ s ∈ glue.slots, Casts s.code [] := by
    rw [hslots]
    exact fun s hs => casts_slot (lacks_slotsOf hinterfaces s hs)
  have hinterface : ∀ g ∈ glue.interfaces, Casts g.code [] :=
    Traversal.forall_mem_of_forall₂ hmade fun i hi _ hg =>
      casts_interface hrules hbinding (hinterfaces i hi) hg
  exact (casts_join_none hslot).append (casts_join_none hinterface)

/-- The lines ahead of the namespace that begin casts are those of the delegates. -/
theorem casts_prelude (hdialect : dialect.Plain)
    (hrules : BareRules '\n' (rulesFor dialect registry file))
    (hheaders : ∀ line ∈ file.headers, ∃ p : HeaderForm, line.toList = p.text)
    (hdelegates : ∀ d ∈ file.delegates, d.Named)
    (h : (fileGlue dialect registry file).outcome = .ok glue) :
    Casts glue.prelude (file.delegates.map Delegate.flatName) := by
  obtain ⟨hlines, hcallbacks⟩ := prelude_fileGlue h
  have hheader : ∀ line ∈ glue.headers, Casts (line ++ "\n") [] := by
    rw [hlines]
    refine List.forall_mem_append.mpr ⟨fun line hline => ?_, fun line hline => ?_⟩
    · obtain ⟨hnewline, hcast⟩ := hdialect.headers line hline
      exact casts_line hnewline fun flat heq => hcast flat (String.toList_inj.mp heq)
    · obtain ⟨p, hp⟩ := hheaders line hline
      exact casts_header hp
  exact (casts_join_none hheader).append (casts_blocks hrules hdelegates hcallbacks)

/-! ## Casts in the code -/

/-- The delegates in the code of a file: behind the include lines and ahead of the namespace each
of them has its alias and its cast, one delegate after the other. -/
structure FileGlue.WritesDelegates (rules : Rules) (file : SourceFile) (glue : FileGlue) :
    Prop where
  distinct : (file.delegates.map Delegate.flatName).Nodup
  each : List.Forall₂ (CallbackGlue.Of rules) file.delegates glue.callbacks
  text : glue.code = String.join ((rules.dialect.runtimeHeaders ++ file.headers).map (· ++ "\n")) ++
    String.join (glue.callbacks.map fun c => "\n" ++ c.aliasLine ++ c.castHelper) ++
    "\nnamespace\n\x7b\n" ++ glue.inside ++ "\n\x7d\n"

/-- The line that begins the cast of the flat name stands once in the code, ahead of the
namespace. -/
def CastOnce (flat code : String) : Prop :=
  ∃ ahead inside, linePieces code.toList = ahead ++ "namespace".toList :: inside ∧
    ahead.count (castLine flat).toList = 1 ∧ (castLine flat).toList ∉ inside

theorem writesDelegates_of_fileGlue (h : (fileGlue dialect registry file).outcome = .ok glue) :
    glue.WritesDelegates (rulesFor dialect registry file) file := by
  obtain ⟨hheaders, hcallbacks⟩ := prelude_fileGlue h
  refine ⟨(nodup_of_fileGlue h).2, hcallbacks, ?_⟩
  rw [glue.code_eq, FileGlue.prelude, hheaders]
  rfl

/-- **Where a file is read from a text, each of its delegates has one cast in the code**, and it
stands ahead of the namespace. -/
theorem castOnce_of_fileGlue {text : String} (hfile : SourceFile.ofText text = .ok file)
    (hdialect : dialect.Plain) (hrules : BareRules '\n' (rulesFor dialect registry file))
    (h : (fileGlue dialect registry file).outcome = .ok glue) :
    ∀ d ∈ file.delegates, CastOnce d.flatName glue.code := by
  intro d hd
  have htiles := (SourceFile.tiles_of_ofText hfile).1
  obtain ⟨ahead, hahead, hcasts⟩ := casts_prelude hdialect hrules
    (fun line hline => htiles.header_form hline) (SourceFile.delegates_named hfile) h
  have hbehind : Casts ("\x7b" ++ "\n" ++ glue.inside ++ ("" ++ "\n") ++ ("\x7d" ++ "\n")) [] :=
    (((casts_mark (by simp)).append (casts_inside hrules hdialect.bindingNamespace
      (fun i hi => (SourceFile.interfaces_named hfile i hi).1) h)).append
        (casts_mark (by simp))).append (casts_mark (by simp))
  obtain ⟨inside, hinside, hnone⟩ := hbehind
  have hempty : ∀ line ∈ [[]], line ≠ (castLine d.flatName).toList := by
    rw [List.forall_mem_singleton]
    exact noCast_of_head? (by decide) _
  refine ⟨ahead ++ [[]], inside ++ [[]], ?_, ?_, ?_⟩
  · have hcode : glue.code = glue.prelude ++ ("" ++ "\n") ++ ("namespace" ++ "\n") ++
        ("\x7b" ++ "\n" ++ glue.inside ++ ("" ++ "\n") ++ ("\x7d" ++ "\n")) := by
      rw [glue.code_eq]
      apply String.toList_inj.mp
      simp
    have hblank : HasLines ("" ++ "\n") [[]] := hasLines_line (by decide)
    have hopens : HasLines ("namespace" ++ "\n") ["namespace".toList] := hasLines_line (by decide)
    have hlines := (((hahead.append hblank).append hopens).append hinside) []
    rw [List.append_nil, ← hcode] at hlines
    rw [hlines]
    simp only [List.append_assoc]
    rfl
  · have hone : (file.delegates.map Delegate.flatName).count d.flatName = 1 :=
      List.count_eq_one_of_mem (nodup_of_fileGlue h).2 (List.mem_map_of_mem hd)
    rw [List.count_append, hcasts, hone,
      List.count_eq_zero.mpr fun hmem => hempty _ hmem rfl]
  · rw [List.mem_append, not_or]
    exact ⟨List.count_eq_zero.mp (hnone d.flatName), fun hmem => hempty _ hmem rfl⟩

end Files

end Glue

end IdlGlue
