/-
# IdlGlue.Proofs.Tables -- the tables of an interface name its functions

Behind the functions of its members an interface has two tables, which are written long after the
functions that they name, from lists of names that were kept on the way:

| table        | entries                       | functions that it names                 |
|--------------|-------------------------------|-----------------------------------------|
| registration | one line for each property    | the getter and, if writable, the setter |
| projection   | two arrays, one constructor   | the methods; the constructor, if any    |

`TablesMatch` writes both out from the declaration of the interface, with no look at what the
generator kept, and says that the code holds them as they are written there, behind the
definitions of all the functions that they name. What the draft of an interface keeps is known
from `Draft.Of`, and which functions it has from `Draft.Holds`.
-/
import IdlGlue.Proofs.Keyed
import IdlGlue.Proofs.Layout

namespace IdlGlue

open IdlGlue.Native

/-! ## The declared members -/

/-- The property that a member is, if it is one. -/
def Member.property? : Member → Option Property
  | .property p => some p
  | .constructor _ | .method _ => none

/-- The functions that give and set a property: its getter, and a setter unless it is readonly. -/
def Property.accessors (flat : String) (p : Property) : List Symbol :=
  .getter flat p.name :: if p.readonly then [] else [.setter flat p.name]

namespace Interface

variable (i : Interface)

/-- The properties of an interface, in order. -/
def properties : List Property := i.members.filterMap Member.property?

/-- Some constructor is declared. -/
def hasConstructor : Bool := (lastConstructor? i.members).isSome

/-- The functions that give and set the properties. -/
def accessors : List Symbol := i.properties.flatMap (Property.accessors i.flatName)

/-- The functions of the methods. -/
def methodSymbols : List Symbol := i.methodNames.map (.method i.flatName)

end Interface

/-- A getter or a setter. -/
def Native.Symbol.isAccessor : Symbol → Bool
  | .getter _ _ | .setter _ _ => true
  | _ => false

namespace Glue

/-! ## The tables as they are written -/

section Tables

variable (bindingNamespace : String) (i : Interface)

/-- The line that registers a property. -/
def propertyLine (p : Property) : String :=
  "\t" ++ bindingNamespace ++ "::DefineProperty(object, L\"" ++ p.name ++ "\", &" ++
    (Symbol.getter i.flatName p.name).spelling ++
    (if p.readonly then "" else ", &" ++ (Symbol.setter i.flatName p.name).spelling) ++ ");\n"

/-- The registration of all properties. -/
def registrationText : String :=
  "\nvoid " ++ (Symbol.registration i.flatName).spelling ++ "(JsValueRef object)\n\x7b\n" ++
    String.join (i.properties.map (propertyLine bindingNamespace i)) ++ "\x7d\n"

/-- The arrays of the names and of the functions of the methods; none without methods. -/
def methodArrays : String :=
  if i.methodNames = [] then ""
  else
    "const wchar_t* " ++ (Symbol.memberNames i.flatName).spelling ++ "[] = \x7b" ++
      ", ".intercalate (i.methodNames.map fun name => "L\"" ++ name ++ "\"") ++ "\x7d;\n" ++
    "const JsNativeFunction " ++ (Symbol.memberFunctions i.flatName).spelling ++ "[] = \x7b" ++
      ", ".intercalate (i.methodNames.map fun name =>
        "&" ++ (Symbol.method i.flatName name).spelling) ++ "\x7d;\n"

/-- The arguments of the projection that are about methods: their number and the two arrays. -/
def methodArguments : String :=
  if i.methodNames = [] then ""
  else
    ",\n\t" ++ toString i.methodNames.length ++ ",\n\t" ++
      (Symbol.memberNames i.flatName).spelling ++ ",\n\t" ++
      (Symbol.memberFunctions i.flatName).spelling

/-- The address of the constructor, where one is declared. -/
def constructorSlot : String :=
  if i.hasConstructor then "&" ++ (Symbol.constructor i.flatName).spelling else "nullptr"

/-- The projection. -/
def projectionText : String :=
  "\n" ++ methodArrays i ++ bindingNamespace ++ "::AutoNativeClassProjecter " ++
    (Symbol.projector i.flatName).spelling ++ "(\n\tL\"" ++ i.shortName ++ "\",\n\t" ++
    constructorSlot i ++ ",\n\t" ++ (Symbol.prototype i.flatName).spelling ++
    methodArguments i ++ "\n);\n"

end Tables

/-- The tables in the code of the interface match its functions. -/
structure TablesMatch (rules : Rules) (i : Interface) (g : InterfaceGlue) : Prop where
  /-- Both tables stand in the code, and what they name is defined before them. -/
  code : ∃ members constructor,
    g.code = members ++ registrationText rules.dialect.bindingNamespace i ++ constructor ++
      projectionText rules.dialect.bindingNamespace i ∧
    (∀ s ∈ i.accessors ++ i.methodSymbols, DefinedIn members s) ∧
    (i.hasConstructor = true → DefinedIn constructor (.constructor i.flatName))
  /-- There is a getter for each property, and a setter for each that is not readonly. -/
  accessors : (g.functions.map Function.symbol).filter Symbol.isAccessor = i.accessors
  /-- The other functions are those of the methods and of the constructor. -/
  others : (g.functions.map Function.symbol).filter (fun s => !s.isAccessor) =
    i.methodSymbols ++ if i.hasConstructor then [.constructor i.flatName] else []

/-! ## The tables that are kept -/

section Kept

variable (bindingNamespace : String) (i : Interface)

/-- The registration that the generator makes of the declared properties. -/
def registrationOf : Registration where
  flat := i.flatName
  bindingNamespace
  entries := i.members.filterMap Member.propertyEntry?

/-- The projection that the generator makes of the declared members. -/
def projectionOf : Projection where
  flat := i.flatName
  shortName := i.shortName
  bindingNamespace
  hasConstructor := i.hasConstructor
  methods := i.methodNames

theorem entryLine_eq (p : Property) :
    (registrationOf bindingNamespace i).entryLine { name := p.name, readonly := p.readonly } =
      propertyLine bindingNamespace i p := by
  rw [Registration.entryLine, propertyLine, bodyLine, wideLiteral, addressList,
    PropertyEntry.accessors, registrationOf]
  -- The two sides break the line into pieces at different places.
  rw [← String.toList_inj]
  cases p.readonly with
  | false => simp
  | true => simp

theorem text_registrationOf :
    (registrationOf bindingNamespace i).text = registrationText bindingNamespace i := by
  have hentries : (registrationOf bindingNamespace i).entries =
      i.properties.map fun p => { name := p.name, readonly := p.readonly } := by
    rw [Interface.properties, List.map_filterMap]
    show i.members.filterMap _ = _
    congr 1
    funext m
    cases m with
    | constructor params => rfl
    | method m => rfl
    | property p => rfl
  have hlines : (registrationOf bindingNamespace i).entries.map
      (registrationOf bindingNamespace i).entryLine =
        i.properties.map (propertyLine bindingNamespace i) := by
    rw [hentries, List.map_map]
    exact List.map_congr_left fun p _ => entryLine_eq bindingNamespace i p
  rw [Registration.text, hlines, registrationText, registrationOf]

theorem isEmpty_projectionOf :
    (projectionOf bindingNamespace i).methods.isEmpty = true ↔ i.methodNames = [] :=
  List.isEmpty_iff

theorem tables_projectionOf : (projectionOf bindingNamespace i).tables = methodArrays i := by
  have hnames : (projectionOf bindingNamespace i).methods = i.methodNames := rfl
  have hsymbols : addressList (projectionOf bindingNamespace i).methodSymbols =
      ", ".intercalate (i.methodNames.map fun name =>
        "&" ++ (Symbol.method i.flatName name).spelling) := by
    rw [addressList, Projection.methodSymbols, List.map_map, hnames]
    rfl
  rw [Projection.tables, hsymbols, methodArrays]
  simp only [isEmpty_projectionOf]
  rfl

theorem constructorSlot_eq :
    ((projectionOf bindingNamespace i).constructorSymbol?.map fun s => "&" ++ s.spelling).getD
      "nullptr" = constructorSlot i := by
  rw [Projection.constructorSymbol?, constructorSlot, projectionOf]
  cases i.hasConstructor with
  | false => rfl
  | true => rfl

theorem arguments_projectionOf :
    (projectionOf bindingNamespace i).arguments =
      [wideLiteral i.shortName, constructorSlot i, (Symbol.prototype i.flatName).spelling] ++
      if i.methodNames = [] then []
      else [toString i.methodNames.length, (Symbol.memberNames i.flatName).spelling,
        (Symbol.memberFunctions i.flatName).spelling] := by
  rw [Projection.arguments, constructorSlot_eq]
  simp only [isEmpty_projectionOf]
  rfl

/-- The arguments stand on lines of their own. -/
theorem lines_arguments_projectionOf :
    ",\n".intercalate ((projectionOf bindingNamespace i).arguments.map ("\t" ++ ·)) =
      "\tL\"" ++ i.shortName ++ "\",\n\t" ++ constructorSlot i ++ ",\n\t" ++
        (Symbol.prototype i.flatName).spelling ++ methodArguments i := by
  rw [arguments_projectionOf, methodArguments, ← String.toList_inj]
  by_cases hmethods : i.methodNames = []
  · simp only [hmethods, if_true]
    simp [wideLiteral]
  · simp only [hmethods, if_false]
    simp [wideLiteral]

theorem text_projectionOf :
    (projectionOf bindingNamespace i).text = projectionText bindingNamespace i := by
  unfold projectionText
  rw [Projection.text, tables_projectionOf, lines_arguments_projectionOf, ← String.toList_inj]
  simp [projectionOf]

end Kept

/-! ## The functions that the tables name -/

section Named

variable {c : Context} {members : List Member} {i : Interface} {rules : Rules} {g : InterfaceGlue}
  {d : Draft}

/-- A function of a draft stands in its part of the code. -/
theorem Draft.Holds.definedIn (hd : d.Holds c members) {s : Symbol}
    (hs : s ∈ (members.flatMap (Member.entries c.flat)).map Entry.symbol) :
    DefinedIn (String.join (d.functions.map Function.text)) s := by
  rw [← map_symbol_eq hd.functions] at hs
  obtain ⟨f, hf, rfl⟩ := List.mem_map.mp hs
  have hdefined : ∀ f ∈ d.functions, DefinedIn f.text f.symbol :=
    Traversal.forall_mem_of_forall₂ hd.functions fun e _ f hmade => by
      obtain ⟨m, _, hmade⟩ := hmade
      exact definedIn_function hmade
  exact (hdefined f hf).join (List.mem_map_of_mem hf)

/-- The accessors among the declared functions of the members. -/
theorem filter_isAccessor_entries (flat : String) (members : List Member) :
    ((members.flatMap (Member.entries flat)).map Entry.symbol).filter Symbol.isAccessor =
      (members.filterMap Member.property?).flatMap (Property.accessors flat) := by
  induction members with
  | nil => rfl
  | cons m members ih =>
      rw [List.flatMap_cons, List.map_append, List.filter_append, ih]
      cases m with
      | constructor params => rfl
      | method m => rfl
      | property p =>
          show _ = p.accessors flat ++ _
          congr 1
          rw [Member.entries, Property.accessors]
          cases p.readonly with
          | false => rfl
          | true => rfl

/-- The other functions of the members are those of the methods. -/
theorem filter_not_isAccessor_entries (flat : String) (members : List Member) :
    ((members.flatMap (Member.entries flat)).map Entry.symbol).filter (fun s => !s.isAccessor) =
      (members.filterMap Member.methodName?).map (.method flat) := by
  induction members with
  | nil => rfl
  | cons m members ih =>
      rw [List.flatMap_cons, List.map_append, List.filter_append, ih]
      cases m with
      | constructor params => rfl
      | method m => rfl
      | property p =>
          rw [List.filterMap_cons_none rfl, Member.entries]
          cases p.readonly with
          | false => rfl
          | true => rfl

/-- The constructor has a function exactly where one is declared. -/
theorem constructorEntries_symbol (flat : String) (members : List Member) :
    (constructorEntries flat members).map Entry.symbol =
      if (lastConstructor? members).isSome then [.constructor flat] else [] := by
  rw [constructorEntries, lastConstructor?]
  cases (members.filterMap Member.constructor?).getLast? with
  | none => rfl
  | some params => rfl

/-- The function of the constructor, where one is declared, is its part of the code. -/
theorem Draft.Holds.definedIn_constructor (hd : d.Holds c members)
    (hsome : (lastConstructor? members).isSome = true) :
    DefinedIn (((d.constructor.map PendingConstructor.function).map Function.text).getD "")
      (.constructor c.flat) := by
  have hsymbols := map_symbol_eq hd.constructor
  rw [constructorEntries_symbol, if_pos hsome] at hsymbols
  have hmade := hd.constructor
  cases hpending : d.constructor.map PendingConstructor.function with
  | none =>
      rw [hpending] at hsymbols
      cases hsymbols
  | some f =>
      rw [hpending] at hsymbols hmade
      rw [← List.singleton_inj.mp hsymbols]
      obtain ⟨e, es, hmade, -, -⟩ := List.forall₂_cons_right_iff.mp hmade
      obtain ⟨m, _, hmade⟩ := hmade
      exact definedIn_function hmade

/-- The code of a finished draft holds the two tables that its interface declares. -/
theorem code_eq_tables (hd : d.Of ⟨i.name, rules⟩ i.members) :
    (d.finish ⟨i.name, rules⟩).code = String.join (d.functions.map Function.text) ++
      registrationText rules.dialect.bindingNamespace i ++
      ((d.constructor.map PendingConstructor.function).map Function.text).getD "" ++
      projectionText rules.dialect.bindingNamespace i := by
  have hregistration : d.registration ⟨i.name, rules⟩ =
      registrationOf rules.dialect.bindingNamespace i := by
    rw [Draft.registration, hd.properties]
    rfl
  have hprojection : d.projection ⟨i.name, rules⟩ =
      projectionOf rules.dialect.bindingNamespace i := by
    rw [Draft.projection, hd.methods, hd.pending.2]
    rfl
  rw [Draft.code_finish, hregistration, hprojection, text_registrationOf, text_projectionOf]

/-- **The tables of an interface match its functions.** -/
theorem tablesMatch_interfaceGlue (h : (interfaceGlue rules i).outcome = .ok g) :
    TablesMatch rules i g := by
  have hsymbols := map_symbol_eq (madeOf_interfaceGlue h)
  rw [Interface.entries, List.map_append, constructorEntries_symbol] at hsymbols
  have haccessors : _ = i.accessors := filter_isAccessor_entries i.flatName i.members
  have hmethods : _ = i.methodSymbols := filter_not_isAccessor_entries i.flatName i.members
  rw [outcome_interfaceGlue] at h
  obtain ⟨d, hd, h⟩ := Traversal.bind_eq_ok_iff.mp h
  cases h
  have hempty : Draft.empty.Holds ⟨i.name, rules⟩ [] := ⟨.nil, .nil⟩
  have hholds : d.Holds ⟨i.name, rules⟩ i.members := hempty.foldlM hd
  have hcode := code_eq_tables (Draft.of_ofMembers hd)
  refine ⟨⟨_, _, hcode, ?_, hholds.definedIn_constructor⟩, ?_, ?_⟩
  · intro s hs
    -- What the tables name is among the functions of the members.
    apply hholds.definedIn
    rcases List.mem_append.mp hs with hs | hs
    · rw [← haccessors] at hs
      exact List.mem_of_mem_filter hs
    · rw [← hmethods] at hs
      exact List.mem_of_mem_filter hs
  · rw [hsymbols, List.filter_append, haccessors]
    cases (lastConstructor? i.members).isSome with
    | false => exact List.append_nil _
    | true => exact List.append_nil _
  · rw [hsymbols, List.filter_append, hmethods, Interface.hasConstructor]
    cases (lastConstructor? i.members).isSome with
    | false => rfl
    | true => rfl

/-- Both tables of the counter name what its code defines before them. -/
theorem tablesMatch_counter :
    ∃ g, (interfaceGlue standardRules counter).outcome = .ok g ∧
      TablesMatch standardRules counter g := by
  have hok : (interfaceGlue standardRules counter).outcome.isOk = true := by decide +kernel
  obtain ⟨g, hg⟩ := Traversal.isOk_iff.mp hok
  exact ⟨g, hg, tablesMatch_interfaceGlue hg⟩

end Named

end Glue

end IdlGlue
