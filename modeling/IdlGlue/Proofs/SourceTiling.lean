/-
# IdlGlue.Proofs.SourceTiling -- the texts that are source files

`SourceFile.Tiles cs file` is the meaning of a source text:

    gap (header gap)* (delegate gap)* (interface gap)*

with nothing left over, where each statement is what its recogniser reads there, and
each interface body is tiled `gap (member gap)*` in the same way. It says at once which
texts are well formed and what they declare.

Members are read as a constructor, a method or a property without any order between the
three. The reader tries them in turn, and so it is to be shown that it cannot mistake
one kind for another; that the loops of the reader stop nowhere too soon; and that
a parameter list is read back as it was written. A text is then accepted exactly when it is
tiled and declares no parameter of type `void`.
-/
import IdlGlue.Reading
import IdlGlue.Proofs.MemberKind
import IdlGlue.Proofs.ParamList
import IdlGlue.Proofs.Tiled

namespace IdlGlue

open IdlGlue.Text IdlGlue.Scan IdlGlue.Statement

/-! ## What a statement declares -/

/-- An include line stands at the start of the text, verbatim. -/
def HeaderReads (cs : List Char) (line : String) (rest : List Char) : Prop :=
  header.Reads cs line.toList rest ∧ cs = line.toList ++ rest

/-- A delegate statement stands at the start of the text and declares `d`. -/
def Delegate.Reads (cs : List Char) (d : Delegate) (rest : List Char) : Prop :=
  ∃ s, delegate.Reads cs s rest ∧ d.result = .ofToken (String.ofList s.result) ∧
    d.name = String.ofList s.name ∧ ParamList 0 s.args d.params

/-- A member statement stands at the start of the text and declares the member. -/
inductive Member.Reads : List Char → Member → List Char → Prop
  | constructor {cs args rest : List Char} {params : List Param} :
      Statement.constructor.Reads cs args rest → ParamList 0 args params →
      Member.Reads cs (.constructor params) rest
  | method {cs rest : List Char} {s : MethodText} {m : Method} :
      Statement.method.Reads cs s rest → m.result = .ofToken (String.ofList s.result) →
      m.name = String.ofList s.name → ParamList 0 s.args m.params →
      m.nameAsIs = s.nameAsIs → Member.Reads cs (.method m) rest
  | property {cs rest : List Char} {s : PropertyText} {p : Property} :
      Statement.property.Reads cs s rest → p.type = .ofToken (String.ofList s.type) →
      p.name = String.ofList s.name → p.readonly = s.readonly → p.nameAsIs = s.nameAsIs →
      Member.Reads cs (.property p) rest

/-- An interface block stands at the start of the text and declares `i`: its body is
members with gaps between them, and nothing else. -/
def Interface.Reads (cs : List Char) (i : Interface) (rest : List Char) : Prop :=
  ∃ s, interface.Reads cs s rest ∧ i.name = String.ofList s.name ∧
    ∃ first, Gap s.body first ∧ Tiled Member.Reads first i.members []

/-- The text is a source file that declares `file`. -/
def SourceFile.Tiles (cs : List Char) (file : SourceFile) : Prop :=
  ∃ headers delegates interfaces, Gap cs headers ∧
    Tiled HeaderReads headers file.headers delegates ∧
    Tiled Delegate.Reads delegates file.delegates interfaces ∧
    Tiled Interface.Reads interfaces file.interfaces []

/-- The parameters of a member. -/
def Member.params : Member → List Param
  | .constructor params => params
  | .method decl => decl.params
  | .property _ => []

/-- The parameters of all declarations of the file, in the order of the file. -/
def SourceFile.params (file : SourceFile) : List Param :=
  file.delegates.flatMap Delegate.params ++
    file.interfaces.flatMap fun i => i.members.flatMap Member.params

/-! ## Where statements begin -/

theorem settled_of_isNamePart {c : Char} {cs : List Char} (hc : isNamePart c = true) :
    Settled (c :: cs) := by
  intro d hd
  cases hd
  refine ⟨isBlank_eq_false_of_isNamePart hc, ?_⟩
  rintro rfl
  exact absurd hc (by decide)

/-- A name character begins the text. -/
def NameStart (cs : List Char) : Prop := ∃ c tail, cs = c :: tail ∧ isNamePart c = true

theorem nameStart_of_allIn {w rest : List Char} (hne : w ≠ []) (hw : AllIn isNamePart w) :
    NameStart (w ++ rest) := by
  obtain ⟨c, w, rfl⟩ := List.exists_cons_of_ne_nil hne
  exact ⟨c, w ++ rest, rfl, (allIn_cons.mp hw).1⟩

theorem header_start {cs a rest : List Char} (h : header.Reads cs a rest) :
    ∃ tail, cs = '#' :: tail := by
  obtain ⟨last, hlast, _⟩ := Option.map_eq_some_iff.mp h
  obtain ⟨r0, h0, _⟩ := Option.bind_eq_some_iff.mp hlast
  exact ⟨_, literal?_eq_some_iff.mp h0⟩

theorem delegate_start {cs rest : List Char} {s : DelegateText}
    (h : delegate.Reads cs s rest) : ∃ tail, cs = 'd' :: tail := by
  obtain ⟨r0, h0, _⟩ := Option.bind_eq_some_iff.mp h
  exact ⟨_, literal?_eq_some_iff.mp h0⟩

theorem interface_start {cs rest : List Char} {s : InterfaceText}
    (h : interface.Reads cs s rest) : ∃ tail, cs = 'i' :: tail := by
  obtain ⟨head, hhead, _⟩ := Option.bind_eq_some_iff.mp h
  obtain ⟨r0, h0, _⟩ := Option.bind_eq_some_iff.mp hhead
  exact ⟨_, literal?_eq_some_iff.mp h0⟩

theorem header_settled {cs a rest : List Char} (h : header.Reads cs a rest) : Settled cs := by
  obtain ⟨tail, rfl⟩ := header_start h
  intro c hc
  cases hc
  exact ⟨by decide, by decide⟩

theorem delegate_settled {cs rest : List Char} {s : DelegateText}
    (h : delegate.Reads cs s rest) : Settled cs := by
  obtain ⟨tail, rfl⟩ := delegate_start h
  exact settled_of_isNamePart (by decide)

theorem interface_settled {cs rest : List Char} {s : InterfaceText}
    (h : interface.Reads cs s rest) : Settled cs := by
  obtain ⟨tail, rfl⟩ := interface_start h
  exact settled_of_isNamePart (by decide)

theorem nameStart_of_resultToken? {cs token rest : List Char}
    (h : resultToken? cs = some (token, rest)) : NameStart cs := by
  unfold resultToken? at h
  split at h
  · next hany =>
      obtain ⟨inner, hinner⟩ := Option.isSome_iff_exists.mp hany
      exact ⟨'a', _, literal?_eq_some_iff.mp hinner, by decide⟩
  · obtain ⟨⟨name, behind⟩, hname, _⟩ := Option.map_eq_some_iff.mp h
    obtain ⟨hne, hin, _, rfl⟩ := run?_eq_some_iff_append.mp hname
    exact nameStart_of_allIn hne hin

theorem nameStart_of_signature? {nameAsIs : Bool} {cs : List Char}
    {m : MethodText × List Char} (h : signature? nameAsIs cs = some m) : NameStart cs := by
  obtain ⟨⟨token, rest⟩, htoken, _⟩ := Option.bind_eq_some_iff.mp h
  exact nameStart_of_resultToken? htoken

/-- Members of all three kinds begin with a name. -/
theorem member_start {cs rest : List Char} {s : MemberText} (h : member.Reads cs s rest) :
    NameStart cs := by
  rcases Option.or_eq_some_iff.mp h with h | ⟨_, h⟩
  · obtain ⟨⟨args, last⟩, hread, _⟩ := Option.map_eq_some_iff.mp h
    obtain ⟨space, tail, _, rfl⟩ := constructor_read_cases hread
    exact nameStart_of_allIn (by decide) (by decide)
  rcases Option.or_eq_some_iff.mp h with h | ⟨_, h⟩
  · obtain ⟨m, hread, _⟩ := Option.map_eq_some_iff.mp h
    rcases Option.or_eq_some_iff.mp hread with hread | ⟨_, hread⟩
    · obtain ⟨behind, hmodifier, _⟩ := Option.bind_eq_some_iff.mp hread
      obtain ⟨mid, hmid, _⟩ := Option.bind_eq_some_iff.mp hmodifier
      rw [literal?_eq_some_iff.mp hmid]
      exact nameStart_of_allIn (by decide) (by decide)
    · exact nameStart_of_signature? hread
  · obtain ⟨m, hread, _⟩ := Option.map_eq_some_iff.mp h
    have hstart := propertyStart_of_read (Option.isSome_of_eq_some hread)
    cases hstart with
    | mk hne hw _ _ _ _ =>
        rw [List.append_assoc]
        exact nameStart_of_allIn hne hw

theorem member_settled {cs rest : List Char} {s : MemberText} (h : member.Reads cs s rest) :
    Settled cs := by
  obtain ⟨c, tail, rfl, hc⟩ := member_start h
  exact settled_of_isNamePart hc

/-! ## Where the parameter lists of statements come from -/

theorem delegate_params {cs rest : List Char} {s : DelegateText}
    (h : delegate.Reads cs s rest) : ∃ ds rest', params? ds = some (s.args, rest') := by
  obtain ⟨r0, _, h⟩ := Option.bind_eq_some_iff.mp h
  obtain ⟨r1, _, h⟩ := Option.bind_eq_some_iff.mp h
  obtain ⟨result, _, h⟩ := Option.bind_eq_some_iff.mp h
  obtain ⟨r2, _, h⟩ := Option.bind_eq_some_iff.mp h
  obtain ⟨name, _, h⟩ := Option.bind_eq_some_iff.mp h
  obtain ⟨⟨args, r3⟩, hargs, h⟩ := Option.bind_eq_some_iff.mp h
  obtain ⟨last, _, hp⟩ := Option.map_eq_some_iff.mp h
  cases hp
  exact ⟨_, _, hargs⟩

theorem constructor_params {cs args rest : List Char}
    (h : Statement.constructor.Reads cs args rest) :
    ∃ ds rest', params? ds = some (args, rest') := by
  obtain ⟨r0, _, h⟩ := Option.bind_eq_some_iff.mp h
  obtain ⟨⟨args, r1⟩, hargs, h⟩ := Option.bind_eq_some_iff.mp h
  obtain ⟨last, _, hp⟩ := Option.map_eq_some_iff.mp h
  cases hp
  exact ⟨_, _, hargs⟩

theorem signature?_params {nameAsIs : Bool} {cs rest : List Char} {s : MethodText}
    (h : signature? nameAsIs cs = some (s, rest)) :
    ∃ ds rest', params? ds = some (s.args, rest') := by
  obtain ⟨result, _, h⟩ := Option.bind_eq_some_iff.mp h
  obtain ⟨r1, _, h⟩ := Option.bind_eq_some_iff.mp h
  obtain ⟨name, _, h⟩ := Option.bind_eq_some_iff.mp h
  obtain ⟨⟨args, r2⟩, hargs, h⟩ := Option.bind_eq_some_iff.mp h
  obtain ⟨last, _, hp⟩ := Option.map_eq_some_iff.mp h
  cases hp
  exact ⟨_, _, hargs⟩

theorem method_params {cs rest : List Char} {s : MethodText}
    (h : Statement.method.Reads cs s rest) : ∃ ds rest', params? ds = some (s.args, rest') := by
  rcases Option.or_eq_some_iff.mp h with h | ⟨_, h⟩
  · obtain ⟨mid, _, h⟩ := Option.bind_eq_some_iff.mp h
    exact signature?_params h
  · exact signature?_params h

/-! ## Reading a statement and working out what it declares -/

theorem header_reads_iff {cs rest : List Char} {line : String} :
    HeaderReads cs line rest ↔ ∃ a, header.Reads cs a rest ∧ String.ofList a = line := by
  constructor
  · rintro ⟨hread, _⟩
    exact ⟨line.toList, hread, String.ofList_toList⟩
  · rintro ⟨a, hread, rfl⟩
    rw [HeaderReads, String.toList_ofList]
    refine ⟨hread, ?_⟩
    obtain ⟨last, hlast, hp⟩ := Option.map_eq_some_iff.mp hread
    cases hp
    exact (consumed_append (header.suffix hread)).symm

theorem delegate_declares_iff {cs rest : List Char} {d : Delegate} :
    (∃ s, delegate.Reads cs s rest ∧ Delegate.ofStatement s = .ok d) ↔
      Delegate.Reads cs d rest ∧ ∀ p ∈ d.params, p.type ≠ .void := by
  constructor
  · rintro ⟨s, hread, hdecl⟩
    obtain ⟨params, hparams, hd⟩ := Traversal.bind_eq_ok_iff.mp hdecl
    cases hd
    obtain ⟨_, _, hargs⟩ := delegate_params hread
    obtain ⟨hlist, hvoid⟩ := (listOfText_eq_ok_iff_paramList hargs).mp hparams
    exact ⟨⟨s, hread, rfl, rfl, hlist⟩, hvoid⟩
  · rintro ⟨⟨s, hread, hresult, hname, hlist⟩, hvoid⟩
    refine ⟨s, hread, ?_⟩
    rw [Delegate.ofStatement, hlist.listOfText_eq_ok_iff.mpr ⟨rfl, hvoid⟩, ← hresult, ← hname]
    rfl

/-- The order in which the kinds of members are tried decides nothing. -/
theorem member_reads_iff {cs rest : List Char} {s : MemberText} :
    member.Reads cs s rest ↔
      (∃ args, Statement.constructor.Reads cs args rest ∧ s = .constructor args) ∨
      (∃ m, Statement.method.Reads cs m rest ∧ s = .method m) ∨
      (∃ p, Statement.property.Reads cs p rest ∧ s = .property p) := by
  constructor
  · intro h
    rcases Option.or_eq_some_iff.mp h with h | ⟨_, h⟩
    · obtain ⟨⟨args, last⟩, hread, hs⟩ := Option.map_eq_some_iff.mp h
      cases hs
      exact Or.inl ⟨args, hread, rfl⟩
    rcases Option.or_eq_some_iff.mp h with h | ⟨_, h⟩
    · obtain ⟨⟨m, last⟩, hread, hs⟩ := Option.map_eq_some_iff.mp h
      cases hs
      exact Or.inr (Or.inl ⟨m, hread, rfl⟩)
    · obtain ⟨⟨p, last⟩, hread, hs⟩ := Option.map_eq_some_iff.mp h
      cases hs
      exact Or.inr (Or.inr ⟨p, hread, rfl⟩)
  · -- Whichever kind it is, the kinds that are tried before it read nothing here.
    have hnoConstructor : ∀ {cs}, (method.read cs).isSome ∨ (property.read cs).isSome →
        Statement.constructor.read cs = none := by
      intro cs h
      rw [← Option.not_isSome_iff_eq_none]
      intro hconstructor
      rcases h with h | h
      · simp [method_read_eq_none_of_constructor hconstructor] at h
      · simp [property_read_eq_none_of_constructor hconstructor] at h
    rintro (⟨args, h, rfl⟩ | ⟨m, h, rfl⟩ | ⟨p, h, rfl⟩)
    · exact Option.or_eq_some_iff.mpr (Or.inl (Option.map_eq_some_iff.mpr ⟨_, h, rfl⟩))
    · refine Option.or_eq_some_iff.mpr (Or.inr ⟨?_, ?_⟩)
      · exact Option.map_eq_none_iff.mpr (hnoConstructor (Or.inl (Option.isSome_of_eq_some h)))
      · exact Option.or_eq_some_iff.mpr (Or.inl (Option.map_eq_some_iff.mpr ⟨_, h, rfl⟩))
    · have hp := Option.isSome_of_eq_some h
      refine Option.or_eq_some_iff.mpr (Or.inr ⟨?_, ?_⟩)
      · exact Option.map_eq_none_iff.mpr (hnoConstructor (Or.inr hp))
      · refine Option.or_eq_some_iff.mpr (Or.inr ⟨?_, Option.map_eq_some_iff.mpr ⟨_, h, rfl⟩⟩)
        exact Option.map_eq_none_iff.mpr (method_read_eq_none_of_property hp)

theorem member_declares_iff {cs rest : List Char} {m : Member} :
    (∃ s, member.Reads cs s rest ∧ Member.ofStatement s = .ok m) ↔
      Member.Reads cs m rest ∧ ∀ p ∈ m.params, p.type ≠ .void := by
  constructor
  · rintro ⟨s, hread, hdecl⟩
    rcases member_reads_iff.mp hread with ⟨args, hkind, rfl⟩ | ⟨s, hkind, rfl⟩ | ⟨s, hkind, rfl⟩
    · obtain ⟨params, hparams, hm⟩ := Traversal.bind_eq_ok_iff.mp hdecl
      cases hm
      obtain ⟨_, _, hargs⟩ := constructor_params hkind
      obtain ⟨hlist, hvoid⟩ := (listOfText_eq_ok_iff_paramList hargs).mp hparams
      exact ⟨.constructor hkind hlist, hvoid⟩
    · obtain ⟨params, hparams, hm⟩ := Traversal.bind_eq_ok_iff.mp hdecl
      cases hm
      obtain ⟨_, _, hargs⟩ := method_params hkind
      obtain ⟨hlist, hvoid⟩ := (listOfText_eq_ok_iff_paramList hargs).mp hparams
      exact ⟨.method hkind rfl rfl hlist rfl, hvoid⟩
    · cases hdecl
      exact ⟨.property hkind rfl rfl rfl rfl, List.forall_mem_nil _⟩
  · rintro ⟨hread, hvoid⟩
    cases hread with
    | constructor hread hlist =>
        refine ⟨_, member_reads_iff.mpr (Or.inl ⟨_, hread, rfl⟩), ?_⟩
        rw [Member.ofStatement, hlist.listOfText_eq_ok_iff.mpr ⟨rfl, hvoid⟩]
        rfl
    | method hread hresult hname hlist hasIs =>
        refine ⟨_, member_reads_iff.mpr (Or.inr (Or.inl ⟨_, hread, rfl⟩)), ?_⟩
        rw [Member.ofStatement, hlist.listOfText_eq_ok_iff.mpr ⟨rfl, hvoid⟩, ← hresult, ← hname,
          ← hasIs]
        rfl
    | property hread htype hname hreadonly hasIs =>
        refine ⟨_, member_reads_iff.mpr (Or.inr (Or.inr ⟨_, hread, rfl⟩)), ?_⟩
        rw [Member.ofStatement, ← htype, ← hname, ← hreadonly, ← hasIs]

theorem expectEnd_eq_error_iff {fault : List Char → Fault} {rest : List Char} {e : Fault} :
    expectEnd fault rest = .error e ↔ rest ≠ [] ∧ e = fault rest := by
  cases rest with
  | nil => exact iff_of_false nofun fun h => h.1 rfl
  | cons c rest => simp [expectEnd, eq_comm]

/-- Text that is left over stops whatever goes on. -/
theorem expectEnd_bind_of_ne {α : Type} {fault : List Char → Fault} {rest : List Char}
    (h : rest ≠ []) (k : Unit → Except Fault α) :
    expectEnd fault rest >>= k = .error (fault rest) := by
  rw [expectEnd_eq_error_iff.mpr ⟨h, rfl⟩]
  rfl

theorem expectEnd_eq_ok_iff {fault : List Char → Fault} {rest : List Char} :
    expectEnd fault rest = .ok () ↔ rest = [] := by
  cases rest with
  | nil => exact ⟨fun _ => rfl, fun _ => rfl⟩
  | cons c rest => exact ⟨fun h => (nomatch h), fun h => (nomatch h)⟩

/-- Statements that are worked out one by one tile a text as what they declare. -/
theorem tiled_declares_iff {α β : Type} {r : Recognizer α} {f : α → Except Fault β}
    {D : List Char → β → List Char → Prop} {P : β → Prop}
    (hdeclares : ∀ {cs rest b}, (∃ a, r.Reads cs a rest ∧ f a = .ok b) ↔ D cs b rest ∧ P b)
    {cs rest : List Char} {bs : List β} :
    (∃ as, Tiled r.Reads cs as rest ∧ as.mapM f = .ok bs) ↔
      Tiled D cs bs rest ∧ ∀ b ∈ bs, P b := by
  simp only [Traversal.mapM_eq_ok_iff, ← tiled_forall₂_iff, hdeclares, tiled_and_iff]

/-- What the statements that the loop reads declare is worked out before the end is looked for. -/
theorem listOfBody_of_readAll {body rest : List Char} {statements : List MemberText}
    (h : member.readAll (afterGap body) = (statements, rest)) :
    Member.listOfBody body =
      statements.mapM Member.ofStatement >>= fun members =>
      expectEnd .noStatementAt rest >>= fun _ => pure members := by
  rw [Member.listOfBody, h]

/-- The members of a body are those by which it is tiled. -/
theorem listOfBody_eq_ok_iff {body : List Char} {members : List Member} :
    Member.listOfBody body = .ok members ↔
      (∃ first, Gap body first ∧ Tiled Member.Reads first members []) ∧
        ∀ m ∈ members, ∀ p ∈ m.params, p.type ≠ .void := by
  constructor
  · intro h
    obtain ⟨statements, rest, hread⟩ : ∃ a b, member.readAll (afterGap body) = (a, b) := ⟨_, _, rfl⟩
    rw [listOfBody_of_readAll hread] at h
    obtain ⟨decls, hdecls, h⟩ := Traversal.bind_eq_ok_iff.mp h
    obtain ⟨_, hend, h⟩ := Traversal.bind_eq_ok_iff.mp h
    cases h
    obtain rfl := expectEnd_eq_ok_iff.mp hend
    obtain ⟨_, first, hgap, hstatements⟩ := (readAll_afterGap_eq_iff member_settled).mp hread
    obtain ⟨hmembers, hvoid⟩ := (tiled_declares_iff member_declares_iff).mp ⟨_, hstatements, hdecls⟩
    exact ⟨⟨first, hgap, hmembers⟩, hvoid⟩
  · rintro ⟨⟨first, hgap, hmembers⟩, hvoid⟩
    obtain ⟨statements, hstatements, hdecls⟩ :=
      (tiled_declares_iff member_declares_iff).mpr ⟨hmembers, hvoid⟩
    have hread : member.readAll (afterGap body) = (statements, []) :=
      (readAll_afterGap_eq_iff member_settled).mpr ⟨member.halts_nil, first, hgap, hstatements⟩
    rw [listOfBody_of_readAll hread, hdecls]
    rfl

/-- The members before the place where the loop halts are read, and what is left there is told. -/
theorem listOfBody_eq_error {body first stop : List Char} {members : List Member}
    (hgap : Gap body first) (hmembers : Tiled Member.Reads first members stop)
    (hvoid : ∀ m ∈ members, ∀ p ∈ m.params, p.type ≠ .void) (hhalts : member.Halts stop)
    (hne : stop ≠ []) : Member.listOfBody body = .error (.noStatementAt stop) := by
  obtain ⟨statements, hstatements, hdecls⟩ :=
    (tiled_declares_iff member_declares_iff).mpr ⟨hmembers, hvoid⟩
  have hread : member.readAll (afterGap body) = (statements, stop) :=
    (readAll_afterGap_eq_iff member_settled).mpr ⟨hhalts, first, hgap, hstatements⟩
  rw [listOfBody_of_readAll hread, hdecls]
  exact expectEnd_bind_of_ne hne _

theorem interface_declares_iff {cs rest : List Char} {i : Interface} :
    (∃ s, interface.Reads cs s rest ∧ Interface.ofStatement s = .ok i) ↔
      Interface.Reads cs i rest ∧ ∀ m ∈ i.members, ∀ p ∈ m.params, p.type ≠ .void := by
  constructor
  · rintro ⟨s, hread, hdecl⟩
    obtain ⟨members, hmembers, hi⟩ := Traversal.bind_eq_ok_iff.mp hdecl
    cases hi
    obtain ⟨htiled, hvoid⟩ := listOfBody_eq_ok_iff.mp hmembers
    exact ⟨⟨s, hread, rfl, htiled⟩, hvoid⟩
  · rintro ⟨⟨s, hread, hname, htiled⟩, hvoid⟩
    refine ⟨s, hread, ?_⟩
    rw [Interface.ofStatement, listOfBody_eq_ok_iff.mpr ⟨htiled, hvoid⟩, ← hname]
    rfl

/-! ## Whole texts -/

/-- No statement of the first two kinds begins at the end of the text or at a block. -/
theorem halts_of_interface_start {cs : List Char} (h : cs = [] ∨ ∃ tail, cs = 'i' :: tail) :
    delegate.Halts cs ∧ header.read cs = none := by
  rcases h with rfl | ⟨tail, rfl⟩
  · exact ⟨delegate.halts_nil, header.read_nil⟩
  · exact ⟨⟨(settled_of_isNamePart (by decide)).afterGap_eq_self, rfl⟩, rfl⟩

/-- The loops over include lines and delegates end where the tiling passes to the next kind of
statement. -/
theorem readAll_sections {cs c0 c1 c2 : List Char} {headers : List (List Char)}
    {delegates : List DelegateText} (hgap : Gap cs c0) (h0 : Tiled header.Reads c0 headers c1)
    (h1 : Tiled delegate.Reads c1 delegates c2) (hend : delegate.Halts c2)
    (hheader : delegates = [] → header.read c2 = none) :
    header.readAll (afterGap cs) = (headers, c1) ∧ delegate.readAll c1 = (delegates, c2) := by
  -- Behind the include lines a delegate stands, or what stands behind the delegates.
  have hhalts : header.Halts c1 := by
    cases h1 with
    | nil => exact ⟨hend.gap, hheader rfl⟩
    | cons hread _ _ =>
        obtain ⟨tail, rfl⟩ := delegate_start hread
        exact ⟨(delegate_settled hread).afterGap_eq_self, rfl⟩
  exact ⟨(readAll_afterGap_eq_iff header_settled).mpr ⟨hhalts, c0, hgap, h0⟩,
    h1.readAll_eq delegate_settled hend⟩

/-- The three loops end where the tiling passes from one kind of statement to the next. -/
theorem readAll_sections_iff {cs : List Char} {headers : List (List Char)}
    {delegates : List DelegateText} {interfaces : List InterfaceText} :
    (∃ c1 c2, header.readAll (afterGap cs) = (headers, c1) ∧
      delegate.readAll c1 = (delegates, c2) ∧ interface.readAll c2 = (interfaces, [])) ↔
    ∃ c0 c1 c2, Gap cs c0 ∧ Tiled header.Reads c0 headers c1 ∧
      Tiled delegate.Reads c1 delegates c2 ∧ Tiled interface.Reads c2 interfaces [] := by
  constructor
  · rintro ⟨c1, c2, hheaders, hdelegates, hinterfaces⟩
    have h0 := (header.tiled_readAll (afterGap cs)).1
    have h1 := (delegate.tiled_readAll c1).1
    have h2 := (interface.tiled_readAll c2).1
    rw [hheaders] at h0
    rw [hdelegates] at h1
    rw [hinterfaces] at h2
    exact ⟨afterGap cs, c1, c2, gap_afterGap cs, h0, h1, h2⟩
  · rintro ⟨c0, c1, c2, hgap, h0, h1, h2⟩
    have hend : c2 = [] ∨ ∃ tail, c2 = 'i' :: tail :=
      h2.start (P := fun cs => cs = [] ∨ ∃ tail, cs = 'i' :: tail)
        (fun h => Or.inr (interface_start h)) (Or.inl rfl)
    obtain ⟨hhalts, hheader⟩ := halts_of_interface_start hend
    obtain ⟨hheaders, hdelegates⟩ := readAll_sections hgap h0 h1 hhalts fun _ => hheader
    exact ⟨c1, c2, hheaders, hdelegates, h2.readAll_eq interface_settled interface.halts_nil⟩

/-- What the statements that the loops read declare is worked out in the order of the file. -/
theorem ofText_of_readAll {text : String} {headers : List (List Char)}
    {delegates : List DelegateText} {interfaces : List InterfaceText} {c1 c2 rest : List Char}
    (hheaders : header.readAll (afterGap text.toList) = (headers, c1))
    (hdelegates : delegate.readAll c1 = (delegates, c2))
    (hinterfaces : interface.readAll c2 = (interfaces, rest)) :
    SourceFile.ofText text =
      delegates.mapM Delegate.ofStatement >>= fun ds =>
      interfaces.mapM Interface.ofStatement >>= fun is =>
      expectEnd .noInterfaceAt rest >>= fun _ =>
      pure { headers := headers.map String.ofList, delegates := ds, interfaces := is } := by
  rw [SourceFile.ofText, hheaders]
  dsimp only
  rw [hdelegates]
  dsimp only
  rw [hinterfaces]

/-- A text is accepted when the loops leave nothing and every statement declares something. -/
theorem ofText_eq_ok_iff_readAll {text : String} {file : SourceFile} :
    SourceFile.ofText text = .ok file ↔
      ∃ headers delegates interfaces,
        (∃ c1 c2, header.readAll (afterGap text.toList) = (headers, c1) ∧
          delegate.readAll c1 = (delegates, c2) ∧ interface.readAll c2 = (interfaces, [])) ∧
        headers.map String.ofList = file.headers ∧
        delegates.mapM Delegate.ofStatement = .ok file.delegates ∧
        interfaces.mapM Interface.ofStatement = .ok file.interfaces := by
  constructor
  · intro h
    obtain ⟨headers, c1, hheaders⟩ : ∃ a b, header.readAll (afterGap text.toList) = (a, b) :=
      ⟨_, _, rfl⟩
    obtain ⟨delegates, c2, hdelegates⟩ : ∃ a b, delegate.readAll c1 = (a, b) := ⟨_, _, rfl⟩
    obtain ⟨interfaces, c3, hinterfaces⟩ : ∃ a b, interface.readAll c2 = (a, b) := ⟨_, _, rfl⟩
    rw [ofText_of_readAll hheaders hdelegates hinterfaces] at h
    obtain ⟨ds, hds, h⟩ := Traversal.bind_eq_ok_iff.mp h
    obtain ⟨is, his, h⟩ := Traversal.bind_eq_ok_iff.mp h
    obtain ⟨_, hend, h⟩ := Traversal.bind_eq_ok_iff.mp h
    cases h
    obtain rfl := expectEnd_eq_ok_iff.mp hend
    exact ⟨headers, delegates, interfaces, ⟨c1, c2, hheaders, hdelegates, hinterfaces⟩, rfl, hds,
      his⟩
  · rintro ⟨hs, ds, is, ⟨c1, c2, hheaders, hdelegates, hinterfaces⟩, hfile, hds, his⟩
    rw [ofText_of_readAll hheaders hdelegates hinterfaces, hds, his, hfile]
    rfl

theorem SourceFile.forall_mem_params_iff {file : SourceFile} {P : Param → Prop} :
    (∀ p ∈ file.params, P p) ↔ (∀ d ∈ file.delegates, ∀ p ∈ d.params, P p) ∧
      ∀ i ∈ file.interfaces, ∀ m ∈ i.members, ∀ p ∈ m.params, P p := by
  simp only [SourceFile.params, List.forall_mem_append, List.forall_mem_flatMap]

theorem tiled_headers_iff {cs rest : List Char} {lines : List String} :
    Tiled HeaderReads cs lines rest ↔
      ∃ as, Tiled header.Reads cs as rest ∧ as.map String.ofList = lines := by
  simp only [← List.forall₂_eq_eq_eq, List.forall₂_map_left_iff, ← tiled_forall₂_iff,
    ← header_reads_iff]

theorem tiled_delegates_iff {cs rest : List Char} {ds : List Delegate} :
    (∃ as, Tiled delegate.Reads cs as rest ∧ as.mapM Delegate.ofStatement = .ok ds) ↔
      Tiled Delegate.Reads cs ds rest ∧ ∀ d ∈ ds, ∀ p ∈ d.params, p.type ≠ .void :=
  tiled_declares_iff delegate_declares_iff

theorem tiled_interfaces_iff {cs rest : List Char} {is : List Interface} :
    (∃ as, Tiled interface.Reads cs as rest ∧ as.mapM Interface.ofStatement = .ok is) ↔
      Tiled Interface.Reads cs is rest ∧
        ∀ i ∈ is, ∀ m ∈ i.members, ∀ p ∈ m.params, p.type ≠ .void :=
  tiled_declares_iff interface_declares_iff

theorem SourceFile.tiles_of_ofText {text : String} {file : SourceFile}
    (h : SourceFile.ofText text = .ok file) :
    SourceFile.Tiles text.toList file ∧ ∀ p ∈ file.params, p.type ≠ .void := by
  rw [SourceFile.forall_mem_params_iff]
  obtain ⟨hs, ds, is, hsections, hmap, hds, his⟩ := ofText_eq_ok_iff_readAll.mp h
  obtain ⟨c0, c1, c2, hgap, h0, h1, h2⟩ := readAll_sections_iff.mp hsections
  obtain ⟨hdelegates, hdelegatesVoid⟩ := tiled_delegates_iff.mp ⟨ds, h1, hds⟩
  obtain ⟨hinterfaces, hinterfacesVoid⟩ := tiled_interfaces_iff.mp ⟨is, h2, his⟩
  exact ⟨⟨c0, c1, c2, hgap, tiled_headers_iff.mpr ⟨hs, h0, hmap⟩, hdelegates, hinterfaces⟩,
    hdelegatesVoid, hinterfacesVoid⟩

theorem SourceFile.Tiles.ofText {text : String} {file : SourceFile}
    (h : SourceFile.Tiles text.toList file) (hvoid : ∀ p ∈ file.params, p.type ≠ .void) :
    SourceFile.ofText text = .ok file := by
  obtain ⟨c0, c1, c2, hgap, h0, h1, h2⟩ := h
  rw [SourceFile.forall_mem_params_iff] at hvoid
  obtain ⟨hs, h0, hmap⟩ := tiled_headers_iff.mp h0
  obtain ⟨ds, h1, hds⟩ := tiled_delegates_iff.mpr ⟨h1, hvoid.1⟩
  obtain ⟨is, h2, his⟩ := tiled_interfaces_iff.mpr ⟨h2, hvoid.2⟩
  have hsections := readAll_sections_iff.mpr ⟨c0, c1, c2, hgap, h0, h1, h2⟩
  exact ofText_eq_ok_iff_readAll.mpr ⟨hs, ds, is, hsections, hmap, hds, his⟩

/-- **A text is accepted exactly when it is tiled by statements and no parameter is `void`;
what it is read as is what the statements declare, one by one and in their order.** -/
theorem SourceFile.ofText_eq_ok_iff_tiles {text : String} {file : SourceFile} :
    SourceFile.ofText text = .ok file ↔
      SourceFile.Tiles text.toList file ∧ ∀ p ∈ file.params, p.type ≠ .void :=
  ⟨SourceFile.tiles_of_ofText, fun h => h.1.ofText h.2⟩

end IdlGlue
