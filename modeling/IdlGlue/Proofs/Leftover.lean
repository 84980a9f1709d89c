/-
# IdlGlue.Proofs.Leftover -- texts that are refused for what is left of them

A text is refused for a type that a declared parameter cannot have, or since the loops halt inside
it. In the second case it is cut where they halt:

| part                  | what it is                                                         |
|-----------------------|--------------------------------------------------------------------|
| the text before       | a source file by itself, with the declarations that were read      |
| the text from there   | no gap and no statement at its start, and not empty                |
| the fragment          | the first line of it, or 80 characters of this and three dots      |

The first row says that nothing that was read has looked behind the cut. Statements that end with a
semicolon never do (`Member.Reads.stable`). A block may: where no closing brace is outside comments
the scan has searched the whole text for one. It has found none behind its last one, and a part of
what stands there has none either; so relations are asked to hold with any beginning of what is
left behind them (`Cuts`), which is what passes from one statement to the next.

The body of a block is cut in the same way at the place where no member begins.
-/
import IdlGlue.Proofs.Closing
import IdlGlue.Proofs.Faults

namespace IdlGlue.Text

open IdlGlue.Scan

/-! ## What is quoted -/

section Quotes

variable {c : Char} {cs rest : List Char}

/-- The fragment quotes the start of the text: one line of it, not empty, or its first 80
characters and three dots. -/
structure Quotes (rest : List Char) (fragment : String) : Prop where
  nonempty : fragment ≠ ""
  oneLine : '\n' ∉ fragment.toList
  start : ∃ w, w <+: rest ∧ (fragment.toList = w ∧ w.length ≤ 80 ∨
    fragment.toList = w ++ "...".toList ∧ w.length = 80)

theorem trimEnd_ne_nil (hc : isBlank c = false) : trimEnd (c :: cs) ≠ [] := by
  rw [trimEnd]
  split
  · simp [hc]
  · exact List.cons_ne_nil c _

/-- The first line of a text that does not begin with white space. -/
theorem trimEnd_line (hne : rest ≠ []) (hrest : StopsAt isBlank rest) :
    trimEnd (rest.takeWhile (· != '\n')) ≠ [] ∧ trimEnd (rest.takeWhile (· != '\n')) <+: rest ∧
      '\n' ∉ trimEnd (rest.takeWhile (· != '\n')) := by
  have hline := trimEnd_isPrefix (rest.takeWhile (· != '\n'))
  refine ⟨?_, hline.trans (List.takeWhile_prefix _), ?_⟩
  · obtain ⟨c, tail, rfl⟩ := List.exists_cons_of_ne_nil hne
    have hc := stopsAt_cons.mp hrest
    have hnewline : c ≠ '\n' := by
      rintro rfl
      exact absurd hc (by decide)
    rw [List.takeWhile_cons_of_pos (by simpa using hnewline)]
    exact trimEnd_ne_nil hc
  · intro hmem
    simpa using List.mem_takeWhile_imp (hline.subset hmem)

theorem quotes_excerpt (hne : rest ≠ []) (hrest : StopsAt isBlank rest) :
    Quotes rest (String.ofList (excerpt rest)) := by
  obtain ⟨hline, hprefix, hnewline⟩ := trimEnd_line hne hrest
  have hstart : trimStart rest = rest := afterBlanks_of_stopsAt hrest
  unfold excerpt
  rw [hstart]
  generalize trimEnd (rest.takeWhile (· != '\n')) = line at hline hprefix hnewline
  dsimp only
  split
  · next hlong =>
      refine ⟨?_, ?_, line.take excerptLimit, (List.take_prefix _ _).trans hprefix, Or.inr ?_⟩
      · intro hempty
        simpa using congrArg String.toList hempty
      · rw [String.toList_ofList]
        intro hmem
        rcases List.mem_append.mp hmem with hmem | hmem
        · exact hnewline (List.mem_of_mem_take hmem)
        · exact absurd hmem (by decide)
      · rw [String.toList_ofList]
        exact ⟨rfl, List.length_take_of_le hlong.le⟩
  · next hshort =>
      refine ⟨?_, ?_, line, hprefix, Or.inl ?_⟩
      · intro hempty
        exact hline (by simpa using congrArg String.toList hempty)
      · rwa [String.toList_ofList]
      · rw [String.toList_ofList]
        exact ⟨rfl, Nat.le_of_not_lt hshort⟩

end Quotes

end IdlGlue.Text

namespace IdlGlue.Scan

open IdlGlue.Text

theorem stopsAt_afterGap (cs : List Char) : StopsAt isBlank (afterGap cs) := by
  fun_induction afterGap cs with
  | case1 cs _ => exact stopsAt_dropWhile
  | case2 cs rest _ ih => exact ih

/-! ## Relations that do not look far -/

section Cuts

variable {α : Type} {S T : List Char → List Char → Prop}

/-- What holds up to `rest` holds also where only some beginning of `rest` is left. -/
def Cuts (T : List Char → List Char → Prop) : Prop :=
  ∀ ⦃cs rest⦄, T cs rest → ∃ p, cs = p ++ rest ∧ ∀ z, z <+: rest → T (p ++ z) z

theorem Cuts.congr (hS : Cuts S) (h : ∀ cs rest, T cs rest ↔ S cs rest) : Cuts T := by
  intro cs rest hT
  obtain ⟨p, hp, hcut⟩ := hS ((h cs rest).mp hT)
  exact ⟨p, hp, fun z hz => (h _ z).mpr (hcut z hz)⟩

theorem Cuts.comp (hS : Cuts S) (hT : Cuts T) :
    Cuts fun cs rest => ∃ mid, S cs mid ∧ T mid rest := by
  rintro cs rest ⟨mid, hfirst, hsecond⟩
  obtain ⟨p, rfl, hp⟩ := hS hfirst
  obtain ⟨q, rfl, hq⟩ := hT hsecond
  refine ⟨p ++ q, (List.append_assoc p q rest).symm, fun z hz => ⟨q ++ z, ?_, hq z hz⟩⟩
  -- To the first relation the second piece belongs to what is left.
  rw [List.append_assoc]
  exact hp _ ((List.prefix_append_right_inj q).mpr hz)

theorem cuts_comment : Cuts Comment := by
  intro cs rest h
  cases h with
  | @line body _ hbody hrest =>
      refine ⟨'/' :: '/' :: body, rfl, fun z hz => .line hbody ?_⟩
      obtain ⟨tail, rfl⟩ := hz
      intro c hc
      exact hrest c (List.mem_head?_append_of_mem_head? hc)
  | @block body _ hbody =>
      refine ⟨'/' :: '*' :: (body ++ ['*', '/']), by simp, fun z _ => ?_⟩
      have hcomment : Comment ('/' :: '*' :: (body ++ '*' :: '/' :: z)) z := .block hbody
      simpa using hcomment

theorem cuts_gap : Cuts Gap := by
  intro cs rest h
  induction h with
  | none cs => exact ⟨[], rfl, fun z _ => .none z⟩
  | @blank c cs rest hc _ ih =>
      obtain ⟨p, rfl, hp⟩ := ih
      exact ⟨c :: p, rfl, fun z hz => .blank hc (hp z hz)⟩
  | @comment cs mid rest hcomment _ ih =>
      obtain ⟨q, rfl, hq⟩ := ih
      obtain ⟨p, rfl, hp⟩ := cuts_comment hcomment
      refine ⟨p ++ q, (List.append_assoc p q rest).symm, fun z hz => ?_⟩
      rw [List.append_assoc]
      exact .comment (hp _ ((List.prefix_append_right_inj q).mpr hz)) (hq z hz)

theorem cuts_tiled {R : List Char → α → List Char → Prop} (hR : ∀ a, Cuts fun cs => R cs a)
    (as : List α) : Cuts fun cs => Tiled R cs as := by
  induction as with
  | nil =>
      intro cs rest h
      cases h
      exact ⟨[], rfl, fun z _ => .nil z⟩
  | cons a as ih =>
      intro cs rest h
      cases h with
      | cons hread hgap htiled =>
          obtain ⟨p, hp, hcut⟩ := ((hR a).comp (cuts_gap.comp ih)) ⟨_, hread, _, hgap, htiled⟩
          refine ⟨p, hp, fun z hz => ?_⟩
          obtain ⟨_, hread, _, hgap, htiled⟩ := hcut z hz
          exact .cons hread hgap htiled

theorem Tiled.nil_or_first {R : List Char → α → List Char → Prop} {cs rest : List Char}
    {as : List α} (h : Tiled R cs as rest) : as = [] ∧ cs = rest ∨ ∃ a behind, R cs a behind := by
  cases h with
  | nil => exact Or.inl ⟨rfl, rfl⟩
  | cons hread _ _ => exact Or.inr ⟨_, _, hread⟩

end Cuts

end IdlGlue.Scan

namespace IdlGlue

open IdlGlue.Text IdlGlue.Scan IdlGlue.Statement

/-! ## Statements -/

theorem cuts_header (line : String) : Cuts fun cs => HeaderReads cs line :=
  fun _ _ h => ⟨line.toList, h.2, fun z _ => h.stable z⟩

theorem cuts_delegate (d : Delegate) : Cuts fun cs => Delegate.Reads cs d := by
  intro cs rest h
  obtain ⟨p, hp, hstable⟩ := h.stable
  exact ⟨p, hp, fun z _ => hstable z⟩

theorem cuts_member (m : Member) : Cuts fun cs => Member.Reads cs m := by
  intro cs rest h
  obtain ⟨p, hp, hstable⟩ := h.stable
  exact ⟨p, hp, fun z _ => hstable z⟩

theorem cuts_blockEnd : Cuts BlockEnd := by
  intro cs rest h
  cases h with
  | @semicolon space _ hspace =>
      refine ⟨space ++ [';'], by simp, fun z _ => ?_⟩
      have hend : BlockEnd (space ++ ';' :: z) z := .semicolon hspace
      simpa using hend
  | @bare space _ hspace hstop hhead =>
      refine ⟨space, rfl, fun z hz => .bare hspace (hstop.of_isPrefix hz) ?_⟩
      obtain ⟨tail, rfl⟩ := hz
      intro hz
      exact hhead (List.mem_head?_append_of_mem_head? hz)

/-- A block that is closed in a line comment needs that no closing brace stands behind it. -/
theorem cuts_opens (i : Interface) : Cuts fun cs => Interface.Opens cs i := by
  intro cs behind h
  rcases Interface.opens_iff.mp h with hblock | ⟨name, body, x, hhead, hname, hbody, hx, hbehind⟩
  · obtain ⟨p, hp, hstable⟩ := hblock.stable
    exact ⟨p, hp, fun z _ => Interface.opens_iff.mpr (Or.inl (hstable z))⟩
  · obtain ⟨p, rfl, hstable⟩ := interfaceHead_stable hhead
    refine ⟨p ++ (body ++ '/' :: '/' :: (x ++ ['}'])), by simp, fun z hz => ?_⟩
    refine Interface.opens_iff.mpr (Or.inr ⟨name, body, x, ?_, hname, hbody, hx, ?_⟩)
    · simpa using hstable (body ++ '/' :: '/' :: (x ++ '}' :: z))
    · exact fun hmem => hbehind (hz.subset hmem)

theorem cuts_interface (i : Interface) : Cuts fun cs => Interface.Reads cs i :=
  ((cuts_opens i).comp cuts_blockEnd).congr fun _ _ => Interface.reads_iff

/-! ## Texts that are read up to a place -/

/-- The text is a source file up to `rest`, and declares `file` there. -/
def SourceFile.ReadTo (cs : List Char) (file : SourceFile) (rest : List Char) : Prop :=
  ∃ headers delegates interfaces, Gap cs headers ∧
    Tiled HeaderReads headers file.headers delegates ∧
    Tiled Delegate.Reads delegates file.delegates interfaces ∧
    Tiled Interface.Reads interfaces file.interfaces rest

/-- The text is a body up to `rest`, and the members there are `members`. -/
def Member.ReadTo (body : List Char) (members : List Member) (rest : List Char) : Prop :=
  ∃ first, Gap body first ∧ Tiled Member.Reads first members rest

/-- Text is left behind the declarations, and nothing that may follow them begins there: no gap, no
block, no delegate unless a block has been read, and no include line unless another declaration
has. -/
structure SourceFile.Halts (file : SourceFile) (rest : List Char) : Prop where
  left : rest ≠ []
  interface : Statement.interface.Halts rest
  delegate : file.interfaces = [] → Statement.delegate.read rest = none
  header : file.delegates = [] → file.interfaces = [] → Statement.header.read rest = none

/-- Text is left behind the members, and neither a gap nor a member begins there. -/
structure Member.Halts (rest : List Char) : Prop where
  left : rest ≠ []
  member : Statement.member.Halts rest

theorem cuts_readTo (file : SourceFile) : Cuts fun cs => SourceFile.ReadTo cs file := by
  have hinterfaces := cuts_tiled cuts_interface file.interfaces
  have hdelegates := (cuts_tiled cuts_delegate file.delegates).comp hinterfaces
  have hsections := cuts_gap.comp ((cuts_tiled cuts_header file.headers).comp hdelegates)
  refine hsections.congr fun cs rest => ?_
  simp only [SourceFile.ReadTo, exists_and_left]

theorem cuts_memberReadTo (members : List Member) : Cuts fun body => Member.ReadTo body members :=
  cuts_gap.comp (cuts_tiled cuts_member members)

section Texts

variable {text : String} {body rest : List Char} {file : SourceFile} {members : List Member}
  {fragment : String}

/-- The text before the place is a source file of its own. -/
theorem SourceFile.ReadTo.before {cs : List Char} (h : SourceFile.ReadTo cs file rest)
    (hvoid : ∀ p ∈ file.params, p.type ≠ .void) :
    ∃ p, cs = p ++ rest ∧ SourceFile.ofText (String.ofList p) = .ok file := by
  obtain ⟨p, hp, hcut⟩ := cuts_readTo file h
  have htiles : SourceFile.ReadTo (p ++ []) file [] := hcut [] List.nil_prefix
  rw [List.append_nil] at htiles
  refine ⟨p, hp, SourceFile.Tiles.ofText ?_ hvoid⟩
  rw [String.toList_ofList]
  exact htiles

theorem Member.ReadTo.before (h : Member.ReadTo body members rest)
    (hvoid : ∀ m ∈ members, ∀ p ∈ m.params, p.type ≠ .void) :
    ∃ p, body = p ++ rest ∧ Member.listOfBody p = .ok members := by
  obtain ⟨p, hp, hcut⟩ := cuts_memberReadTo members h
  have htiles : Member.ReadTo (p ++ []) members [] := hcut [] List.nil_prefix
  rw [List.append_nil] at htiles
  exact ⟨p, hp, listOfBody_eq_ok_iff.mpr ⟨htiles, hvoid⟩⟩

/-! ## The loops -/

/-- What the loops read of a text that is read up to a place where nothing goes on. -/
theorem SourceFile.ReadTo.readAll {cs : List Char} (h : SourceFile.ReadTo cs file rest)
    (hhalts : file.Halts rest) (hvoid : ∀ p ∈ file.params, p.type ≠ .void) :
    ∃ headers delegates interfaces c1 c2, header.readAll (afterGap cs) = (headers, c1) ∧
      delegate.readAll c1 = (delegates, c2) ∧ interface.readAll c2 = (interfaces, rest) ∧
      delegates.mapM Delegate.ofStatement = .ok file.delegates ∧
      interfaces.mapM Interface.ofStatement = .ok file.interfaces := by
  obtain ⟨c0, c1, c2, hgap, hheaders, hdelegates, hinterfaces⟩ := h
  obtain ⟨hdelegatesVoid, hinterfacesVoid⟩ := SourceFile.forall_mem_params_iff.mp hvoid
  have hstop : delegate.Halts c2 ∧ (file.delegates = [] → header.read c2 = none) := by
    rcases hinterfaces.nil_or_first with ⟨hnil, rfl⟩ | ⟨i, behind, hread⟩
    · exact ⟨⟨hhalts.interface.gap, hhalts.delegate hnil⟩, fun h => hhalts.header h hnil⟩
    · obtain ⟨s, hread, _⟩ := hread
      obtain ⟨hdelegate, hheader⟩ := halts_of_interface_start (Or.inr (interface_start hread))
      exact ⟨hdelegate, fun _ => hheader⟩
  obtain ⟨hs, hheaders, _⟩ := tiled_headers_iff.mp hheaders
  obtain ⟨ds, hdelegates, hds⟩ := tiled_delegates_iff.mpr ⟨hdelegates, hdelegatesVoid⟩
  obtain ⟨is, hinterfaces, his⟩ := tiled_interfaces_iff.mpr ⟨hinterfaces, hinterfacesVoid⟩
  have hnoDelegate : ds = [] → header.read c2 = none := by
    rintro rfl
    exact hstop.2 (Except.ok.inj hds).symm
  obtain ⟨hheadersRead, hdelegatesRead⟩ :=
    readAll_sections hgap hheaders hdelegates hstop.1 hnoDelegate
  exact ⟨hs, ds, is, c1, c2, hheadersRead, hdelegatesRead,
    hinterfaces.readAll_eq interface_settled hhalts.interface, hds, his⟩

/-- What the loops read of a text is what it is read as, up to where they halt. -/
theorem SourceFile.readTo_of_readAll {cs c1 c2 : List Char} {headers : List (List Char)}
    {delegates : List DelegateText} {interfaces : List InterfaceText}
    (hheaders : header.readAll (afterGap cs) = (headers, c1))
    (hdelegates : delegate.readAll c1 = (delegates, c2))
    (hinterfaces : interface.readAll c2 = (interfaces, rest))
    (hlines : file.headers = headers.map String.ofList)
    (hds : delegates.mapM Delegate.ofStatement = .ok file.delegates)
    (his : interfaces.mapM Interface.ofStatement = .ok file.interfaces) (hne : rest ≠ []) :
    SourceFile.ReadTo cs file rest ∧ file.Halts rest ∧ ∀ p ∈ file.params, p.type ≠ .void := by
  have hheadersTiled := (header.tiled_readAll (afterGap cs)).1
  have hdelegatesTiled := (delegate.tiled_readAll c1).1
  have hinterfacesTiled := (interface.tiled_readAll c2).1
  -- Each loop begins where the one before it has halted.
  have hheadersHalt := header.halts_readAll (gap_afterGap cs).afterGap_eq.symm
  rw [hheaders] at hheadersTiled hheadersHalt
  have hdelegatesHalt := delegate.halts_readAll hheadersHalt.gap
  rw [hdelegates] at hdelegatesTiled hdelegatesHalt
  have hinterfacesHalt := interface.halts_readAll hdelegatesHalt.gap
  rw [hinterfaces] at hinterfacesTiled hinterfacesHalt
  have hheadersRead := tiled_headers_iff.mpr ⟨headers, hheadersTiled, hlines.symm⟩
  obtain ⟨hdelegatesRead, hdelegatesVoid⟩ :=
    tiled_delegates_iff.mp ⟨delegates, hdelegatesTiled, hds⟩
  obtain ⟨hinterfacesRead, hinterfacesVoid⟩ :=
    tiled_interfaces_iff.mp ⟨interfaces, hinterfacesTiled, his⟩
  have hnoInterface : file.interfaces = [] → c2 = rest := by
    intro hnil
    rw [hnil] at hinterfacesRead
    cases hinterfacesRead
    rfl
  have hnoDelegate : file.delegates = [] → c1 = c2 := by
    intro hnil
    rw [hnil] at hdelegatesRead
    cases hdelegatesRead
    rfl
  refine ⟨⟨_, c1, c2, gap_afterGap cs, hheadersRead, hdelegatesRead, hinterfacesRead⟩, ?_,
    SourceFile.forall_mem_params_iff.mpr ⟨hdelegatesVoid, hinterfacesVoid⟩⟩
  refine ⟨hne, hinterfacesHalt, ?_, ?_⟩
  · intro hnil
    rw [← hnoInterface hnil]
    exact hdelegatesHalt.read
  · intro hdelegates hnil
    rw [← hnoInterface hnil, ← hnoDelegate hdelegates]
    exact hheadersHalt.read

/-! ## The two faults -/

/-- Text is told as left over if it is, and the declarations before it have no fault. -/
theorem SourceFile.ofText_eq_noInterface_iff :
    SourceFile.ofText text = .error (.noInterface fragment) ↔
      ∃ file rest, SourceFile.ReadTo text.toList file rest ∧ file.Halts rest ∧
        (∀ p ∈ file.params, p.type ≠ .void) ∧ fragment = String.ofList (excerpt rest) := by
  constructor
  · intro h
    obtain ⟨headers, c1, hheaders⟩ : ∃ a b, header.readAll (afterGap text.toList) = (a, b) :=
      ⟨_, _, rfl⟩
    obtain ⟨delegates, c2, hdelegates⟩ : ∃ a b, delegate.readAll c1 = (a, b) := ⟨_, _, rfl⟩
    obtain ⟨interfaces, rest, hinterfaces⟩ : ∃ a b, interface.readAll c2 = (a, b) := ⟨_, _, rfl⟩
    rw [ofText_of_readAll hheaders hdelegates hinterfaces] at h
    -- The faults of declarations are of other kinds.
    have hdelegatesFault : Faults (· ≠ .noInterface fragment)
        (delegates.mapM Delegate.ofStatement) :=
      faults_mapM (faults_delegateOfStatement fun _ _ => nofun) delegates
    have hinterfacesFault : Faults (· ≠ .noInterface fragment)
        (interfaces.mapM Interface.ofStatement) :=
      faults_mapM (faults_interfaceOfStatement (fun _ _ => nofun) fun _ => nofun) interfaces
    rcases Traversal.bind_eq_error_iff.mp h with h | ⟨ds, hds, h⟩
    · exact absurd rfl (hdelegatesFault _ h)
    rcases Traversal.bind_eq_error_iff.mp h with h | ⟨is, his, h⟩
    · exact absurd rfl (hinterfacesFault _ h)
    rcases Traversal.bind_eq_error_iff.mp h with h | ⟨_, _, h⟩
    · obtain ⟨hne, hfault⟩ := expectEnd_eq_error_iff.mp h
      let file : SourceFile :=
        { headers := headers.map String.ofList, delegates := ds, interfaces := is }
      obtain ⟨hread, hhalts, hvoid⟩ : SourceFile.ReadTo text.toList file rest ∧ file.Halts rest ∧
          ∀ p ∈ file.params, p.type ≠ .void :=
        SourceFile.readTo_of_readAll hheaders hdelegates hinterfaces rfl hds his hne
      exact ⟨file, rest, hread, hhalts, hvoid, Fault.noInterface.inj hfault⟩
    · cases h
  · rintro ⟨file, rest, hread, hhalts, hvoid, rfl⟩
    obtain ⟨headers, delegates, interfaces, c1, c2, hheaders, hdelegates, hinterfaces, hds, his⟩ :=
      hread.readAll hhalts hvoid
    rw [ofText_of_readAll hheaders hdelegates hinterfaces, hds, his]
    show expectEnd .noInterfaceAt rest >>= _ = _
    rw [expectEnd_eq_error_iff.mpr ⟨hhalts.left, rfl⟩]
    rfl

theorem Member.listOfBody_eq_noStatement_iff :
    Member.listOfBody body = .error (.noStatement fragment) ↔
      ∃ members rest, Member.ReadTo body members rest ∧ Member.Halts rest ∧
        (∀ m ∈ members, ∀ p ∈ m.params, p.type ≠ .void) ∧
        fragment = String.ofList (excerpt rest) := by
  constructor
  · intro h
    obtain ⟨statements, rest, hread⟩ : ∃ a b, member.readAll (afterGap body) = (a, b) := ⟨_, _, rfl⟩
    rw [listOfBody_of_readAll hread] at h
    have hother : Faults (· ≠ .noStatement fragment) (statements.mapM Member.ofStatement) :=
      faults_mapM (faults_memberOfStatement fun _ _ => nofun) statements
    rcases Traversal.bind_eq_error_iff.mp h with h | ⟨members, hmembers, h⟩
    · exact absurd rfl (hother _ h)
    rcases Traversal.bind_eq_error_iff.mp h with h | ⟨_, _, h⟩
    · obtain ⟨hne, hfault⟩ := expectEnd_eq_error_iff.mp h
      obtain ⟨hhalts, first, hgap, htiled⟩ := (readAll_afterGap_eq_iff member_settled).mp hread
      obtain ⟨htiled, hvoid⟩ := (tiled_declares_iff member_declares_iff).mp ⟨_, htiled, hmembers⟩
      exact ⟨members, rest, ⟨first, hgap, htiled⟩, ⟨hne, hhalts⟩, hvoid,
        Fault.noStatement.inj hfault⟩
    · cases h
  · rintro ⟨members, rest, ⟨first, hgap, htiled⟩, hhalts, hvoid, rfl⟩
    exact listOfBody_eq_error hgap htiled hvoid hhalts.member hhalts.left

/-- **A text is told as left over from the place on where it cannot go on, and it is accepted up
to that place**, with the declarations that were read before. The fragment quotes what is left. The
same holds of the body of a block and its members. -/
theorem leftover_law :
    (∀ text fragment, SourceFile.ofText text = .error (.noInterface fragment) ↔
      ∃ p rest file, text.toList = p ++ rest ∧ SourceFile.ReadTo text.toList file rest ∧
        file.Halts rest ∧ SourceFile.ofText (String.ofList p) = .ok file ∧
        fragment = String.ofList (excerpt rest) ∧ Quotes rest fragment) ∧
    ∀ body fragment, Member.listOfBody body = .error (.noStatement fragment) ↔
      ∃ p rest members, body = p ++ rest ∧ Member.ReadTo body members rest ∧
        Member.Halts rest ∧ Member.listOfBody p = .ok members ∧
        fragment = String.ofList (excerpt rest) ∧ Quotes rest fragment := by
  have hquotes : ∀ {α : Type} {r : Recognizer α} {rest : List Char}, rest ≠ [] → r.Halts rest →
      Quotes rest (String.ofList (excerpt rest)) := by
    intro α r rest hne hhalts
    have hstop := stopsAt_afterGap rest
    rw [hhalts.gap] at hstop
    exact quotes_excerpt hne hstop
  constructor
  · intro text fragment
    rw [SourceFile.ofText_eq_noInterface_iff]
    constructor
    · rintro ⟨file, rest, hread, hhalts, hvoid, rfl⟩
      obtain ⟨p, hp, hfile⟩ := hread.before hvoid
      exact ⟨p, rest, file, hp, hread, hhalts, hfile, rfl, hquotes hhalts.left hhalts.interface⟩
    · rintro ⟨p, rest, file, _, hread, hhalts, hfile, hfragment, _⟩
      have hvoid := (SourceFile.tiles_of_ofText hfile).2
      exact ⟨file, rest, hread, hhalts, hvoid, hfragment⟩
  · intro body fragment
    rw [Member.listOfBody_eq_noStatement_iff]
    constructor
    · rintro ⟨members, rest, hread, hhalts, hvoid, rfl⟩
      obtain ⟨p, hp, hmembers⟩ := hread.before hvoid
      exact ⟨p, rest, members, hp, hread, hhalts, hmembers, rfl, hquotes hhalts.left hhalts.member⟩
    · rintro ⟨p, rest, members, _, hread, hhalts, hmembers, hfragment, _⟩
      have hvoid := (listOfBody_eq_ok_iff.mp hmembers).2
      exact ⟨members, rest, hread, hhalts, hvoid, hfragment⟩

end Texts

end IdlGlue
