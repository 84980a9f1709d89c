/-
# IdlGlue.Proofs.AnyOfText -- a text with a parameter of the type `anyof<Set>`

A text is accepted, and the parameter list of one of its constructors or methods is exchanged for
one in which a parameter has the type `anyof<Set>` (`ListSite`). Everything else stays:

    before | head `{` | inner | call `(` list `)` tail | `}` behind

The declarations `before`, the head of the block and the members `inner` are whole parts, which do
not look behind themselves; and the brace that closes the block is the same one, since neither list
holds a brace or begins a comment. So the reader comes to the member as before. There it stops, for
the member is no statement with such a list, and the type is told by no fault.

The list itself is told apart by its own reader, as `AnyOfLaw` says.
-/
import IdlGlue.Proofs.AnyOfParam
import IdlGlue.Proofs.Closing

namespace IdlGlue

open IdlGlue.Text IdlGlue.Scan IdlGlue.Statement

/-! ## Where a text stops to be one -/

/-- A name stands where a member should, and it begins none. -/
def NoMember (cs : List Char) : Prop := NameStart cs ∧ member.read cs = none

/-- The text begins with a block whose body is members up to `stop`, where none begins. -/
def Interface.StuckAt (cs stop : List Char) : Prop :=
  ∃ s rest first members, interface.Reads cs s rest ∧ Gap s.body first ∧
    Tiled Member.Reads first members stop ∧ (∀ m ∈ members, ∀ p ∈ m.params, p.type ≠ .void) ∧
    NoMember stop

/-- The text is a source file up to such a place in one of its blocks. -/
def SourceFile.StuckAt (cs stop : List Char) : Prop :=
  ∃ (file : SourceFile) (headers delegates interfaces block : List Char), Gap cs headers ∧
    Tiled HeaderReads headers file.headers delegates ∧
    Tiled Delegate.Reads delegates file.delegates interfaces ∧
    Tiled Interface.Reads interfaces file.interfaces block ∧
    (∀ p ∈ file.params, p.type ≠ .void) ∧ Interface.StuckAt block stop

/-- **A text is refused at the first place where no member begins.** What stands behind the place,
in the block or behind it, is not looked at. -/
theorem ofText_eq_error_of_stuckAt {text : String} {stop : List Char}
    (h : SourceFile.StuckAt text.toList stop) :
    SourceFile.ofText text = .error (.noStatementAt stop) := by
  obtain ⟨file, c0, c1, c2, block, hgap, hheaders, hdelegates, hinterfaces, hvoid, hblock⟩ := h
  obtain ⟨s, rest, first, members, hread, hbody, hmembers, hmembersVoid, hstop⟩ := hblock
  obtain ⟨hstart, hnone⟩ := hstop
  have hhalts : member.Halts stop := ⟨hstart.itemStart.settled.afterGap_eq_self, hnone⟩
  have hne : stop ≠ [] := by
    obtain ⟨c, tail, rfl, _⟩ := hstart
    exact List.cons_ne_nil c tail
  have hfault : Interface.ofStatement s = .error (.noStatementAt stop) := by
    rw [Interface.ofStatement, listOfBody_eq_error hbody hmembers hmembersVoid hhalts hne]
    rfl
  obtain ⟨hdelegatesVoid, hinterfacesVoid⟩ := SourceFile.forall_mem_params_iff.mp hvoid
  obtain ⟨headers, hheaders, _⟩ := tiled_headers_iff.mp hheaders
  obtain ⟨delegates, hdelegates, hdecls⟩ :=
    tiled_delegates_iff.mpr ⟨hdelegates, hdelegatesVoid⟩
  obtain ⟨before, hbefore, hdeclsBefore⟩ :=
    tiled_interfaces_iff.mpr ⟨hinterfaces, hinterfacesVoid⟩
  have hinterface := hbefore.start interface_start (interface_start hread)
  obtain ⟨hhalts, hheader⟩ := halts_of_interface_start (Or.inr hinterface)
  obtain ⟨hheadersRead, hdelegatesRead⟩ :=
    readAll_sections hgap hheaders hdelegates hhalts fun _ => hheader
  -- The loop reads the block as well, and only what it declares is worked out to the fault.
  have hinterfacesRead := hbefore.readAll_append interface_settled
    (interface_settled hread).afterGap_eq_self
  rw [interface.readAll_of_some hread] at hinterfacesRead
  rw [ofText_of_readAll hheadersRead hdelegatesRead hinterfacesRead, hdecls, List.mapM_append,
    hdeclsBefore, List.mapM_cons, hfault]
  rfl

/-! ## One list in a text -/

/-- A text around a parameter list. -/
structure ListSite where
  /-- The declarations before the block. -/
  before : List Char
  /-- The block up to its opening brace. -/
  head : List Char
  /-- The members before the one with the list. -/
  inner : List Char
  /-- This member up to its opening parenthesis. -/
  call : List Char
  /-- The body behind the closing parenthesis. -/
  tail : List Char
  /-- What stands behind the brace that closes the block. -/
  behind : List Char

namespace ListSite

variable (s : ListSite) (args : List Char)

/-- The body from the member on. -/
def member : List Char := s.call ++ '(' :: (args ++ ')' :: s.tail)

/-- The body of the block. -/
def body : List Char := s.inner ++ s.member args

/-- The text from the block on. -/
def block : List Char := s.head ++ (s.body args ++ '}' :: s.behind)

/-- The whole text with the list `args`. -/
def text : String := String.ofList (s.before ++ s.block args)

/-- With the list `args` the text is a source file that declares `file`, and it is cut as the names
of the parts say. -/
structure Declares (file : SourceFile) : Prop where
  /-- The text is accepted. -/
  read : SourceFile.ofText (s.text args) = .ok file
  /-- Whole declarations stand before the block, and whole members before the one. -/
  parts : ∃ before i after members, file.interfaces = before ++ i :: after ∧
    members <+: i.members ∧
    Spread (Decl.Stands Interface.Block BlockTail) BodyEnd s.before
      (SourceFile.decls { file with interfaces := before }) ∧
    Spread Member.Reads BodyEnd s.inner members
  /-- The block begins with its head. -/
  opens : ∃ name, InterfaceHead (s.block args) name (s.body args ++ '}' :: s.behind)
  /-- The brace closes it. -/
  closes : body? (s.body args ++ '}' :: s.behind) = some (s.body args, s.behind)
  /-- The first parenthesis of the member is the one before its list. -/
  paren : '(' ∉ s.call
  /-- The member is a constructor or a method. -/
  kind : (∃ rest, Statement.constructor.Reads (s.member args) args rest) ∨
    ∃ m rest, Statement.method.Reads (s.member args) m rest ∧ m.args = args

end ListSite

namespace ListSite.Declares

variable {s : ListSite} {args other : List Char} {file : SourceFile}
  {pairs : List (List Char × List Char)}

theorem listAt (h : s.Declares other file) : ListAt (s.member other) other := by
  rcases h.kind with ⟨rest, hread⟩ | ⟨m, rest, hread, rfl⟩
  · exact listAt_constructor hread
  · exact listAt_method hread

theorem callsWith (h : s.Declares other file) (args : List Char) :
    CallsWith (s.member args) args := by
  refine ⟨s.call, other, s.tail, h.paren, rfl, ?_⟩
  rcases h.kind with ⟨rest, hread⟩ | ⟨m, rest, hread, _⟩
  · exact Or.inl (Option.isSome_of_eq_some hread)
  · exact Or.inr (Option.isSome_of_eq_some hread)

/-- The scan of a body passes over the member up to its list's end, whichever list it is. -/
theorem passed (h : s.Declares other file) (hbrace : '}' ∉ args) (hslash : '/' ∉ args) :
    Passed (s.inner ++ (s.call ++ '(' :: (args ++ [')']))) := by
  obtain ⟨_, _, _, members, _, _, _, hinner⟩ := h.parts
  have hcall : AllIn isHead s.call := h.listAt.allIn_isHead h.paren
  have hnot {c : Char} (hc : isHead c = false) : c ∉ s.call := by
    intro hmem
    rw [hcall c hmem] at hc
    cases hc
  refine (passed_of_spread hinner).append (passed_of_not_mem ?_ ?_)
  · simp [hnot (c := '}') (by decide +kernel), hbrace]
  · simp [hnot (c := '/') (by decide +kernel), hslash]

/-- The same brace closes the block with another list. -/
theorem closes_of (h : s.Declares other file) (hbrace : '}' ∉ args) (hslash : '/' ∉ args) :
    body? (s.body args ++ '}' :: s.behind) = some (s.body args, s.behind) := by
  have htext (list : List Char) : s.body list ++ '}' :: s.behind =
      s.inner ++ (s.call ++ '(' :: (list ++ [')'])) ++ (s.tail ++ '}' :: s.behind) := by
    simp [ListSite.body, ListSite.member]
  have hbody (list : List Char) :
      s.body list = s.inner ++ (s.call ++ '(' :: (list ++ [')'])) ++ s.tail := by
    simp [ListSite.body, ListSite.member]
  obtain ⟨⟨_, hparams⟩, _⟩ := h.listAt
  have hother : Passed (s.inner ++ (s.call ++ '(' :: (other ++ [')']))) :=
    h.passed (hparams.not_mem (by decide) (by decide) (by decide))
      (hparams.not_mem (by decide) (by decide) (by decide))
  have htail : body? (s.tail ++ '}' :: s.behind) = some (s.tail, s.behind) := by
    have hcloses := h.closes
    rw [htext, hother _ (by simp), Option.map_eq_some_iff] at hcloses
    obtain ⟨m, hm, heq⟩ := hcloses
    obtain ⟨hfirst, hsecond⟩ := Prod.mk.inj heq
    rw [hbody] at hfirst
    rw [hm, ← List.append_cancel_left hfirst, ← hsecond]
  rw [htext, h.passed hbrace hslash _ (by simp), htail, hbody]
  rfl

/-- **With a list that has a parameter of the type `anyof<Set>` the text stops at the member.** -/
theorem stuckAt (h : s.Declares other file) (hlist : LooseList args pairs)
    (hany : ∃ pair ∈ pairs, ∃ set, AnyOfToken pair.1 set) :
    SourceFile.StuckAt (s.text args).toList (s.member args) := by
  obtain ⟨before, i, after, members, hfile, hmembers, hbefore, hinner⟩ := h.parts
  obtain ⟨name, hhead⟩ := h.opens
  have hcall : CallsWith (s.member args) args := h.callsWith args
  have hstop : NoMember (s.member args) := ⟨hcall.headTo.1, hcall.read_eq_none hlist hany⟩
  -- The head of the block stays what it is, and the block ends at its brace.
  obtain ⟨p, hp, hstable⟩ := interfaceHead_stable hhead
  obtain rfl := List.append_cancel_right hp
  have hblock : interface.Reads (s.block args) { name := name, body := s.body args }
      (afterOptionalSemicolon (afterBlanks s.behind)) := by
    refine Option.bind_eq_some_iff.mpr ⟨_, interfaceHead?_eq_some_iff.mpr (hstable _), ?_⟩
    exact Option.map_eq_some_iff.mpr
      ⟨_, h.closes_of (hlist.not_mem (by decide) (by decide +kernel))
        (hlist.not_mem (by decide) (by decide +kernel)), rfl⟩
  -- What stands before the block and before the member is tiled up to there.
  have hblockStart : ItemStart (s.block args) := by
    obtain ⟨tail, htail⟩ := interface_start hblock
    exact ⟨'i', tail, htail, by decide, by decide, by decide⟩
  obtain ⟨headers, hgap, _, htiled⟩ :=
    hbefore.tiled laid_decl (fun hread => hread.blockEnd) hblockStart
  obtain ⟨delegates, interfaces, hheaders, hdelegates, hinterfaces⟩ := tiled_decls_iff.mp htiled
  have hinterfaces : Tiled Interface.Reads interfaces before (s.block args) := by
    refine hinterfaces.mono fun hread => ?_
    obtain ⟨behind, hstands, hend⟩ := hread
    exact Interface.reads_iff.mpr ⟨behind, (Interface.block_iff.mp hstands).1, hend⟩
  obtain ⟨first, hbodyGap, _, hinnerTiled⟩ :=
    hinner.tiled laid_member (fun hread hgap _ => ⟨_, hread, hgap⟩) hstop.1.itemStart
  -- None of their parameters is `void`, since they are those of an accepted text.
  have hvoid := (SourceFile.tiles_of_ofText h.read).2
  rw [SourceFile.forall_mem_params_iff, hfile, List.forall_mem_append,
    List.forall_mem_cons] at hvoid
  obtain ⟨hdelegatesVoid, hbeforeVoid, hblockVoid, _⟩ := hvoid
  rw [ListSite.text, String.toList_ofList]
  exact ⟨{ file with interfaces := before }, headers, delegates, interfaces, s.block args, hgap,
    hheaders, hdelegates, hinterfaces,
    SourceFile.forall_mem_params_iff.mpr ⟨hdelegatesVoid, hbeforeVoid⟩,
    _, _, first, members, hblock, hbodyGap, hinnerTiled,
    fun m hm => hblockVoid m (hmembers.subset hm), hstop⟩

/-- **What becomes of a parameter of the type `anyof<Set>`**, put into an accepted text. The text is
refused for the member, whatever white space the token holds: no statement begins there. The list by
itself is refused for the type, provided that the token holds no white space. -/
theorem outcome_anyOf {type name set : List Char} {before after : List (List Char × List Char)}
    (h : s.Declares other file) (hlist : LooseList args (before ++ (type, name) :: after))
    (htoken : AnyOfToken type set) (hothers : ∀ pair ∈ before ++ after, PlainType pair.1) :
    SourceFile.ofText (s.text args) = .error (.noStatementAt (s.member args)) ∧
      AnyOfLaw args type name := by
  have hmem : (type, name) ∈ before ++ (type, name) :: after :=
    List.mem_append_right _ List.mem_cons_self
  have hstuck := h.stuckAt hlist ⟨_, hmem, set, htoken⟩
  exact ⟨ofText_eq_error_of_stuckAt hstuck, hlist.anyOfLaw htoken hothers⟩

end ListSite.Declares

/-- The list of a method `f`. -/
def siteOfF : ListSite where
  before := []
  head := "interface A \x7b".toList
  inner := [' ']
  call := "void f".toList
  tail := "; ".toList
  behind := []

/-- The class with this method, which takes a number. -/
def fileOfF : SourceFile where
  headers := []
  delegates := []
  interfaces := [{
    name := "A"
    members := [.method {
      result := .void, name := "f", params := [⟨.primitive .int, "x", 0⟩], nameAsIs := false }] }]

theorem siteOfF_declares : siteOfF.Declares "int x".toList fileOfF where
  read := by decide +kernel
  parts := ⟨[], _, [], [], rfl, List.nil_prefix, .last rfl, .blank (by decide) (.last rfl)⟩
  opens := by
    have htext : siteOfF.block "int x".toList = "interface".toList ++ [' '] ++ ['A'] ++ [' '] ++
        '\x7b' :: (siteOfF.body "int x".toList ++ '\x7d' :: siteOfF.behind) := by
      decide
    rw [htext]
    exact ⟨['A'], .mk (by decide) (by decide) (by decide) (by decide) (by decide)⟩
  closes := by decide +kernel
  paren := by decide
  kind := by
    have hread : method.read (siteOfF.member "int x".toList) = some
        ({ nameAsIs := false, result := "void".toList, name := ['f'], args := "int x".toList },
          [' ']) := by
      decide +kernel
    exact Or.inr ⟨_, _, hread, rfl⟩

theorem anyOfToken_S : AnyOfToken "anyof<S>".toList ['S'] := by
  have htoken : "anyof<S>".toList = "anyof<".toList ++ ([] ++ ['S'] ++ []) ++ ['>'] := by decide
  rw [htoken]
  exact .mk allIn_nil (by decide) (by decide) allIn_nil

theorem looseList_anyOf :
    LooseList "anyof<S> x".toList ([] ++ ("anyof<S>".toList, ['x']) :: []) := by
  have hpiece : "anyof<S> x".toList = [] ++ "anyof<S>".toList ++ [' '] ++ ['x'] ++ [] := by decide
  rw [hpiece]
  exact .last (.anyOf allIn_nil anyOfToken_S (by decide) (by decide) (by decide) (by decide)
    allIn_nil)

/-- With `anyof<S> x` for `int x` the text is refused for the member, and the list for its type. -/
theorem outcome_anyOf_siteOfF :
    SourceFile.ofText (siteOfF.text "int x".toList) = .ok fileOfF ∧
      SourceFile.ofText (siteOfF.text "anyof<S> x".toList) =
        .error (.noStatementAt (siteOfF.member "anyof<S> x".toList)) ∧
      AnyOfLaw "anyof<S> x".toList "anyof<S>".toList ['x'] :=
  ⟨siteOfF_declares.read,
    siteOfF_declares.outcome_anyOf looseList_anyOf anyOfToken_S (List.forall_mem_nil _)⟩

/-- The text is not refused for the type, and with white space in the brackets neither is the
list. -/
theorem not_unsupportedType_anyOf :
    (∀ type position, SourceFile.ofText "interface A \x7b void f(anyof<S> x); \x7d" ≠
      .error (.unsupportedType type position)) ∧
    Param.listOfText "anyof< S > x".toList = .ok [⟨.object "anyof<", "S", 0⟩] := by
  have hread : SourceFile.ofText "interface A \x7b void f(anyof<S> x); \x7d" =
      .error (.noStatement "void f(anyof<S> x);") := by
    decide +kernel
  refine ⟨fun type position h => ?_, by decide +kernel⟩
  cases hread.symm.trans h

end IdlGlue
