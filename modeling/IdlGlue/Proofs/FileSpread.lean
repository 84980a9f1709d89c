/-
# IdlGlue.Proofs.FileSpread -- source files, part by part

A source file is its declarations, spread over the text (`Decl.Stands`), where

* a block that a semicolon follows ends with it, and
* a block without one ends directly with its brace, so that the white space behind it is
  a gap like any other.

`Interface.Block` is a block that ends at a brace outside comments. Its body is whole
comments, white space and members, and nothing in it depends on what stands behind the
brace; the other blocks, whose only brace left is inside a comment, end the file.

`SourceFile.ofText_eq_ok_iff_spread` says that these are the texts that are accepted, and
`SourceFile.closedTiles_iff_spread` which of them close every block outside comments.
-/
import IdlGlue.Proofs.InterfaceBlock
import IdlGlue.Proofs.Spread
import IdlGlue.Proofs.Stable

namespace IdlGlue.Scan

open IdlGlue.Text

/-! ## The first brace behind a part -/

section Brace

variable {cs mid rest rest' w p behind : List Char} {c : Char}

theorem FirstBrace.functional (h : FirstBrace cs rest) (h' : FirstBrace cs rest') :
    rest = rest' := by
  obtain ⟨before, hbefore⟩ := h.body?_eq
  obtain ⟨before', hbefore'⟩ := h'.body?_eq
  rw [hbefore] at hbefore'
  exact (Prod.mk.inj (Option.some.inj hbefore')).2

theorem FirstBrace.length_lt (h : FirstBrace cs rest) : rest.length < cs.length := by
  obtain ⟨before, hbefore⟩ := h.body?_eq
  rw [body?_append hbefore, List.length_append, List.length_cons]
  omega

theorem firstBrace_comment_iff (h : Comment cs mid) : FirstBrace cs rest ↔ FirstBrace mid rest := by
  constructor
  · intro hbrace
    cases hbrace with
    | brace =>
        obtain ⟨tail, htail⟩ := h.head
        cases htail
    | comment h' hmid =>
        rw [h.functional h']
        exact hmid
    | other _ hno _ => exact absurd h (hno mid)
  · exact .comment h

theorem firstBrace_cons_iff (hc : c ≠ '}') (hslash : c ≠ '/') :
    FirstBrace (c :: cs) rest ↔ FirstBrace cs rest := by
  have hno : ∀ mid, ¬ Comment (c :: cs) mid := by
    intro mid hcomment
    obtain ⟨tail, htail⟩ := hcomment.head
    cases htail
    exact hslash rfl
  constructor
  · intro hbrace
    cases hbrace with
    | brace => exact absurd rfl hc
    | comment hcomment _ => exact absurd hcomment (hno _)
    | other _ _ hrest => exact hrest
  · exact .other hc hno

theorem firstBrace_blank_iff (hc : isBlank c = true) :
    FirstBrace (c :: cs) rest ↔ FirstBrace cs rest := by
  apply firstBrace_cons_iff
  · rintro rfl
    exact absurd hc (by decide)
  · rintro rfl
    exact absurd hc (by decide)

theorem firstBrace_append_iff (hp : '}' ∉ p) (hslash : '/' ∉ p) :
    FirstBrace (p ++ cs) rest ↔ FirstBrace cs rest := by
  induction p with
  | nil => exact Iff.rfl
  | cons c p ih =>
      obtain ⟨hc, hp⟩ := not_or.mp (mt List.mem_cons.mpr hp)
      obtain ⟨hc', hslash⟩ := not_or.mp (mt List.mem_cons.mpr hslash)
      rw [List.cons_append, firstBrace_cons_iff (Ne.symm hc) (Ne.symm hc')]
      exact ih hp hslash

theorem firstBrace_wholeComment_iff (hw : WholeComment w) :
    FirstBrace (w ++ cs) rest ↔ FirstBrace cs rest := by
  cases hw with
  | @line x hx =>
      have hcomment : Comment ('/' :: '/' :: (x ++ '\n' :: cs)) ('\n' :: cs) := .line hx (by simp)
      have htext : '/' :: '/' :: (x ++ ['\n']) ++ cs = '/' :: '/' :: (x ++ '\n' :: cs) := by simp
      rw [htext, firstBrace_comment_iff hcomment, firstBrace_cons_iff (by decide) (by decide)]
  | @block x hx =>
      have hcomment : Comment ('/' :: '*' :: (x ++ '*' :: '/' :: cs)) cs := .block hx
      have htext : '/' :: '*' :: (x ++ ['*', '/']) ++ cs =
          '/' :: '*' :: (x ++ '*' :: '/' :: cs) := by simp
      rw [htext, firstBrace_comment_iff hcomment]

/-- A line comment goes on behind a brace inside. -/
theorem comment_of_line {x : List Char} (hx : '\n' ∉ x) :
    Comment ('/' :: '/' :: (x ++ '}' :: behind)) (behind.dropWhile (· != '\n')) := by
  have hcomment : Comment ('/' :: '/' :: ((x ++ '}' :: behind.takeWhile (· != '\n')) ++
      behind.dropWhile (· != '\n'))) (behind.dropWhile (· != '\n')) := by
    refine .line ?_ ?_
    · intro hmem
      rcases List.mem_append.mp hmem with hmem | hmem
      · exact hx hmem
      · rcases List.mem_cons.mp hmem with heq | hmem
        · cases heq
        · simpa using List.mem_takeWhile_imp hmem
    · intro c hc
      have := List.head?_dropWhile_not (· != '\n') behind
      rw [Option.mem_def.mp hc] at this
      simpa using this
  have htext : (x ++ '}' :: behind.takeWhile (· != '\n')) ++ behind.dropWhile (· != '\n') =
      x ++ '}' :: behind := by simp
  rwa [htext] at hcomment

/-- A brace on the line of a line comment is not the first one outside comments. -/
theorem not_firstBrace_line {x : List Char} (hx : '\n' ∉ x) :
    ¬ FirstBrace ('/' :: '/' :: (x ++ '}' :: behind)) behind := by
  intro hbrace
  -- The comment goes on behind the brace, and so does the scan.
  have hlt := ((firstBrace_comment_iff (comment_of_line hx)).mp hbrace).length_lt
  have hle := (List.dropWhile_suffix (l := behind) (· != '\n')).length_le
  omega

end Brace

end IdlGlue.Scan

namespace IdlGlue

open IdlGlue.Text IdlGlue.Scan IdlGlue.Statement

/-! ## Members and bodies -/

theorem NameStart.itemStart {cs : List Char} (h : NameStart cs) : ItemStart cs := by
  obtain ⟨c, tail, rfl, hc⟩ := h
  refine ⟨c, tail, rfl, isBlank_eq_false_of_isNamePart hc, ?_, ?_⟩
  · rintro rfl
    exact absurd hc (by decide)
  · rintro rfl
    exact absurd hc (by decide)

theorem starts_member : Starts Member.Reads := by
  intro cs m rest h
  obtain ⟨s, hread⟩ := h.statement
  exact (member_start hread).itemStart

theorem laid_member : Laid Member.Reads where
  starts := starts_member
  ends h h' := by
    obtain ⟨s, hread⟩ := h.statement
    obtain ⟨s', hread'⟩ := h'.statement
    exact member.ends hread hread'
  stable h := by
    obtain ⟨p, hp, hstable⟩ := h.stable
    exact ⟨p, hp, fun rest' _ => hstable rest'⟩

/-- A body ends where its last part does. -/
def BodyEnd (cs : List Char) : Prop := cs = []

theorem BodyEnd.fileEnd (cs : List Char) (h : BodyEnd cs) : FileEnd cs := by
  rw [BodyEnd] at h
  subst h
  exact .empty

theorem Member.Reads.not_mem {p rest : List Char} {m : Member} {c : Char}
    (h : Member.Reads (p ++ rest) m rest) (hc : isInside c = false) (hne : c ≠ ';') : c ∉ p := by
  obtain ⟨s, hread⟩ := h.statement
  exact member_no_stop hc hne hread

/-- A member has no brace in it and begins no comment. -/
theorem firstBrace_member_iff {p rest cs behind : List Char} {m : Member}
    (h : Member.Reads (p ++ rest) m rest) : FirstBrace (p ++ cs) behind ↔ FirstBrace cs behind :=
  firstBrace_append_iff (h.not_mem (by decide) (by decide)) (h.not_mem (by decide) (by decide))

section Body

variable {body behind : List Char} {members : List Member}

/-- No brace in a body of whole parts is outside comments. -/
theorem firstBrace_spread_iff {cs rest : List Char} (h : Spread Member.Reads BodyEnd body members) :
    FirstBrace (body ++ cs) rest ↔ FirstBrace cs rest := by
  induction h with
  | last hend =>
      rw [BodyEnd] at hend
      subst hend
      exact Iff.rfl
  | blank hc _ ih =>
      rw [List.cons_append, firstBrace_blank_iff hc]
      exact ih
  | comment hw _ ih =>
      rw [List.append_assoc, firstBrace_wholeComment_iff hw]
      exact ih
  | item hread _ ih =>
      obtain ⟨p, rfl, _⟩ := hread.stable
      rw [List.append_assoc, firstBrace_member_iff hread]
      exact ih

/-- The brace behind a body of whole parts is the first one outside comments. -/
theorem firstBrace_of_spread (h : Spread Member.Reads BodyEnd body members) :
    FirstBrace (body ++ '}' :: behind) behind := (firstBrace_spread_iff h).mpr (.brace behind)

/-- Where the brace is the first one outside comments, the body does not end inside one. -/
theorem spread_of_firstBrace (h : Spread Member.Reads FileEnd body members)
    (hbrace : FirstBrace (body ++ '}' :: behind) behind) :
    Spread Member.Reads BodyEnd body members := by
  induction h with
  | last hend =>
      cases hend with
      | empty => exact .last rfl
      | line hx => exact absurd hbrace (not_firstBrace_line hx)
  | blank hc _ ih =>
      rw [List.cons_append, firstBrace_blank_iff hc] at hbrace
      exact .blank hc (ih hbrace)
  | comment hw _ ih =>
      rw [List.append_assoc, firstBrace_wholeComment_iff hw] at hbrace
      exact .comment hw (ih hbrace)
  | item hread _ ih =>
      obtain ⟨p, rfl, _⟩ := hread.stable
      rw [List.append_assoc, firstBrace_member_iff hread] at hbrace
      exact .item hread (ih hbrace)

theorem spread_member_iff :
    Spread Member.Reads FileEnd body members ↔
      ∃ first, Gap body first ∧ Tiled Member.Reads first members [] := by
  have hsettled : ∀ {cs m rest}, Member.Reads cs m rest → Settled cs :=
    fun h => starts_member.settled h
  exact spread_iff_tiled starts_member (fun hread hrest => .item hread hrest)
    (fun hread hgap _ => ⟨_, hread, hgap⟩) hsettled

end Body

/-! ## Blocks -/

/-- Behind its head the block has a closing brace outside comments. -/
def ClosesOutsideComments (cs : List Char) : Prop :=
  ∃ name inner behind, InterfaceHead cs name inner ∧ FirstBrace inner behind

/-- A block stands at the start of the text and declares `i`; `behind` is what follows its
closing brace directly. -/
def Interface.Opens (cs : List Char) (i : Interface) (behind : List Char) : Prop :=
  ∃ name inner body, InterfaceHead cs name inner ∧ body? inner = some (body, behind) ∧
    i.name = String.ofList name ∧ Spread Member.Reads FileEnd body i.members

/-- The same, where the body is whole parts up to the closing brace. -/
def Interface.Block (cs : List Char) (i : Interface) (behind : List Char) : Prop :=
  ∃ name body, InterfaceHead cs name (body ++ '}' :: behind) ∧ i.name = String.ofList name ∧
    Spread Member.Reads BodyEnd body i.members

section Blocks

variable {cs name inner behind behind' rest : List Char} {i j : Interface}

theorem interfaceHead_functional {name' inner' : List Char} (h : InterfaceHead cs name inner)
    (h' : InterfaceHead cs name' inner') : name = name' ∧ inner = inner' := by
  have heq := interfaceHead?_eq_some_iff.mpr h
  rw [interfaceHead?_eq_some_iff.mpr h'] at heq
  exact ⟨(Prod.mk.inj (Option.some.inj heq)).1.symm, (Prod.mk.inj (Option.some.inj heq)).2.symm⟩

theorem interfaceHead_stable (h : InterfaceHead cs name inner) :
    ∃ p, cs = p ++ inner ∧ ∀ inner', InterfaceHead (p ++ inner') name inner' := by
  cases h with
  | @mk space name blanks inner hspaceNe hspace hnameNe hname hblanks =>
      refine ⟨"interface".toList ++ space ++ name ++ blanks ++ ['{'], by simp, ?_⟩
      intro inner'
      have hhead : InterfaceHead ("interface".toList ++ space ++ name ++ blanks ++ '{' :: inner')
          name inner' := .mk hspaceNe hspace hnameNe hname hblanks
      simpa using hhead

theorem interfaceHead_start (h : InterfaceHead cs name inner) : ∃ tail, cs = 'i' :: tail := by
  cases h with
  | mk => exact ⟨_, rfl⟩

/-- A block closes outside comments exactly when its body is whole parts. -/
theorem Interface.block_iff :
    Interface.Block cs i behind ↔ Interface.Opens cs i behind ∧ ClosesOutsideComments cs := by
  constructor
  · rintro ⟨name, body, hhead, hname, hbody⟩
    have hbrace : FirstBrace (body ++ '}' :: behind) behind := firstBrace_of_spread hbody
    -- The scan cuts the text where the body ends.
    obtain ⟨before, hbefore⟩ := hbrace.body?_eq
    obtain rfl := List.append_cancel_right (body?_append hbefore)
    exact ⟨⟨name, _, body, hhead, hbefore, hname, hbody.mono id BodyEnd.fileEnd⟩,
      name, _, behind, hhead, hbrace⟩
  · rintro ⟨⟨name, inner, body, hhead, hbody, hname, hmembers⟩, name', inner', behind', hhead',
      hbrace⟩
    obtain ⟨_, rfl⟩ := interfaceHead_functional hhead hhead'
    obtain ⟨before, hbefore⟩ := hbrace.body?_eq
    rw [hbody] at hbefore
    cases hbefore
    obtain rfl := body?_append hbody
    exact ⟨name, body, hhead, hname, spread_of_firstBrace hmembers hbrace⟩

theorem Interface.reads_iff :
    Interface.Reads cs i rest ↔ ∃ behind, Interface.Opens cs i behind ∧ BlockEnd behind rest := by
  constructor
  · rintro ⟨s, hread, hname, hmembers⟩
    obtain ⟨⟨name, inner⟩, hhead, hread⟩ := Option.bind_eq_some_iff.mp hread
    obtain ⟨⟨body, behind⟩, hbody, heq⟩ := Option.map_eq_some_iff.mp hread
    cases heq
    exact ⟨behind, ⟨name, inner, body, interfaceHead?_eq_some_iff.mp hhead, hbody, hname,
      spread_member_iff.mpr hmembers⟩, blockEnd_iff.mpr rfl⟩
  · rintro ⟨behind, ⟨name, inner, body, hhead, hbody, hname, hmembers⟩, hend⟩
    obtain rfl := blockEnd_iff.mp hend
    refine ⟨{ name := name, body := body }, ?_, hname, spread_member_iff.mp hmembers⟩
    refine Option.bind_eq_some_iff.mpr ⟨_, interfaceHead?_eq_some_iff.mpr hhead, ?_⟩
    exact Option.map_eq_some_iff.mpr ⟨_, hbody, rfl⟩

/-- Two blocks at one place end with the same brace. -/
theorem Interface.Block.ends (h : Interface.Block cs i behind) (h' : Interface.Block cs j behind') :
    behind = behind' := by
  obtain ⟨name, body, hhead, _, hbody⟩ := h
  obtain ⟨name', body', hhead', _, hbody'⟩ := h'
  obtain ⟨_, hinner⟩ := interfaceHead_functional hhead hhead'
  have hbrace : FirstBrace (body ++ '}' :: behind) behind := firstBrace_of_spread hbody
  rw [hinner] at hbrace
  exact hbrace.functional (firstBrace_of_spread hbody')

/-- Anything may stand behind the brace of a block. -/
theorem Interface.Block.stable (h : Interface.Block cs i behind) :
    ∃ p, cs = p ++ behind ∧ ∀ behind', Interface.Block (p ++ behind') i behind' := by
  obtain ⟨name, body, hhead, hname, hbody⟩ := h
  obtain ⟨p, rfl, hstable⟩ := interfaceHead_stable hhead
  refine ⟨p ++ (body ++ ['}']), by simp, ?_⟩
  intro behind'
  refine ⟨name, body, ?_, hname, hbody⟩
  simpa using hstable (body ++ '}' :: behind')

end Blocks

/-! ## Declarations -/

/-- A declaration of a source file. -/
inductive Decl where
  | header (line : String)
  | delegate (d : Delegate)
  | interface (i : Interface)

/-- The declarations of the file, in its order. -/
def SourceFile.decls (file : SourceFile) : List Decl :=
  file.headers.map .header ++ (file.delegates.map .delegate ++ file.interfaces.map .interface)

/-- The character with which a declaration begins. -/
def Decl.mark : Decl → Char
  | .header _ => '#'
  | .delegate _ => 'd'
  | .interface _ => 'i'

/-- What a block takes behind its brace to end there: a semicolon, with white space before
it, or nothing where no semicolon follows. -/
inductive BlockTail : List Char → List Char → Prop
  | semicolon {space rest : List Char} : AllIn isBlank space →
      BlockTail (space ++ ';' :: rest) rest
  | bare {rest : List Char} : NoSemicolon rest → BlockTail rest rest

/-- A declaration stands at the start of the text. `B` says which blocks there are, up to
their brace, and `T` what belongs to them behind it. -/
inductive Decl.Stands (B : List Char → Interface → List Char → Prop)
    (T : List Char → List Char → Prop) : List Char → Decl → List Char → Prop
  | header {cs rest : List Char} {line : String} : HeaderReads cs line rest →
      Stands B T cs (.header line) rest
  | delegate {cs rest : List Char} {d : Delegate} : Delegate.Reads cs d rest →
      Stands B T cs (.delegate d) rest
  | interface {cs behind rest : List Char} {i : Interface} : B cs i behind → T behind rest →
      Stands B T cs (.interface i) rest

theorem BlockTail.functional {behind rest rest' : List Char} (h : BlockTail behind rest)
    (h' : BlockTail behind rest') : rest = rest' := by
  have hsemicolon : ∀ {space : List Char} (tail : List Char), AllIn isBlank space →
      afterBlanks (space ++ ';' :: tail) = ';' :: tail := by
    intro space tail hspace
    rw [afterBlanks_append hspace, afterBlanks_of_stopsAt (stopsAt_cons.mpr (by decide))]
  generalize hbehind : behind = text at h'
  cases h with
  | semicolon hspace =>
      cases h' with
      | semicolon hspace' =>
          have hskip := hsemicolon rest hspace
          rw [hbehind, hsemicolon rest' hspace'] at hskip
          exact (List.cons.inj hskip).2.symm
      | bare hno =>
          rw [← hbehind, NoSemicolon, hsemicolon rest hspace] at hno
          exact absurd rfl hno
  | bare hno =>
      cases h' with
      | semicolon hspace' =>
          rw [hbehind, NoSemicolon, hsemicolon rest' hspace'] at hno
          exact absurd rfl hno
      | bare _ => exact hbehind

/-- Before a gap a block without a semicolon may also be taken to end with the white space behind
its brace. -/
theorem Decl.Stands.blockEnd {B : List Char → Interface → List Char → Prop}
    {cs rest first : List Char} {d : Decl} (h : Decl.Stands B BlockTail cs d rest)
    (hgap : Gap rest first) (hfirst : Settled first) :
    ∃ behind, Decl.Stands B BlockEnd cs d behind ∧ Gap behind first := by
  cases h with
  | header hread => exact ⟨rest, .header hread, hgap⟩
  | delegate hread => exact ⟨rest, .delegate hread, hgap⟩
  | interface hblock htail =>
      cases htail with
      | semicolon hspace => exact ⟨rest, .interface hblock (.semicolon hspace), hgap⟩
      | bare hno =>
          -- The block takes the white space that opens the gap.
          refine ⟨afterBlanks rest, .interface hblock (blockEnd_iff.mpr ?_),
            hgap.behind_blanks hfirst⟩
          rw [NoSemicolon] at hno
          unfold afterOptionalSemicolon
          split
          · next heq =>
              rw [heq] at hno
              exact absurd rfl hno
          · rfl

/-- Declarations in their order are one section after the other. -/
theorem tiled_decls_iff {B : List Char → Interface → List Char → Prop} {cs rest : List Char}
    {file : SourceFile} :
    Tiled (Decl.Stands B BlockEnd) cs file.decls rest ↔
      ∃ delegates interfaces, Tiled HeaderReads cs file.headers delegates ∧
        Tiled Delegate.Reads delegates file.delegates interfaces ∧
        Tiled (fun cs i rest => ∃ behind, B cs i behind ∧ BlockEnd behind rest)
          interfaces file.interfaces rest := by
  have hheader : ∀ cs line rest,
      Decl.Stands B BlockEnd cs (.header line) rest ↔ HeaderReads cs line rest :=
    fun cs line rest => ⟨fun h => by cases h; assumption, .header⟩
  have hdelegate : ∀ cs d rest,
      Decl.Stands B BlockEnd cs (.delegate d) rest ↔ Delegate.Reads cs d rest :=
    fun cs d rest => ⟨fun h => by cases h; assumption, .delegate⟩
  have hinterface : ∀ cs i rest, Decl.Stands B BlockEnd cs (.interface i) rest ↔
      ∃ behind, B cs i behind ∧ BlockEnd behind rest := by
    intro cs i rest
    constructor
    · intro h
      cases h with
      | interface hblock hend => exact ⟨_, hblock, hend⟩
    · rintro ⟨behind, hblock, hend⟩
      exact .interface hblock hend
  simp only [SourceFile.decls, tiled_append_iff, tiled_map_iff, hheader, hdelegate, hinterface,
    exists_and_left]

section Decls

variable {B : List Char → Interface → List Char → Prop} {T : List Char → List Char → Prop}
  {cs : List Char} (hB : ∀ {cs i behind}, B cs i behind → ∃ tail, cs = 'i' :: tail)

include hB

theorem Decl.Stands.head? {d : Decl} {rest : List Char} (h : Decl.Stands B T cs d rest) :
    ∃ tail, cs = d.mark :: tail := by
  cases h with
  | header hread => exact header_start hread.1
  | delegate hread =>
      obtain ⟨s, hread, _⟩ := hread
      exact delegate_start hread
  | interface hblock _ => exact hB hblock

theorem starts_decl : Starts (Decl.Stands B T) := by
  intro cs d rest h
  obtain ⟨tail, rfl⟩ := h.head? hB
  refine ⟨d.mark, tail, rfl, ?_⟩
  cases d with
  | header => exact (by decide : isBlank '#' = false ∧ '#' ≠ '/' ∧ '#' ≠ ';')
  | delegate => exact (by decide : isBlank 'd' = false ∧ 'd' ≠ '/' ∧ 'd' ≠ ';')
  | interface => exact (by decide : isBlank 'i' = false ∧ 'i' ≠ '/' ∧ 'i' ≠ ';')

/-- The white space behind a block without a semicolon is given to the block in a tiling, and
to the gap behind it in a spread text. -/
theorem spread_decl_iff {ds : List Decl} :
    Spread (Decl.Stands B BlockTail) FileEnd cs ds ↔
      ∃ first, Gap cs first ∧ Tiled (Decl.Stands B BlockEnd) first ds [] := by
  refine spread_iff_tiled (starts_decl hB) ?_ (fun hread => hread.blockEnd)
    fun h => (starts_decl hB).settled h
  intro cs d rest ds hread hrest
  cases hread with
  | header hread => exact .item (.header hread) hrest
  | delegate hread => exact .item (.delegate hread) hrest
  | interface hblock hend =>
      cases hend with
      | semicolon hspace => exact .item (.interface hblock (.semicolon hspace)) hrest
      | @bare space _ hspace hstop hhead =>
          -- The block ends at its brace now, and the white space opens the gap.
          have hskip : afterBlanks (space ++ rest) = rest := by
            rw [afterBlanks_append hspace, afterBlanks_of_stopsAt hstop]
          have hgap := gap_afterBlanks (space ++ rest)
          rw [hskip] at hgap
          have hno : NoSemicolon (space ++ rest) := by
            rw [NoSemicolon, hskip]
            exact hhead
          exact .item (.interface hblock (.bare hno)) (.of_gap (starts_decl hB) hgap hrest)

/-- The sections of a file, one behind the other, are its declarations. -/
theorem sections_iff_spread {file : SourceFile} :
    (∃ headers delegates interfaces, Gap cs headers ∧
      Tiled HeaderReads headers file.headers delegates ∧
      Tiled Delegate.Reads delegates file.delegates interfaces ∧
      Tiled (fun cs i rest => ∃ behind, B cs i behind ∧ BlockEnd behind rest)
        interfaces file.interfaces []) ↔
      Spread (Decl.Stands B BlockTail) FileEnd cs file.decls := by
  simp only [spread_decl_iff hB, tiled_decls_iff]
  constructor
  · rintro ⟨headers, delegates, interfaces, hgap, hsections⟩
    exact ⟨headers, hgap, delegates, interfaces, hsections⟩
  · rintro ⟨headers, hgap, delegates, interfaces, hsections⟩
    exact ⟨headers, delegates, interfaces, hgap, hsections⟩

end Decls

theorem Interface.Opens.start {cs behind : List Char} {i : Interface}
    (h : Interface.Opens cs i behind) : ∃ tail, cs = 'i' :: tail := by
  obtain ⟨name, inner, body, hhead, _⟩ := h
  exact interfaceHead_start hhead

theorem Interface.Block.start {cs behind : List Char} {i : Interface}
    (h : Interface.Block cs i behind) : ∃ tail, cs = 'i' :: tail :=
  (Interface.block_iff.mp h).1.start

theorem Decl.Stands.opens {T : List Char → List Char → Prop} {cs rest : List Char} {d : Decl}
    (h : Decl.Stands Interface.Block T cs d rest) : Decl.Stands Interface.Opens T cs d rest := by
  cases h with
  | header hread => exact .header hread
  | delegate hread => exact .delegate hread
  | interface hblock htail => exact .interface (Interface.block_iff.mp hblock).1 htail

/-- Declarations whose blocks close outside comments do not depend on what stands behind. -/
theorem laid_decl : Laid (Decl.Stands Interface.Block BlockTail) where
  starts := starts_decl Interface.Block.start
  ends h h' := by
    obtain ⟨tail, hcs⟩ := h.head? Interface.Block.start
    obtain ⟨tail', hcs'⟩ := h'.head? Interface.Block.start
    rw [hcs] at hcs'
    have hmark := (List.cons.inj hcs').1
    -- The kinds begin with different characters, so both are of the same one.
    cases h with
    | header hread =>
        cases h' with
        | header hread' => exact header.ends hread.1 hread'.1
        | delegate => exact absurd hmark (by simp [Decl.mark])
        | interface => exact absurd hmark (by simp [Decl.mark])
    | delegate hread =>
        cases h' with
        | header => exact absurd hmark (by simp [Decl.mark])
        | delegate hread' =>
            obtain ⟨s, hread, _⟩ := hread
            obtain ⟨s', hread', _⟩ := hread'
            exact delegate.ends hread hread'
        | interface => exact absurd hmark (by simp [Decl.mark])
    | interface hblock htail =>
        cases h' with
        | header => exact absurd hmark (by simp [Decl.mark])
        | delegate => exact absurd hmark (by simp [Decl.mark])
        | interface hblock' htail' =>
            obtain rfl := hblock.ends hblock'
            exact htail.functional htail'
  stable h := by
    cases h with
    | header hread => exact ⟨_, hread.2, fun rest' _ => .header (hread.stable rest')⟩
    | delegate hread =>
        obtain ⟨p, hp, hstable⟩ := hread.stable
        exact ⟨p, hp, fun rest' _ => .delegate (hstable rest')⟩
    | interface hblock htail =>
        obtain ⟨p, rfl, hstable⟩ := hblock.stable
        cases htail with
        | @semicolon space rest hspace =>
            refine ⟨p ++ (space ++ [';']), by simp, fun rest' _ => ?_⟩
            have hblock' := hstable (space ++ ';' :: rest')
            rw [List.append_assoc, List.append_assoc]
            exact .interface hblock' (.semicolon hspace)
        | bare _ => exact ⟨p, rfl, fun rest' hno => .interface (hstable rest') (.bare hno)⟩

/-! ## Whole texts -/

/-- The text is a source file that declares `file`, and every block closes outside comments. -/
def SourceFile.ClosedTiles (cs : List Char) (file : SourceFile) : Prop :=
  ∃ headers delegates interfaces, Gap cs headers ∧
    Tiled HeaderReads headers file.headers delegates ∧
    Tiled Delegate.Reads delegates file.delegates interfaces ∧
    Tiled (fun cs i rest => Interface.Reads cs i rest ∧ ClosesOutsideComments cs)
      interfaces file.interfaces []

/-- The texts that close every block outside comments, part by part. -/
theorem SourceFile.closedTiles_iff_spread {cs : List Char} {file : SourceFile} :
    SourceFile.ClosedTiles cs file ↔
      Spread (Decl.Stands Interface.Block BlockTail) FileEnd cs file.decls := by
  have hblock : ∀ cs i rest, Interface.Reads cs i rest ∧ ClosesOutsideComments cs ↔
      ∃ behind, Interface.Block cs i behind ∧ BlockEnd behind rest := by
    intro cs i rest
    simp only [Interface.reads_iff, Interface.block_iff]
    constructor
    · rintro ⟨⟨behind, hopens, hend⟩, hcloses⟩
      exact ⟨behind, ⟨hopens, hcloses⟩, hend⟩
    · rintro ⟨behind, ⟨hopens, hcloses⟩, hend⟩
      exact ⟨⟨behind, hopens, hend⟩, hcloses⟩
  rw [← sections_iff_spread Interface.Block.start, SourceFile.ClosedTiles]
  simp only [hblock]

/-- **A text is accepted exactly when it is declarations, spread over the text, and no
parameter is `void`.** -/
theorem SourceFile.ofText_eq_ok_iff_spread {text : String} {file : SourceFile} :
    SourceFile.ofText text = .ok file ↔
      Spread (Decl.Stands Interface.Opens BlockTail) FileEnd text.toList file.decls ∧
        ∀ p ∈ file.params, p.type ≠ .void := by
  rw [← sections_iff_spread Interface.Opens.start]
  simp only [← Interface.reads_iff]
  exact ⟨SourceFile.tiles_of_ofText, fun h => SourceFile.Tiles.ofText h.1 h.2⟩

end IdlGlue
