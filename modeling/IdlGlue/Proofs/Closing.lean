/-
# IdlGlue.Proofs.Closing -- which brace closes a block

The body of a block is to reach to the first closing brace outside comments. The scan gives up a
comment where no closing brace is left behind it, and so it may close a block inside one. It is told
here where that comes to an accepted text:

| the scan gives up a      | it goes on                       | the body that it gives           |
|--------------------------|----------------------------------|----------------------------------|
| block comment            | as if the slash were plain text  | begins a comment that has no end |
| line comment             | at the last brace of the comment | ends in a line comment           |

The first body is no members and gaps, and the text is refused. The second is, if the part before
the slashes is. So a block closes outside comments (`Interface.Block`), or it closes in a line
comment with the last closing brace of the text (`Interface.LineBlock`, `Interface.opens_iff`); and
an accepted text closes all its blocks outside comments, or all but the last one
(`SourceFile.closing_of_ofText`).
-/
import IdlGlue.Proofs.FileSpread

namespace IdlGlue.Scan

open IdlGlue.Text

/-! ## The scan of a body, piece by piece -/

section Scans

variable {p q cs w x before behind rest tail : List Char} {c : Char}

theorem splitLastBrace?_eq_some_iff :
    splitLastBrace? cs = some (before, rest) ↔ cs = before ++ '}' :: rest ∧ '}' ∉ rest := by
  constructor
  · intro h
    refine ⟨splitLastBrace?_append h, ?_⟩
    induction cs generalizing before with
    | nil => cases h
    | cons c cs ih =>
        rw [splitLastBrace?] at h
        split at h
        · next b r hsplit =>
            cases h
            exact ih hsplit
        · next hnone =>
            split at h
            · cases h
              intro hmem
              obtain ⟨m, hm⟩ := exists_splitLastBrace?_of_mem hmem
              rw [hnone] at hm
              cases hm
            · cases h
  · rintro ⟨rfl, hrest⟩
    induction before with
    | nil => rw [List.nil_append, splitLastBrace?, splitLastBrace?_of_not_mem hrest, if_pos rfl]
    | cons c before ih =>
        rw [List.cons_append, splitLastBrace?_cons_of_mem (by simp), ih]
        rfl

/-- Where no brace is left behind a line comment, the body ends at the last one inside. -/
theorem body?_of_line (hc : c ≠ '}') (h : afterComment? (c :: tail) = some rest)
    (hmem : '}' ∉ rest) (hline : (afterLineComment? (c :: tail)).isSome) :
    body? (c :: tail) = splitLastBrace? (c :: tail) := by
  rw [body?, if_neg hc]
  split
  · next h' =>
      rw [h] at h'
      cases h'
  · next rest' h' =>
      rw [h] at h'
      cases h'
      rw [if_neg hmem, if_pos hline]

/-- The scan passes over the text, wherever a closing brace is left behind it. -/
def Passed (p : List Char) : Prop :=
  ∀ cs, '}' ∈ cs → body? (p ++ cs) = (body? cs).map fun m => (p ++ m.1, m.2)

theorem passed_nil : Passed [] := by
  intro cs _
  exact Option.map_id'.symm

theorem Passed.append (hp : Passed p) (hq : Passed q) : Passed (p ++ q) := by
  intro cs hcs
  rw [List.append_assoc, hp _ (List.mem_append_right _ hcs), hq cs hcs, Option.map_map]
  simp only [Function.comp_def, List.append_assoc]

theorem passed_cons (hc : c ≠ '}') (hslash : c ≠ '/') (hp : Passed p) : Passed (c :: p) := by
  intro cs hcs
  have hnone : afterComment? (c :: (p ++ cs)) = none := by
    refine Option.eq_none_iff_forall_ne_some.mpr fun mid hmid => ?_
    obtain ⟨tail, htail⟩ := (afterComment?_eq_some_iff.mp hmid).head
    exact hslash (List.cons.inj htail).1
  rw [List.cons_append, body?_of_none hc hnone, hp cs hcs, Option.map_map]
  rfl

theorem passed_of_not_mem (hp : '}' ∉ p) (hslash : '/' ∉ p) : Passed p := by
  induction p with
  | nil => exact passed_nil
  | cons c p ih =>
      obtain ⟨hc, hp⟩ := not_or.mp (mt List.mem_cons.mpr hp)
      obtain ⟨hc', hslash⟩ := not_or.mp (mt List.mem_cons.mpr hslash)
      exact passed_cons (Ne.symm hc) (Ne.symm hc') (ih hp hslash)

theorem body?_of_comment (h : Comment (w ++ cs) cs) (hcs : '}' ∈ cs) :
    body? (w ++ cs) = (body? cs).map fun m => (w ++ m.1, m.2) := by
  obtain ⟨tail, htail⟩ := h.head
  have hafter := afterComment?_eq_some_iff.mpr h
  rw [htail] at hafter
  rw [htail, body?_of_some (by decide) hafter hcs, ← htail, consumed_append_left]

theorem WholeComment.passed (hw : WholeComment w) : Passed w := by
  intro cs hcs
  cases hw with
  | @line x hx =>
      have hcomment : Comment (('/' :: '/' :: x) ++ '\n' :: cs) ('\n' :: cs) := .line hx (by simp)
      have hnewline : Passed ['\n'] := passed_cons (by decide) (by decide) passed_nil
      have htext : '/' :: '/' :: (x ++ ['\n']) ++ cs = ('/' :: '/' :: x) ++ '\n' :: cs := by simp
      have hbehind : body? ('\n' :: cs) = (body? cs).map fun m => ('\n' :: m.1, m.2) :=
        hnewline cs hcs
      rw [htext, body?_of_comment hcomment (List.mem_cons_of_mem _ hcs), hbehind, Option.map_map]
      simp [Function.comp_def]
  | @block x hx =>
      have htext : '/' :: '*' :: (x ++ ['*', '/']) ++ cs =
          '/' :: '*' :: (x ++ '*' :: '/' :: cs) := by
        simp
      refine body?_of_comment ?_ hcs
      rw [htext]
      exact .block hx

/-- A line comment of which a brace is plain text. -/
theorem body?_line_iff (hx : '\n' ∉ x) :
    body? ('/' :: '/' :: (x ++ '}' :: behind)) = some ('/' :: '/' :: x, behind) ↔
      '}' ∉ behind := by
  have hcomment : Comment ('/' :: '/' :: (x ++ '}' :: behind)) (behind.dropWhile (· != '\n')) :=
    comment_of_line hx
  have hsuffix : behind.dropWhile (· != '\n') <:+ behind := List.dropWhile_suffix _
  have hafter := afterComment?_eq_some_iff.mpr hcomment
  have hline : (afterLineComment? ('/' :: '/' :: (x ++ '}' :: behind))).isSome := rfl
  by_cases hmem : '}' ∈ behind.dropWhile (· != '\n')
  · refine iff_of_false ?_ fun hnot => hnot (hsuffix.subset hmem)
    rw [body?_of_some (by decide) hafter hmem]
    intro h
    obtain ⟨m, hm, heq⟩ := Option.map_eq_some_iff.mp h
    -- What is left behind the comment is no longer than what is left behind the brace.
    have hrest := body?_append hm
    rw [(Prod.mk.inj heq).2] at hrest
    have hlength := congrArg List.length hrest
    rw [List.length_append, List.length_cons] at hlength
    have := hsuffix.length_le
    omega
  · rw [body?_of_line (by decide) hafter hmem hline, splitLastBrace?_eq_some_iff]
    exact and_iff_right rfl

end Scans

end IdlGlue.Scan

namespace IdlGlue

open IdlGlue.Text IdlGlue.Scan IdlGlue.Statement

/-! ## Bodies -/

section Bodies

variable {α : Type} {R : List Char → α → List Char → Prop} {cs body : List Char} {as : List α}
  {members : List Member}

/-- A spread text ends with its last part, or in a line comment behind it. -/
theorem spread_fileEnd_iff (hR : Laid R) : Spread R FileEnd cs as ↔ Spread R BodyEnd cs as ∨
    ∃ pre x, cs = pre ++ '/' :: '/' :: x ∧ '\n' ∉ x ∧ Spread R BodyEnd pre as := by
  constructor
  · intro h
    induction h with
    | last hend =>
        cases hend with
        | empty => exact Or.inl (.last rfl)
        | @line x hx => exact Or.inr ⟨[], x, rfl, hx, .last rfl⟩
    | blank hc _ ih =>
        rcases ih with h | ⟨pre, x, rfl, hx, h⟩
        · exact Or.inl (.blank hc h)
        · exact Or.inr ⟨_ :: pre, x, rfl, hx, .blank hc h⟩
    | comment hw _ ih =>
        rcases ih with h | ⟨pre, x, rfl, hx, h⟩
        · exact Or.inl (.comment hw h)
        · exact Or.inr ⟨_ ++ pre, x, (List.append_assoc ..).symm, hx, .comment hw h⟩
    | item hread _ ih =>
        rcases ih with h | ⟨pre, x, rfl, hx, h⟩
        · exact Or.inl (.item hread h)
        · obtain ⟨p, rfl, hstable⟩ := hR.stable hread
          have hno := h.noSemicolon hR.starts BodyEnd.fileEnd
          exact Or.inr ⟨p ++ pre, x, (List.append_assoc ..).symm, hx, .item (hstable pre hno) h⟩
  · rintro (h | ⟨pre, x, rfl, hx, h⟩)
    · exact h.mono id BodyEnd.fileEnd
    · induction h with
      | last hend =>
          rw [BodyEnd] at hend
          subst hend
          exact .last (.line hx)
      | blank hc _ ih => exact .blank hc ih
      | comment hw _ ih =>
          rw [List.append_assoc]
          exact .comment hw ih
      | item hread _ ih =>
          obtain ⟨p, rfl, hstable⟩ := hR.stable hread
          rw [List.append_assoc]
          exact .item (hstable _ (ih.noSemicolon hR.starts fun _ => id)) ih

theorem passed_of_spread (h : Spread Member.Reads BodyEnd body members) : Passed body := by
  induction h with
  | last hend =>
      rw [BodyEnd] at hend
      subst hend
      exact passed_nil
  | blank hc _ ih =>
      refine passed_cons ?_ ?_ ih
      · rintro rfl
        exact absurd hc (by decide)
      · rintro rfl
        exact absurd hc (by decide)
  | comment hw _ ih => exact hw.passed.append ih
  | item hread _ ih =>
      obtain ⟨p, rfl, _⟩ := hread.stable
      exact (passed_of_not_mem (hread.not_mem (by decide) (by decide))
        (hread.not_mem (by decide) (by decide))).append ih

end Bodies

/-! ## Blocks -/

/-- A block stands at the start of the text and declares `i`, and the brace that closes it is in a
line comment; `behind` is what follows this brace, the last one of the text. The body is whole parts
up to the line comment. -/
def Interface.LineBlock (cs : List Char) (i : Interface) (behind : List Char) : Prop :=
  ∃ name body x, InterfaceHead cs name (body ++ '/' :: '/' :: (x ++ '}' :: behind)) ∧
    i.name = String.ofList name ∧ Spread Member.Reads BodyEnd body i.members ∧
    '\n' ∉ x ∧ '}' ∉ behind

section Blocks

variable {cs behind : List Char} {i : Interface}

/-- The scan cuts a text behind whole parts and slashes where a brace follows on the line, if this
is the last brace of the text. -/
theorem body?_lineBlock_iff {body x : List Char} {members : List Member}
    (hbody : Spread Member.Reads BodyEnd body members) (hx : '\n' ∉ x) :
    body? (body ++ '/' :: '/' :: (x ++ '}' :: behind)) =
      some (body ++ '/' :: '/' :: x, behind) ↔ '}' ∉ behind := by
  rw [passed_of_spread hbody _ (by simp), ← body?_line_iff hx, Option.map_eq_some_iff]
  constructor
  · rintro ⟨m, hm, heq⟩
    obtain ⟨hfirst, hsecond⟩ := Prod.mk.inj heq
    rw [hm, ← List.append_cancel_left hfirst, ← hsecond]
  · exact fun h => ⟨_, h, rfl⟩

/-- **A block is closed outside comments, or in a line comment with the last brace.** -/
theorem Interface.opens_iff :
    Interface.Opens cs i behind ↔
      Interface.Block cs i behind ∨ Interface.LineBlock cs i behind := by
  constructor
  · rintro ⟨name, inner, body, hhead, hscan, hname, hmembers⟩
    have htext := body?_append hscan
    rcases (spread_fileEnd_iff laid_member).mp hmembers with hbody | ⟨pre, x, rfl, hx, hbody⟩
    · subst htext
      exact Or.inl ⟨name, body, hhead, hname, hbody⟩
    · rw [List.append_assoc] at htext
      simp only [List.cons_append] at htext
      subst htext
      exact Or.inr ⟨name, pre, x, hhead, hname, hbody, hx, (body?_lineBlock_iff hbody hx).mp hscan⟩
  · rintro (h | ⟨name, body, x, hhead, hname, hbody, hx, hbehind⟩)
    · exact (Interface.block_iff.mp h).1
    · refine ⟨name, _, _, hhead, (body?_lineBlock_iff hbody hx).mpr hbehind, hname, ?_⟩
      exact (spread_fileEnd_iff laid_member).mpr (Or.inr ⟨body, x, rfl, hx, hbody⟩)

/-- Outside comments there is no brace for it. -/
theorem Interface.LineBlock.not_closes (h : Interface.LineBlock cs i behind) :
    ¬ ClosesOutsideComments cs := by
  intro hcloses
  have hopens := Interface.opens_iff.mpr (Or.inr h)
  obtain ⟨name, body, x, hhead, _, hbody, hx, _⟩ := h
  obtain ⟨name', body', hhead', _, hbody'⟩ := Interface.block_iff.mpr ⟨hopens, hcloses⟩
  obtain ⟨_, hinner⟩ := interfaceHead_functional hhead hhead'
  have hbrace : FirstBrace (body' ++ '}' :: behind) behind := firstBrace_of_spread hbody'
  rw [← hinner, firstBrace_spread_iff hbody] at hbrace
  exact not_firstBrace_line hx hbrace

end Blocks

/-! ## Whole texts -/

/-- Behind an interface there are no declarations but interfaces. -/
def Decl.InOrder (a b : Decl) : Prop := ∀ i, a = .interface i → ∃ j, b = .interface j

theorem SourceFile.pairwise_decls (file : SourceFile) : file.decls.Pairwise Decl.InOrder := by
  have hpairs {α : Type} (f : α → Decl) (as : List α)
      (hf : ∀ a b, (f a).InOrder (f b)) : (as.map f).Pairwise Decl.InOrder :=
    List.pairwise_map.mpr (List.pairwise_of_forall fun a b => hf a b)
  have hother {α : Type} (f : α → Decl) (as : List α) (ds : List Decl)
      (hf : ∀ a i, f a ≠ .interface i) : ∀ a ∈ as.map f, ∀ b ∈ ds, a.InOrder b := by
    intro a ha b _ i hi
    obtain ⟨a', _, rfl⟩ := List.mem_map.mp ha
    exact absurd hi (hf a' i)
  refine List.pairwise_append.mpr ⟨?_, List.pairwise_append.mpr ⟨?_, ?_, ?_⟩, ?_⟩
  · exact hpairs _ _ fun a b i hi => nomatch hi
  · exact hpairs _ _ fun a b i hi => nomatch hi
  · exact hpairs _ _ fun a b _ _ => ⟨b, rfl⟩
  · exact hother _ _ _ fun a i hi => nomatch hi
  · exact hother _ _ _ fun a i hi => nomatch hi

/-- The text is a block that is closed in a line comment, and nothing but a gap behind it. -/
def Interface.EndsInLine (i : Interface) (cs : List Char) : Prop :=
  ∃ behind rest, Interface.LineBlock cs i behind ∧ BlockTail behind rest ∧
    Spread (Decl.Stands Interface.Block BlockTail) FileEnd rest []

/-- The text declares `file`, and closes all blocks outside comments but the last, which it closes
in a line comment. -/
def SourceFile.EndsInLine (cs : List Char) (file : SourceFile) : Prop :=
  ∃ before i, file.decls = before ++ [.interface i] ∧
    Spread (Decl.Stands Interface.Block BlockTail) i.EndsInLine cs before

/-- The last brace of the text has two slashes before it on its line. -/
def LastBraceInLine (cs : List Char) : Prop :=
  ∃ before x behind, cs = before ++ '/' :: '/' :: (x ++ '}' :: behind) ∧ '\n' ∉ x ∧ '}' ∉ behind

section Texts

variable {cs rest : List Char} {ds : List Decl} {i : Interface} {file : SourceFile}

theorem BlockTail.suffix {behind : List Char} (h : BlockTail behind rest) : rest <:+ behind := by
  cases h with
  | @semicolon space rest _ => exact ⟨space ++ [';'], by simp⟩
  | bare _ => exact List.suffix_refl _

/-- A block takes a brace. -/
theorem brace_mem_of_spread {E : List Char → Prop}
    (h : Spread (Decl.Stands Interface.Opens BlockTail) E cs (.interface i :: ds)) : '}' ∈ cs := by
  generalize hall : Decl.interface i :: ds = all at h
  induction h with
  | last => cases hall
  | blank _ _ ih => exact List.mem_cons_of_mem _ (ih hall)
  | comment _ _ ih => exact List.mem_append_right _ (ih hall)
  | item hread _ _ =>
      cases hall
      cases hread with
      | interface hopens _ =>
          obtain ⟨name, inner, body, hhead, hscan, _, _⟩ := hopens
          obtain ⟨p, rfl, _⟩ := interfaceHead_stable hhead
          rw [body?_append hscan]
          simp

/-- Only the last block can be closed in a line comment, because this takes the last brace. -/
theorem spread_opens_cases (hds : ds.Pairwise Decl.InOrder)
    (h : Spread (Decl.Stands Interface.Opens BlockTail) FileEnd cs ds) :
    Spread (Decl.Stands Interface.Block BlockTail) FileEnd cs ds ∨
      ∃ before i, ds = before ++ [.interface i] ∧
        Spread (Decl.Stands Interface.Block BlockTail) i.EndsInLine cs before := by
  induction h with
  | last hend => exact Or.inl (.last hend)
  | blank hc _ ih =>
      rcases ih hds with h | ⟨before, i, rfl, h⟩
      · exact Or.inl (.blank hc h)
      · exact Or.inr ⟨before, i, rfl, .blank hc h⟩
  | comment hw _ ih =>
      rcases ih hds with h | ⟨before, i, rfl, h⟩
      · exact Or.inl (.comment hw h)
      · exact Or.inr ⟨before, i, rfl, .comment hw h⟩
  | @item cs rest d ds hread hrest ih =>
      obtain ⟨hd, hds⟩ := List.pairwise_cons.mp hds
      have hgo : Decl.Stands Interface.Block BlockTail cs d rest →
          Spread (Decl.Stands Interface.Block BlockTail) FileEnd cs (d :: ds) ∨
            ∃ before i, d :: ds = before ++ [.interface i] ∧
              Spread (Decl.Stands Interface.Block BlockTail) i.EndsInLine cs before := by
        intro hstands
        rcases ih hds with h | ⟨before, i, rfl, h⟩
        · exact Or.inl (.item hstands h)
        · exact Or.inr ⟨d :: before, i, rfl, .item hstands h⟩
      cases hread with
      | header hread => exact hgo (.header hread)
      | delegate hread => exact hgo (.delegate hread)
      | @interface behind _ i hopens htail =>
          rcases Interface.opens_iff.mp hopens with hblock | hline
          · exact hgo (.interface hblock htail)
          have hnone : ds = [] := by
            cases ds with
            | nil => rfl
            | cons d ds =>
                obtain ⟨j, rfl⟩ := hd d List.mem_cons_self i rfl
                obtain ⟨_, _, _, _, _, _, _, hbehind⟩ := hline
                exact absurd (htail.suffix.subset (brace_mem_of_spread hrest)) hbehind
          subst hnone
          rcases ih .nil with h | ⟨before, j, hbefore, _⟩
          · exact Or.inr ⟨[], i, rfl, .last ⟨behind, rest, hline, htail, h⟩⟩
          · simp at hbefore

/-- No text is both. -/
theorem not_spread_of_endsInLine {ds' : List Decl}
    (h : Spread (Decl.Stands Interface.Block BlockTail) i.EndsInLine cs ds)
    (h' : Spread (Decl.Stands Interface.Block BlockTail) FileEnd cs ds') : False := by
  have hstarts := laid_decl.starts
  induction h generalizing ds' with
  | last hend =>
      obtain ⟨behind, rest, hline, htail, _⟩ := hend
      have hstands : Decl.Stands Interface.Opens BlockTail _ (.interface i) rest :=
        .interface (Interface.opens_iff.mpr (Or.inr hline)) htail
      obtain ⟨d, _, _, _, hfirst, _⟩ :=
        h'.first (fun _ => id) (starts_decl Interface.Opens.start hstands)
      obtain ⟨tail, htext⟩ := hfirst.head? Interface.Block.start
      obtain ⟨tail', htext'⟩ := hstands.head? Interface.Opens.start
      rw [htext] at htext'
      have hmark := (List.cons.inj htext').1
      cases hfirst with
      | header => exact absurd hmark (by simp [Decl.mark])
      | delegate => exact absurd hmark (by simp [Decl.mark])
      | interface hblock _ => exact hline.not_closes (Interface.block_iff.mp hblock).2
  | blank hc _ ih => exact ih (h'.behind_blank hstarts (fun _ => id) hc)
  | comment hw _ ih => exact ih (h'.behind_comment hstarts (fun _ => id) hw)
  | item hread _ ih =>
      obtain ⟨_, _, _, _, hfirst, hrest⟩ := h'.first (fun _ => id) (hstarts hread)
      obtain rfl := laid_decl.ends hfirst hread
      exact ih hrest

theorem SourceFile.EndsInLine.lastBraceInLine (h : SourceFile.EndsInLine cs file) :
    LastBraceInLine cs := by
  obtain ⟨before, i, _, hspread⟩ := h
  obtain ⟨pre, post, rfl, hend, _⟩ := hspread.exists_last_place laid_decl
  obtain ⟨behind, _, ⟨name, body, x, hhead, _, _, hx, hbehind⟩, _⟩ := hend
  obtain ⟨p, rfl, _⟩ := interfaceHead_stable hhead
  exact ⟨pre ++ (p ++ body), x, behind, by simp only [List.append_assoc], hx, hbehind⟩

theorem SourceFile.closedTiles_iff {text : String} (h : SourceFile.ofText text = .ok file) :
    SourceFile.ClosedTiles text.toList file ↔ ¬ SourceFile.EndsInLine text.toList file := by
  rw [SourceFile.closedTiles_iff_spread]
  constructor
  · rintro hclosed ⟨before, i, _, hend⟩
    exact not_spread_of_endsInLine hend hclosed
  · intro hno
    have hopens := (SourceFile.ofText_eq_ok_iff_spread.mp h).1
    exact (spread_opens_cases file.pairwise_decls hopens).resolve_right hno

end Texts

/-- Where the blocks of an accepted text are closed. -/
structure Closing (cs : List Char) (file : SourceFile) : Prop where
  /-- All are closed outside comments, unless the last one is closed in a line comment. -/
  closed_iff : SourceFile.ClosedTiles cs file ↔ ¬ SourceFile.EndsInLine cs file
  /-- It takes no more than a look at the line of the last brace. -/
  closed : ¬ LastBraceInLine cs → SourceFile.ClosedTiles cs file

/-- **An accepted text closes every interface with a brace outside comments, but for the last one,
which it may close with the last brace of the text inside a line comment.** No block is closed in a
block comment. -/
theorem SourceFile.closing_of_ofText {text : String} {file : SourceFile}
    (h : SourceFile.ofText text = .ok file) : Closing text.toList file where
  closed_iff := SourceFile.closedTiles_iff h
  closed hlast := (SourceFile.closedTiles_iff h).mpr fun hend => hlast hend.lastBraceInLine

/-- Braces in comments, and one that is not. -/
def bracedText : String := "interface A \x7b /* \x7d */ // \x7d\n\x7d"

def emptyFile : SourceFile where
  headers := []
  delegates := []
  interfaces := [{ name := "A", members := [] }]

theorem closing_bracedText :
    SourceFile.ofText bracedText = .ok emptyFile ∧ Closing bracedText.toList emptyFile := by
  have hfile : SourceFile.ofText bracedText = .ok emptyFile := by decide +kernel
  exact ⟨hfile, SourceFile.closing_of_ofText hfile⟩

/-- A block that nothing closes but a comment. -/
def unclosedText : String := "interface A \x7b // \x7d"

/-- The only brace of this text is in a comment, and the text is accepted. -/
theorem not_closedTiles_unclosedText :
    SourceFile.ofText unclosedText = .ok emptyFile ∧
      ¬ ClosesOutsideComments unclosedText.toList ∧
      ¬ SourceFile.ClosedTiles unclosedText.toList emptyFile := by
  have hhead : InterfaceHead unclosedText.toList ['A']
      ([' '] ++ '/' :: '/' :: ([' '] ++ '\x7d' :: [])) := by
    have htext : unclosedText.toList = "interface".toList ++ [' '] ++ ['A'] ++ [' '] ++
        '\x7b' :: ([' '] ++ '/' :: '/' :: ([' '] ++ '\x7d' :: [])) := by decide
    rw [htext]
    exact .mk (by decide) (by decide) (by decide) (by decide) (by decide)
  have hname : Interface.name { name := "A", members := [] } = String.ofList ['A'] := by decide
  have hline : Interface.LineBlock unclosedText.toList { name := "A", members := [] } [] :=
    ⟨_, [' '], [' '], hhead, hname, .blank (by decide) (.last rfl), by decide, by decide⟩
  have hend : Spread (Decl.Stands Interface.Block BlockTail)
      (Interface.EndsInLine { name := "A", members := [] }) unclosedText.toList [] :=
    .last ⟨[], [], hline, .bare nofun, .last .empty⟩
  refine ⟨by decide +kernel, hline.not_closes, fun hclosed => ?_⟩
  exact not_spread_of_endsInLine hend (SourceFile.closedTiles_iff_spread.mp hclosed)

end IdlGlue
