/-
# IdlGlue.Proofs.Padding -- white space around the parameters of a statement

White space may be put next to a parenthesis of a parameter list and next to a comma in it
(`AtMark`). It belongs to the pair there then, and the list declares what it did. But in two places
no pair is next to the mark (`Bare`):

| list     | place                      | read with white space there |
|----------|----------------------------|-----------------------------|
| empty    | between the parentheses    | no                          |
| `int a,` | behind the trailing comma  | no                          |
| any      | next to another mark       | yes                         |

The grammar has no white space of its own in a list, only around a pair. So with white space in a
bare place the statement is none, though the reader of a list alone passes over blank pieces and
makes the same of all these texts (`listOfText_pad`).

Before its list a statement holds no parenthesis. Two texts that differ in the list alone are alike
up to it, and their readers go side by side to the list and again behind it (`Exchanges`).
-/
import IdlGlue.Proofs.AnyOfParam
import IdlGlue.Proofs.CapturedList
import Mathlib.Logic.Relation

namespace IdlGlue

open IdlGlue.Text IdlGlue.Scan IdlGlue.Statement

/-! ## Places in a list -/

/-- The place between the two parts of a list is next to a parenthesis or to a comma. -/
inductive AtMark : List Char → List Char → Prop
  | start (v : List Char) : AtMark [] v
  | last (u : List Char) : AtMark u []
  | behind (u v : List Char) : AtMark (u ++ [',']) v
  | ahead (u v : List Char) : AtMark u (',' :: v)

/-- No pair is next to the place: the list is empty, or it ends here with a comma. -/
inductive Bare : List Char → List Char → Prop
  | empty : Bare [] []
  | comma (u : List Char) : Bare (u ++ [',']) []

/-- The second list is the first with white space at a mark, where there is a pair to take it. -/
inductive Pads : List Char → List Char → Prop
  | mk {u v w : List Char} : AtMark u v → ¬Bare u v → AllIn isBlank w → Pads (u ++ v) (u ++ w ++ v)

section Places

variable {u v w piece rest : List Char}

theorem AtMark.of_append (h : AtMark (piece ++ ',' :: u) v) : AtMark u v := by
  generalize hleft : piece ++ ',' :: u = left at h
  cases h with
  | start => simp at hleft
  | last => exact .last u
  | ahead => exact .ahead u _
  | behind x =>
      rcases List.eq_nil_or_concat' u with rfl | ⟨y, c, rfl⟩
      · exact .start v
      · have hlast : (piece ++ ',' :: y) ++ [c] = x ++ [','] := by
          rw [← hleft]
          simp
        rw [(List.append_inj' hlast rfl).2]
        exact .behind y v

theorem Bare.append (h : Bare u v) (piece : List Char) : Bare (piece ++ ',' :: u) v := by
  cases h with
  | empty => exact .comma piece
  | comma u =>
      have hcomma : piece ++ ',' :: (u ++ [',']) = (piece ++ ',' :: u) ++ [','] := by simp
      rw [hcomma]
      exact .comma _

theorem not_comma_of_blanks (hw : AllIn isBlank w) : AllIn (fun c => !(c == ',')) w :=
  hw.mono fun _ => not_comma_of_isBlank

/-! ## The reader of a list alone -/

theorem pieces_append_comma (cs rest : List Char) :
    pieces (· == ',') (cs ++ ',' :: rest) = pieces (· == ',') cs ++ pieces (· == ',') rest :=
  pieces_append rfl cs rest

/-- White space at a mark is at an end of the pieces there. -/
theorem map_trim_pieces (hmark : AtMark u v) (hw : AllIn isBlank w) :
    (pieces (· == ',') (u ++ w ++ v)).map trim = (pieces (· == ',') (u ++ v)).map trim := by
  -- Holding no comma, it lengthens the first piece of what follows, or the last of what precedes.
  have hstart : ∀ cs, (pieces (· == ',') (w ++ cs)).map trim =
      (pieces (· == ',') cs).map trim := by
    intro cs
    obtain ⟨p, ps, hpieces, happend⟩ := pieces_start (not_comma_of_blanks hw) cs
    rw [happend, hpieces, List.map_cons, List.map_cons, trim_blanks_append hw]
  have hlast : ∀ cs, (pieces (· == ',') (cs ++ w)).map trim =
      (pieces (· == ',') cs).map trim := by
    intro cs
    obtain ⟨ps, p, hpieces, happend⟩ := pieces_end (not_comma_of_blanks hw) cs
    rw [happend, hpieces, List.map_append, List.map_append, List.map_singleton, List.map_singleton,
      trim_append_blanks hw]
  cases hmark with
  | start => exact hstart v
  | last => simpa using hlast u
  | behind u =>
      simp only [List.append_assoc, List.cons_append, List.nil_append]
      rw [pieces_append_comma, pieces_append_comma, List.map_append, List.map_append, hstart]
  | ahead _ v =>
      rw [pieces_append_comma, pieces_append_comma, List.map_append, List.map_append, hlast]

/-- White space at a mark is nothing to the reader of a list alone, whatever text it reads. -/
theorem listOfText_pad (hmark : AtMark u v) (hw : AllIn isBlank w) :
    Param.listOfText (u ++ w ++ v) = Param.listOfText (u ++ v) := by
  rw [Param.listOfText, Param.listOfText, Param.piecesOf, Param.piecesOf, map_trim_pieces hmark hw]

/-! ## Lists of the grammar -/

theorem PairText.blanks_append {type name : List Char} (h : PairText piece type name)
    (hw : AllIn isBlank w) : PairText (w ++ piece) type name := by
  cases h with
  | @mk before _ between _ after hbefore htypeNe htype hbetweenNe hbetween hnameNe hname hafter =>
      have hpair := PairText.mk (allIn_append.mpr ⟨hw, hbefore⟩) htypeNe htype hbetweenNe hbetween
        hnameNe hname hafter
      simpa only [List.append_assoc] using hpair

theorem PairText.append_blanks {type name : List Char} (h : PairText piece type name)
    (hw : AllIn isBlank w) : PairText (piece ++ w) type name := by
  cases h with
  | @mk before _ between _ after hbefore htypeNe htype hbetweenNe hbetween hnameNe hname hafter =>
      have hpair := PairText.mk hbefore htypeNe htype hbetweenNe hbetween hnameNe hname
        (allIn_append.mpr ⟨hafter, hw⟩)
      simpa only [List.append_assoc] using hpair

theorem PairText.comma_not_mem {type name : List Char} (h : PairText piece type name) :
    ',' ∉ piece := by
  intro hmem
  exact absurd (h.no_comma ',' hmem) (by decide)

/-- White space at an end of a pair. -/
theorem PairText.pad {type name : List Char} (h : PairText (u ++ v) type name)
    (hmark : AtMark u (v ++ rest)) (hw : AllIn isBlank w) :
    PairText (u ++ w ++ v) type name := by
  -- There is no comma inside a pair, so the mark is in front of it or behind it.
  have hcomma := h.comma_not_mem
  generalize hright : v ++ rest = right at hmark
  cases hmark with
  | start => exact h.blanks_append hw
  | last =>
      rw [(List.append_eq_nil_iff.mp hright).1, List.append_nil] at h ⊢
      exact h.append_blanks hw
  | behind => simp at hcomma
  | ahead =>
      cases v with
      | nil =>
          rw [List.append_nil] at h ⊢
          exact h.append_blanks hw
      | cons c v =>
          rw [(List.cons.inj hright).1] at hcomma
          simp at hcomma

/-- A list declares the same with white space at a mark. -/
theorem ParamList.pad {n : Nat} {params : List Param} (h : ParamList n (u ++ v) params)
    (hmark : AtMark u v) (hbare : ¬Bare u v) (hw : AllIn isBlank w) :
    ParamList n (u ++ w ++ v) params := by
  generalize hargs : u ++ v = args at h
  induction h generalizing u with
  | nil n =>
      obtain ⟨rfl, rfl⟩ := List.append_eq_nil_iff.mp hargs
      exact absurd .empty hbare
  | last hpair =>
      subst hargs
      rw [← List.append_nil v] at hmark
      exact .last (hpair.pad hmark hw)
  | @cons n piece type name rest params hpair hrest ih =>
      -- The place is at an end of the first piece, or it is a place of the rest.
      rcases List.append_eq_append_iff.mp hargs with ⟨m, rfl, rfl⟩ | ⟨m, rfl, hm⟩
      · rw [← List.append_assoc]
        exact .cons (hpair.pad hmark hw) hrest
      · cases m with
        | nil =>
            rw [← List.nil_append v, ← hm, List.append_nil]
            exact .cons (hpair.append_blanks hw) hrest
        | cons c m =>
            obtain ⟨rfl, rfl⟩ := List.cons.inj hm
            have hlist := ih hmark.of_append (fun h => hbare (h.append piece)) rfl
            simpa only [List.append_assoc, List.cons_append] using ParamList.cons hpair hlist

/-- In a bare place there is no white space. -/
theorem ParamList.eq_nil_of_bare {n : Nat} {params : List Param}
    (h : ParamList n (u ++ w ++ v) params) (hbare : Bare u v) (hw : AllIn isBlank w) : w = [] := by
  by_contra hne
  obtain ⟨pairs, texts, hsplit, htexts⟩ := h.exists_pairTexts
  -- The white space is the last piece, and it is one that should be a pair.
  have hv : v = [] := by
    cases hbare with
    | empty => rfl
    | comma => rfl
  have hbehind : piecesBehind (u ++ w ++ v) = [] := by
    rw [piecesBehind, if_neg]
    rw [hv, List.append_nil, List.getLast?_append_of_ne_nil u hne]
    rintro (hnil | hlast)
    · exact hne (List.append_eq_nil_iff.mp hnil).2
    · exact absurd (hw ',' (List.mem_of_getLast? hlast)) (by decide)
  have hpieces : w ∈ pieces (· == ',') (u ++ w ++ v) := by
    cases hbare with
    | empty =>
        rw [List.nil_append, List.append_nil, pieces_of_allIn (not_comma_of_blanks hw)]
        exact List.mem_singleton_self w
    | comma u =>
        rw [List.append_nil, List.append_assoc, List.singleton_append, pieces_append_comma,
          pieces_of_allIn (not_comma_of_blanks hw)]
        exact List.mem_append_right _ (List.mem_singleton_self w)
  rw [hsplit, hbehind, List.append_nil] at hpieces
  have hfull : ∀ text ∈ texts, trim text ≠ [] :=
    Traversal.forall_mem_of_forall₂ htexts fun pair _ text hpair => hpair.trim_ne_nil
  exact hfull w hpieces (trim_of_allIn hw)

end Places

/-- Padded lists declare the same, and are read back alike, errors included. -/
theorem ParamList.padded {n : Nat} {xs ys : List Char} {params : List Param}
    (h : ParamList n xs params) (hpads : Relation.ReflTransGen Pads xs ys) :
    ParamList n ys params ∧ Param.listOfText ys = Param.listOfText xs := by
  induction hpads with
  | refl => exact ⟨h, rfl⟩
  | tail _ hpad ih =>
      obtain ⟨hlist, hread⟩ := ih
      cases hpad with
      | mk hmark hbare hw =>
          exact ⟨hlist.pad hmark hbare hw, (listOfText_pad hmark hw).trans hread⟩

/-! ## Statements that differ in their lists -/

/-- The texts are the same up to their first parenthesis, and there they differ in the list. -/
abbrev AlikeToList (xs ys tail cs cs' : List Char) : Prop :=
  Alike '(' ('(' :: (xs ++ ')' :: tail)) ('(' :: (ys ++ ')' :: tail)) cs cs'

/-- The text of a parameter list. -/
def IsList (xs : List Char) : Prop := ∃ params, ParamList 0 xs params

/-- The second reading is the first with another list. -/
def WithList {α : Type} (withArgs : α → List Char → α) (ys : List Char) (m m' : α × List Char) :
    Prop :=
  m' = (withArgs m.1 ys, m.2)

/-- Readers that exchange the list of a statement for another one. -/
def Exchanges {α : Type} (read : List Char → Option (α × List Char))
    (withArgs : α → List Char → α) : Prop :=
  ∀ {xs ys tail cs cs' : List Char}, IsList xs → IsList ys → AlikeToList xs ys tail cs cs' →
    Option.Rel (WithList withArgs ys) (read cs) (read cs')

section Exchange

variable {xs ys tail cs cs' : List Char}

theorem alike_params? (hxs : IsList xs) (hys : IsList ys) (h : AlikeToList xs ys tail cs cs') :
    Option.Rel (fun m m' => m = (xs, tail) ∧ m' = (ys, tail)) (params? cs) (params? cs') := by
  rcases h.cases with ⟨rfl, rfl, _⟩ | ⟨c, rest, rest', hc, rfl, rfl, _⟩
  · rw [params?_eq_some_iff.mpr ⟨hxs, rfl⟩, params?_eq_some_iff.mpr ⟨hys, rfl⟩]
    exact .some ⟨rfl, rfl⟩
  · have hnone : ∀ rest, params? (c :: rest) = none := by
      intro rest
      rw [params?, literal?_eq_none_of_head? (c := '(') rfl (by simpa using hc)]
      rfl
    rw [hnone, hnone]
    exact .none

/-- What stands behind the lists is the same. -/
theorem rel_map_self {γ α β : Type} {R : α → β → Prop} (x : Option γ) {f : γ → α} {g : γ → β}
    (h : ∀ c, R (f c) (g c)) : Option.Rel R (x.map f) (x.map g) := by
  cases x with
  | none => exact .none
  | some c => exact .some (h c)

theorem exchanges_constructor : Exchanges Statement.constructor.read fun _ ys => ys := by
  intro xs ys tail cs cs' hxs hys h
  refine rel_bind (h.literal?_of_allIn isHead_paren (by decide +kernel)) fun h0 => ?_
  refine rel_bind (alike_params? hxs hys (h0.afterBlanks isHead_paren)) fun hargs => ?_
  obtain ⟨rfl, rfl⟩ := hargs
  exact rel_map_self _ fun _ => rfl

theorem exchanges_signature? (nameAsIs : Bool) :
    Exchanges (signature? nameAsIs) fun m ys => { m with args := ys } := by
  intro xs ys tail cs cs' hxs hys h
  refine rel_bind (alike_resultToken? isHead_paren h) fun hresult => ?_
  refine rel_bind (hresult.2.afterSpace? isHead_paren) fun h1 => ?_
  refine rel_bind (h1.word? isHead_paren) fun hname => ?_
  refine rel_bind (alike_params? hxs hys (hname.2.afterBlanks isHead_paren)) fun hargs => ?_
  obtain ⟨rfl, rfl⟩ := hargs
  rw [hresult.1, hname.1]
  exact rel_map_self _ fun _ => rfl

theorem exchanges_method :
    Exchanges Statement.method.read fun m ys => { m with args := ys } := by
  intro xs ys tail cs cs' hxs hys h
  refine rel_or ?_ (exchanges_signature? false hxs hys h)
  refine rel_bind (alike_afterModifier? isHead_paren (by decide +kernel) h) fun hrest => ?_
  exact exchanges_signature? true hxs hys hrest

theorem exchanges_delegate :
    Exchanges Statement.delegate.read fun d ys => { d with args := ys } := by
  intro xs ys tail cs cs' hxs hys h
  refine rel_bind (h.literal?_of_allIn isHead_paren (by decide +kernel)) fun h0 => ?_
  refine rel_bind (h0.afterSpace? isHead_paren) fun h1 => ?_
  refine rel_bind (alike_referenceToken? isHead_paren h1) fun hresult => ?_
  refine rel_bind (hresult.2.afterSpace? isHead_paren) fun h2 => ?_
  refine rel_bind (h2.name? isHead_paren) fun hname => ?_
  refine rel_bind (alike_params? hxs hys (hname.2.afterBlanks isHead_paren)) fun hargs => ?_
  obtain ⟨rfl, rfl⟩ := hargs
  rw [hresult.1, hname.1]
  exact rel_map_self _ fun _ => rfl

theorem listAt_delegate {s : DelegateText} {rest : List Char}
    (h : Statement.delegate.Reads cs s rest) : ListAt cs s.args := by
  obtain ⟨r0, h0, h⟩ := Option.bind_eq_some_iff.mp h
  obtain ⟨r1, h1, h⟩ := Option.bind_eq_some_iff.mp h
  obtain ⟨result, hresult, h⟩ := Option.bind_eq_some_iff.mp h
  obtain ⟨r2, h2, h⟩ := Option.bind_eq_some_iff.mp h
  obtain ⟨name, hname, h⟩ := Option.bind_eq_some_iff.mp h
  obtain ⟨⟨args, r3⟩, hargs, h⟩ := Option.bind_eq_some_iff.mp h
  obtain ⟨last, _, hp⟩ := Option.map_eq_some_iff.mp h
  cases hp
  have htoResult := (headTo_literal? (by decide +kernel) h0).trans (headTo_afterSpace? h1)
  have htoName := (htoResult.trans (headTo_referenceToken? hresult)).trans (headTo_afterSpace? h2)
  exact ((htoName.trans (headTo_name? hname)).trans (headTo_afterBlanks name.2)).listAt
    (listAt_params? hargs)

end Exchange

/-! ## Kinds of statements with a list -/

/-- A kind of statement with a parameter list: how it is read, its list, and what it declares. -/
structure ListKind (α β : Type) where
  reader : Recognizer α
  args : α → List Char
  withArgs : α → List Char → α
  declare : α → Except Fault β
  listAt : ∀ {cs a rest}, reader.Reads cs a rest → ListAt cs (args a)
  exchanges : Exchanges reader.read withArgs
  /-- Of a list only what is read back of it counts. -/
  declare_congr : ∀ {a ys}, Param.listOfText ys = Param.listOfText (args a) →
    declare (withArgs a ys) = declare a

def constructors : ListKind (List Char) Member where
  reader := Statement.constructor
  args := id
  withArgs _ ys := ys
  declare args := Member.ofStatement (.constructor args)
  listAt := listAt_constructor
  exchanges := exchanges_constructor
  declare_congr h := by simp only [Member.ofStatement, h, id]

def methods : ListKind MethodText Member where
  reader := Statement.method
  args := MethodText.args
  withArgs m ys := { m with args := ys }
  declare m := Member.ofStatement (.method m)
  listAt := listAt_method
  exchanges := exchanges_method
  declare_congr h := by simp only [Member.ofStatement, h]

def delegates : ListKind DelegateText Delegate where
  reader := Statement.delegate
  args := DelegateText.args
  withArgs d ys := { d with args := ys }
  declare := Delegate.ofStatement
  listAt := listAt_delegate
  exchanges := exchanges_delegate
  declare_congr h := by simp only [Delegate.ofStatement, h]

namespace ListKind

variable {α β : Type} (k : ListKind α β)

/-- What white space at the marks of its list makes of a statement `a`, where `head` stands before
the list and `tail` behind it. -/
structure Padding (head tail : List Char) (a : α) (rest : List Char) : Prop where
  /-- At any number of marks with a pair: the same declaration is read. -/
  padded : ∀ args, Relation.ReflTransGen Pads (k.args a) args →
    k.reader.Reads (head ++ '(' :: (args ++ ')' :: tail)) (k.withArgs a args) rest ∧
      k.declare (k.withArgs a args) = k.declare a
  /-- In a bare place: no statement is read, though the list alone would be. -/
  bare : ∀ u v w, k.args a = u ++ v → Bare u v → AllIn isBlank w → w ≠ [] →
    k.reader.read (head ++ '(' :: (u ++ w ++ v ++ ')' :: tail)) = none ∧
      Param.listOfText (u ++ w ++ v) = Param.listOfText (k.args a)

/-- A statement of the kind at the start of the text is read the same with white space at the marks
of its list, but for the bare places. -/
def PadsAlike (cs : List Char) : Prop :=
  ∀ a rest, k.reader.Reads cs a rest →
    ∃ head tail, '(' ∉ head ∧ cs = head ++ '(' :: (k.args a ++ ')' :: tail) ∧
      k.Padding head tail a rest

variable {k} {head tail : List Char} {a : α} {rest : List Char}

/-- With another list the statement is read on. -/
theorem reads_withArgs {ys : List Char} (hparen : '(' ∉ head) (hys : IsList ys)
    (h : k.reader.Reads (head ++ '(' :: (k.args a ++ ')' :: tail)) a rest) :
    k.reader.Reads (head ++ '(' :: (ys ++ ')' :: tail)) (k.withArgs a ys) rest := by
  have halike : AlikeToList (k.args a) ys tail (head ++ '(' :: (k.args a ++ ')' :: tail))
      (head ++ '(' :: (ys ++ ')' :: tail)) :=
    ⟨.stop _ _, head, hparen, rfl, rfl⟩
  have hrel := k.exchanges (k.listAt h).1 hys halike
  rw [h] at hrel
  obtain ⟨m', hread, rfl⟩ := exists_of_rel_some hrel
  exact hread

/-- With a text that is no list no statement is read. -/
theorem read_eq_none {xs : List Char} (hhead : AllIn isHead head) (hparen : ')' ∉ xs)
    (hxs : ¬IsList xs) : k.reader.read (head ++ '(' :: (xs ++ ')' :: tail)) = none := by
  rw [Option.eq_none_iff_forall_ne_some]
  rintro ⟨a, rest⟩ hread
  -- A statement of the kind would have this text for its list.
  have hlistAt := k.listAt hread
  have hargs : k.args a = xs := hlistAt.args_eq ⟨head, hhead, rfl⟩ hparen
  rw [← hargs] at hxs
  exact hxs hlistAt.1

/-- **White space at the marks of a list leaves a statement what it is**, unless it is put where no
pair can take it; there the statement is none. -/
theorem padsAlike (k : ListKind α β) (cs : List Char) : k.PadsAlike cs := by
  intro a rest h
  obtain ⟨⟨params, hparams⟩, tail, head, hhead, rfl⟩ := k.listAt h
  have hparen : '(' ∉ head := paren_not_mem_head hhead
  refine ⟨head, tail, hparen, rfl, ?_, ?_⟩
  · intro args hpads
    obtain ⟨hlist, hread⟩ := hparams.padded hpads
    exact ⟨reads_withArgs hparen ⟨params, hlist⟩ h, k.declare_congr hread⟩
  · intro u v w hargs hbare hw hne
    have hmark : AtMark u v := by
      cases hbare with
      | empty => exact .start []
      | comma u => exact .last _
    refine ⟨read_eq_none hhead ?_ ?_, ?_⟩
    · have hclosing := hparams.not_mem (c := ')') (by decide) (by decide) (by decide)
      rw [hargs, List.mem_append, not_or] at hclosing
      simp only [List.mem_append, not_or]
      exact ⟨⟨hclosing.1, fun hmem => absurd (hw _ hmem) (by decide)⟩, hclosing.2⟩
    · rintro ⟨_, hlist⟩
      exact hne (hlist.eq_nil_of_bare hbare hw)
    · rw [hargs]
      exact listOfText_pad hmark hw

end ListKind

/-- **Constructors, methods and delegates keep their declarations** with white space next to the
parentheses and commas of their lists, but for an empty list and behind a trailing comma. -/
theorem padsAlike_statements (cs : List Char) :
    constructors.PadsAlike cs ∧ methods.PadsAlike cs ∧ delegates.PadsAlike cs :=
  ⟨constructors.padsAlike cs, methods.padsAlike cs, delegates.padsAlike cs⟩

/-- A method whose list ends with a comma. -/
theorem padding_trailingComma :
    ∃ head tail, '(' ∉ head ∧
      "int f(int a,);".toList = head ++ '(' :: ("int a,".toList ++ ')' :: tail) ∧
      methods.Padding head tail
        { nameAsIs := false, result := "int".toList, name := ['f'], args := "int a,".toList }
        [] := by
  have hread : Statement.method.Reads "int f(int a,);".toList
      { nameAsIs := false, result := "int".toList, name := ['f'], args := "int a,".toList } [] := by
    unfold Recognizer.Reads
    decide +kernel
  exact (padsAlike_statements _).2.1 _ _ hread

/-- With white space in a bare place neither of these is read any more: a constructor without
parameters and a method whose list ends with a comma. -/
theorem not_read_bare :
    (Statement.constructor.Reads "constructor();".toList [] [] ∧
      Statement.constructor.read "constructor( );".toList = none ∧
      Member.read? "constructor( );".toList = .ok none) ∧
    ((Statement.method.read "int f(int a,);".toList).isSome = true ∧
      Statement.method.read "int f(int a, );".toList = none) ∧
    Param.listOfText " ".toList = .ok [] ∧
      Param.listOfText "int a, ".toList = Param.listOfText "int a,".toList := by
  unfold Recognizer.Reads
  decide +kernel

end IdlGlue
