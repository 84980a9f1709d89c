/-
# IdlGlue.Proofs.ParamList -- the language of parameter lists, and what it declares

`PairText piece type name` says that a piece of text is a `type name` pair with white
space around it, and `ParamList n text params` that a text is pairs between commas,
the last comma being optional, which declare `params`, numbered from `n`.

The scanner of parameter lists accepts such texts and no others
(`params?_eq_some_iff`). Reading the declarations back from one takes a different way,
by splitting at the commas and then at white space, and gives the same parameters; it
refuses a text only for a parameter of type `void` (`ParamList.listOfText_eq_ok_iff`),
since no type of the other two kinds that cannot be passed has a spelling without `&`,
`<` and `>`.
-/
import IdlGlue.Declaration
import IdlGlue.Scan.Params
import IdlGlue.Proofs.Traversal
import IdlGlue.Proofs.TypeToken
import IdlGlue.Proofs.Words
import Mathlib.Data.List.Basic

namespace IdlGlue

open IdlGlue.Text IdlGlue.Scan

/-! ## The language -/

/-- A `type name` pair, with white space around it. -/
inductive PairText : List Char → List Char → List Char → Prop
  | mk {before type between name after : List Char} :
      AllIn isBlank before → type ≠ [] → AllIn isNamePart type →
      between ≠ [] → AllIn isBlank between → name ≠ [] → AllIn isWord name →
      AllIn isBlank after →
      PairText (before ++ type ++ between ++ name ++ after) type name

/-- The parameter that a pair at place `index` of a list declares. -/
def Param.ofPair (type name : List Char) (index : Nat) : Param where
  type := .ofToken (String.ofList type)
  name := String.ofList name
  index := index

/-- Pairs between commas, with a comma behind the last of them or not, and the
parameters that they declare, the first of them at place `n`. -/
inductive ParamList : Nat → List Char → List Param → Prop
  | nil (n : Nat) : ParamList n [] []
  | last {n : Nat} {piece type name : List Char} : PairText piece type name →
      ParamList n piece [.ofPair type name n]
  | cons {n : Nat} {piece type name rest : List Char} {params : List Param} :
      PairText piece type name → ParamList (n + 1) rest params →
      ParamList n (piece ++ ',' :: rest) (.ofPair type name n :: params)

/-! ## The scanner accepts these texts, and nothing else -/

theorem afterParam?_pairText {cs rest : List Char} (h : afterParam? cs = some rest) :
    ∃ piece type name, PairText piece type name ∧ cs = piece ++ rest := by
  obtain ⟨⟨type, r1⟩, h1, h⟩ := Option.bind_eq_some_iff.mp h
  obtain ⟨r2, h2, h⟩ := Option.bind_eq_some_iff.mp h
  obtain ⟨⟨name, r3⟩, h3, hrest⟩ := Option.map_eq_some_iff.mp h
  obtain ⟨before, hbefore, _, hcs⟩ := afterBlanks_eq_iff.mp (Eq.refl (afterBlanks cs))
  obtain ⟨htype, htypeIn, _, htypeEq⟩ := run?_eq_some_iff_append.mp h1
  obtain ⟨between, hbetween, hbetweenIn, _, hbetweenEq⟩ := afterSpace?_eq_some_iff.mp h2
  obtain ⟨hname, hnameIn, _, hnameEq⟩ := run?_eq_some_iff_append.mp h3
  obtain ⟨after, hafter, _, hafterEq⟩ := afterBlanks_eq_iff.mp hrest
  refine ⟨_, type, name,
    .mk hbefore htype htypeIn hbetween hbetweenIn hname hnameIn hafter, ?_⟩
  simp only at hbetweenEq hafterEq
  rw [hcs, htypeEq, hbetweenEq, hnameEq, hafterEq]
  simp only [List.append_assoc]

/-- Before the closing parenthesis stands a parameter list. -/
theorem paramsEnd?_paramList {cs closing : List Char} (h : paramsEnd? cs = some closing)
    (n : Nat) : ∃ args params, ParamList n args params ∧ cs = args ++ closing := by
  fun_induction paramsEnd? cs generalizing n with
  | case1 cs _ _ =>
      cases h
      exact ⟨[], [], .nil n, rfl⟩
  | case2 => cases h
  | case3 cs more hparam ih =>
      obtain ⟨piece, type, name, hpair, rfl⟩ := afterParam?_pairText hparam
      obtain ⟨args, params, hlist, rfl⟩ := ih h (n + 1)
      exact ⟨_, _, .cons hpair hlist, by simp⟩
  | case4 cs more hparam =>
      cases h
      obtain ⟨piece, type, name, hpair, rfl⟩ := afterParam?_pairText hparam
      exact ⟨_, _, .last hpair, rfl⟩
  | case5 => cases h

/-- Behind a pair the scanner stops at a mark, with which neither white space nor the name
goes on. -/
theorem afterParam?_of_pairText {piece type name : List Char} (mark : Char)
    (h : PairText piece type name) (hblank : isBlank mark = false)
    (hword : isWord mark = false) (tail : List Char) :
    afterParam? (piece ++ mark :: tail) = some (mark :: tail) := by
  generalize hrest : mark :: tail = rest
  have hblank : StopsAt isBlank rest := hrest ▸ stopsAt_cons.mpr hblank
  have hword : StopsAt isWord rest := hrest ▸ stopsAt_cons.mpr hword
  cases h with
  | @mk before _ between _ after hbefore htypeNe htype hbetweenNe hbetween hnameNe hname hafter =>
      have hnameStart : StopsAt isBlank (name ++ (after ++ rest)) :=
        (stopsAt_append_of_ne_nil hnameNe).mpr
          (hname.mono fun _ => isNamePart_of_isWord).stopsAt_isBlank
      have htypeStart : StopsAt isBlank (type ++ (between ++ (name ++ (after ++ rest)))) :=
        (stopsAt_append_of_ne_nil htypeNe).mpr htype.stopsAt_isBlank
      have htypeEnd : StopsAt isNamePart (between ++ (name ++ (after ++ rest))) :=
        (stopsAt_append_of_ne_nil hbetweenNe).mpr hbetween.stopsAt_isNamePart
      have hnameEnd : StopsAt isWord (after ++ rest) :=
        .of_disjoint hafter hword fun _ => isWord_eq_false_of_isBlank
      simp only [List.append_assoc]
      rw [afterParam?, afterBlanks_append hbefore, afterBlanks_of_stopsAt htypeStart]
      refine Option.bind_eq_some_iff.mpr
        ⟨_, run?_eq_some_iff_append.mpr ⟨htypeNe, htype, htypeEnd, rfl⟩, ?_⟩
      refine Option.bind_eq_some_iff.mpr
        ⟨_, afterSpace?_eq_some_iff.mpr ⟨between, hbetweenNe, hbetween, hnameStart, rfl⟩, ?_⟩
      refine Option.map_eq_some_iff.mpr
        ⟨_, run?_eq_some_iff_append.mpr ⟨hnameNe, hname, hnameEnd, rfl⟩, ?_⟩
      rw [afterBlanks_append hafter, afterBlanks_of_stopsAt hblank]

/-- The scanner ends at the parenthesis behind the list. -/
theorem paramsEnd?_of_paramList {n : Nat} {args : List Char} {params : List Param}
    (h : ParamList n args params) (rest : List Char) :
    paramsEnd? (args ++ ')' :: rest) = some (')' :: rest) := by
  induction h with
  | nil n =>
      have hnone : afterParam? (')' :: rest) = none := by
        have hname : name? (')' :: rest) = none :=
          run?_eq_none_of_stopsAt (stopsAt_cons.mpr (by decide))
        rw [afterParam?, afterBlanks_of_stopsAt (stopsAt_cons.mpr (by decide)), hname]
        rfl
      exact paramsEnd?_of_none hnone
  | last hpair =>
      have hread := afterParam?_of_pairText ')' hpair (by decide) (by decide) rest
      exact paramsEnd?_of_ne hread (by simp)
  | @cons n piece type name tail params hpair _ ih =>
      have hread := afterParam?_of_pairText ',' hpair (by decide) (by decide)
        (tail ++ ')' :: rest)
      rw [List.append_assoc, List.cons_append, paramsEnd?_of_comma hread]
      exact ih

/-- **What stands between parentheses is captured exactly where it is a parameter list.** -/
theorem params?_eq_some_iff {cs args rest : List Char} :
    params? cs = some (args, rest) ↔
      (∃ params, ParamList 0 args params) ∧ cs = '(' :: (args ++ ')' :: rest) := by
  constructor
  · intro h
    obtain ⟨inner, hinner, h⟩ := Option.bind_eq_some_iff.mp h
    obtain ⟨closing, hclosing, h⟩ := Option.bind_eq_some_iff.mp h
    obtain ⟨last, hlast, hp⟩ := Option.map_eq_some_iff.mp h
    cases hp
    have hend : closing = ')' :: rest := literal?_eq_some_iff.mp hlast
    obtain ⟨args, params, hlist, rfl⟩ := paramsEnd?_paramList hclosing 0
    rw [literal?_eq_some_iff.mp hinner, consumed_append_left, hend]
    exact ⟨⟨params, hlist⟩, rfl⟩
  · rintro ⟨⟨params, hlist⟩, rfl⟩
    have hopen : literal? "(" ('(' :: (args ++ ')' :: rest)) = some (args ++ ')' :: rest) :=
      literal?_eq_some_iff.mpr rfl
    have hclose : literal? ")" (')' :: rest) = some rest := literal?_eq_some_iff.mpr rfl
    rw [params?, hopen, Option.bind_some, paramsEnd?_of_paramList hlist, Option.bind_some, hclose,
      Option.map_some, consumed_append_left]

/-! ## The words of a pair -/

theorem isNamePart_comma : isNamePart ',' = false := by decide

theorem isBlank_comma : isBlank ',' = false := by decide

theorem not_comma_of_isNamePart {c : Char} (h : isNamePart c = true) : (!(c == ',')) = true := by
  simp only [Bool.not_eq_true', beq_eq_false_iff_ne, ne_eq]
  rintro rfl
  rw [isNamePart_comma] at h
  cases h

theorem not_comma_of_isBlank {c : Char} (h : isBlank c = true) : (!(c == ',')) = true := by
  simp only [Bool.not_eq_true', beq_eq_false_iff_ne, ne_eq]
  rintro rfl
  rw [isBlank_comma] at h
  cases h

theorem not_isBlank_of_isNamePart {c : Char} (h : isNamePart c = true) :
    (!isBlank c) = true := by
  rw [isBlank_eq_false_of_isNamePart h]
  rfl

namespace PairText

variable {piece type name : List Char}

/-- A pair holds no comma. -/
theorem no_comma (h : PairText piece type name) : AllIn (fun c => !(c == ',')) piece := by
  cases h with
  | mk hbefore _ htype _ hbetween _ hname hafter =>
      have hword : ∀ c, isWord c = true → (!(c == ',')) = true :=
        fun c hc => not_comma_of_isNamePart (isNamePart_of_isWord hc)
      simp only [allIn_append]
      exact ⟨⟨⟨⟨hbefore.mono fun _ => not_comma_of_isBlank,
        htype.mono fun _ => not_comma_of_isNamePart⟩,
        hbetween.mono fun _ => not_comma_of_isBlank⟩, hname.mono hword⟩,
        hafter.mono fun _ => not_comma_of_isBlank⟩

/-- Trimming leaves the two words with the white space between them. -/
theorem trim (h : PairText piece type name) :
    ∃ between, between ≠ [] ∧ AllIn isBlank between ∧
      Text.trim piece = type ++ between ++ name := by
  cases h with
  | @mk before type between name after hbefore htypeNe htype hbetweenNe hbetween hnameNe hname
      hafter =>
      refine ⟨between, hbetweenNe, hbetween, ?_⟩
      have hstart : StopsAt isBlank (type ++ between ++ name) := by
        rw [List.append_assoc, stopsAt_append_of_ne_nil htypeNe]
        exact htype.stopsAt_isBlank
      have hend : ∀ c ∈ (type ++ between ++ name).getLast?, isBlank c = false := by
        intro c hc
        rw [List.getLast?_append_of_ne_nil _ hnameNe] at hc
        exact isBlank_eq_false_of_isNamePart
          (isNamePart_of_isWord (hname c (List.mem_of_mem_getLast? hc)))
      have hcore : type ++ between ++ name ≠ [] := by simp [htypeNe]
      have htrim := trim_append hbefore hafter hcore hstart hend
      simpa using htrim

/-- The two words of a pair are its words. -/
theorem wordsOf_trim (h : PairText piece type name) :
    wordsOf (Text.trim piece) = [type, name] := by
  obtain ⟨between, hne, hbetween, htrim⟩ := h.trim
  obtain ⟨s, between, rfl⟩ := List.exists_cons_of_ne_nil hne
  obtain ⟨hs, hbetween⟩ := allIn_cons.mp hbetween
  cases h with
  | mk _ htypeNe htype _ _ hnameNe hname _ =>
      rw [htrim, List.append_assoc, List.cons_append,
        wordsOf_append_cons htypeNe (htype.mono fun _ => not_isBlank_of_isNamePart) hs,
        wordsOf_append_of_allIn hbetween,
        wordsOf_of_allIn hnameNe (hname.mono fun _ hc =>
          not_isBlank_of_isNamePart (isNamePart_of_isWord hc))]

theorem trim_ne_nil (h : PairText piece type name) : Text.trim piece ≠ [] := by
  obtain ⟨between, _, _, htrim⟩ := h.trim
  rw [htrim]
  cases h
  simp [*]

/-- Reading the piece back gives the parameter of the pair, once its type has passed. -/
theorem ofPiece (h : PairText piece type name) (n : Nat) :
    Param.ofPiece (Text.trim piece) n = (do
      (Param.ofPair type name n).type.checkParam (Param.ofPair type name n).name
      return .ofPair type name n) := by
  simp only [Param.ofPiece, h.wordsOf_trim]
  rfl

end PairText

/-! ## Types in parameter lists -/

/-- A qualified name has no marks, so the word alone tells the type. -/
theorem IdlType.ofToken_eq_of_allIn {type : List Char} (hne : type ≠ [])
    (htype : AllIn isNamePart type) :
    IdlType.ofToken (String.ofList type) =
      if String.ofList type = "void" then .void
      else
        match Primitive.ofKeyword? (String.ofList type) with
        | some kind => .primitive kind
        | none => .object (String.ofList type) := by
  have htrim : trim type = type :=
    trim_of_allIn_not hne (htype.mono fun _ => not_isBlank_of_isNamePart)
  have hangles : ¬ InAngles (trim type) := by
    rintro ⟨inner, h⟩
    have hmark : '<' ∈ type := by rw [← htrim, h]; simp
    exact absurd (htype _ hmark) (by decide)
  have hamp : ∀ name, trim type ≠ name ++ ['&'] := by
    intro name h
    have hmark : '&' ∈ type := by rw [← htrim, h]; simp
    exact absurd (htype _ hmark) (by decide)
  have hread := ofToken_word hangles hamp
  rw [htrim] at hread
  exact hread

/-- The token of a qualified name is one of the three forms without marks. -/
theorem IdlType.ofToken_of_allIn {type : List Char} (hne : type ≠ [])
    (htype : AllIn isNamePart type) :
    IdlType.ofToken (String.ofList type) = .void ∨
      (∃ kind, IdlType.ofToken (String.ofList type) = .primitive kind) ∨
      IdlType.ofToken (String.ofList type) = .object (String.ofList type) := by
  rw [IdlType.ofToken_eq_of_allIn hne htype]
  split
  · exact Or.inl rfl
  · split
    · next kind _ => exact Or.inr (Or.inl ⟨kind, rfl⟩)
    · exact Or.inr (Or.inr rfl)

/-- The type of a qualified name is spelled like the name. -/
theorem IdlType.spelling_ofToken {type : List Char} (hne : type ≠ [])
    (htype : AllIn isNamePart type) :
    (IdlType.ofToken (String.ofList type)).spelling = String.ofList type := by
  rw [IdlType.ofToken_eq_of_allIn hne htype]
  split
  · next hvoid => exact hvoid.symm
  · split
    · next kind hkind => exact Primitive.keyword_of_ofKeyword? hkind
    · rfl

theorem IdlType.ofToken_eq_void_iff {type : List Char} (hne : type ≠ [])
    (htype : AllIn isNamePart type) :
    IdlType.ofToken (String.ofList type) = .void ↔ type = "void".toList := by
  constructor
  · intro h
    have hspelling := IdlType.spelling_ofToken hne htype
    rw [h] at hspelling
    rw [← String.toList_ofList (l := type), ← hspelling]
    rfl
  · rintro rfl
    rfl

theorem PairText.ofToken_type {piece type name : List Char} (h : PairText piece type name) :
    IdlType.ofToken (String.ofList type) = .void ∨
      (∃ kind, IdlType.ofToken (String.ofList type) = .primitive kind) ∨
      IdlType.ofToken (String.ofList type) = .object (String.ofList type) := by
  cases h with
  | mk _ hne htype => exact IdlType.ofToken_of_allIn hne htype

/-- Of the types that a pair can name, only `void` may not be a parameter. -/
theorem PairText.ofPiece_eq_ok_iff {piece type name : List Char} (h : PairText piece type name)
    {n : Nat} {p : Param} :
    Param.ofPiece (Text.trim piece) n = .ok p ↔
      p = .ofPair type name n ∧ (Param.ofPair type name n).type ≠ .void := by
  rw [h.ofPiece]
  have htype : (Param.ofPair type name n).type = .ofToken (String.ofList type) := rfl
  rcases h.ofToken_type with hvoid | ⟨kind, hkind⟩ | hobject
  · simp [htype, hvoid, IdlType.checkParam, bind, Except.bind]
  · simp [htype, hkind, IdlType.checkParam, bind, Except.bind, pure, Except.pure, eq_comm]
  · simp [htype, hobject, IdlType.checkParam, bind, Except.bind, pure, Except.pure, eq_comm]

/-! ## Reading the list back -/

theorem PairText.piecesOf {piece type name : List Char} (h : PairText piece type name) :
    Param.piecesOf piece = [Text.trim piece] := by
  simp [Param.piecesOf, pieces_of_allIn h.no_comma, h.trim_ne_nil]

theorem PairText.piecesOf_append {piece type name rest : List Char}
    (h : PairText piece type name) :
    Param.piecesOf (piece ++ ',' :: rest) = Text.trim piece :: Param.piecesOf rest := by
  have hpieces : pieces (· == ',') (piece ++ ',' :: rest) = piece :: pieces (· == ',') rest :=
    pieces_append_cons h.no_comma rfl
  simp [Param.piecesOf, hpieces, h.trim_ne_nil]

/-- The pieces between commas give the listed parameters, unless one of these is `void`. -/
theorem ParamList.mapM_ofPiece_eq_ok_iff {n : Nat} {args : List Char} {params qs : List Param}
    (h : ParamList n args params) :
    ((Param.piecesOf args).zipIdx n).mapM (fun p => Param.ofPiece p.1 p.2) = .ok qs ↔
      qs = params ∧ ∀ p ∈ params, p.type ≠ .void := by
  rw [Traversal.mapM_eq_ok_iff]
  induction h generalizing qs with
  | nil n =>
      have hpieces : Param.piecesOf [] = [] := rfl
      rw [hpieces, List.zipIdx_nil, List.forall₂_nil_left_iff]
      simp
  | last hpair =>
      rw [hpair.piecesOf, List.zipIdx_singleton, List.forall₂_cons_left_iff]
      simp only [hpair.ofPiece_eq_ok_iff, List.forall₂_nil_left_iff, List.mem_singleton,
        forall_eq]
      constructor
      · rintro ⟨q, rest, ⟨rfl, hvoid⟩, rfl, rfl⟩
        exact ⟨rfl, hvoid⟩
      · rintro ⟨rfl, hvoid⟩
        exact ⟨_, [], ⟨rfl, hvoid⟩, rfl, rfl⟩
  | cons hpair _ ih =>
      rw [hpair.piecesOf_append, List.zipIdx_cons, List.forall₂_cons_left_iff]
      simp only [hpair.ofPiece_eq_ok_iff, ih, List.forall_mem_cons]
      constructor
      · rintro ⟨q, rest, ⟨rfl, hvoid⟩, ⟨rfl, hrest⟩, rfl⟩
        exact ⟨rfl, hvoid, hrest⟩
      · rintro ⟨rfl, hvoid, hrest⟩
        exact ⟨_, _, ⟨rfl, hvoid⟩, ⟨rfl, hrest⟩, rfl⟩

/-- **A parameter list is read back as what it declares, and only `void` is refused.** -/
theorem ParamList.listOfText_eq_ok_iff {args : List Char} {params qs : List Param}
    (h : ParamList 0 args params) :
    Param.listOfText args = .ok qs ↔ qs = params ∧ ∀ p ∈ params, p.type ≠ .void :=
  h.mapM_ofPiece_eq_ok_iff

/-- A captured list is read as `qs` exactly when it declares `qs`, without `void`. -/
theorem listOfText_eq_ok_iff_paramList {cs args rest : List Char} {qs : List Param}
    (h : params? cs = some (args, rest)) :
    Param.listOfText args = .ok qs ↔ ParamList 0 args qs ∧ ∀ p ∈ qs, p.type ≠ .void := by
  obtain ⟨⟨params, hlist⟩, _⟩ := params?_eq_some_iff.mp h
  constructor
  · intro hread
    obtain ⟨rfl, hvoid⟩ := hlist.listOfText_eq_ok_iff.mp hread
    exact ⟨hlist, hvoid⟩
  · rintro ⟨hqs, hvoid⟩
    exact hqs.listOfText_eq_ok_iff.mpr ⟨rfl, hvoid⟩

end IdlGlue
