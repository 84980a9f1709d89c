/-
# IdlGlue.Proofs.LooseList -- parameter lists in which a type may be `anyof<Set>`

No parameter may be of a type `anyof<Set>`, and a list with such a parameter is refused by that
name, if the token is read whole. Types and names are told apart by white space, and a token may
hold white space inside its brackets, so it can come apart instead:

| pair          | words                  | read back as                         |
|---------------|------------------------|--------------------------------------|
| `anyof<S> x`  | `anyof<S>`, `x`        | refused: the type `anyof<S>` of `x`  |
| `anyof< S> x` | `anyof<`, `S>`, `x`    | a parameter of the class `anyof<`    |
| `anyof<S > x` | `anyof<S`, `>`, `x`    | a parameter of the class `anyof<S`   |

`LooseList` is the language of parameter lists with these tokens among the types. What a list is
read back as goes by the first words of its types (`LoosePair.ofPiece`), and then pair by pair.
-/
import IdlGlue.Proofs.Names

namespace IdlGlue

open IdlGlue.Text IdlGlue.Scan IdlGlue.Statement

/-! ## Tokens -/

namespace AnyOfToken

variable {token set : List Char}

/-- A token begins with a letter. -/
theorem start (h : AnyOfToken token set) : token ≠ [] ∧ StopsAt isBlank token := by
  cases h with
  | mk _ _ _ _ => exact ⟨by simp, stopsAt_cons.mpr (by decide)⟩

theorem mem_less (h : AnyOfToken token set) : '<' ∈ token := by
  cases h with
  | mk _ _ _ _ => simp

end AnyOfToken

/-! ## First words -/

/-- There is no white space in the text. -/
def Tight (cs : List Char) : Prop := AllIn (fun c => !isBlank c) cs

instance (cs : List Char) : Decidable (Tight cs) :=
  inferInstanceAs (Decidable (AllIn _ cs))

/-- The text up to its first white space. -/
def firstWord (cs : List Char) : List Char := cs.takeWhile fun c => !isBlank c

theorem tight_firstWord (cs : List Char) : Tight (firstWord cs) :=
  fun _ hc => List.mem_takeWhile_imp (p := fun c => !isBlank c) hc

theorem firstWord_of_tight {cs : List Char} (h : Tight cs) : firstWord cs = cs :=
  List.takeWhile_eq_self_iff.mpr h

theorem tight_of_allIn {cs : List Char} (h : AllIn isNamePart cs) : Tight cs :=
  h.mono fun _ => not_isBlank_of_isNamePart

/-- Before white space a text counts up to its own first white space only. -/
theorem firstWord_append {cs between rest : List Char} (hne : between ≠ [])
    (hbetween : AllIn isBlank between) : firstWord (cs ++ (between ++ rest)) = firstWord cs := by
  have hstop : (between ++ rest).takeWhile (fun c => !isBlank c) = [] := by
    obtain ⟨c, between, rfl⟩ := List.exists_cons_of_ne_nil hne
    rw [List.cons_append, List.takeWhile_cons_of_neg]
    simp [(allIn_cons.mp hbetween).1]
  rw [firstWord, List.takeWhile_append, hstop, List.append_nil]
  split
  · next hlength =>
      exact (List.takeWhile_sublist _).eq_of_length hlength |>.symm
  · rfl

/-- The first word of a text is its first word. -/
theorem headD_wordsOf {cs : List Char} (hne : cs ≠ []) (hstart : StopsAt isBlank cs) :
    (wordsOf cs).headD [] = firstWord cs := by
  have hword : firstWord cs ≠ [] := by
    obtain ⟨c, cs, rfl⟩ := List.exists_cons_of_ne_nil hne
    rw [firstWord, List.takeWhile_cons_of_pos (by simp [stopsAt_cons.mp hstart])]
    exact List.cons_ne_nil _ _
  have hcut : firstWord cs ++ cs.dropWhile (fun c => !isBlank c) = cs :=
    List.takeWhile_append_dropWhile
  have hrest : StopsAt (fun c => !isBlank c) (cs.dropWhile fun c => !isBlank c) := stopsAt_dropWhile
  cases hdrop : cs.dropWhile fun c => !isBlank c with
  | nil =>
      rw [hdrop, List.append_nil] at hcut
      have hwords := wordsOf_of_allIn hword (tight_firstWord cs)
      rw [hcut] at hwords ⊢
      rw [hwords]
      rfl
  | cons c rest =>
      rw [hdrop] at hcut hrest
      have hc : isBlank c = true := by simpa using stopsAt_cons.mp hrest
      conv_lhs => rw [← hcut]
      rw [wordsOf_append_cons hword (tight_firstWord cs) hc]
      rfl

/-- A token without white space is the set between its brackets. -/
theorem AnyOfToken.eq_of_tight {token set : List Char} (h : AnyOfToken token set)
    (htight : Tight token) : token = "anyof<".toList ++ set ++ ['>'] := by
  have hnil {w : List Char} (hw : AllIn isBlank w) (hw' : Tight w) : w = [] := by
    rw [List.eq_nil_iff_forall_not_mem]
    intro c hc
    have hnone : (!isBlank c) = true := hw' c hc
    rw [hw c hc] at hnone
    cases hnone
  cases h with
  | mk hbefore _ _ hafter =>
      obtain ⟨⟨_, ⟨hbefore', _⟩, hafter'⟩, _⟩ := by
        simpa only [Tight, allIn_append] using htight
      rw [hnil hbefore hbefore', hnil hafter hafter', List.nil_append, List.append_nil]

/-- The token comes apart at its first white space, behind the bracket or behind the set. -/
theorem AnyOfToken.firstWord_cases {token set : List Char} (h : AnyOfToken token set)
    (hloose : ¬Tight token) :
    ∃ part, AllIn isNamePart part ∧ firstWord token = "anyof<".toList ++ part := by
  have hanyOf : Tight "anyof<".toList := by decide +kernel
  cases h with
  | @mk before _ after hbefore hne hset hafter =>
      cases before with
      | cons b before =>
          refine ⟨[], allIn_nil, ?_⟩
          have hsplit : firstWord ("anyof<".toList ++ (b :: before ++ (set ++ after ++ ['>']))) =
              firstWord "anyof<".toList :=
            firstWord_append (List.cons_ne_nil b before) hbefore
          rw [firstWord_of_tight hanyOf] at hsplit
          rw [List.append_nil, List.append_assoc, List.append_assoc (b :: before),
            List.append_assoc (b :: before)]
          exact hsplit
      | nil =>
          have htight : Tight ("anyof<".toList ++ set) :=
            allIn_append.mpr ⟨hanyOf, tight_of_allIn hset⟩
          cases after with
          | cons a after =>
              refine ⟨set, hset, ?_⟩
              have hsplit : firstWord ("anyof<".toList ++ set ++ (a :: after ++ ['>'])) =
                  firstWord ("anyof<".toList ++ set) :=
                firstWord_append (List.cons_ne_nil a after) hafter
              rw [firstWord_of_tight htight] at hsplit
              rw [List.nil_append, List.append_assoc, List.append_assoc set, ← List.append_assoc]
              exact hsplit
          | nil =>
              refine absurd ?_ hloose
              rw [List.nil_append, List.append_nil]
              exact allIn_append.mpr ⟨htight, by decide +kernel⟩

/-- No keyword holds a bracket. -/
theorem ofKeyword?_eq_none {word : String} (h : '<' ∈ word.toList) :
    Primitive.ofKeyword? word = none := by
  rw [Option.eq_none_iff_forall_ne_some]
  intro kind hkind
  unfold Primitive.ofKeyword? at hkind
  split at hkind
  · exact absurd h (by decide)
  · exact absurd h (by decide)
  · exact absurd h (by decide)
  · exact absurd h (by decide)
  · exact absurd h (by decide)
  · cases hkind

/-- What is left of such a token is taken for the name of a class. -/
theorem AnyOfToken.ofToken_firstWord {token set : List Char} (h : AnyOfToken token set)
    (hloose : ¬Tight token) :
    IdlType.ofToken (String.ofList (firstWord token)) =
      .object (String.ofList (firstWord token)) := by
  obtain ⟨part, hpart, hword⟩ := h.firstWord_cases hloose
  have hne : firstWord token ≠ [] := by
    rw [hword]
    exact List.cons_ne_nil _ _
  have htrim : trim (String.ofList (firstWord token)).toList = firstWord token := by
    rw [String.toList_ofList]
    exact trim_of_allIn_not hne (tight_firstWord token)
  have hclose : dropSuffix? '>' part = none := by
    unfold dropSuffix?
    rw [if_neg]
    intro hlast
    exact absurd (hpart _ (List.mem_of_getLast? hlast)) (by decide)
  have hset : IdlType.anyOfSet? (firstWord token) = none := by
    rw [IdlType.anyOfSet?, hword, dropStart?_eq_some_iff.mpr rfl]
    exact hclose
  have hreference : dropSuffix? '&' (firstWord token) = none := by
    unfold dropSuffix?
    rw [hword, if_neg]
    intro hlast
    rcases List.mem_append.mp (List.mem_of_getLast? hlast) with hmem | hmem
    · exact absurd hmem (by decide)
    · exact absurd (hpart _ hmem) (by decide)
  have hmark : '<' ∈ (String.ofList (firstWord token)).toList := by
    rw [String.toList_ofList, hword]
    exact List.mem_append_left _ (by decide)
  have hvoid : String.ofList (firstWord token) ≠ "void" := by
    intro heq
    rw [heq] at hmark
    exact absurd hmark (by decide)
  simp only [IdlType.ofToken, htrim, hset, hreference, hvoid, ofKeyword?_eq_none hmark, if_false]

/-! ## Lists -/

/-- A `type name` pair whose type may also be `anyof<Set>`. -/
inductive LoosePair : List Char → List Char → List Char → Prop
  | plain {piece type name : List Char} : PairText piece type name → LoosePair piece type name
  | anyOf {before type set between name after : List Char} :
      AllIn isBlank before → AnyOfToken type set → between ≠ [] → AllIn isBlank between →
      name ≠ [] → AllIn isWord name → AllIn isBlank after →
      LoosePair (before ++ type ++ between ++ name ++ after) type name

/-- Pairs between commas, with a comma behind the last of them or not, and their types and
names. -/
inductive LooseList : List Char → List (List Char × List Char) → Prop
  | nil : LooseList [] []
  | last {piece type name : List Char} : LoosePair piece type name →
      LooseList piece [(type, name)]
  | cons {piece type name rest : List Char} {pairs : List (List Char × List Char)} :
      LoosePair piece type name → LooseList rest pairs →
      LooseList (piece ++ ',' :: rest) ((type, name) :: pairs)

/-- A character of a parameter list other than a comma. -/
def isLoose (c : Char) : Bool := isNamePart c || isBlank c || c == '<' || c == '>'

theorem isLoose_of_isNamePart {c : Char} (h : isNamePart c = true) : isLoose c = true := by
  simp [isLoose, h]

theorem isLoose_of_isBlank {c : Char} (h : isBlank c = true) : isLoose c = true := by
  simp [isLoose, h]

theorem AnyOfToken.allIn {token set : List Char} (h : AnyOfToken token set) :
    AllIn isLoose token := by
  cases h with
  | mk hbefore _ hset hafter =>
      simp only [allIn_append]
      exact ⟨⟨by decide +kernel, ⟨hbefore.mono fun _ => isLoose_of_isBlank,
        hset.mono fun _ => isLoose_of_isNamePart⟩, hafter.mono fun _ => isLoose_of_isBlank⟩,
        by decide +kernel⟩

namespace LoosePair

variable {piece type name : List Char}

/-- The parts of a pair: a type and a name that begin and end as words do. -/
theorem parts (h : LoosePair piece type name) :
    ∃ before between after, AllIn isBlank before ∧ between ≠ [] ∧ AllIn isBlank between ∧
      AllIn isBlank after ∧ type ≠ [] ∧ StopsAt isBlank type ∧ AllIn isLoose type ∧
      name ≠ [] ∧ AllIn isWord name ∧ piece = before ++ type ++ between ++ name ++ after := by
  cases h with
  | plain hpair =>
      cases hpair with
      | mk hbefore htypeNe htype hbetweenNe hbetween hnameNe hname hafter =>
          exact ⟨_, _, _, hbefore, hbetweenNe, hbetween, hafter, htypeNe, htype.stopsAt_isBlank,
            htype.mono fun _ => isLoose_of_isNamePart, hnameNe, hname, rfl⟩
  | anyOf hbefore htoken hbetweenNe hbetween hnameNe hname hafter =>
      exact ⟨_, _, _, hbefore, hbetweenNe, hbetween, hafter, htoken.start.1, htoken.start.2,
        htoken.allIn, hnameNe, hname, rfl⟩

theorem allIn (h : LoosePair piece type name) : AllIn isLoose piece := by
  obtain ⟨before, between, after, hbefore, _, hbetween, hafter, _, _, htype, _, hname, rfl⟩ :=
    h.parts
  simp only [allIn_append]
  exact ⟨⟨⟨⟨hbefore.mono fun _ => isLoose_of_isBlank, htype⟩,
    hbetween.mono fun _ => isLoose_of_isBlank⟩,
    hname.mono fun _ hc => isLoose_of_isNamePart (isNamePart_of_isWord hc)⟩,
    hafter.mono fun _ => isLoose_of_isBlank⟩

theorem no_comma (h : LoosePair piece type name) : AllIn (fun c => !(c == ',')) piece := by
  refine h.allIn.mono fun c hc => ?_
  simp only [Bool.not_eq_true', beq_eq_false_iff_ne, ne_eq]
  rintro rfl
  exact absurd hc (by decide +kernel)

/-- Trimming leaves the type, the white space behind it and the name. -/
theorem trim (h : LoosePair piece type name) :
    ∃ between, between ≠ [] ∧ AllIn isBlank between ∧
      Text.trim piece = type ++ (between ++ name) := by
  obtain ⟨before, between, after, hbefore, hbetweenNe, hbetween, hafter, htypeNe, hstart, _,
    hnameNe, hname, rfl⟩ := h.parts
  refine ⟨between, hbetweenNe, hbetween, ?_⟩
  have hend : ∀ c ∈ (type ++ (between ++ name)).getLast?, isBlank c = false := by
    intro c hc
    rw [← List.append_assoc, List.getLast?_append_of_ne_nil _ hnameNe] at hc
    exact isBlank_eq_false_of_isNamePart
      (isNamePart_of_isWord (hname c (List.mem_of_mem_getLast? hc)))
  have hne : type ++ (between ++ name) ≠ [] := by simp [htypeNe]
  have htrim := trim_append hbefore hafter hne
    ((stopsAt_append_of_ne_nil htypeNe).mpr hstart) hend
  rw [← htrim]
  simp only [List.append_assoc]

theorem trim_ne_nil (h : LoosePair piece type name) : Text.trim piece ≠ [] := by
  obtain ⟨between, _, _, htrim⟩ := h.trim
  obtain ⟨_, _, _, _, _, _, _, htypeNe, _⟩ := h.parts
  rw [htrim]
  simp [htypeNe]

/-- **Of the type of a pair only the first word is read back**; the name is read back where the
type is a single word. -/
theorem ofPiece (h : LoosePair piece type name) (n : Nat) :
    ∃ second, (Tight type → second = name) ∧ Param.ofPiece (Text.trim piece) n = (do
      (IdlType.ofToken (String.ofList (firstWord type))).checkParam (String.ofList second)
      return .ofPair (firstWord type) second n) := by
  obtain ⟨between, hne, hbetween, htrim⟩ := h.trim
  obtain ⟨_, _, _, _, _, _, _, htypeNe, hstart, _, hnameNe, hname, _⟩ := h.parts
  have hfirst : (wordsOf (Text.trim piece)).headD [] = firstWord type := by
    rw [htrim, headD_wordsOf (by simp [htypeNe]) ((stopsAt_append_of_ne_nil htypeNe).mpr hstart),
      firstWord_append hne hbetween]
  refine ⟨(wordsOf (Text.trim piece)).tail.headD [], ?_, ?_⟩
  · intro htight
    obtain ⟨s, between, rfl⟩ := List.exists_cons_of_ne_nil hne
    obtain ⟨hs, hbetween⟩ := allIn_cons.mp hbetween
    rw [htrim, List.cons_append, wordsOf_append_cons htypeNe htight hs,
      wordsOf_append_of_allIn hbetween, wordsOf_of_allIn hnameNe]
    · rfl
    · exact tight_of_allIn (hname.mono fun _ => isNamePart_of_isWord)
  · rw [Param.ofPiece, hfirst]
    rfl

theorem piecesOf (h : LoosePair piece type name) : Param.piecesOf piece = [Text.trim piece] := by
  simp [Param.piecesOf, pieces_of_allIn h.no_comma, h.trim_ne_nil]

theorem piecesOf_append {rest : List Char} (h : LoosePair piece type name) :
    Param.piecesOf (piece ++ ',' :: rest) = Text.trim piece :: Param.piecesOf rest := by
  have hpieces : pieces (· == ',') (piece ++ ',' :: rest) = piece :: pieces (· == ',') rest :=
    pieces_append_cons h.no_comma rfl
  simp [Param.piecesOf, hpieces, h.trim_ne_nil]

end LoosePair

/-! ## Reading a list back -/

/-- A type that a parameter may have: a qualified name other than `void`. -/
structure PlainType (type : List Char) : Prop where
  nonempty : type ≠ []
  chars : AllIn isNamePart type
  notVoid : IdlType.ofToken (String.ofList type) ≠ .void

/-- What is read of the type may be the type of a parameter. -/
def Passes (type : List Char) : Prop :=
  (∃ kind, IdlType.ofToken (String.ofList (firstWord type)) = .primitive kind) ∨
    ∃ name, IdlType.ofToken (String.ofList (firstWord type)) = .object name

theorem PlainType.passes {type : List Char} (h : PlainType type) : Passes type := by
  rw [Passes, firstWord_of_tight (tight_of_allIn h.chars)]
  rcases IdlType.ofToken_of_allIn h.nonempty h.chars with hvoid | hkind | hobject
  · exact absurd hvoid h.notVoid
  · exact Or.inl hkind
  · exact Or.inr ⟨_, hobject⟩

theorem AnyOfToken.passes {type set : List Char} (h : AnyOfToken type set) (hloose : ¬Tight type) :
    Passes type :=
  Or.inr ⟨_, h.ofToken_firstWord hloose⟩

/-- The parameter has the type that is read of the pair. -/
def ReadOf (pair : List Char × List Char) (p : Param) : Prop :=
  p.type = .ofToken (String.ofList (firstWord pair.1))

theorem LoosePair.ofPiece_eq_ok {piece type name : List Char} (h : LoosePair piece type name)
    (n : Nat) (hpass : Passes type) :
    ∃ p, Param.ofPiece (Text.trim piece) n = .ok p ∧ ReadOf (type, name) p := by
  obtain ⟨second, _, hread⟩ := h.ofPiece n
  refine ⟨.ofPair (firstWord type) second n, ?_, by rw [ReadOf, Param.ofPair]⟩
  rw [hread]
  rcases hpass with ⟨kind, htype⟩ | ⟨object, htype⟩
  · rw [htype]
    rfl
  · rw [htype]
    rfl

/-- A token that is read whole is refused as what it is. -/
theorem LoosePair.ofPiece_eq_error {piece type name set : List Char}
    (h : LoosePair piece type name) (n : Nat) (htoken : AnyOfToken type set)
    (htight : Tight type) :
    Param.ofPiece (Text.trim piece) n =
      .error (.unsupportedType (String.ofList type) (.parameter (String.ofList name))) := by
  obtain ⟨second, hsecond, hread⟩ := h.ofPiece n
  have hspelling : (IdlType.anyOf (String.ofList set)).spelling = String.ofList type := by
    rw [htoken.eq_of_tight htight, ← String.toList_inj]
    simp [IdlType.spelling]
  rw [hread, firstWord_of_tight htight, htoken.ofToken, hsecond htight, ← hspelling]
  rfl

/-- The pieces between the commas of a list are its pairs. -/
theorem LooseList.piecesOf {args : List Char} {pairs : List (List Char × List Char)}
    (h : LooseList args pairs) :
    List.Forall₂ (fun pair trimmed => ∃ piece, LoosePair piece pair.1 pair.2 ∧
      trimmed = Text.trim piece) pairs (Param.piecesOf args) := by
  induction h with
  | nil => exact .nil
  | last hpair =>
      rw [hpair.piecesOf]
      exact .cons ⟨_, hpair, rfl⟩ .nil
  | cons hpair _ ih =>
      rw [hpair.piecesOf_append]
      exact .cons ⟨_, hpair, rfl⟩ ih

section Pieces

variable {pairs before : List (List Char × List Char)} {pieces : List (List Char)}

theorem mapM_ofPiece_eq_ok
    (h : List.Forall₂ (fun pair trimmed => ∃ piece, LoosePair piece pair.1 pair.2 ∧
      trimmed = Text.trim piece) pairs pieces) (hpass : ∀ pair ∈ pairs, Passes pair.1) (n : Nat) :
    ∃ params, (pieces.zipIdx n).mapM (fun p => Param.ofPiece p.1 p.2) = .ok params ∧
      List.Forall₂ ReadOf pairs params := by
  induction h generalizing n with
  | nil => exact ⟨[], rfl, .nil⟩
  | cons hpiece _ ih =>
      obtain ⟨piece, hpair, rfl⟩ := hpiece
      obtain ⟨hfirst, hothers⟩ := List.forall_mem_cons.mp hpass
      obtain ⟨p, hp, hread⟩ := hpair.ofPiece_eq_ok n hfirst
      obtain ⟨params, hparams, hreads⟩ := ih hothers (n + 1)
      refine ⟨p :: params, ?_, .cons hread hreads⟩
      rw [List.zipIdx_cons, List.mapM_cons, hp, hparams]
      rfl

/-- The first pair that is refused is told. -/
theorem mapM_ofPiece_eq_error {pair : List Char × List Char}
    {after : List (List Char × List Char)} {e : Fault}
    (h : List.Forall₂ (fun pair trimmed => ∃ piece, LoosePair piece pair.1 pair.2 ∧
      trimmed = Text.trim piece) (before ++ pair :: after) pieces)
    (hpass : ∀ pair ∈ before, Passes pair.1)
    (he : ∀ piece n, LoosePair piece pair.1 pair.2 → Param.ofPiece (Text.trim piece) n = .error e)
    (n : Nat) : (pieces.zipIdx n).mapM (fun p => Param.ofPiece p.1 p.2) = .error e := by
  induction before generalizing pieces n with
  | nil =>
      cases h with
      | cons hpiece _ =>
          obtain ⟨piece, hpair, rfl⟩ := hpiece
          rw [List.zipIdx_cons, List.mapM_cons, he piece n hpair]
          rfl
  | cons first before ih =>
      cases h with
      | cons hpiece hothers =>
          obtain ⟨piece, hpair, rfl⟩ := hpiece
          obtain ⟨hfirst, hbefore⟩ := List.forall_mem_cons.mp hpass
          obtain ⟨p, hp, _⟩ := hpair.ofPiece_eq_ok n hfirst
          rw [List.zipIdx_cons, List.mapM_cons, hp, ih hothers hbefore (n + 1)]
          rfl

end Pieces

/-- What a list with a parameter of the type `anyof<Set>` is read as. -/
structure AnyOfLaw (args type name : List Char) : Prop where
  /-- It is refused as the type of its parameter if, and only if, the token is read whole. -/
  refused_iff : Param.listOfText args =
    .error (.unsupportedType (String.ofList type) (.parameter (String.ofList name))) ↔ Tight type
  /-- A token that comes apart is taken for a class. -/
  accepted : ¬Tight type → ∃ params, Param.listOfText args = .ok params ∧
    ∃ p ∈ params, p.type = .object (String.ofList (firstWord type))

/-- **A list in which one type is `anyof<Set>`** is refused for this parameter where the token is
read whole, and is accepted where it comes apart. -/
theorem LooseList.anyOfLaw {args type name set : List Char}
    {before after : List (List Char × List Char)}
    (h : LooseList args (before ++ (type, name) :: after)) (htoken : AnyOfToken type set)
    (hothers : ∀ pair ∈ before ++ after, PlainType pair.1) : AnyOfLaw args type name := by
  obtain ⟨hbefore, hafter⟩ := List.forall_mem_append.mp hothers
  have haccepted : ¬Tight type → ∃ params, Param.listOfText args = .ok params ∧
      ∃ p ∈ params, p.type = .object (String.ofList (firstWord type)) := by
    intro hloose
    have hpass : ∀ pair ∈ before ++ (type, name) :: after, Passes pair.1 := by
      rw [List.forall_mem_append, List.forall_mem_cons]
      exact ⟨fun pair hpair => (hbefore pair hpair).passes, htoken.passes hloose,
        fun pair hpair => (hafter pair hpair).passes⟩
    obtain ⟨params, hparams, hreads⟩ := mapM_ofPiece_eq_ok h.piecesOf hpass 0
    refine ⟨params, hparams, ?_⟩
    have htype : ∃ pair ∈ before ++ (type, name) :: after,
        IdlType.ofToken (String.ofList (firstWord pair.1)) =
          .object (String.ofList (firstWord type)) :=
      ⟨(type, name), List.mem_append_right _ List.mem_cons_self, htoken.ofToken_firstWord hloose⟩
    exact (Traversal.exists_mem_iff_of_forall₂ hreads fun pair p hread => by rw [hread]).mpr htype
  refine ⟨⟨fun hrefused => ?_, fun htight => ?_⟩, haccepted⟩
  · by_contra hloose
    obtain ⟨params, hparams, _⟩ := haccepted hloose
    cases hrefused.symm.trans hparams
  · exact mapM_ofPiece_eq_error h.piecesOf (fun pair hpair => (hbefore pair hpair).passes)
      (fun piece n hpair => hpair.ofPiece_eq_error n htoken htight) 0

end IdlGlue
