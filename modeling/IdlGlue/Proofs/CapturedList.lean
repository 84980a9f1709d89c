/-
# IdlGlue.Proofs.CapturedList -- a list is read back as it was recognised

What stands between the parentheses of a statement is looked at twice: once to find the closing
parenthesis, pair by pair, and once to work out the parameters, by splitting it at the commas and
every piece at white space. The second reading is lenient. It passes over pieces that are blank,
over words behind the second one, and it would take a word that is missing for an empty one.

| text between the parentheses | pieces between commas            | pairs                   |
|------------------------------|----------------------------------|-------------------------|
| `int x, Foo::Bar y`          | `int x`, ` Foo::Bar y`           | `int x`, `Foo::Bar y`   |
| `int x,`                     | `int x`, and one that is empty   | `int x`                 |
| no character                 | one that is empty                | none                    |

On a text that was recognised none of this leniency comes to bear (`ListLaw`): the pieces are the
pairs, each of exactly two words, and a piece that is empty is no pair of the list but what stands
behind its trailing comma, or all there is of a list without pairs. So the one fault that is left
to the second reading is a parameter of type `void`.
-/
import IdlGlue.Proofs.SourceTiling

namespace IdlGlue

open IdlGlue.Text IdlGlue.Scan IdlGlue.Statement

/-! ## The statement of the law -/

/-- The text stands between the parentheses of a statement that is read somewhere. -/
inductive Captured : List Char → Prop
  | constructor {cs args rest : List Char} :
      Statement.constructor.Reads cs args rest → Captured args
  | method {cs rest : List Char} {s : MethodText} :
      Statement.method.Reads cs s rest → Captured s.args
  | delegate {cs rest : List Char} {s : DelegateText} :
      Statement.delegate.Reads cs s rest → Captured s.args

/-- The pieces of a list that belong to no pair: an empty one behind a trailing comma, and the
empty one that is all of an empty text. -/
def piecesBehind (args : List Char) : List (List Char) :=
  if args = [] ∨ args.getLast? = some ',' then [[]] else []

/-- A word for a type, a word for a name. -/
structure WordPair (pair : List Char × List Char) : Prop where
  type_ne : pair.1 ≠ []
  type : AllIn isNamePart pair.1
  name_ne : pair.2 ≠ []
  name : AllIn isWord pair.2

/-- The parameter is what a pair at this place declares: of the type and the name that are
written there. -/
structure Param.Declares (pair : List Char × List Char) (index : Nat) (p : Param) : Prop where
  type : p.type = .ofToken (String.ofList pair.1)
  spelling : p.type.spelling = String.ofList pair.1
  passable : (∃ kind, p.type = .primitive kind) ∨ ∃ object, p.type = .object object
  name : p.name = String.ofList pair.2
  index : p.index = index

/-- What a list between parentheses is made of, and what is read back of it. -/
structure ListLaw (args : List Char) (pairs : List (List Char × List Char)) : Prop where
  /-- Between the commas stand the pairs, in their order: the two words of a pair are all words of
  its piece. -/
  split : ∃ texts, pieces (· == ',') args = texts ++ piecesBehind args ∧
    List.Forall₂ (fun pair text => wordsOf text = [pair.1, pair.2]) pairs texts
  words : ∀ pair ∈ pairs, WordPair pair
  /-- Where no type is `void` there is one parameter for each pair, at its place. -/
  accepted : (∀ pair ∈ pairs, pair.1 ≠ "void".toList) →
    ∃ params, Param.listOfText args = .ok params ∧
      List.Forall₂ (fun pair p => Param.Declares pair.1 pair.2 p) pairs.zipIdx params
  /-- The first type that is `void` is the fault. -/
  refused : ∀ {before after name}, pairs = before ++ ("void".toList, name) :: after →
    (∀ pair ∈ before, pair.1 ≠ "void".toList) →
    Param.listOfText args =
      .error (.unsupportedType "void" (.parameter (String.ofList name)))

/-! ## The words of a piece -/

namespace PairText

variable {text type name : List Char}

/-- The two words of a pair are all the words in its piece. -/
theorem wordsOf_eq (h : PairText text type name) : wordsOf text = [type, name] := by
  cases h with
  | @mk before _ between _ after hbefore htypeNe htype hbetweenNe hbetween hnameNe hname hafter =>
      have htype' := htype.mono fun _ => not_isBlank_of_isNamePart
      have hname' : AllIn (fun c => !isBlank c) name :=
        hname.mono fun _ hc => not_isBlank_of_isNamePart (isNamePart_of_isWord hc)
      obtain ⟨s, between, rfl⟩ := List.exists_cons_of_ne_nil hbetweenNe
      obtain ⟨hs, hbetween⟩ := allIn_cons.mp hbetween
      have hlast : wordsOf (name ++ after) = [name] := by
        cases after with
        | nil => rw [List.append_nil, wordsOf_of_allIn hnameNe hname']
        | cons a after =>
            obtain ⟨ha, hafter⟩ := allIn_cons.mp hafter
            have hnone : wordsOf after = [] := by
              rw [← List.append_nil after, wordsOf_append_of_allIn hafter]
              rfl
            rw [wordsOf_append_cons hnameNe hname' ha, hnone]
      calc wordsOf (before ++ type ++ (s :: between) ++ name ++ after)
          = wordsOf (before ++ (type ++ s :: (between ++ (name ++ after)))) := by
            simp only [List.append_assoc, List.cons_append]
        _ = wordsOf (type ++ s :: (between ++ (name ++ after))) := wordsOf_append_of_allIn hbefore
        _ = type :: wordsOf (name ++ after) := by
            rw [wordsOf_append_cons htypeNe htype' hs, wordsOf_append_of_allIn hbetween]
        _ = [type, name] := by rw [hlast]

theorem wordPair (h : PairText text type name) : WordPair (type, name) := by
  cases h with
  | mk _ htypeNe htype _ _ hnameNe hname _ => exact ⟨htypeNe, htype, hnameNe, hname⟩

theorem type_eq_void_iff (h : PairText text type name) {n : Nat} :
    (Param.ofPair type name n).type = .void ↔ type = "void".toList :=
  IdlType.ofToken_eq_void_iff h.wordPair.type_ne h.wordPair.type

/-- The parameter of a pair is what the pair declares. -/
theorem declares (h : PairText text type name) (hvoid : type ≠ "void".toList) (n : Nat) :
    Param.Declares (type, name) n (.ofPair type name n) where
  type := rfl
  spelling := IdlType.spelling_ofToken h.wordPair.type_ne h.wordPair.type
  passable := by
    rcases h.ofToken_type with htype | hkind | hobject
    · exact absurd (h.type_eq_void_iff (n := n).mp htype) hvoid
    · exact Or.inl hkind
    · exact Or.inr ⟨_, hobject⟩
  name := rfl
  index := rfl

end PairText

/-! ## The pieces of a list -/

theorem piecesBehind_of_pairText {piece type name : List Char} (h : PairText piece type name) :
    piecesBehind piece = [] := by
  rw [piecesBehind, if_neg]
  rintro (rfl | hlast)
  · exact h.trim_ne_nil rfl
  · exact absurd (h.no_comma ',' (List.mem_of_getLast? hlast)) (by decide)

/-- Behind the comma of a pair the rest of the list decides. -/
theorem piecesBehind_append_cons (piece rest : List Char) :
    piecesBehind (piece ++ ',' :: rest) = piecesBehind rest := by
  cases rest with
  | nil => simp [piecesBehind]
  | cons c rest => simp [piecesBehind]

/-- Each of the texts is a pair of words with white space around it. -/
abbrev PairTexts (pairs : List (List Char × List Char)) (texts : List (List Char)) : Prop :=
  List.Forall₂ (fun pair text => PairText text pair.1 pair.2) pairs texts

/-- The pairs of a list, and the pieces between commas in which they stand. -/
theorem ParamList.exists_pairTexts {n : Nat} {args : List Char} {params : List Param}
    (h : ParamList n args params) :
    ∃ pairs texts, pieces (· == ',') args = texts ++ piecesBehind args ∧ PairTexts pairs texts := by
  induction h with
  | nil n => exact ⟨[], [], rfl, .nil⟩
  | @last n piece type name hpair =>
      refine ⟨[(type, name)], [piece], ?_, .cons hpair .nil⟩
      rw [piecesBehind_of_pairText hpair]
      exact pieces_of_allIn hpair.no_comma
  | @cons n piece type name rest params hpair _ ih =>
      obtain ⟨pairs, texts, hsplit, htexts⟩ := ih
      refine ⟨(type, name) :: pairs, piece :: texts, ?_, .cons hpair htexts⟩
      rw [piecesBehind_append_cons, List.cons_append, ← hsplit]
      exact pieces_append_cons hpair.no_comma rfl

section PairTexts

variable {pairs : List (List Char × List Char)} {texts : List (List Char)}

/-- Of the pieces only those of the pairs are kept. -/
theorem piecesOf_of_pairTexts {args : List Char} (h : PairTexts pairs texts)
    (hsplit : pieces (· == ',') args = texts ++ piecesBehind args) :
    Param.piecesOf args = texts.map trim := by
  have hfull : ∀ text ∈ texts, trim text ≠ [] :=
    Traversal.forall_mem_of_forall₂ h fun pair _ text hpair => hpair.trim_ne_nil
  have hkept : (texts.map trim).filter (fun p => !p.isEmpty) = texts.map trim := by
    rw [List.filter_eq_self, List.forall_mem_map]
    intro text htext
    simpa using hfull text htext
  have hdropped : ((piecesBehind args).map trim).filter (fun p => !p.isEmpty) = [] := by
    unfold piecesBehind
    split
    · rfl
    · rfl
  rw [Param.piecesOf, hsplit, List.map_append, List.filter_append, hkept, hdropped,
    List.append_nil]

/-- Where no type is `void` every pair is read, at its place. -/
theorem mapM_ofPiece_of_pairTexts (h : PairTexts pairs texts)
    (hvoid : ∀ pair ∈ pairs, pair.1 ≠ "void".toList) (n : Nat) :
    ∃ params, ((texts.map trim).zipIdx n).mapM (fun p => Param.ofPiece p.1 p.2) = .ok params ∧
      List.Forall₂ (fun pair p => Param.Declares pair.1 pair.2 p) (pairs.zipIdx n) params := by
  induction h generalizing n with
  | nil => exact ⟨[], rfl, .nil⟩
  | @cons pair text pairs texts hpair _ ih =>
      obtain ⟨hfirst, hothers⟩ := List.forall_mem_cons.mp hvoid
      obtain ⟨params, hparams, hdeclares⟩ := ih hothers (n + 1)
      have hread : Param.ofPiece (trim text) n = .ok (.ofPair pair.1 pair.2 n) :=
        hpair.ofPiece_eq_ok_iff.mpr ⟨rfl, fun htype => hfirst (hpair.type_eq_void_iff.mp htype)⟩
      refine ⟨.ofPair pair.1 pair.2 n :: params, ?_, .cons (hpair.declares hfirst n) hdeclares⟩
      rw [List.map_cons, List.zipIdx_cons, List.mapM_cons, hread, hparams]
      rfl

/-- The first pair of type `void` is the fault. -/
theorem mapM_ofPiece_of_void {before after : List (List Char × List Char)} {name : List Char}
    (h : PairTexts (before ++ ("void".toList, name) :: after) texts)
    (hbefore : ∀ pair ∈ before, pair.1 ≠ "void".toList) (n : Nat) :
    ((texts.map trim).zipIdx n).mapM (fun p => Param.ofPiece p.1 p.2) =
      .error (.unsupportedType "void" (.parameter (String.ofList name))) := by
  induction before generalizing texts n with
  | nil =>
      cases h with
      | cons hpair _ =>
          have htype : (Param.ofPair "void".toList name n).type = .void :=
            hpair.type_eq_void_iff.mpr rfl
          rw [List.map_cons, List.zipIdx_cons, List.mapM_cons, hpair.ofPiece, htype]
          rfl
  | cons first before ih =>
      cases h with
      | @cons _ text _ texts hpair hothers =>
          obtain ⟨hfirst, hbefore⟩ := List.forall_mem_cons.mp hbefore
          have hread : Param.ofPiece (trim text) n = .ok (.ofPair first.1 first.2 n) :=
            hpair.ofPiece_eq_ok_iff.mpr ⟨rfl, fun htype => hfirst (hpair.type_eq_void_iff.mp htype)⟩
          rw [List.map_cons, List.zipIdx_cons, List.mapM_cons, hread, ih hothers hbefore (n + 1)]
          rfl

end PairTexts

/-! ## The law -/

theorem Captured.exists_paramList {args : List Char} (h : Captured args) :
    ∃ params, ParamList 0 args params := by
  cases h with
  | constructor hread =>
      obtain ⟨_, _, hargs⟩ := constructor_params hread
      exact (params?_eq_some_iff.mp hargs).1
  | method hread =>
      obtain ⟨_, _, hargs⟩ := method_params hread
      exact (params?_eq_some_iff.mp hargs).1
  | delegate hread =>
      obtain ⟨_, _, hargs⟩ := delegate_params hread
      exact (params?_eq_some_iff.mp hargs).1

/-- **A list that was recognised is read back pair by pair**, with nothing passed over and
nothing made up; only a parameter of type `void` is refused. -/
theorem listLaw_of_captured {args : List Char} (h : Captured args) :
    ∃ pairs, ListLaw args pairs := by
  obtain ⟨params, hlist⟩ := h.exists_paramList
  obtain ⟨pairs, texts, hsplit, htexts⟩ := hlist.exists_pairTexts
  have hpieces : Param.piecesOf args = texts.map trim := piecesOf_of_pairTexts htexts hsplit
  refine ⟨pairs, ?_, ?_, ?_, ?_⟩
  · exact ⟨texts, hsplit, htexts.imp fun _ _ hpair => hpair.wordsOf_eq⟩
  · exact Traversal.forall_mem_of_forall₂ htexts.flip fun text _ pair hpair => hpair.wordPair
  · intro hvoid
    rw [Param.listOfText, hpieces]
    exact mapM_ofPiece_of_pairTexts htexts hvoid 0
  · rintro before after name rfl hbefore
    rw [Param.listOfText, hpieces]
    exact mapM_ofPiece_of_void htexts hbefore 0

/-- A list with white space of several kinds, a qualified type and a trailing comma. -/
def spawnArgs : List Char := " string name ,\u3000Zmey::Vec3\tat ,".toList

theorem listLaw_spawnArgs : Captured spawnArgs ∧ ∃ pairs, ListLaw spawnArgs pairs := by
  have hread : Statement.method.Reads
      ("nameasis Zmey::Entity& spawn(".toList ++ (spawnArgs ++ ") ; int".toList))
      { nameAsIs := true, result := "Zmey::Entity&".toList, name := "spawn".toList,
        args := spawnArgs } " int".toList := by
    unfold Recognizer.Reads
    decide +kernel
  exact ⟨.method hread, listLaw_of_captured (.method hread)⟩

end IdlGlue
