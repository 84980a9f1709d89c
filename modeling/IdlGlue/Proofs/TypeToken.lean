/-
# IdlGlue.Proofs.TypeToken -- types that are read back from their spelling

`IdlType.spelling` writes a type and `IdlType.ofToken` reads one. The reader takes the white
space off the token and then looks at its marks, in this order:

    anyof< ... >        ... &        a keyword        anything else

so a type that is put together by hand may be read back as another one: an object named `int`
is spelled like the primitive type, and the name of one that ends in `&` like a reference.
`IdlType.Canonical` says what has to hold of the names in a type that is read back as it is.

These types are exactly the ones that tokens stand for (`IdlType.mem_range_ofToken_iff`).
Reading a token, writing it and reading it again is therefore reading it once, whatever the
token is (`IdlType.read_back_law`).
-/
import IdlGlue.IdlType
import IdlGlue.Proofs.Words
import Mathlib.Data.Set.Operations

namespace IdlGlue

open IdlGlue.Text IdlGlue.Scan

theorem Primitive.keyword_of_ofKeyword? {word : String} {kind : Primitive}
    (h : Primitive.ofKeyword? word = some kind) : kind.keyword = word := by
  unfold Primitive.ofKeyword? at h
  split at h
  all_goals cases h
  all_goals rfl

/-! ## The forms of a token -/

/-- The text has the form `anyof<...>`, whatever stands between the angle brackets. -/
def InAngles (w : List Char) : Prop := ∃ inner, w = "anyof<".toList ++ (inner ++ ['>'])

namespace IdlType

variable {token w name inner : List Char}

theorem anyOfSet?_eq_some_iff :
    anyOfSet? w = some inner ↔ w = "anyof<".toList ++ (inner ++ ['>']) := by
  rw [anyOfSet?, Option.bind_eq_some_iff]
  constructor
  · rintro ⟨mid, hopen, hclose⟩
    rw [dropStart?_eq_some_iff.mp hopen, dropSuffix?_eq_some_iff.mp hclose]
  · intro h
    exact ⟨_, dropStart?_eq_some_iff.mpr h, dropSuffix?_eq_some_iff.mpr rfl⟩

/-- A token ends in one mark only. -/
theorem not_inAngles_reference : ¬ InAngles (name ++ ['&']) := by
  rintro ⟨inner, h⟩
  have hlast := congrArg List.getLast? h
  rw [← List.append_assoc, List.getLast?_concat, List.getLast?_concat] at hlast
  exact absurd hlast (by decide)

/-- Such a token has no white space around it. -/
theorem trim_inAngles :
    trim ("anyof<".toList ++ (inner ++ ['>'])) = "anyof<".toList ++ (inner ++ ['>']) := by
  refine trim_eq_self_iff.mpr ⟨stopsAt_cons.mpr (by decide), ?_⟩
  rw [← List.append_assoc, List.getLast?_concat]
  rintro c ⟨⟩
  decide

theorem ofToken_inAngles (h : trim token = "anyof<".toList ++ (inner ++ ['>'])) :
    ofToken (String.ofList token) = .anyOf (String.ofList (trim inner)) := by
  have hset := anyOfSet?_eq_some_iff.mpr h
  simp only [ofToken, String.toList_ofList, hset]

theorem ofToken_ampersand (h : trim token = name ++ ['&']) :
    ofToken (String.ofList token) = .reference (String.ofList (trimEnd name)) := by
  have hset : anyOfSet? (trim token) = none := by
    refine Option.eq_none_iff_forall_ne_some.mpr fun inner hinner => ?_
    rw [h] at hinner
    exact not_inAngles_reference ⟨inner, anyOfSet?_eq_some_iff.mp hinner⟩
  have hname := dropSuffix?_eq_some_iff.mpr h
  simp only [ofToken, String.toList_ofList, hset, hname]

/-- Without marks the whole token is a keyword or the name of a class. -/
theorem ofToken_word (hangles : ¬ InAngles (trim token))
    (hamp : ∀ name, trim token ≠ name ++ ['&']) :
    ofToken (String.ofList token) =
      if String.ofList (trim token) = "void" then .void
      else
        match Primitive.ofKeyword? (String.ofList (trim token)) with
        | some kind => .primitive kind
        | none => .object (String.ofList (trim token)) := by
  have hset : anyOfSet? (trim token) = none :=
    Option.eq_none_iff_forall_ne_some.mpr fun inner hinner =>
      hangles ⟨inner, anyOfSet?_eq_some_iff.mp hinner⟩
  have hname : dropSuffix? '&' (trim token) = none :=
    Option.eq_none_iff_forall_ne_some.mpr fun name hname =>
      hamp name (dropSuffix?_eq_some_iff.mp hname)
  have hread := ofToken.eq_def (String.ofList token)
  simp only [String.toList_ofList, hset, hname] at hread
  exact hread

/-! ## The types that tokens stand for -/

/-- The type is read back from its spelling: no name in it has white space at an end, and no
object is named like a type of another form. -/
def Canonical : IdlType → Prop
  | .void => True
  | .primitive _ => True
  | .anyOf set => Trimmed set.toList
  | .reference name => Trimmed name.toList
  | .object name =>
    Trimmed name.toList ∧ (∀ w, name.toList ≠ w ++ ['&']) ∧ name ≠ "void" ∧
      (∀ kind, name ≠ Primitive.keyword kind) ∧ ¬ InAngles name.toList

/-- What a token stands for is canonical. -/
theorem canonical_ofToken (token : List Char) : (ofToken (String.ofList token)).Canonical := by
  have htrim := trimmed_trim token
  by_cases hangles : InAngles (trim token)
  · obtain ⟨inner, hinner⟩ := hangles
    rw [ofToken_inAngles hinner]
    show Trimmed (String.ofList (trim inner)).toList
    simpa using trimmed_trim inner
  by_cases hamp : ∃ name, trim token = name ++ ['&']
  · -- The name begins where the token does, and has lost the white space before its mark.
    obtain ⟨name, hname⟩ := hamp
    rw [ofToken_ampersand hname]
    have hstart : StopsAt isBlank name :=
      (hname ▸ htrim.start).of_isPrefix (List.prefix_append name ['&'])
    show Trimmed (String.ofList (trimEnd name)).toList
    rw [String.toList_ofList]
    exact ⟨hstart.of_isPrefix (trimEnd_isPrefix name), getLast?_trimEnd name⟩
  have hamp' : ∀ name, trim token ≠ name ++ ['&'] := fun name h => hamp ⟨name, h⟩
  rw [ofToken_word hangles hamp']
  split
  · trivial
  · next hvoid =>
    split
    · trivial
    · next hkind =>
      show Trimmed (String.ofList (trim token)).toList ∧ _
      simp only [String.toList_ofList]
      refine ⟨htrim, hamp', hvoid, fun kind hkeyword => ?_, hangles⟩
      rw [hkeyword, Primitive.ofKeyword?_keyword] at hkind
      cases hkind

/-- A canonical type is read back from its spelling. -/
theorem Canonical.ofToken_spelling {t : IdlType} (h : t.Canonical) : ofToken t.spelling = t := by
  cases t with
  | void => rfl
  | primitive kind => cases kind <;> rfl
  | anyOf set =>
      have htext : (anyOf set).spelling =
          String.ofList ("anyof<".toList ++ (set.toList ++ ['>'])) := by
        rw [← String.toList_inj]
        simp [spelling]
      rw [htext, ofToken_inAngles trim_inAngles, trim_eq_self_iff.mpr h, String.ofList_toList]
  | reference name =>
      have htext : (reference name).spelling = String.ofList (name.toList ++ ['&']) := by
        rw [← String.toList_inj]
        simp [spelling]
      have hends : Trimmed (name.toList ++ ['&']) := by
        constructor
        · -- Nothing may stand before the mark, and the mark is not white space either.
          cases hname : name.toList with
          | nil => exact stopsAt_cons.mpr (by decide)
          | cons c cs =>
              have hstart := h.start
              rw [hname] at hstart
              exact stopsAt_cons.mpr (stopsAt_cons.mp hstart)
        · rw [List.getLast?_concat]
          rintro c ⟨⟩
          decide
      rw [htext, ofToken_ampersand (trim_eq_self_iff.mpr hends), trimEnd_of_getLast h.last,
        String.ofList_toList]
  | object name =>
      obtain ⟨htrim, hamp, hvoid, hkind, hangles⟩ := h
      have hnone : Primitive.ofKeyword? name = none := by
        refine Option.eq_none_iff_forall_ne_some.mpr fun kind h => hkind kind ?_
        exact (Primitive.keyword_of_ofKeyword? h).symm
      have htoken : trim name.toList = name.toList := trim_eq_self_iff.mpr htrim
      have hangles' : ¬ InAngles (trim name.toList) := by rwa [htoken]
      have hamp' : ∀ w, trim name.toList ≠ w ++ ['&'] := by rwa [htoken]
      have hread := ofToken_word hangles' hamp'
      rw [htoken, String.ofList_toList, if_neg hvoid, hnone] at hread
      exact hread

theorem ofToken_spelling_ofToken (token : String) :
    ofToken (ofToken token).spelling = ofToken token := by
  have hcanonical := canonical_ofToken token.toList
  rw [String.ofList_toList] at hcanonical
  exact hcanonical.ofToken_spelling

theorem mem_range_ofToken_iff {t : IdlType} : t ∈ Set.range ofToken ↔ t.Canonical := by
  constructor
  · rintro ⟨token, rfl⟩
    have hcanonical := canonical_ofToken token.toList
    rwa [String.ofList_toList] at hcanonical
  · intro h
    exact ⟨t.spelling, h.ofToken_spelling⟩

/-- **A type is read back from its spelling exactly if some token stands for it, and these are the
canonical types**; so a token stands for the same type before and after it is written anew. -/
theorem read_back_law :
    (∀ t : IdlType, ofToken t.spelling = t ↔ t ∈ Set.range ofToken) ∧
      (∀ t : IdlType, t ∈ Set.range ofToken ↔ t.Canonical) ∧
      ∀ token, ofToken (ofToken token).spelling = ofToken token := by
  refine ⟨fun t => ?_, fun t => mem_range_ofToken_iff, ofToken_spelling_ofToken⟩
  constructor
  · intro h
    exact ⟨t.spelling, h⟩
  · intro h
    exact (mem_range_ofToken_iff.mp h).ofToken_spelling

end IdlType

end IdlGlue
