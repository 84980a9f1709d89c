/-
# IdlGlue.Scan.Params -- the text between the parentheses of a declaration

The parameter list is `type name` pairs between commas, with white space wherever it
separates, and a comma may follow the last pair. A list without a pair is empty text:
white space alone is not a parameter list, and a comma that ends the list stands
directly before the closing parenthesis.

Whether a pair begins is settled by one look at the text, so the list is read pair by
pair and no decision is taken back.
-/
import IdlGlue.Scan.Step

namespace IdlGlue.Scan

open IdlGlue.Text

/-- The text behind one `type name` pair and the white space around it. -/
def afterParam? (cs : List Char) : Option (List Char) :=
  (name? (afterBlanks cs)).bind fun type =>
  (afterSpace? type.2).bind fun rest =>
  (word? rest).map fun name => afterBlanks name.2

theorem afterParam?_suffix {cs rest : List Char} (h : afterParam? cs = some rest) :
    rest <:+ cs ∧ rest.length < cs.length := by
  obtain ⟨⟨type, r1⟩, h1, h⟩ := Option.bind_eq_some_iff.mp h
  obtain ⟨r2, h2, h⟩ := Option.bind_eq_some_iff.mp h
  obtain ⟨⟨name, r3⟩, h3, rfl⟩ := Option.map_eq_some_iff.mp h
  have s0 := afterBlanks_suffix cs
  have s1 := run?_suffix h1
  have s2 := afterSpace?_suffix h2
  have s3 := run?_suffix h3
  have s4 := afterBlanks_suffix r3
  have hlen := run?_length_lt h1
  refine ⟨s4.trans (s3.trans (s2.trans (s1.trans s0))), ?_⟩
  have := s0.length_le
  have := (s4.trans (s3.trans s2)).length_le
  simp only at this ⊢
  omega

/-- The text from the closing parenthesis on. -/
def paramsEnd? (cs : List Char) : Option (List Char) :=
  match _h : afterParam? cs with
  | none => if cs.head? = some ')' then some cs else none
  | some (',' :: more) => paramsEnd? more
  | some (')' :: more) => some (')' :: more)
  | some _ => none
termination_by cs.length
decreasing_by
  have := (afterParam?_suffix _h).2
  simp at this
  omega

theorem paramsEnd?_suffix {cs rest : List Char} (h : paramsEnd? cs = some rest) :
    rest <:+ cs := by
  fun_induction paramsEnd? cs with
  | case1 cs _ hc => cases h; exact List.suffix_refl _
  | case2 cs _ hc => cases h
  | case3 cs more hp ih =>
      exact (ih h).trans ((List.suffix_cons _ _).trans (afterParam?_suffix hp).1)
  | case4 cs more hp => cases h; exact (afterParam?_suffix hp).1
  | case5 => cases h

theorem paramsEnd?_of_none {cs : List Char} (h : afterParam? cs = none) :
    paramsEnd? cs = if cs.head? = some ')' then some cs else none := by
  rw [paramsEnd?]
  split <;> simp_all

theorem paramsEnd?_of_comma {cs more : List Char} (h : afterParam? cs = some (',' :: more)) :
    paramsEnd? cs = paramsEnd? more := by
  rw [paramsEnd?]
  split <;> simp_all

theorem paramsEnd?_of_ne {cs rest : List Char} (h : afterParam? cs = some rest)
    (hcomma : rest.head? ≠ some ',') :
    paramsEnd? cs = if rest.head? = some ')' then some rest else none := by
  rw [paramsEnd?]
  split
  · next hnone => cases h.symm.trans hnone
  · next more hmore =>
      cases h.symm.trans hmore
      exact absurd rfl hcomma
  · next more hmore =>
      cases h.symm.trans hmore
      rfl
  · next last _ hparen hlast =>
      cases h.symm.trans hlast
      rw [if_neg]
      intro hhead
      obtain ⟨tail, rfl⟩ := List.head?_eq_some_iff.mp hhead
      exact hparen tail rfl

/-- A parameter list in parentheses: the text between them and the text behind. -/
def params? (cs : List Char) : Option (List Char × List Char) :=
  (literal? "(" cs).bind fun inner =>
  (paramsEnd? inner).bind fun closing =>
  (literal? ")" closing).map fun rest => (consumed inner closing, rest)

theorem params?_suffix {cs args rest : List Char} (h : params? cs = some (args, rest)) :
    rest <:+ cs := by
  obtain ⟨inner, h1, h⟩ := Option.bind_eq_some_iff.mp h
  obtain ⟨closing, h2, h⟩ := Option.bind_eq_some_iff.mp h
  obtain ⟨last, h3, hr⟩ := Option.map_eq_some_iff.mp h
  cases hr
  exact (literal?_suffix h3).trans ((paramsEnd?_suffix h2).trans (literal?_suffix h1))

end IdlGlue.Scan
