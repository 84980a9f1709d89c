/-
# IdlGlue.Statement.Token -- type tokens inside statements

The three places for a type in a statement admit different tokens:

* a property: a qualified name, or `anyof<Set>`;
* the result of a method: the same, or a qualified name with `&` directly behind;
* the result of a delegate: a qualified name, with `&` directly behind or not.

A token is kept as it is written, white space inside the angle brackets included. The
opening `anyof<` cannot begin any other token that a statement goes on from, since a
qualified name must be followed by white space; so it alone settles the form.
-/
import IdlGlue.Scan.Step

namespace IdlGlue.Statement

open IdlGlue.Scan IdlGlue.Text

/-- The text behind `anyof<Set>`. -/
def afterAnyOf? (cs : List Char) : Option (List Char) :=
  (literal? "anyof<" cs).bind fun inner =>
  (name? (afterBlanks inner)).bind fun set =>
  literal? ">" (afterBlanks set.2)

/-- The token `anyof<Set>`. -/
def anyOfToken? (cs : List Char) : Option (List Char × List Char) :=
  (afterAnyOf? cs).map fun rest => (consumed cs rest, rest)

/-- A qualified name, with `&` directly behind or not. -/
def referenceToken? (cs : List Char) : Option (List Char × List Char) :=
  (name? cs).map fun name =>
    match name.2 with
    | '&' :: rest => (name.1 ++ ['&'], rest)
    | _ => name

/-- The type of a property. -/
def propertyToken? (cs : List Char) : Option (List Char × List Char) :=
  if (literal? "anyof<" cs).isSome then anyOfToken? cs else name? cs

/-- The result type of a method. -/
def resultToken? (cs : List Char) : Option (List Char × List Char) :=
  if (literal? "anyof<" cs).isSome then anyOfToken? cs else referenceToken? cs

/-- The text behind white space, which may be empty, and a semicolon. -/
def afterSemicolon? (cs : List Char) : Option (List Char) := literal? ";" (afterBlanks cs)

/-! ## Tokens are not empty, and are what stands at the start -/

theorem anyOfToken?_append {cs token rest : List Char} (h : anyOfToken? cs = some (token, rest)) :
    cs = token ++ rest ∧ token ≠ [] := by
  obtain ⟨last, hlast, hp⟩ := Option.map_eq_some_iff.mp h
  cases hp
  obtain ⟨inner, h1, h2⟩ := Option.bind_eq_some_iff.mp hlast
  obtain ⟨⟨set, r⟩, h3, h4⟩ := Option.bind_eq_some_iff.mp h2
  have hs : rest <:+ inner :=
    (literal?_suffix h4).trans ((afterBlanks_suffix r).trans
      ((run?_suffix h3).trans (afterBlanks_suffix inner)))
  obtain ⟨piece, hne, rfl⟩ := advances_of_literal? (by decide) h1 hs
  simpa using hne

theorem referenceToken?_append {cs token rest : List Char}
    (h : referenceToken? cs = some (token, rest)) : cs = token ++ rest ∧ token ≠ [] := by
  obtain ⟨⟨name, r⟩, hn, hp⟩ := Option.map_eq_some_iff.mp h
  have hne := (run?_eq_some_iff.mp hn).1
  have happ := run?_append hn
  split at hp
  · next rest' hr =>
      cases hp
      simp only at hr
      subst hr
      exact ⟨by simp [happ], by simp⟩
  · cases hp
    exact ⟨happ, hne⟩

theorem propertyToken?_append {cs token rest : List Char}
    (h : propertyToken? cs = some (token, rest)) : cs = token ++ rest ∧ token ≠ [] := by
  unfold propertyToken? at h
  split at h
  · exact anyOfToken?_append h
  · exact ⟨run?_append h, (run?_eq_some_iff.mp h).1⟩

theorem resultToken?_append {cs token rest : List Char}
    (h : resultToken? cs = some (token, rest)) : cs = token ++ rest ∧ token ≠ [] := by
  unfold resultToken? at h
  split at h
  · exact anyOfToken?_append h
  · exact referenceToken?_append h

theorem afterSemicolon?_suffix {cs rest : List Char} (h : afterSemicolon? cs = some rest) :
    rest <:+ cs :=
  (literal?_suffix h).trans (afterBlanks_suffix cs)

end IdlGlue.Statement
