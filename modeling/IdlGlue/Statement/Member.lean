/-
# IdlGlue.Statement.Member -- the statements of an interface body

    constructor(params);
    nameasis Result name(params);
    readonly nameasis attribute Type name;

`nameasis` may be missing, and so may each modifier of a property, which come in any
order and number. None of these words is reserved: `nameasis f();` is a method whose
result type is named `nameasis`, because what follows the word then is no method.
-/
import IdlGlue.Scan.Params
import IdlGlue.Statement.Token

namespace IdlGlue.Statement

open IdlGlue.Scan IdlGlue.Text

/-! ## Constructors -/

/-- Constructor statements, by the text of their parameters. -/
def constructor : Recognizer (List Char) where
  read cs :=
    (literal? "constructor" cs).bind fun r0 =>
    (params? (afterBlanks r0)).bind fun args =>
    (afterSemicolon? args.2).map fun rest => (args.1, rest)
  advances h := by
    obtain ⟨r0, h0, h⟩ := Option.bind_eq_some_iff.mp h
    obtain ⟨args, h1, h⟩ := Option.bind_eq_some_iff.mp h
    obtain ⟨rest, h2, hp⟩ := Option.map_eq_some_iff.mp h
    cases hp
    exact advances_of_literal? (by decide) h0
      ((afterSemicolon?_suffix h2).trans ((params?_suffix h1).trans (afterBlanks_suffix _)))

/-! ## Methods -/

/-- A method statement. -/
structure MethodText where
  nameAsIs : Bool
  result : List Char
  name : List Char
  args : List Char
deriving DecidableEq, Repr

/-- A method statement from its result type on. -/
def signature? (nameAsIs : Bool) (cs : List Char) : Option (MethodText × List Char) :=
  (resultToken? cs).bind fun result =>
  (afterSpace? result.2).bind fun r1 =>
  (word? r1).bind fun name =>
  (params? (afterBlanks name.2)).bind fun args =>
  (afterSemicolon? args.2).map fun rest =>
    ({ nameAsIs, result := result.1, name := name.1, args := args.1 }, rest)

/-- The text behind a word and the white space that must follow it. -/
def afterModifier? (w : String) (cs : List Char) : Option (List Char) :=
  (literal? w cs).bind afterSpace?

theorem afterModifier?_suffix {w : String} {cs rest : List Char}
    (h : afterModifier? w cs = some rest) : rest <:+ cs := by
  obtain ⟨mid, h1, h2⟩ := Option.bind_eq_some_iff.mp h
  exact (afterSpace?_suffix h2).trans (literal?_suffix h1)

theorem afterModifier?_length_lt {w : String} {cs rest : List Char}
    (h : afterModifier? w cs = some rest) : rest.length < cs.length := by
  obtain ⟨mid, h1, h2⟩ := Option.bind_eq_some_iff.mp h
  have := (literal?_suffix h1).length_le
  cases mid with
  | nil => simp [afterSpace?] at h2
  | cons c mid =>
      simp only [afterSpace?] at h2
      split at h2
      · cases h2
        have := (afterBlanks_suffix mid).length_le
        simp only [List.length_cons] at *
        omega
      · cases h2

theorem signature?_advances {nameAsIs : Bool} {cs rest : List Char} {m : MethodText}
    (h : signature? nameAsIs cs = some (m, rest)) : ∃ piece, piece ≠ [] ∧ cs = piece ++ rest := by
  obtain ⟨result, h0, h⟩ := Option.bind_eq_some_iff.mp h
  obtain ⟨r1, h1, h⟩ := Option.bind_eq_some_iff.mp h
  obtain ⟨name, h2, h⟩ := Option.bind_eq_some_iff.mp h
  obtain ⟨args, h3, h⟩ := Option.bind_eq_some_iff.mp h
  obtain ⟨last, h4, hp⟩ := Option.map_eq_some_iff.mp h
  cases hp
  obtain ⟨happ, hne⟩ := resultToken?_append h0
  obtain ⟨tail, htail⟩ :=
    (afterSemicolon?_suffix h4).trans ((params?_suffix h3).trans
      ((afterBlanks_suffix _).trans ((run?_suffix h2).trans (afterSpace?_suffix h1))))
  refine ⟨result.1 ++ tail, by simp [hne], ?_⟩
  rw [List.append_assoc, htail]
  exact happ

/-- Method statements. The word `nameasis` is a modifier where a whole method follows
it, and a type name elsewhere. -/
def method : Recognizer MethodText where
  read cs := ((afterModifier? "nameasis" cs).bind (signature? true)).or (signature? false cs)
  advances h := by
    rcases Option.or_eq_some_iff.mp h with h | ⟨_, h⟩
    · obtain ⟨mid, h1, h2⟩ := Option.bind_eq_some_iff.mp h
      obtain ⟨tail, hne, rfl⟩ := signature?_advances h2
      obtain ⟨piece, rfl⟩ := afterModifier?_suffix h1
      exact ⟨piece ++ tail, by simp [hne], by simp⟩
    · exact signature?_advances h

/-! ## Properties -/

/-- A modifier of a property. -/
inductive Modifier where
  | readonly
  | nameAsIs
deriving DecidableEq, Repr

/-- A modifier with the white space behind it. -/
def modifier? (cs : List Char) : Option (Modifier × List Char) :=
  ((afterModifier? "readonly" cs).map fun rest => (Modifier.readonly, rest)).or
    ((afterModifier? "nameasis" cs).map fun rest => (Modifier.nameAsIs, rest))

theorem modifier?_suffix {cs rest : List Char} {m : Modifier}
    (h : modifier? cs = some (m, rest)) : rest <:+ cs ∧ rest.length < cs.length := by
  rcases Option.or_eq_some_iff.mp h with h | ⟨_, h⟩
  · obtain ⟨last, h, hp⟩ := Option.map_eq_some_iff.mp h
    cases hp
    exact ⟨afterModifier?_suffix h, afterModifier?_length_lt h⟩
  · obtain ⟨last, h, hp⟩ := Option.map_eq_some_iff.mp h
    cases hp
    exact ⟨afterModifier?_suffix h, afterModifier?_length_lt h⟩

/-- All modifiers at the start of the text. -/
def modifiers (cs : List Char) : List Modifier × List Char :=
  match _h : modifier? cs with
  | none => ([], cs)
  | some (m, rest) => (m :: (modifiers rest).1, (modifiers rest).2)
termination_by cs.length
decreasing_by all_goals exact (modifier?_suffix _h).2

theorem modifiers_suffix (cs : List Char) : (modifiers cs).2 <:+ cs := by
  fun_induction modifiers cs with
  | case1 cs h => exact List.suffix_refl _
  | case2 cs m rest h ih => exact ih.trans (modifier?_suffix h).1

/-- A property statement. -/
structure PropertyText where
  readonly : Bool
  nameAsIs : Bool
  type : List Char
  name : List Char
deriving DecidableEq, Repr

/-- Property statements. -/
def property : Recognizer PropertyText where
  read cs :=
    (literal? "attribute" (modifiers cs).2).bind fun r0 =>
    (afterSpace? r0).bind fun r1 =>
    (propertyToken? r1).bind fun type =>
    (afterSpace? type.2).bind fun r2 =>
    (word? r2).bind fun name =>
    (afterSemicolon? name.2).map fun rest =>
      ({ readonly := (modifiers cs).1.contains .readonly
         nameAsIs := (modifiers cs).1.contains .nameAsIs
         type := type.1, name := name.1 }, rest)
  advances {cs} _ rest h := by
    obtain ⟨r0, h0, h⟩ := Option.bind_eq_some_iff.mp h
    obtain ⟨r1, h1, h⟩ := Option.bind_eq_some_iff.mp h
    obtain ⟨type, h2, h⟩ := Option.bind_eq_some_iff.mp h
    obtain ⟨r2, h3, h⟩ := Option.bind_eq_some_iff.mp h
    obtain ⟨name, h4, h⟩ := Option.bind_eq_some_iff.mp h
    obtain ⟨last, h5, hp⟩ := Option.map_eq_some_iff.mp h
    cases hp
    have s2 : type.2 <:+ r1 := ⟨type.1, (propertyToken?_append h2).1.symm⟩
    obtain ⟨piece, hne, happ⟩ := advances_of_literal? (by decide) h0
      ((afterSemicolon?_suffix h5).trans ((run?_suffix h4).trans
        ((afterSpace?_suffix h3).trans (s2.trans (afterSpace?_suffix h1)))))
    obtain ⟨lead, hlead⟩ := modifiers_suffix cs
    exact ⟨lead ++ piece, by simp [hne], by rw [List.append_assoc, ← happ, hlead]⟩

/-! ## Any member -/

/-- A statement of an interface body. -/
inductive MemberText where
  | constructor (args : List Char)
  | method (text : MethodText)
  | property (text : PropertyText)
deriving DecidableEq, Repr

/-- Member statements: a constructor, else a method, else a property. -/
def member : Recognizer MemberText :=
  (constructor.map .constructor).orElse ((method.map .method).orElse (property.map .property))

end IdlGlue.Statement
