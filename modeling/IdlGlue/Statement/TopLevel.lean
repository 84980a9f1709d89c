/-
# IdlGlue.Statement.TopLevel -- the statements of a source file

    #include <path>                 #include "path"
    delegate Result Name(params);
    interface Name { body };

An include line is kept as it is written; its path stays on one line. An interface
block closes with its brace: white space behind it belongs to the block, and so does
one semicolon, but neither has to be there.
-/
import IdlGlue.Scan.Params
import IdlGlue.Scan.Body
import IdlGlue.Statement.Token

namespace IdlGlue.Statement

open IdlGlue.Scan IdlGlue.Text

/-! ## Include lines -/

/-- The text behind a path between `opening` and `closing`, which is not empty and
holds neither a newline nor the closing mark. -/
def afterPath? (opening : String) (closing : Char) (cs : List Char) : Option (List Char) :=
  (literal? opening cs).bind fun inner =>
  (run? (fun c => c != closing && c != '\n') inner).bind fun path =>
  literal? (String.ofList [closing]) path.2

/-- The text behind an include line. -/
def afterHeader? (cs : List Char) : Option (List Char) :=
  (literal? "#include" cs).bind fun rest =>
    (afterPath? "<" '>' (afterBlanks rest)).or (afterPath? "\"" '"' (afterBlanks rest))

theorem afterPath?_suffix {opening : String} {closing : Char} {cs rest : List Char}
    (h : afterPath? opening closing cs = some rest) : rest <:+ cs := by
  obtain ⟨inner, h1, h⟩ := Option.bind_eq_some_iff.mp h
  obtain ⟨path, h2, h3⟩ := Option.bind_eq_some_iff.mp h
  exact (literal?_suffix h3).trans ((run?_suffix h2).trans (literal?_suffix h1))

/-- Include lines, verbatim. -/
def header : Recognizer (List Char) where
  read cs := (afterHeader? cs).map fun rest => (consumed cs rest, rest)
  advances h := by
    obtain ⟨last, hlast, hp⟩ := Option.map_eq_some_iff.mp h
    cases hp
    obtain ⟨mid, h1, h2⟩ := Option.bind_eq_some_iff.mp hlast
    refine advances_of_literal? (by decide) h1 (List.IsSuffix.trans ?_ (afterBlanks_suffix mid))
    rcases Option.or_eq_some_iff.mp h2 with h2 | ⟨_, h2⟩
    · exact afterPath?_suffix h2
    · exact afterPath?_suffix h2

/-! ## Delegates -/

/-- A delegate statement. -/
structure DelegateText where
  result : List Char
  name : List Char
  args : List Char
deriving DecidableEq, Repr

/-- Delegate statements. -/
def delegate : Recognizer DelegateText where
  read cs :=
    (literal? "delegate" cs).bind fun r0 =>
    (afterSpace? r0).bind fun r1 =>
    (referenceToken? r1).bind fun result =>
    (afterSpace? result.2).bind fun r2 =>
    (name? r2).bind fun name =>
    (params? (afterBlanks name.2)).bind fun args =>
    (afterSemicolon? args.2).map fun rest =>
      ({ result := result.1, name := name.1, args := args.1 }, rest)
  advances h := by
    obtain ⟨r0, h0, h⟩ := Option.bind_eq_some_iff.mp h
    obtain ⟨r1, h1, h⟩ := Option.bind_eq_some_iff.mp h
    obtain ⟨result, h2, h⟩ := Option.bind_eq_some_iff.mp h
    obtain ⟨r2, h3, h⟩ := Option.bind_eq_some_iff.mp h
    obtain ⟨name, h4, h⟩ := Option.bind_eq_some_iff.mp h
    obtain ⟨args, h5, h⟩ := Option.bind_eq_some_iff.mp h
    obtain ⟨rest, h6, hp⟩ := Option.map_eq_some_iff.mp h
    cases hp
    have s2 : result.2 <:+ r1 := ⟨result.1, (referenceToken?_append h2).1.symm⟩
    exact advances_of_literal? (by decide) h0
      ((afterSemicolon?_suffix h6).trans ((params?_suffix h5).trans
        ((afterBlanks_suffix _).trans ((run?_suffix h4).trans
          ((afterSpace?_suffix h3).trans (s2.trans (afterSpace?_suffix h1)))))))

/-! ## Interface blocks -/

/-- An interface block. -/
structure InterfaceText where
  name : List Char
  body : List Char
deriving DecidableEq, Repr

/-- The text behind a semicolon that may be there. -/
def afterOptionalSemicolon : List Char → List Char
  | ';' :: rest => rest
  | rest => rest

theorem afterOptionalSemicolon_suffix (cs : List Char) : afterOptionalSemicolon cs <:+ cs := by
  unfold afterOptionalSemicolon
  split
  · exact List.suffix_cons _ _
  · exact List.suffix_refl _

/-- The text behind the opening brace of an interface block, with the name. -/
def interfaceHead? (cs : List Char) : Option (List Char × List Char) :=
  (literal? "interface" cs).bind fun r0 =>
  (afterSpace? r0).bind fun r1 =>
  (name? r1).bind fun name =>
  (literal? "\x7b" (afterBlanks name.2)).map fun rest => (name.1, rest)

theorem interfaceHead?_advances {cs name rest last : List Char}
    (h : interfaceHead? cs = some (name, rest)) (hlast : last <:+ rest) :
    ∃ piece, piece ≠ [] ∧ cs = piece ++ last := by
  obtain ⟨r0, h0, h⟩ := Option.bind_eq_some_iff.mp h
  obtain ⟨r1, h1, h⟩ := Option.bind_eq_some_iff.mp h
  obtain ⟨word, h2, h⟩ := Option.bind_eq_some_iff.mp h
  obtain ⟨r3, h3, hp⟩ := Option.map_eq_some_iff.mp h
  cases hp
  exact advances_of_literal? (by decide) h0
    (hlast.trans ((literal?_suffix h3).trans ((afterBlanks_suffix _).trans
      ((run?_suffix h2).trans (afterSpace?_suffix h1)))))

/-- Interface blocks. -/
def interface : Recognizer InterfaceText where
  read cs :=
    (interfaceHead? cs).bind fun head =>
    (body? head.2).map fun body =>
      ({ name := head.1, body := body.1 }, afterOptionalSemicolon (afterBlanks body.2))
  advances h := by
    obtain ⟨head, h1, h⟩ := Option.bind_eq_some_iff.mp h
    obtain ⟨body, h2, hp⟩ := Option.map_eq_some_iff.mp h
    cases hp
    exact interfaceHead?_advances h1
      ((afterOptionalSemicolon_suffix _).trans ((afterBlanks_suffix _).trans (body?_suffix h2)))

end IdlGlue.Statement
