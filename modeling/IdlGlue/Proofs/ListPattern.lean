/-
# IdlGlue.Proofs.ListPattern -- the parameter list, as a pattern and as a scan

    (?:\s*[\w:]+\s+\w+\s*,)*(?:\s*[\w:]+\s+\w+\s*)?

The list is described by pairs with a comma behind each, as many as possible, and one more pair
that may be missing. A matcher may take any of these pairs back, and never has to where a
closing parenthesis must follow: none stands in front of a pair or inside one. So
`paramsEnd?`, which looks at each pair once, ends where the preferred way ends
(`seek_paramsPattern`).

`listPattern` is the list in its parentheses with the semicolon behind it. Three kinds of statements
end in it.
-/
import IdlGlue.Proofs.OneWay
import IdlGlue.Scan.Params
import IdlGlue.Statement.Token

namespace IdlGlue.Scan

open IdlGlue.Text IdlGlue.Statement

/-! ## Pairs -/

/-- A `type name` pair with the white space around it. -/
def pairPattern : Pattern :=
  .seq (.star (.one isBlank)) (.seq (.run isNamePart)
    (.seq (.run isBlank) (.seq (.run isWord) (.star (.one isBlank)))))

/-- A pair is read in one way where nothing goes on from inside its name or from behind it. -/
theorem oneWay_pairPattern :
    OneWay pairPattern afterParam? (fun c => isWord c || isBlank c) := by
  have hname : OneWay (.seq (.run isWord) (.star (.one isBlank))) _
      (fun c => isWord c || isBlank c) :=
    (OneWay.run isWord).seq_of_begins
      (OneWay.blanks.mono fun c (hc : isBlank c = true) => by simp [hc])
      (fun _ => isBlank_eq_false_of_isWord) (fun c hc => by simp [hc])
  have hspace := OneWay.space.seq hname
    (.seq (Pattern.notAt_run fun c hc => isWord_eq_false_of_isBlank hc) _)
  have htype := (OneWay.run isNamePart).seq hspace
    (.seq (Pattern.notAt_run fun c hc => isBlank_eq_false_of_isNamePart hc) _)
  have hpair := OneWay.blanks.seq htype
    (.seq (Pattern.notAt_run fun c hc => isNamePart_eq_false_of_isBlank hc) _)
  refine hpair.congr fun cs => ?_
  simp only [afterParam?, name?, word?, Option.bind_some, Function.comp_def, Option.map_eq_bind,
    Option.bind_assoc]

/-- No pair begins at a closing parenthesis. -/
theorem head?_of_afterParam? {cs rest : List Char} (h : afterParam? cs = some rest) :
    cs.head? ≠ some ')' := by
  intro hhead
  obtain ⟨tail, rfl⟩ := List.head?_eq_some_iff.mp hhead
  obtain ⟨type, htype, _⟩ := Option.bind_eq_some_iff.mp h
  rw [afterBlanks_of_stopsAt (stopsAt_cons.mpr (by decide)), name?,
    run?_eq_none_of_stopsAt (stopsAt_cons.mpr (by decide))] at htype
  cases htype

/-! ## The list -/

/-- Pairs with a comma behind each, and one without that may be missing. -/
def paramsPattern : Pattern :=
  .seq (.star (.seq pairPattern (.word ","))) (.optional pairPattern)

/-- A pair and the comma behind it. -/
theorem oneWay_pairComma : OneWay (.seq pairPattern (.word ","))
    (fun cs => (afterParam? cs).bind (literal? ",")) (fun _ => false) :=
  oneWay_pairPattern.seq (OneWay.word "," _) (Pattern.notAt_word rfl (by decide))

section Seeking

variable {γ : Type} {F : List Char → Option γ} (hF : ∀ r, r.head? ≠ some ')' → F r = none)

include hF

/-- A pair with a comma behind it goes on with the list behind the comma; where that leads nowhere
the pair is taken as the last one, and then no pair at all. -/
theorem seek_paramsPattern_eq (cs : List Char) :
    paramsPattern.seek cs (fun m => F m.rest) =
      (((afterParam? cs).bind (literal? ",")).bind fun more =>
        paramsPattern.seek more fun m => F m.rest).or (((afterParam? cs).bind F).or (F cs)) := by
  have hparams : ∀ r, paramsPattern.seek r (fun m => F m.rest) =
      (Pattern.star (.seq pairPattern (.word ","))).seek r fun m =>
        (Pattern.optional pairPattern).seek m.rest fun n => F n.rest := by
    intro r
    rw [paramsPattern, Pattern.seek_seq]
    rfl
  have hinside : ∀ c rest, (isWord c || isBlank c) = true → F (c :: rest) = none := by
    intro c rest hc
    refine hF _ ?_
    rintro ⟨⟩
    exact absurd hc (by decide)
  rw [hparams, Pattern.seek_star (Pattern.advances_of_nullable rfl)]
  simp only [Way.andThen_rest, ← hparams]
  rw [oneWay_pairComma.seek (F := fun r => paramsPattern.seek r fun m => F m.rest)
    (fun _ _ hc => absurd hc Bool.false_ne_true), Pattern.seek_optional,
    oneWay_pairPattern.seek hinside]

/-- **In front of a closing parenthesis the preferred list is the one that the scan finds.** -/
theorem seek_paramsPattern (cs : List Char) :
    paramsPattern.seek cs (fun m => F m.rest) = (paramsEnd? cs).bind F := by
  fun_induction paramsEnd? cs with
  | case1 cs hparam hhead =>
      rw [seek_paramsPattern_eq hF, hparam]
      rfl
  | case2 cs hparam hhead =>
      rw [seek_paramsPattern_eq hF, hparam, hF cs hhead]
      rfl
  | case3 cs more hparam ih =>
      have hcomma : literal? "," (',' :: more) = some more := rfl
      rw [seek_paramsPattern_eq hF, hparam, Option.bind_some, hcomma, Option.bind_some, ih,
        Option.bind_some, hF (',' :: more) (by simp), hF cs (head?_of_afterParam? hparam),
        Option.or_none, Option.or_none]
  | case4 cs more hparam =>
      have hcomma : literal? "," (')' :: more) = none := rfl
      rw [seek_paramsPattern_eq hF, hparam, Option.bind_some, hcomma, Option.bind_some,
        hF cs (head?_of_afterParam? hparam), Option.or_none]
      rfl
  | case5 cs r hcomma hclosing hparam =>
      have hno : literal? "," r = none := by
        refine literal?_eq_none_of_head? (c := ',') rfl fun hhead => ?_
        obtain ⟨more, rfl⟩ := List.head?_eq_some_iff.mp hhead
        exact hcomma more rfl
      have hdead : F r = none := by
        refine hF r fun hhead => ?_
        obtain ⟨more, rfl⟩ := List.head?_eq_some_iff.mp hhead
        exact hclosing more rfl
      rw [seek_paramsPattern_eq hF, hparam, Option.bind_some, hno, Option.bind_some, hdead,
        hF cs (head?_of_afterParam? hparam)]
      rfl

end Seeking

/-! ## The list in a statement -/

/-- The semicolon behind a statement. -/
def endPattern : Pattern := .seq (.star (.one isBlank)) (.word ";")

/-- The list in its parentheses, which is told, and the end of the statement. -/
def listPattern : Pattern :=
  .seq (.star (.one isBlank)) (.seq (.word "(")
    (.seq (.group paramsPattern) (.seq (.word ")") endPattern)))

section Statements

variable {γ : Type} {cs : List Char} {k : Way → Option γ}

theorem oneWay_endPattern : OneWay endPattern afterSemicolon? (fun _ => false) :=
  (OneWay.blanks.seq (OneWay.word ";" _) (Pattern.notAt_word rfl (by decide))).congr
    fun _ => rfl

theorem seek_endPattern :
    endPattern.seek cs k = (afterSemicolon? cs).bind fun rest => k ⟨[], rest⟩ := by
  rw [Pattern.seek_groupless rfl]
  exact oneWay_endPattern.seek (F := fun rest => k ⟨[], rest⟩)
    (fun _ _ hc => absurd hc Bool.false_ne_true) cs

/-- **The list and the semicolon are found as the statements read them.** -/
theorem seek_listPattern : listPattern.seek cs k =
    (params? (afterBlanks cs)).bind fun args =>
      (afterSemicolon? args.2).bind fun rest => k ⟨[args.1], rest⟩ := by
  have hopening : Pattern.NotAt isBlank (.seq (.word "(")
      (.seq (.group paramsPattern) (.seq (.word ")") endPattern))) :=
    .seq (Pattern.notAt_word rfl (by decide)) _
  have hclosing : ∀ r inner, (Pattern.seq (.word ")") endPattern).seek r
      (fun n => k ⟨consumed inner r :: n.groups, n.rest⟩) =
        (literal? ")" r).bind fun behind => (afterSemicolon? behind).bind fun rest =>
          k ⟨[consumed inner r], rest⟩ := by
    intro r inner
    rw [Pattern.seek_seq, Pattern.seek_word]
    simp only [Way.andThen_nil, seek_endPattern]
  have hinner : ∀ inner, (Pattern.seq (.group paramsPattern) (.seq (.word ")") endPattern)).seek
      inner k = (paramsEnd? inner).bind fun r => (literal? ")" r).bind fun behind =>
        (afterSemicolon? behind).bind fun rest => k ⟨[consumed inner r], rest⟩ := by
    intro inner
    rw [Pattern.seek_seq, Pattern.seek_group, Pattern.seek_groupless rfl]
    have h := seek_paramsPattern (F := fun r => (Pattern.seq (.word ")") endPattern).seek r
      fun n => k ⟨consumed inner r :: n.groups, n.rest⟩) (fun r hhead => by
        rw [hclosing, literal?_eq_none_of_head? (c := ')') rfl hhead]
        rfl) inner
    refine h.trans ?_
    simp only [hclosing]
  rw [listPattern, OneWay.blanks.seek_seq rfl hopening, Option.bind_some, Pattern.seek_seq,
    Pattern.seek_word]
  simp only [Way.andThen_nil, hinner, params?, Option.bind_assoc, Option.map_eq_bind,
    Option.bind_some, Function.comp_def]

/-- The list begins with white space or a parenthesis. -/
theorem notAt_listPattern {p : Char → Bool} (hblank : ∀ c, p c = true → isBlank c = false)
    (hopening : p '(' = false) : listPattern.NotAt p :=
  .star_seq hblank (.seq (Pattern.notAt_word rfl hopening) _)

theorem notAt_endPattern {p : Char → Bool} (hblank : ∀ c, p c = true → isBlank c = false)
    (hsemicolon : p ';' = false) : endPattern.NotAt p :=
  .star_seq hblank (Pattern.notAt_word rfl hsemicolon)

end Statements

end IdlGlue.Scan
