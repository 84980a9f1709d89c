/-
# IdlGlue.Proofs.MemberForm -- the forms of methods and properties

    [`nameasis` space] result space name blanks `(` list `)` blanks `;`

    ((`readonly` | `nameasis`) space)* `attribute` space type space name blanks `;`

`MethodForm` and `PropertyForm` are statements in these two forms, part by part and with all the
white space between the parts, so that each has a text. A method or a property is read exactly
where a text begins with one of the form, and what is captured is its parts (`ReadsForms`).

None of the keywords is reserved, so it is not plain from the form alone that a text has only one
decomposition. `nameasis` may stand for a modifier or for the type of the result, and `anyof` for
a class or for the beginning of `anyof<Set>`. What decides is the next part: in front of the
parenthesis of a method stand two words, or three with a modifier, and never both.

| text                   | modifier   | result     | name       |
|------------------------|------------|------------|------------|
| `nameasis f();`        | none       | `nameasis` | `f`        |
| `nameasis nameasis();` | none       | `nameasis` | `nameasis` |
| `nameasis int f();`    | `nameasis` | `int`      | `f`        |
-/
import IdlGlue.Proofs.Names

namespace IdlGlue.Statement

open IdlGlue.Text IdlGlue.Scan

/-! ## Parts -/

abbrev Blanks := {w : List Char // AllIn isBlank w}

abbrev Space := {w : List Char // w ≠ [] ∧ AllIn isBlank w}

abbrev Word := {w : List Char // w ≠ [] ∧ AllIn isWord w}

/-- The text of a parameter list. -/
abbrev ListText := {w : List Char // ∃ params, ParamList 0 w params}

/-- The tokens for the type of a property. -/
inductive PropertyToken : List Char → Prop
  | name {w : List Char} : w ≠ [] → AllIn isNamePart w → PropertyToken w
  | anyOf {w set : List Char} : AnyOfToken w set → PropertyToken w

/-- The tokens for the type of a result: also a name with `&` directly behind it. -/
inductive ResultToken : List Char → Prop
  | value {w : List Char} : PropertyToken w → ResultToken w
  | reference {w : List Char} : w ≠ [] → AllIn isNamePart w → ResultToken (w ++ ['&'])

/-- The parts of a method behind its modifier. -/
@[ext]
structure CallForm where
  result : {w : List Char // ResultToken w}
  space : Space
  name : Word
  opening : Blanks
  args : ListText
  closing : Blanks

/-- The parts of a method. -/
structure MethodForm where
  /-- The white space behind the modifier `nameasis`, where there is one. -/
  modifier : Option Space
  call : CallForm

/-- The parts of a property. -/
@[ext]
structure PropertyForm where
  /-- The modifiers with the white space behind each. -/
  modifiers : List (Modifier × Space)
  lead : Space
  type : {w : List Char // PropertyToken w}
  space : Space
  name : Word
  closing : Blanks

def Modifier.keyword : Modifier → String
  | .readonly => "readonly"
  | .nameAsIs => "nameasis"

/-- Modifiers as they are written, one behind the other. -/
def modifiersText (ms : List (Modifier × Space)) : List Char :=
  ms.flatMap fun m => m.1.keyword.toList ++ m.2.1

def CallForm.text (p : CallForm) : List Char :=
  p.result.1 ++ (p.space.1 ++ (p.name.1 ++ (p.opening.1 ++
    '(' :: (p.args.1 ++ ')' :: (p.closing.1 ++ [';'])))))

def MethodForm.text (p : MethodForm) : List Char :=
  match p.modifier with
  | none => p.call.text
  | some space => "nameasis".toList ++ (space.1 ++ p.call.text)

/-- A property from its keyword on. -/
def PropertyForm.bare (p : PropertyForm) : List Char :=
  "attribute".toList ++ (p.lead.1 ++ (p.type.1 ++ (p.space.1 ++
    (p.name.1 ++ (p.closing.1 ++ [';'])))))

def PropertyForm.text (p : PropertyForm) : List Char := modifiersText p.modifiers ++ p.bare

def CallForm.captured (p : CallForm) (nameAsIs : Bool) : MethodText where
  nameAsIs := nameAsIs
  result := p.result.1
  name := p.name.1
  args := p.args.1

/-- What is captured of a method: its parts, and whether the modifier is one of them. -/
def MethodForm.captured (p : MethodForm) : MethodText := p.call.captured p.modifier.isSome

/-- What is captured of a property: its parts, and which modifiers are among them. -/
def PropertyForm.captured (p : PropertyForm) : PropertyText where
  readonly := (p.modifiers.map Prod.fst).contains .readonly
  nameAsIs := (p.modifiers.map Prod.fst).contains .nameAsIs
  type := p.type.1
  name := p.name.1

/-- The recogniser reads the statements of a form, and there is one way only in which a text
begins with one. -/
structure ReadsForms {α Form : Type} (r : Recognizer α) (text : Form → List Char)
    (captured : Form → α) : Prop where
  /-- A statement is read exactly where one of the form begins. -/
  isSome_iff : ∀ cs, (r.read cs).isSome ↔ ∃ p, text p <+: cs
  /-- The parts are captured, and the statement is passed over to its last byte. -/
  reads : ∀ p rest, r.outcome (text p ++ rest) = some (captured p, byteSize (text p))
  /-- The parts are told by the text. -/
  unique : ∀ cs p q, text p <+: cs → text q <+: cs → p = q

/-- A reader that reads a form with anything behind it tells where the form ends, and what is
captured. -/
theorem captured_eq_of_reads {α Form : Type} {read : List Char → Option (α × List Char)}
    {text : Form → List Char} {captured : Form → α}
    (hread : ∀ p rest, read (text p ++ rest) = some (captured p, rest)) {p q : Form}
    {rest rest' : List Char} (h : text p ++ rest = text q ++ rest') :
    captured p = captured q ∧ text p = text q := by
  have hp := hread p rest
  rw [h, hread q rest'] at hp
  obtain ⟨hcaptured, rfl⟩ := Prod.mk.inj (Option.some.inj hp)
  exact ⟨hcaptured.symm, List.append_cancel_right h⟩

/-! ## Steps over a part -/

section Steps

variable (space : Space) (blanks : Blanks) (word : Word) {cs w rest : List Char} {c : Char}

theorem stopsAt_space : StopsAt isNamePart (space.1 ++ rest) :=
  (stopsAt_append_of_ne_nil space.2.1).mpr space.2.2.stopsAt_isNamePart

theorem isBlank_of_head?_space (hc : (space.1 ++ rest).head? = some c) : isBlank c = true := by
  rw [List.head?_append_of_ne_nil _ space.2.1] at hc
  exact space.2.2 c (List.mem_of_head? hc)

theorem stopsAt_word : StopsAt isBlank (word.1 ++ rest) :=
  (stopsAt_append_of_ne_nil word.2.1).mpr
    (word.2.2.mono fun _ => isNamePart_of_isWord).stopsAt_isBlank

theorem stopsAt_blanks (h : StopsAt isWord rest) : StopsAt isWord (blanks.1 ++ rest) :=
  .of_disjoint blanks.2 h fun _ => isWord_eq_false_of_isBlank

theorem afterSpace?_space (h : StopsAt isBlank rest) : afterSpace? (space.1 ++ rest) = some rest :=
  afterSpace?_eq_some_iff.mpr ⟨space.1, space.2.1, space.2.2, h, rfl⟩

theorem afterBlanks_blanks (h : StopsAt isBlank rest) : afterBlanks (blanks.1 ++ rest) = rest :=
  afterBlanks_eq_iff.mpr ⟨blanks.1, blanks.2, h, rfl⟩

theorem word?_word (h : StopsAt isWord rest) : word? (word.1 ++ rest) = some (word.1, rest) :=
  run?_eq_some_iff_append.mpr ⟨word.2.1, word.2.2, h, rfl⟩

theorem afterSemicolon?_blanks : afterSemicolon? (blanks.1 ++ ';' :: rest) = some rest := by
  rw [afterSemicolon?, afterBlanks_blanks blanks (stopsAt_cons.mpr (by decide))]
  exact literal?_eq_some_iff.mpr rfl

theorem afterSpace?_stopsAt (h : afterSpace? cs = some rest) : StopsAt isBlank rest := by
  obtain ⟨_, _, _, hstop, _⟩ := afterSpace?_eq_some_iff.mp h
  exact hstop

theorem exists_space (h : afterSpace? cs = some rest) : ∃ space : Space, cs = space.1 ++ rest := by
  obtain ⟨w, hne, hw, _, hcs⟩ := afterSpace?_eq_some_iff.mp h
  exact ⟨⟨w, hne, hw⟩, hcs⟩

theorem exists_blanks (cs : List Char) : ∃ blanks : Blanks, cs = blanks.1 ++ afterBlanks cs := by
  obtain ⟨w, hw, _, hcs⟩ := afterBlanks_eq_iff.mp (Eq.refl (afterBlanks cs))
  exact ⟨⟨w, hw⟩, hcs⟩

theorem exists_word (h : word? cs = some (w, rest)) :
    ∃ word : Word, word.1 = w ∧ cs = word.1 ++ rest := by
  obtain ⟨hne, hw, _, hcs⟩ := run?_eq_some_iff_append.mp h
  exact ⟨⟨w, hne, hw⟩, rfl, hcs⟩

theorem exists_closing (h : afterSemicolon? cs = some rest) :
    ∃ blanks : Blanks, cs = blanks.1 ++ ';' :: rest := by
  obtain ⟨blanks, hcs⟩ := exists_blanks cs
  rw [literal?_eq_some_iff.mp h] at hcs
  exact ⟨blanks, hcs⟩

end Steps

/-! ## Tokens -/

section Tokens

variable {token cs rest : List Char}

theorem isSome_literal?_anyOf {set : List Char} (h : AnyOfToken token set) :
    (literal? "anyof<" (token ++ rest)).isSome := by
  cases h with
  | @mk before _ after =>
      rw [List.append_assoc, List.append_assoc, literal?_eq_some_iff.mpr rfl]
      rfl

theorem PropertyToken.read (h : PropertyToken token) (space : Space) (rest : List Char) :
    propertyToken? (token ++ (space.1 ++ rest)) = some (token, space.1 ++ rest) := by
  cases h with
  | name hne hw =>
      have hmark : (space.1 ++ rest).head? ≠ some '<' := fun hhead =>
        absurd (isBlank_of_head?_space space hhead) (by decide)
      rw [propertyToken?, literal?_anyOf_eq_none hw (stopsAt_space space) hmark]
      exact run?_eq_some_iff_append.mpr ⟨hne, hw, stopsAt_space space, rfl⟩
  | anyOf htoken =>
      rw [propertyToken?, if_pos (isSome_literal?_anyOf htoken)]
      exact anyOfToken?_eq_some_iff.mpr ⟨⟨_, htoken⟩, rfl⟩

theorem PropertyToken.of_read (h : propertyToken? cs = some (token, rest)) :
    PropertyToken token := by
  unfold propertyToken? at h
  split at h
  · obtain ⟨⟨set, htoken⟩, _⟩ := anyOfToken?_eq_some_iff.mp h
    exact .anyOf htoken
  · obtain ⟨hne, hw, _, _⟩ := run?_eq_some_iff_append.mp h
    exact .name hne hw

theorem ResultToken.read (h : ResultToken token) (space : Space) (rest : List Char) :
    resultToken? (token ++ (space.1 ++ rest)) = some (token, space.1 ++ rest) := by
  cases h with
  | value htoken =>
      cases htoken with
      | name hne hw =>
          exact resultToken?_of_allIn hne hw fun c hc =>
            Or.inl (isBlank_of_head?_space space hc)
      | anyOf htoken =>
          rw [resultToken?, if_pos (isSome_literal?_anyOf htoken)]
          exact anyOfToken?_eq_some_iff.mpr ⟨⟨_, htoken⟩, rfl⟩
  | @reference w hne hw =>
      have hstop : StopsAt isNamePart ('&' :: (space.1 ++ rest)) := stopsAt_cons.mpr (by decide)
      have hname : name? (w ++ '&' :: (space.1 ++ rest)) = some (w, '&' :: (space.1 ++ rest)) :=
        run?_eq_some_iff_append.mpr ⟨hne, hw, hstop, rfl⟩
      rw [List.append_assoc, List.singleton_append, resultToken?,
        literal?_anyOf_eq_none hw hstop (by simp), referenceToken?, hname]
      rfl

theorem ResultToken.of_read (h : resultToken? cs = some (token, rest)) : ResultToken token := by
  unfold resultToken? at h
  split at h
  · obtain ⟨⟨set, htoken⟩, _⟩ := anyOfToken?_eq_some_iff.mp h
    exact .value (.anyOf htoken)
  · obtain ⟨⟨name, r⟩, hname, hp⟩ := Option.map_eq_some_iff.mp h
    obtain ⟨hne, hw, _, _⟩ := run?_eq_some_iff_append.mp hname
    split at hp
    · cases hp
      exact .reference hne hw
    · cases hp
      exact .value (.name hne hw)

theorem PropertyToken.stopsAt (h : PropertyToken token) : StopsAt isBlank (token ++ rest) := by
  cases h with
  | name hne hw => exact (stopsAt_append_of_ne_nil hne).mpr hw.stopsAt_isBlank
  | anyOf htoken =>
      cases htoken with
      | mk => exact stopsAt_cons.mpr (by decide)

theorem ResultToken.stopsAt (h : ResultToken token) : StopsAt isBlank (token ++ rest) := by
  cases h with
  | value htoken => exact htoken.stopsAt
  | reference hne hw =>
      rw [List.append_assoc]
      exact (stopsAt_append_of_ne_nil hne).mpr hw.stopsAt_isBlank

end Tokens

/-! ## Methods -/

section Method

variable {nameAsIs : Bool} {cs rest rest' : List Char} {m : MethodText}

theorem CallForm.stopsAt (p : CallForm) : StopsAt isBlank (p.text ++ rest) := by
  rw [CallForm.text, List.append_assoc]
  exact p.result.2.stopsAt

theorem signature?_text (nameAsIs : Bool) (p : CallForm) (rest : List Char) :
    signature? nameAsIs (p.text ++ rest) = some (p.captured nameAsIs, rest) := by
  have hargs : params? ('(' :: (p.args.1 ++ ')' :: (p.closing.1 ++ ';' :: rest))) =
      some (p.args.1, p.closing.1 ++ ';' :: rest) :=
    params?_eq_some_iff.mpr ⟨p.args.2, rfl⟩
  have hparen : ∀ {tail}, StopsAt isWord ('(' :: tail) := stopsAt_cons.mpr (by decide)
  simp only [CallForm.text, List.append_assoc, List.cons_append, List.nil_append]
  rw [signature?, p.result.2.read, Option.bind_some, afterSpace?_space _ (stopsAt_word _),
    Option.bind_some, word?_word _ (stopsAt_blanks _ hparen), Option.bind_some,
    afterBlanks_blanks _ (stopsAt_cons.mpr (by decide)), hargs, Option.bind_some,
    afterSemicolon?_blanks]
  rfl

theorem exists_callForm (h : signature? nameAsIs cs = some (m, rest)) :
    ∃ p : CallForm, cs = p.text ++ rest := by
  obtain ⟨⟨result, r1⟩, hresult, h⟩ := Option.bind_eq_some_iff.mp h
  obtain ⟨r2, hspace, h⟩ := Option.bind_eq_some_iff.mp h
  obtain ⟨⟨name, r3⟩, hname, h⟩ := Option.bind_eq_some_iff.mp h
  obtain ⟨⟨args, r4⟩, hargs, h⟩ := Option.bind_eq_some_iff.mp h
  obtain ⟨last, hclosing, hp⟩ := Option.map_eq_some_iff.mp h
  cases hp
  obtain ⟨space, rfl⟩ := exists_space hspace
  obtain ⟨word, rfl, rfl⟩ := exists_word hname
  obtain ⟨opening, hopening⟩ := exists_blanks r3
  obtain ⟨hlist, hparen⟩ := params?_eq_some_iff.mp hargs
  obtain ⟨closing, rfl⟩ := exists_closing hclosing
  have htoken : ResultToken result := .of_read hresult
  have hbehind : cs = result ++ (space.1 ++ (word.1 ++ r3)) := (resultToken?_append hresult).1
  have hlist' : r3 = opening.1 ++ '(' :: (args ++ ')' :: (closing.1 ++ ';' :: rest)) :=
    hopening.trans (congrArg (opening.1 ++ ·) hparen)
  refine ⟨⟨⟨result, htoken⟩, space, word, opening, ⟨args, hlist⟩, closing⟩, ?_⟩
  rw [hbehind, hlist']
  simp only [CallForm.text, List.append_assoc, List.cons_append, List.nil_append]

/-- What is read of a method tells its words, and the words tell the white space. -/
theorem CallForm.text_inj {p q : CallForm} (h : p.text ++ rest = q.text ++ rest') : p = q := by
  obtain ⟨hcaptured, htext⟩ := captured_eq_of_reads (signature?_text false) h
  obtain ⟨-, hresult, hname, hargs⟩ := MethodText.mk.inj hcaptured
  simp only [CallForm.text, hresult, hname, hargs] at htext
  obtain ⟨hspace, htext⟩ := p.space.2.2.append_inj (hname ▸ stopsAt_word p.name) q.space.2.2
    (stopsAt_word q.name) (List.append_cancel_left htext)
  have hparen : ∀ {tail}, StopsAt isBlank ('(' :: tail) := stopsAt_cons.mpr (by decide)
  obtain ⟨hopening, htext⟩ := p.opening.2.append_inj hparen q.opening.2 hparen
    (List.append_cancel_left htext)
  have hclosing : p.closing.1 = q.closing.1 := by simpa using htext
  exact CallForm.ext (Subtype.ext hresult) (Subtype.ext hspace) (Subtype.ext hname)
    (Subtype.ext hopening) (Subtype.ext hargs) (Subtype.ext hclosing)

theorem afterModifier?_space {w : String} (space : Space) (h : StopsAt isBlank rest) :
    afterModifier? w (w.toList ++ (space.1 ++ rest)) = some rest := by
  rw [afterModifier?, literal?_eq_some_iff.mpr rfl]
  exact afterSpace?_space space h

theorem exists_afterModifier {w : String} (h : afterModifier? w cs = some rest) :
    ∃ space : Space, cs = w.toList ++ (space.1 ++ rest) := by
  obtain ⟨mid, hword, hspace⟩ := Option.bind_eq_some_iff.mp h
  obtain ⟨space, rfl⟩ := exists_space hspace
  exact ⟨space, literal?_eq_some_iff.mp hword⟩

/-- Where no modifier is written none is read: behind the word `nameasis`, if that is the type of
the result, no method begins. -/
theorem CallForm.modified_eq_none (p : CallForm) :
    (afterModifier? "nameasis" (p.text ++ rest)).bind (signature? true) = none := by
  rw [Option.bind_eq_none_iff]
  intro behind hbehind
  obtain ⟨mid, hmid, hspace⟩ := Option.bind_eq_some_iff.mp hbehind
  obtain ⟨space, rfl⟩ := exists_space hspace
  -- The type of the result is read as it stands in the form, and as the keyword.
  have hread := p.result.2.read p.space
    (p.name.1 ++ (p.opening.1 ++ '(' :: (p.args.1 ++ ')' :: (p.closing.1 ++ ';' :: rest))))
  have hword : resultToken? ("nameasis".toList ++ (space.1 ++ behind)) =
      some ("nameasis".toList, space.1 ++ behind) :=
    resultToken?_of_allIn (by decide) (by decide) fun c hc =>
      Or.inl (isBlank_of_head?_space space hc)
  have htext : p.text ++ rest = "nameasis".toList ++ (space.1 ++ behind) :=
    literal?_eq_some_iff.mp hmid
  simp only [CallForm.text, List.append_assoc, List.cons_append, List.nil_append] at htext
  rw [htext, hword] at hread
  obtain ⟨-, htail⟩ := Prod.mk.inj (Option.some.inj hread)
  obtain ⟨-, rfl⟩ := space.2.2.append_inj (afterSpace?_stopsAt hspace) p.space.2.2
    (stopsAt_word p.name) htail
  exact signature?_eq_none_of_paren p.name.2.1 (p.name.2.2.mono fun _ => isNamePart_of_isWord)
    p.opening.2

theorem method_text (p : MethodForm) (rest : List Char) :
    method.Reads (p.text ++ rest) p.captured rest := by
  obtain ⟨modifier, call⟩ := p
  cases modifier with
  | none =>
      exact Option.or_eq_some_iff.mpr
        (Or.inr ⟨call.modified_eq_none, signature?_text false call rest⟩)
  | some space =>
      have hstop : StopsAt isBlank (call.text ++ rest) := call.stopsAt
      have hmodifier := afterModifier?_space (w := "nameasis") space hstop
      refine Option.or_eq_some_iff.mpr (Or.inl ?_)
      rw [MethodForm.text, List.append_assoc, List.append_assoc, hmodifier]
      exact signature?_text true call rest

theorem exists_methodForm (h : method.Reads cs m rest) :
    ∃ p : MethodForm, cs = p.text ++ rest := by
  rcases Option.or_eq_some_iff.mp h with h | ⟨_, h⟩
  · obtain ⟨mid, hmodifier, h⟩ := Option.bind_eq_some_iff.mp h
    obtain ⟨call, rfl⟩ := exists_callForm h
    obtain ⟨space, rfl⟩ := exists_afterModifier hmodifier
    refine ⟨⟨some space, call⟩, ?_⟩
    rw [MethodForm.text, List.append_assoc, List.append_assoc]
  · obtain ⟨call, hcs⟩ := exists_callForm h
    exact ⟨⟨none, call⟩, hcs⟩

theorem MethodForm.text_inj {p q : MethodForm} (h : p.text ++ rest = q.text ++ rest') : p = q := by
  have hmodified : p.modifier.isSome = q.modifier.isSome :=
    (MethodText.mk.inj (captured_eq_of_reads method_text h).1).1
  obtain ⟨modifier, call⟩ := p
  obtain ⟨modifier', call'⟩ := q
  cases modifier with
  | none =>
      cases modifier' with
      | none => exact congrArg (MethodForm.mk none) (CallForm.text_inj h)
      | some => cases hmodified
  | some space =>
      cases modifier' with
      | none => cases hmodified
      | some space' =>
          simp only [MethodForm.text, List.append_assoc] at h
          obtain ⟨hspace, hcall⟩ := space.2.2.append_inj call.stopsAt space'.2.2 call'.stopsAt
            (List.append_cancel_left h)
          rw [Subtype.ext hspace, CallForm.text_inj hcall]

end Method

/-! ## Properties -/

section Property

variable {cs rest rest' : List Char} {s : PropertyText}

theorem modifier?_text (m : Modifier) (space : Space) (h : StopsAt isBlank rest) :
    modifier? (m.keyword.toList ++ (space.1 ++ rest)) = some (m, rest) := by
  cases m with
  | readonly =>
      have hread := afterModifier?_space (w := "readonly") space h
      exact Option.or_eq_some_iff.mpr (Or.inl (Option.map_eq_some_iff.mpr ⟨_, hread, rfl⟩))
  | nameAsIs =>
      have hread := afterModifier?_space (w := "nameasis") space h
      exact Option.or_eq_some_iff.mpr
        (Or.inr ⟨rfl, Option.map_eq_some_iff.mpr ⟨_, hread, rfl⟩⟩)

theorem exists_modifier {m : Modifier} (h : modifier? cs = some (m, rest)) :
    ∃ space : Space, cs = m.keyword.toList ++ (space.1 ++ rest) := by
  rcases Option.or_eq_some_iff.mp h with h | ⟨_, h⟩
  · obtain ⟨_, h, hp⟩ := Option.map_eq_some_iff.mp h
    cases hp
    exact exists_afterModifier h
  · obtain ⟨_, h, hp⟩ := Option.map_eq_some_iff.mp h
    cases hp
    exact exists_afterModifier h

theorem modifiersText_cons (m : Modifier × Space) (ms : List (Modifier × Space))
    (rest : List Char) : modifiersText (m :: ms) ++ rest =
      m.1.keyword.toList ++ (m.2.1 ++ (modifiersText ms ++ rest)) := by
  simp only [modifiersText, List.flatMap_cons, List.append_assoc]

theorem stopsAt_modifiersText (ms : List (Modifier × Space)) (h : StopsAt isBlank rest) :
    StopsAt isBlank (modifiersText ms ++ rest) := by
  cases ms with
  | nil => exact h
  | cons m ms =>
      rw [modifiersText_cons]
      cases m.1 with
      | readonly => exact stopsAt_isBlank_cons (c := 'r') (by decide)
      | nameAsIs => exact stopsAt_isBlank_cons (c := 'n') (by decide)

/-- Modifiers are read one by one up to where none begins. -/
theorem modifiers_text (ms : List (Modifier × Space)) (hstop : StopsAt isBlank rest)
    (hnone : modifier? rest = none) :
    modifiers (modifiersText ms ++ rest) = (ms.map Prod.fst, rest) := by
  induction ms with
  | nil => exact modifiers_of_none hnone
  | cons m ms ih =>
      have hread := modifier?_text m.1 m.2 (stopsAt_modifiersText ms hstop)
      rw [modifiersText_cons, modifiers_of_some hread, ih]
      rfl

theorem exists_modifiersText (cs : List Char) :
    ∃ ms, cs = modifiersText ms ++ (modifiers cs).2 := by
  fun_induction modifiers cs with
  | case1 cs _ => exact ⟨[], rfl⟩
  | case2 cs m behind hm ih =>
      obtain ⟨ms, hbehind⟩ := ih
      obtain ⟨space, rfl⟩ := exists_modifier hm
      refine ⟨(m, space) :: ms, ?_⟩
      rw [modifiersText_cons, ← hbehind]

/-- The same modifiers in one text stand with the same white space. -/
theorem modifiersText_inj {ms ms' : List (Modifier × Space)}
    (hms : ms.map Prod.fst = ms'.map Prod.fst) (hstop : StopsAt isBlank rest)
    (hstop' : StopsAt isBlank rest') (h : modifiersText ms ++ rest = modifiersText ms' ++ rest') :
    ms = ms' := by
  induction ms generalizing ms' with
  | nil => rw [List.map_eq_nil_iff.mp hms.symm]
  | cons m ms ih =>
      cases ms' with
      | nil => cases hms
      | cons m' ms' =>
          obtain ⟨hm, hms⟩ := List.cons.inj hms
          rw [modifiersText_cons, modifiersText_cons, hm] at h
          obtain ⟨hspace, h⟩ := m.2.2.2.append_inj (stopsAt_modifiersText ms hstop) m'.2.2.2
            (stopsAt_modifiersText ms' hstop') (List.append_cancel_left h)
          rw [ih hms h, Prod.ext hm (Subtype.ext hspace)]

theorem PropertyForm.bare_append (p : PropertyForm) (rest : List Char) :
    p.bare ++ rest = "attribute".toList ++ (p.lead.1 ++ (p.type.1 ++ (p.space.1 ++
      (p.name.1 ++ (p.closing.1 ++ ';' :: rest))))) := by
  unfold PropertyForm.bare
  -- Which word it is does not matter, and spelled out it would be cut into parts as well.
  generalize "attribute".toList = keyword
  simp only [List.append_assoc, List.singleton_append]

theorem PropertyForm.stopsAt_bare (p : PropertyForm) : StopsAt isBlank (p.bare ++ rest) := by
  have hkeyword : AllIn isNamePart "attribute".toList := by decide
  rw [p.bare_append, stopsAt_append_of_ne_nil (by decide)]
  exact hkeyword.stopsAt_isBlank

theorem PropertyForm.modifiers_text (p : PropertyForm) (rest : List Char) :
    Statement.modifiers (p.text ++ rest) = (p.modifiers.map Prod.fst, p.bare ++ rest) := by
  have hnone : modifier? (p.bare ++ rest) = none := by
    rw [p.bare_append]
    rfl
  rw [PropertyForm.text, List.append_assoc]
  exact Statement.modifiers_text p.modifiers p.stopsAt_bare hnone

theorem property_text (p : PropertyForm) (rest : List Char) :
    property.Reads (p.text ++ rest) p.captured rest := by
  have hsemicolon : ∀ {tail}, StopsAt isWord (';' :: tail) := stopsAt_cons.mpr (by decide)
  have hkeyword := literal?_eq_some_iff.mpr (p.bare_append rest)
  simp only [Recognizer.Reads, property, p.modifiers_text]
  rw [hkeyword, Option.bind_some, afterSpace?_space _ p.type.2.stopsAt,
    Option.bind_some, p.type.2.read, Option.bind_some, afterSpace?_space _ (stopsAt_word _),
    Option.bind_some, word?_word _ (stopsAt_blanks _ hsemicolon), Option.bind_some,
    afterSemicolon?_blanks]
  rfl

theorem exists_propertyForm (h : property.Reads cs s rest) :
    ∃ p : PropertyForm, cs = p.text ++ rest := by
  obtain ⟨r1, hkeyword, h⟩ := Option.bind_eq_some_iff.mp h
  obtain ⟨r2, hlead, h⟩ := Option.bind_eq_some_iff.mp h
  obtain ⟨⟨type, r3⟩, htype, h⟩ := Option.bind_eq_some_iff.mp h
  obtain ⟨r4, hspace, h⟩ := Option.bind_eq_some_iff.mp h
  obtain ⟨⟨name, r5⟩, hname, h⟩ := Option.bind_eq_some_iff.mp h
  obtain ⟨last, hclosing, hp⟩ := Option.map_eq_some_iff.mp h
  cases hp
  obtain ⟨ms, hcs⟩ := exists_modifiersText cs
  obtain ⟨lead, rfl⟩ := exists_space hlead
  obtain ⟨space, rfl⟩ := exists_space hspace
  obtain ⟨word, rfl, rfl⟩ := exists_word hname
  obtain ⟨closing, rfl⟩ := exists_closing hclosing
  have htoken : PropertyToken type := .of_read htype
  refine ⟨⟨ms, lead, ⟨type, htoken⟩, space, word, closing⟩, ?_⟩
  rw [PropertyForm.text, List.append_assoc, PropertyForm.bare_append, hcs,
    literal?_eq_some_iff.mp hkeyword, (propertyToken?_append htype).1]

theorem PropertyForm.text_inj {p q : PropertyForm} (h : p.text ++ rest = q.text ++ rest') :
    p = q := by
  obtain ⟨hcaptured, htext⟩ := captured_eq_of_reads property_text h
  obtain ⟨-, -, htype, hname⟩ := PropertyText.mk.inj hcaptured
  have hread := p.modifiers_text rest
  rw [h, q.modifiers_text] at hread
  have hmodifiers : p.modifiers = q.modifiers := by
    rw [PropertyForm.text, PropertyForm.text, List.append_assoc, List.append_assoc] at h
    exact modifiersText_inj (Prod.mk.inj hread).1.symm p.stopsAt_bare q.stopsAt_bare h
  have hbare : p.bare = q.bare := by
    rw [PropertyForm.text, PropertyForm.text, hmodifiers] at htext
    exact List.append_cancel_left htext
  unfold PropertyForm.bare at hbare
  rw [htype, hname] at hbare
  obtain ⟨hlead, hbare⟩ := p.lead.2.2.append_inj (htype ▸ p.type.2.stopsAt) q.lead.2.2
    q.type.2.stopsAt (List.append_cancel_left hbare)
  obtain ⟨hspace, hbare⟩ := p.space.2.2.append_inj (hname ▸ stopsAt_word p.name) q.space.2.2
    (stopsAt_word q.name) (List.append_cancel_left hbare)
  have hclosing : p.closing.1 = q.closing.1 :=
    List.append_cancel_right (List.append_cancel_left hbare)
  exact PropertyForm.ext hmodifiers (Subtype.ext hlead) (Subtype.ext htype)
    (Subtype.ext hspace) (Subtype.ext hname) (Subtype.ext hclosing)

end Property

/-! ## The forms -/

/-- A reader that reads every statement of a form, whatever stands behind, and nothing else. -/
theorem readsForms {α Form : Type} {r : Recognizer α} {text : Form → List Char}
    {captured : Form → α}
    (hreads : ∀ p rest, r.Reads (text p ++ rest) (captured p) rest)
    (hexists : ∀ {cs a rest}, r.Reads cs a rest → ∃ p, cs = text p ++ rest)
    (hinj : ∀ {p q rest rest'}, text p ++ rest = text q ++ rest' → p = q) :
    ReadsForms r text captured where
  isSome_iff cs := by
    constructor
    · intro h
      obtain ⟨⟨a, rest⟩, h⟩ := Option.isSome_iff_exists.mp h
      obtain ⟨p, rfl⟩ := hexists h
      exact ⟨p, List.prefix_append _ _⟩
    · rintro ⟨p, rest, rfl⟩
      exact Option.isSome_of_eq_some (hreads p rest)
  reads p rest := r.outcome_of_reads (hreads p rest)
  unique cs p q hp hq := by
    obtain ⟨rest, rfl⟩ := hp
    obtain ⟨rest', h⟩ := hq
    exact hinj h.symm

/-- The modifier of methods, as the name of a class. -/
def keywordToken : {w : List Char // ResultToken w} :=
  ⟨"nameasis".toList, .value (.name (by decide) (by decide))⟩

/-- **Methods and properties are read by their forms**, each in one way only; and where the type of
a result is the word `nameasis`, with no modifier in front, it is read as that type. -/
theorem member_forms :
    ReadsForms method MethodForm.text MethodForm.captured ∧
      ReadsForms property PropertyForm.text PropertyForm.captured ∧
      ∀ call : CallForm, ∀ rest,
        method.Reads ((MethodForm.mk none { call with result := keywordToken }).text ++ rest)
          { nameAsIs := false, result := "nameasis".toList, name := call.name.1,
            args := call.args.1 } rest :=
  ⟨readsForms method_text exists_methodForm MethodForm.text_inj,
    readsForms property_text exists_propertyForm PropertyForm.text_inj,
    fun call rest => method_text ⟨none, { call with result := keywordToken }⟩ rest⟩

example : method.Reads "nameasis nameasis();".toList
    { nameAsIs := false, result := "nameasis".toList, name := "nameasis".toList, args := [] }
    [] := by
  unfold Recognizer.Reads
  decide +kernel

end IdlGlue.Statement
