/-
# IdlGlue.Proofs.MemberKind -- no text begins with two kinds of member

Constructors, methods and properties are tried one after the other, and none of their
words is reserved: `constructor`, `attribute` and the modifiers may all be the names of
types. They are kept apart by what follows the first two words all the same.

| statement   | begins with                                                       |
|-------------|-------------------------------------------------------------------|
| constructor | `constructor`, white space or none, an opening parenthesis         |
| method      | a type, white space, a word, white space or none, a parenthesis    |
| property    | a keyword, white space, and then two words or `anyof<`             |

A method needs a second word in front of its parenthesis, which a constructor does not
have; and behind the second word of a property there is a third, or a mark, and never
a parenthesis. So the order in which the kinds are tried decides nothing
(`one_kind_reads`).
-/
import IdlGlue.Reading
import IdlGlue.Proofs.Run

namespace IdlGlue.Statement

open IdlGlue.Scan IdlGlue.Text

/-! ## What can follow the first word of a method -/

theorem isNamePart_paren : isNamePart '(' = false := by decide

theorem isBlank_paren : isBlank '(' = false := by decide

theorem isWord_less : isWord '<' = false := by decide

theorem allIn_isWord_anyOf : AllIn isWord "anyof".toList := by decide

/-- No parenthesis stands behind the first word of the text. -/
def NoCall (cs : List Char) : Prop :=
  ∀ name rest, word? cs = some (name, rest) → (afterBlanks rest).head? ≠ some '('

theorem params?_head {cs rest : List Char} {args : List Char}
    (h : params? cs = some (args, rest)) : cs.head? = some '(' := by
  obtain ⟨inner, hinner, _⟩ := Option.bind_eq_some_iff.mp h
  rw [literal?_eq_some_iff.mp hinner]
  rfl

/-- A qualified name is not the start of `anyof<` where another mark or white space follows. -/
theorem literal?_anyOf_eq_none {w rest : List Char} (hw : AllIn isNamePart w)
    (hstop : StopsAt isNamePart rest) (hmark : rest.head? ≠ some '<') :
    literal? "anyof<" (w ++ rest) = none := by
  rw [Option.eq_none_iff_forall_ne_some]
  intro inner hinner
  have heq : w ++ rest = "anyof<".toList ++ inner := literal?_eq_some_iff.mp hinner
  have hcut : "anyof<".toList ++ inner = "anyof".toList ++ '<' :: inner := rfl
  rw [hcut] at heq
  -- Both sides are cut behind their longest run of name characters.
  obtain ⟨_, rfl⟩ := hw.append_inj hstop (allIn_isWord_anyOf.mono fun _ => isNamePart_of_isWord)
    (stopsAt_cons.mpr (by decide)) heq
  exact hmark rfl

/-- A qualified name that is followed by white space or a parenthesis is read as it stands. -/
theorem resultToken?_of_allIn {w rest : List Char} (hne : w ≠ []) (hw : AllIn isNamePart w)
    (hrest : ∀ c ∈ rest.head?, isBlank c = true ∨ c = '(') :
    resultToken? (w ++ rest) = some (w, rest) := by
  have hstop : StopsAt isNamePart rest := by
    intro c hc
    rcases hrest c hc with hblank | rfl
    · exact isNamePart_eq_false_of_isBlank hblank
    · exact isNamePart_paren
  have hno : ∀ c, isBlank c = false → c ≠ '(' → rest.head? ≠ some c := by
    intro c hblank hparen hhead
    rcases hrest c hhead with h | h
    · exact absurd h (by simp [hblank])
    · exact hparen h
  have hname : name? (w ++ rest) = some (w, rest) :=
    run?_eq_some_iff_append.mpr ⟨hne, hw, hstop, rfl⟩
  -- The match on `&` comes down to its second case by `hnoRef`.
  have hnoRef : ∀ tail, rest ≠ '&' :: tail := by
    rintro tail rfl
    exact hno '&' (by decide) (by decide) rfl
  unfold resultToken? referenceToken?
  rw [literal?_anyOf_eq_none hw hstop (hno '<' (by decide) (by decide)), hname]
  simp only [Option.isSome_none, Bool.false_eq_true, if_false, Option.map_some]

/-- No method begins with a word behind which no call follows. -/
theorem signature?_eq_none {nameAsIs : Bool} {w rest : List Char} (hne : w ≠ [])
    (hw : AllIn isNamePart w) (hrest : ∀ c ∈ rest.head?, isBlank c = true ∨ c = '(')
    (hcall : ∀ r, afterSpace? rest = some r → NoCall r) :
    signature? nameAsIs (w ++ rest) = none := by
  rw [Option.eq_none_iff_forall_ne_some]
  rintro m hm
  obtain ⟨result, hresult, hm⟩ := Option.bind_eq_some_iff.mp hm
  obtain ⟨r1, hr1, hm⟩ := Option.bind_eq_some_iff.mp hm
  obtain ⟨⟨name, r2⟩, hname, hm⟩ := Option.bind_eq_some_iff.mp hm
  obtain ⟨⟨args, r3⟩, hargs, _⟩ := Option.bind_eq_some_iff.mp hm
  rw [resultToken?_of_allIn hne hw hrest] at hresult
  cases hresult
  exact hcall r1 hr1 name r2 hname (params?_head hargs)

/-- No method begins with a word and a parenthesis. -/
theorem signature?_eq_none_of_paren {nameAsIs : Bool} {w space rest : List Char} (hne : w ≠ [])
    (hw : AllIn isNamePart w) (hspace : AllIn isBlank space) :
    signature? nameAsIs (w ++ (space ++ '(' :: rest)) = none := by
  refine signature?_eq_none hne hw ?_ ?_
  · intro c hc
    cases space with
    | nil =>
        cases hc
        exact Or.inr rfl
    | cons s space =>
        cases hc
        exact Or.inl (allIn_cons.mp hspace).1
  · intro r hr name tail hname
    obtain ⟨space', _, hspace', hstop, heq⟩ := afterSpace?_eq_some_iff.mp hr
    obtain ⟨_, rfl⟩ :=
      hspace.append_inj (stopsAt_cons.mpr isBlank_paren) hspace' hstop heq
    rw [word?, run?_eq_none_of_stopsAt (stopsAt_cons.mpr (by decide))] at hname
    cases hname

/-! ## The first two words of a property -/

/-- The text begins with a word of name characters, white space and a name character. -/
inductive TwoWords : List Char → Prop
  | mk {w space rest : List Char} {c : Char} : w ≠ [] → AllIn isNamePart w →
      space ≠ [] → AllIn isBlank space → isNamePart c = true →
      TwoWords (w ++ space ++ c :: rest)

/-- A name character is neither white space nor a parenthesis. -/
theorem afterBlanks_head_ne_paren {c : Char} {cs : List Char} (hc : isNamePart c = true) :
    (afterBlanks (c :: cs)).head? ≠ some '(' := by
  rw [afterBlanks_of_stopsAt (stopsAt_isBlank_cons hc)]
  simp only [List.head?_cons, ne_eq, Option.some.injEq]
  rintro rfl
  rw [isNamePart_paren] at hc
  cases hc

/-- Behind the first of two words no call follows. -/
theorem TwoWords.noCall {cs : List Char} (h : TwoWords cs) : NoCall cs := by
  cases h with
  | @mk w space rest c _ hw hspaceNe hspace hc =>
      intro name tail hname
      obtain ⟨_, hnameIn, _, heq⟩ := run?_eq_some_iff_append.mp hname
      have hspaceStop : StopsAt isNamePart (space ++ c :: rest) :=
        (stopsAt_append_of_ne_nil hspaceNe).mpr hspace.stopsAt_isNamePart
      have hbehind : (afterBlanks (space ++ c :: rest)).head? ≠ some '(' := by
        rw [afterBlanks_append hspace]
        exact afterBlanks_head_ne_paren hc
      -- The first word is a run of name characters; what `word?` takes is a part of it,
      -- so either the white space follows or a name character that is no word character.
      rw [List.append_assoc, List.append_eq_append_iff] at heq
      rcases heq with ⟨mid, rfl, hmid⟩ | ⟨mid, rfl, rfl⟩
      · obtain ⟨_, hmidIn⟩ := allIn_append.mp hnameIn
        cases mid with
        | nil =>
            rw [List.nil_append] at hmid
            exact hmid ▸ hbehind
        | cons d mid =>
            have hd : isNamePart d = true := isNamePart_of_isWord (allIn_cons.mp hmidIn).1
            have hfalse := hspaceStop d (by rw [hmid]; rfl)
            rw [hd] at hfalse
            cases hfalse
      · cases mid with
        | nil => exact hbehind
        | cons d mid =>
            exact afterBlanks_head_ne_paren (allIn_cons.mp (allIn_append.mp hw).2).1

/-- Behind the first word of `anyof<` no call follows. -/
theorem noCall_anyOf (cs : List Char) : NoCall ("anyof<".toList ++ cs) := by
  intro name rest hname
  obtain ⟨_, hnameIn, hstop, heq⟩ := run?_eq_some_iff_append.mp hname
  have heq' : name ++ rest = "anyof".toList ++ '<' :: cs := heq.symm
  obtain ⟨_, rfl⟩ := hnameIn.append_inj hstop allIn_isWord_anyOf
    (stopsAt_cons.mpr isWord_less) heq'
  rw [afterBlanks_of_stopsAt (stopsAt_cons.mpr (by decide))]
  simp

/-- How a property begins: a keyword, white space, and a text that begins with a name
character but not with a call. -/
inductive PropertyStart : List Char → Prop
  | mk {w space rest : List Char} {c : Char} : w ≠ [] → AllIn isNamePart w →
      space ≠ [] → AllIn isBlank space → isNamePart c = true → NoCall (c :: rest) →
      PropertyStart (w ++ space ++ c :: rest)

theorem PropertyStart.twoWords {cs : List Char} (h : PropertyStart cs) : TwoWords cs := by
  cases h with
  | mk hne hw hspaceNe hspace hc _ => exact .mk hne hw hspaceNe hspace hc

theorem modifiers_of_none {cs : List Char} (h : modifier? cs = none) :
    modifiers cs = ([], cs) := by
  rw [modifiers]
  split
  · rfl
  · next m rest h' =>
      rw [h] at h'
      cases h'

theorem modifiers_of_some {cs rest : List Char} {m : Modifier}
    (h : modifier? cs = some (m, rest)) :
    modifiers cs = (m :: (modifiers rest).1, (modifiers rest).2) := by
  rw [modifiers]
  split
  · next h' =>
      rw [h] at h'
      cases h'
  · next m' rest' h' =>
      rw [h] at h'
      cases h'
      rfl

/-- A modifier is a keyword and white space. -/
theorem modifier?_cases {cs rest : List Char} {m : Modifier}
    (h : modifier? cs = some (m, rest)) :
    ∃ w, afterModifier? w cs = some rest ∧ w.toList ≠ [] ∧ AllIn isNamePart w.toList := by
  rcases Option.or_eq_some_iff.mp h with h | ⟨_, h⟩
  · obtain ⟨last, h, hp⟩ := Option.map_eq_some_iff.mp h
    cases hp
    exact ⟨"readonly", h, by decide, by decide⟩
  · obtain ⟨last, h, hp⟩ := Option.map_eq_some_iff.mp h
    cases hp
    exact ⟨"nameasis", h, by decide, by decide⟩

theorem propertyToken?_start {cs : List Char} {token rest r : List Char}
    (htoken : propertyToken? cs = some (token, rest)) (hspace : afterSpace? rest = some r)
    (hname : (word? r).isSome) :
    ∃ c tail, cs = c :: tail ∧ isNamePart c = true ∧ NoCall (c :: tail) := by
  unfold propertyToken? at htoken
  split at htoken
  · next hany =>
      obtain ⟨inner, hinner⟩ := Option.isSome_iff_exists.mp hany
      rw [literal?_eq_some_iff] at hinner
      subst hinner
      exact ⟨'a', "nyof<".toList ++ inner, rfl, by decide, noCall_anyOf inner⟩
  · obtain ⟨hne, hin, _, rfl⟩ := run?_eq_some_iff_append.mp htoken
    obtain ⟨space, hspaceNe, hspaceIn, _, rfl⟩ := afterSpace?_eq_some_iff.mp hspace
    obtain ⟨⟨name, tail⟩, hword⟩ := Option.isSome_iff_exists.mp hname
    obtain ⟨hnameNe, hnameIn, _, rfl⟩ := run?_eq_some_iff_append.mp hword
    obtain ⟨d, name, rfl⟩ := List.exists_cons_of_ne_nil hnameNe
    have hd := isNamePart_of_isWord (allIn_cons.mp hnameIn).1
    have hcall : NoCall (token ++ (space ++ d :: (name ++ tail))) := by
      rw [← List.append_assoc]
      exact (TwoWords.mk hne hin hspaceNe hspaceIn hd).noCall
    obtain ⟨c, token, rfl⟩ := List.exists_cons_of_ne_nil hne
    exact ⟨c, token ++ (space ++ d :: (name ++ tail)), rfl, (allIn_cons.mp hin).1, hcall⟩

/-- A word, the white space behind it, and the start of a property. -/
theorem PropertyStart.of_afterModifier? {w : String} {cs rest : List Char}
    (h : afterModifier? w cs = some rest) (hne : w.toList ≠ [])
    (hw : AllIn isNamePart w.toList)
    (hrest : ∃ c tail, rest = c :: tail ∧ isNamePart c = true ∧ NoCall (c :: tail)) :
    PropertyStart cs := by
  obtain ⟨mid, hmid, hspace⟩ := Option.bind_eq_some_iff.mp h
  obtain ⟨space, hspaceNe, hspaceIn, _, rfl⟩ := afterSpace?_eq_some_iff.mp hspace
  obtain ⟨c, tail, rfl, hc, hcall⟩ := hrest
  rw [literal?_eq_some_iff.mp hmid, ← List.append_assoc]
  exact .mk hne hw hspaceNe hspaceIn hc hcall

/-- Behind a modifier the rest of the property is a property. -/
theorem property_read_of_modifier {cs rest : List Char} {m : Modifier}
    (hm : modifier? cs = some (m, rest)) (h : (property.read cs).isSome) :
    (property.read rest).isSome := by
  simp only [property, modifiers_of_some hm] at h ⊢
  simpa only [Option.isSome_bind, Option.isSome_map] using h

/-- Whatever reads as a property begins like one. The induction is on the modifiers. -/
theorem propertyStart_of_read {cs : List Char} (h : (property.read cs).isSome) :
    PropertyStart cs := by
  fun_induction modifiers cs with
  | case1 cs hm =>
      obtain ⟨⟨text, last⟩, h⟩ := Option.isSome_iff_exists.mp h
      obtain ⟨r0, h0, h⟩ := Option.bind_eq_some_iff.mp h
      obtain ⟨r1, h1, h⟩ := Option.bind_eq_some_iff.mp h
      obtain ⟨⟨token, r2⟩, h2, h⟩ := Option.bind_eq_some_iff.mp h
      obtain ⟨r3, h3, h⟩ := Option.bind_eq_some_iff.mp h
      obtain ⟨name, h4, _⟩ := Option.bind_eq_some_iff.mp h
      rw [modifiers_of_none hm] at h0
      have hattribute : afterModifier? "attribute" cs = some r1 :=
        Option.bind_eq_some_iff.mpr ⟨r0, h0, h1⟩
      exact .of_afterModifier? hattribute (by decide) (by decide)
        (propertyToken?_start h2 h3 (Option.isSome_of_eq_some h4))
  | case2 cs m rest hm ih =>
      obtain ⟨w, hw, hne, hin⟩ := modifier?_cases hm
      have hstart := ih (property_read_of_modifier hm h)
      refine .of_afterModifier? hw hne hin ?_
      have hcall := hstart.twoWords.noCall
      -- The keyword behind the modifier is itself followed by a word, so it is no call.
      cases hstart with
      | @mk v space tail c hvne hv _ _ _ _ =>
          obtain ⟨d, v, rfl⟩ := List.exists_cons_of_ne_nil hvne
          exact ⟨d, v ++ space ++ c :: tail, rfl, (allIn_cons.mp hv).1, hcall⟩

/-! ## The kinds exclude one another -/

theorem PropertyStart.signature?_eq_none {nameAsIs : Bool} {cs : List Char}
    (h : PropertyStart cs) : signature? nameAsIs cs = none := by
  cases h with
  | @mk w space rest c hne hw hspaceNe hspace hc hcall =>
      rw [List.append_assoc]
      refine Statement.signature?_eq_none hne hw ?_ ?_
      · obtain ⟨s, space, rfl⟩ := List.exists_cons_of_ne_nil hspaceNe
        intro d hd
        cases hd
        exact Or.inl (allIn_cons.mp hspace).1
      · intro r hr
        obtain ⟨space', _, hspace', hstop, heq⟩ := afterSpace?_eq_some_iff.mp hr
        obtain ⟨_, rfl⟩ := hspace.append_inj (stopsAt_isBlank_cons hc) hspace' hstop heq
        exact hcall

/-- No text begins with a method and a property. -/
theorem method_read_eq_none_of_property {cs : List Char} (h : (property.read cs).isSome) :
    method.read cs = none := by
  have hplain : signature? false cs = none := (propertyStart_of_read h).signature?_eq_none
  refine Option.or_eq_none_iff.mpr ⟨?_, hplain⟩
  rw [Option.eq_none_iff_forall_ne_some]
  rintro m hm
  obtain ⟨rest, hrest, hm⟩ := Option.bind_eq_some_iff.mp hm
  -- Read as a modifier, the word has the rest of the property behind it.
  have hmodifier : modifier? cs = some (.nameAsIs, rest) := by
    refine Option.or_eq_some_iff.mpr (Or.inr ⟨?_, by rw [hrest]; rfl⟩)
    obtain ⟨mid, hmid, _⟩ := Option.bind_eq_some_iff.mp hrest
    rw [literal?_eq_some_iff.mp hmid]
    rfl
  have hnone : signature? true rest = none :=
    (propertyStart_of_read (property_read_of_modifier hmodifier h)).signature?_eq_none
  rw [hnone] at hm
  cases hm

/-- A constructor is its word, white space and a parenthesis. -/
theorem constructor_read_cases {cs args rest : List Char}
    (h : constructor.read cs = some (args, rest)) :
    ∃ space tail, AllIn isBlank space ∧ cs = "constructor".toList ++ (space ++ '(' :: tail) := by
  obtain ⟨r0, h0, h⟩ := Option.bind_eq_some_iff.mp h
  obtain ⟨⟨args, r1⟩, h1, _⟩ := Option.bind_eq_some_iff.mp h
  obtain ⟨space, hspace, _, hr0⟩ := afterBlanks_eq_iff.mp (rfl : afterBlanks r0 = _)
  obtain ⟨inner, hinner, _⟩ := Option.bind_eq_some_iff.mp h1
  have hparen : afterBlanks r0 = '(' :: inner := literal?_eq_some_iff.mp hinner
  rw [hparen] at hr0
  exact ⟨space, inner, hspace, by rw [← hr0]; exact literal?_eq_some_iff.mp h0⟩

/-- No text begins with a constructor and a property. -/
theorem property_read_eq_none_of_constructor {cs : List Char}
    (h : (constructor.read cs).isSome) : property.read cs = none := by
  obtain ⟨⟨args, rest⟩, h⟩ := Option.isSome_iff_exists.mp h
  obtain ⟨space, tail, hspace, rfl⟩ := constructor_read_cases h
  rw [← Option.not_isSome_iff_eq_none]
  intro hproperty
  have hword : word? ("constructor".toList ++ (space ++ '(' :: tail)) =
      some ("constructor".toList, space ++ '(' :: tail) := by
    refine run?_eq_some_iff_append.mpr ⟨by decide, by decide, ?_, rfl⟩
    exact StopsAt.of_disjoint hspace (stopsAt_cons.mpr (by decide))
      fun _ => isWord_eq_false_of_isBlank
  refine (propertyStart_of_read hproperty).twoWords.noCall _ _ hword ?_
  rw [afterBlanks_append hspace, afterBlanks_of_stopsAt (stopsAt_cons.mpr isBlank_paren)]
  rfl

/-- No text begins with a constructor and a method. -/
theorem method_read_eq_none_of_constructor {cs : List Char}
    (h : (constructor.read cs).isSome) : method.read cs = none := by
  obtain ⟨⟨args, rest⟩, h⟩ := Option.isSome_iff_exists.mp h
  obtain ⟨space, tail, hspace, rfl⟩ := constructor_read_cases h
  exact Option.or_eq_none_iff.mpr
    ⟨rfl, signature?_eq_none_of_paren (w := "constructor".toList) (by decide) (by decide) hspace⟩

/-! ## The order in which the kinds are tried -/

inductive MemberKind where
  | constructor
  | method
  | property
deriving DecidableEq, Repr

/-- The statements of one kind. -/
def MemberKind.reader : MemberKind → Recognizer MemberText
  | .constructor => Statement.constructor.map .constructor
  | .method => Statement.method.map .method
  | .property => Statement.property.map .property

/-- No text begins with members of two kinds. -/
theorem MemberKind.eq_of_isSome {cs : List Char} {kind kind' : MemberKind}
    (h : (kind.reader.read cs).isSome) (h' : (kind'.reader.read cs).isSome) : kind = kind' := by
  cases kind <;> cases kind' <;>
    simp only [MemberKind.reader, Recognizer.map, Option.isSome_map] at h h'
  case constructor.constructor => rfl
  case constructor.method =>
      exact absurd h' (Option.not_isSome_iff_eq_none.mpr (method_read_eq_none_of_constructor h))
  case constructor.property =>
      exact absurd h' (Option.not_isSome_iff_eq_none.mpr (property_read_eq_none_of_constructor h))
  case method.constructor =>
      exact absurd h (Option.not_isSome_iff_eq_none.mpr (method_read_eq_none_of_constructor h'))
  case method.method => rfl
  case method.property =>
      exact absurd h (Option.not_isSome_iff_eq_none.mpr (method_read_eq_none_of_property h'))
  case property.constructor =>
      exact absurd h (Option.not_isSome_iff_eq_none.mpr (property_read_eq_none_of_constructor h'))
  case property.method =>
      exact absurd h' (Option.not_isSome_iff_eq_none.mpr (method_read_eq_none_of_property h))
  case property.property => rfl

end IdlGlue.Statement

namespace IdlGlue

open IdlGlue.Statement

/-- The member at the start of a text, where the kinds are tried in the order of the list: the
first one that reads a statement settles what is declared, or what the fault is. -/
def Member.tryInOrder : List MemberKind → List Char → Except Fault (Option (Member × List Char))
  | [], _ => .ok none
  | kind :: kinds, cs =>
    match kind.reader.read cs with
    | none => Member.tryInOrder kinds cs
    | some (statement, rest) => do
      let decl ← Member.ofStatement statement
      return some (decl, rest)

variable {cs : List Char}

theorem Member.tryInOrder_swap (kind kind' : MemberKind) (kinds : List MemberKind) :
    Member.tryInOrder (kind :: kind' :: kinds) cs =
      Member.tryInOrder (kind' :: kind :: kinds) cs := by
  cases h : kind.reader.read cs with
  | none => simp only [Member.tryInOrder, h]
  | some first =>
      cases h' : kind'.reader.read cs with
      | none => simp only [Member.tryInOrder, h, h']
      | some other =>
          rw [MemberKind.eq_of_isSome (Option.isSome_of_eq_some h) (Option.isSome_of_eq_some h')]

theorem Member.tryInOrder_perm {order order' : List MemberKind} (h : order.Perm order') :
    Member.tryInOrder order cs = Member.tryInOrder order' cs := by
  induction h with
  | nil => rfl
  | cons kind _ ih => rw [Member.tryInOrder, Member.tryInOrder, ih]
  | swap kind kind' kinds => exact Member.tryInOrder_swap kind' kind kinds
  | trans _ _ ih ih' => exact ih.trans ih'

theorem Member.tryInOrder_eq_read? :
    Member.tryInOrder [.constructor, .method, .property] cs = Member.read? cs := by
  have hread : member.read cs = (MemberKind.constructor.reader.read cs).or
      ((MemberKind.method.reader.read cs).or (MemberKind.property.reader.read cs)) := rfl
  rw [Member.read?, hread]
  simp only [Member.tryInOrder]
  cases MemberKind.constructor.reader.read cs with
  | some first => rfl
  | none =>
      cases MemberKind.method.reader.read cs with
      | some second => rfl
      | none => cases MemberKind.property.reader.read cs <;> rfl

/-- **At most one kind of member is read, and so they may be tried in any order.** -/
theorem one_kind_reads (cs : List Char) :
    (∀ kind kind' : MemberKind, (kind.reader.read cs).isSome → (kind'.reader.read cs).isSome →
      kind = kind') ∧
    ∀ order : List MemberKind, order.Perm [.constructor, .method, .property] →
      Member.tryInOrder order cs = Member.read? cs :=
  ⟨fun _ _ => MemberKind.eq_of_isSome,
    fun _ h => (Member.tryInOrder_perm h).trans Member.tryInOrder_eq_read?⟩

end IdlGlue
