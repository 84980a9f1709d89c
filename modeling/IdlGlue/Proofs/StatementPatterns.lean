/-
# IdlGlue.Proofs.StatementPatterns -- each kind of statement against its pattern

    #include\s*(?:<[^>\n]+>|"[^"\n]+")
    delegate\s+([\w:]+&?)\s+([\w:]+)\s*\(params\)\s*;
    constructor\s*\(params\)\s*;
    (nameasis\s+)?([\w:]+&?|anyof<\s*[\w:]+\s*>)\s+(\w+)\s*\(params\)\s*;
    ((?:(?:readonly|nameasis)\s+)*)attribute\s+([\w:]+|anyof<\s*[\w:]+\s*>)\s+(\w+)\s*;

`Recognizer.ReadsBy r p fields` says that the recogniser `r` finds the match of the pattern `p`,
and that its statement is what the groups of the match tell.

Outside parameter lists and bodies only two choices can be taken in more than one way. A type name
may be a part of the word `anyof`, but then no white space follows; and `nameasis` may be the
result type of a method, which is tried where no method follows the modifier.
-/
import IdlGlue.Proofs.InterfaceBlock
import IdlGlue.Proofs.ListPattern
import IdlGlue.Proofs.Words
import IdlGlue.Statement.Member
import Mathlib.Data.List.Basic

namespace IdlGlue.Scan

/-- The recogniser finds the match of the pattern, and gives the fields that its groups tell. -/
def Recognizer.ReadsBy {α : Type} (r : Recognizer α) (p : Pattern)
    (fields : List (List Char) → Option α) : Prop :=
  ∀ cs, (p.match? cs).map (fun m => (fields m.groups, m.rest)) =
    (r.read cs).map fun m => (some m.1, m.2)

end IdlGlue.Scan

namespace IdlGlue.Statement

open IdlGlue.Text IdlGlue.Scan

variable {γ : Type} {cs : List Char} {k : Way → Option γ}

/-! ## Constructors -/

def constructorPattern : Pattern := .seq (.word "constructor") listPattern

/-- The parameters are the one group. -/
def constructorFields : List (List Char) → Option (List Char)
  | [args] => some args
  | _ => none

theorem constructor_readsBy : constructor.ReadsBy constructorPattern constructorFields := by
  intro cs
  rw [Pattern.match?_eq_seek, constructorPattern, Pattern.seek_seq, Pattern.seek_word]
  simp only [Way.andThen_nil, seek_listPattern, constructor, constructorFields,
    Option.map_eq_bind, Option.bind_assoc, Option.bind_some, Function.comp_def]

/-! ## Delegates -/

/-- A qualified name and an ampersand that may be missing. -/
def referencePattern : Pattern := .seq (.run isNamePart) (.optional (.word "&"))

def delegatePattern : Pattern :=
  .seq (.word "delegate") (.seq (.run isBlank) (.seq (.group referencePattern)
    (.seq (.run isBlank) (.seq (.group (.run isNamePart)) listPattern))))

/-- The groups are the result type, the name and the parameters. -/
def delegateFields : List (List Char) → Option DelegateText
  | [result, name, args] => some { result, name, args }
  | _ => none

theorem isBlank_eq_false_of_reference {c : Char} (h : (isNamePart c || c == '&') = true) :
    isBlank c = false := by
  rcases (Bool.or_eq_true _ _).mp h with h | h
  · exact isBlank_eq_false_of_isNamePart h
  · rw [beq_iff_eq.mp h]
    decide

theorem referenceToken?_map_snd : (referenceToken? cs).map Prod.snd =
    (name? cs).map fun name => (literal? "&" name.2).getD name.2 := by
  rw [referenceToken?, Option.map_map]
  refine congrArg (fun f => (name? cs).map f) (funext fun name => ?_)
  rw [Function.comp_apply]
  split
  · next rest hrest =>
      have hliteral : literal? "&" name.2 = some rest := literal?_eq_some_iff.mpr hrest
      rw [hliteral]
      rfl
  · next hno =>
      have hliteral : literal? "&" name.2 = none := by
        refine literal?_eq_none_of_head? (c := '&') rfl fun hhead => ?_
        obtain ⟨rest, hrest⟩ := List.head?_eq_some_iff.mp hhead
        exact hno rest hrest
      rw [hliteral]
      rfl

theorem oneWay_ampersand : OneWay (.optional (.word "&"))
    (fun cs => some ((literal? "&" cs).getD cs)) (· == '&') := by
  refine ⟨fun {γ F} hF cs => ?_⟩
  rw [Pattern.seek_optional, Pattern.seek_word]
  cases hliteral : literal? "&" cs with
  | none => rfl
  | some rest =>
      have hdead : F cs = none := by
        rw [literal?_eq_some_iff.mp hliteral]
        exact hF '&' rest rfl
      rw [hdead]
      exact Option.or_none

theorem oneWay_referencePattern :
    OneWay referencePattern (fun cs => (referenceToken? cs).map Prod.snd)
      (fun c => isNamePart c || c == '&') := by
  have hampersand : ∀ c, isNamePart c = true →
      (Pattern.optional (.word "&")).begins c = false := by
    intro c hc
    have hne : '&' ≠ c := by
      rintro rfl
      exact absurd hc (by decide)
    simpa [Pattern.begins] using hne
  refine ((OneWay.run isNamePart).seq_of_begins (oneWay_ampersand.mono ?_) hampersand ?_).congr ?_
  · intro c hc
    simp [beq_iff_eq.mp hc]
  · intro c hc
    simp [hc]
  · intro cs
    rw [referenceToken?_map_snd, Option.map_eq_bind, Option.map_eq_bind, Option.bind_assoc]
    rfl

theorem delegate_readsBy : delegate.ReadsBy delegatePattern delegateFields := by
  intro cs
  have hlist : listPattern.NotAt isNamePart :=
    notAt_listPattern (fun _ => isBlank_eq_false_of_isNamePart) (by decide)
  have hresult : ∀ b : Pattern, Pattern.NotAt isBlank (.seq (.group referencePattern) b) :=
    fun b => .seq (.group (.seq (Pattern.notAt_run fun _ => isNamePart_eq_false_of_isBlank) _)) b
  rw [Pattern.match?_eq_seek, delegatePattern, Pattern.seek_seq, Pattern.seek_word]
  simp only [Way.andThen_nil, OneWay.space.seek_seq rfl (hresult _),
    oneWay_referencePattern.seek_group_seq rfl (fun h => (referenceToken?_append h).1)
      (notAt_space (fun _ => isBlank_eq_false_of_reference) _),
    OneWay.space.seek_seq rfl (notAt_group_name _), OneWay.seek_group_run hlist, seek_listPattern]
  simp only [delegate, delegateFields, name?, Option.map_eq_bind, Option.bind_assoc,
    Option.bind_some, Function.comp_def]

/-! ## Type tokens -/

def anyOfPattern : Pattern :=
  .seq (.word "anyof<") (.seq (.star (.one isBlank)) (.seq (.run isNamePart)
    (.seq (.star (.one isBlank)) (.word ">"))))

theorem oneWay_anyOfPattern : OneWay anyOfPattern afterAnyOf? (fun _ => false) := by
  have hclosing : ∀ q : Char → Bool, q '>' = false → (Pattern.word ">").NotAt q :=
    fun q hq => Pattern.notAt_word rfl hq
  have hset := (OneWay.run isNamePart).seq
    (OneWay.blanks.seq (OneWay.word ">" fun _ => false) (hclosing isBlank (by decide)))
    (.star_seq (fun _ => isBlank_eq_false_of_isNamePart) (hclosing isNamePart (by decide)))
  have hinner := OneWay.blanks.seq hset
    (.seq (Pattern.notAt_run fun _ => isNamePart_eq_false_of_isBlank) _)
  refine ((OneWay.word "anyof<" (fun _ => false)).seq hinner
    (.star_seq (by simp) (.seq (Pattern.notAt_run (by simp)) _))).congr fun cs => ?_
  simp only [afterAnyOf?, name?, Option.bind_some, Option.map_eq_bind, Option.bind_assoc,
    Function.comp_def]

/-- A token of another form is tried first. Where it is a part of the word `anyof` no white space
follows it, so it is never taken there. -/
theorem oneWay_alt_anyOfPattern {a : Pattern} {token? : List Char → Option (List Char × List Char)}
    (ha : OneWay a (fun cs => (token? cs).map Prod.snd) (fun c => !isBlank c))
    (hpart : ∀ inner, (token? ("anyof<".toList ++ inner)).map Prod.snd = some ('<' :: inner)) :
    OneWay (.alt a anyOfPattern)
      (fun cs => (if (literal? "anyof<" cs).isSome then anyOfToken? cs else token? cs).map Prod.snd)
      (fun c => !isBlank c) := by
  refine ⟨fun {γ F} hF cs => ?_⟩
  rw [Pattern.seek_alt, ha.seek hF,
    oneWay_anyOfPattern.seek fun _ _ hc => absurd hc Bool.false_ne_true]
  cases hword : literal? "anyof<" cs with
  | none =>
      rw [afterAnyOf?, hword]
      exact Option.or_none
  | some inner =>
      rw [literal?_eq_some_iff.mp hword, hpart, Option.bind_some, hF '<' inner (by decide),
        Option.none_or, ← literal?_eq_some_iff.mp hword, if_pos Option.isSome_some, anyOfToken?,
        Option.map_map]
      exact (congrArg (Option.bind · F) Option.map_id').symm

/-- The type of a property. -/
def propertyTypePattern : Pattern := .alt (.run isNamePart) anyOfPattern

/-- The result type of a method. -/
def resultPattern : Pattern := .alt referencePattern anyOfPattern

theorem name?_anyOf (inner : List Char) :
    name? ("anyof<".toList ++ inner) = some ("anyof".toList, '<' :: inner) := by
  have hword : "anyof".toList.all isNamePart = true := by decide
  exact run?_eq_some_iff_append.mpr
    ⟨by decide, List.all_eq_true.mp hword, stopsAt_cons.mpr (by decide), rfl⟩

theorem oneWay_propertyTypePattern :
    OneWay propertyTypePattern (fun cs => (propertyToken? cs).map Prod.snd)
      (fun c => !isBlank c) := by
  refine oneWay_alt_anyOfPattern ((OneWay.run isNamePart).mono fun c hc => ?_) fun inner => ?_
  · simp [isBlank_eq_false_of_isNamePart hc]
  · exact congrArg (Option.map Prod.snd) (name?_anyOf inner)

theorem oneWay_resultPattern :
    OneWay resultPattern (fun cs => (resultToken? cs).map Prod.snd) (fun c => !isBlank c) := by
  refine oneWay_alt_anyOfPattern (oneWay_referencePattern.mono fun c hc => ?_) fun inner => ?_
  · simp [isBlank_eq_false_of_reference hc]
  · rw [referenceToken?_map_snd, name?_anyOf]
    rfl

/-! ## Methods -/

/-- A method from its result type on. -/
def signaturePattern : Pattern :=
  .seq (.group resultPattern) (.seq (.run isBlank) (.seq (.group (.run isWord)) listPattern))

def methodPattern : Pattern :=
  .seq (.optional (.group (.seq (.word "nameasis") (.run isBlank)))) signaturePattern

/-- The groups are the modifier, if it is there, the result type, the name and the parameters. -/
def methodFields : List (List Char) → Option MethodText
  | [result, name, args] => some { nameAsIs := false, result, name, args }
  | [_, result, name, args] => some { nameAsIs := true, result, name, args }
  | _ => none

theorem nameAsIs_of_signature? {nameAsIs : Bool} {m : MethodText} {rest : List Char}
    (h : signature? nameAsIs cs = some (m, rest)) : m.nameAsIs = nameAsIs := by
  obtain ⟨result, _, h⟩ := Option.bind_eq_some_iff.mp h
  obtain ⟨r1, _, h⟩ := Option.bind_eq_some_iff.mp h
  obtain ⟨name, _, h⟩ := Option.bind_eq_some_iff.mp h
  obtain ⟨args, _, h⟩ := Option.bind_eq_some_iff.mp h
  obtain ⟨last, _, hp⟩ := Option.map_eq_some_iff.mp h
  cases hp
  rfl

theorem seek_signaturePattern (nameAsIs : Bool) : signaturePattern.seek cs k =
    (signature? nameAsIs cs).bind fun m => k ⟨[m.1.result, m.1.name, m.1.args], m.2⟩ := by
  have hlist : listPattern.NotAt isWord :=
    notAt_listPattern (fun _ => isBlank_eq_false_of_isWord) (by decide)
  rw [signaturePattern, oneWay_resultPattern.seek_group_seq rfl
    (fun h => (resultToken?_append h).1) (notAt_space (fun c hc => by simpa using hc) _)]
  simp only [OneWay.space.seek_seq rfl (notAt_group_word _), OneWay.seek_group_run hlist,
    seek_listPattern]
  simp only [signature?, word?, Option.map_eq_bind, Option.bind_assoc, Option.bind_some,
    Function.comp_def]

/-- What the groups of a method from its result type on tell. -/
theorem map_signature? (nameAsIs : Bool) (lead : List (List Char))
    (hlead : ∀ result name args, methodFields (lead ++ [result, name, args]) =
      some { nameAsIs, result, name, args }) :
    ((signature? nameAsIs cs).map fun m =>
      (methodFields (lead ++ [m.1.result, m.1.name, m.1.args]), m.2)) =
      (signature? nameAsIs cs).map fun m => (some m.1, m.2) := by
  refine Option.map_congr fun m hm => ?_
  obtain ⟨⟨nameAsIs', result, name, args⟩, rest⟩ := m
  obtain rfl : nameAsIs' = nameAsIs := nameAsIs_of_signature? hm
  rw [hlead]

theorem method_readsBy : method.ReadsBy methodPattern methodFields := by
  intro cs
  have hmodifier : OneWay (.seq (.word "nameasis") (.run isBlank)) (afterModifier? "nameasis")
      isBlank :=
    ((OneWay.word "nameasis" (fun _ => false)).seq OneWay.space
      (Pattern.notAt_run (by simp))).congr fun _ => rfl
  have hnotAt : signaturePattern.NotAt isBlank :=
    .seq (.group (.alt (.seq (Pattern.notAt_run fun _ => isNamePart_eq_false_of_isBlank) _)
      (.seq (Pattern.notAt_word rfl (by decide)) _))) _
  have hnameAsIs : (Pattern.group (.seq (.word "nameasis") (.run isBlank))).seek cs
      (fun m => signaturePattern.seek m.rest fun n => some (m.andThen n)) =
        (afterModifier? "nameasis" cs).bind fun r => (signature? true r).map fun m =>
          ⟨[consumed cs r] ++ [m.1.result, m.1.name, m.1.args], m.2⟩ := by
    rw [Pattern.seek_group, Pattern.seek_groupless rfl]
    refine (hmodifier.seek (F := fun r => signaturePattern.seek r fun n =>
      some (Way.andThen ⟨[consumed cs r], r⟩ n)) (fun c rest hc => hnotAt.seek_eq_none hc)
      cs).trans ?_
    simp only [seek_signaturePattern true, Option.map_eq_bind]
    rfl
  rw [Pattern.match?_eq_seek, methodPattern, Pattern.seek_seq, Pattern.seek_optional, hnameAsIs,
    seek_signaturePattern false, method, Option.map_or, Option.map_or]
  congr 1
  · rw [Option.map_bind, Option.map_bind]
    refine Option.bind_congr fun r _ => ?_
    rw [Function.comp_apply, Function.comp_apply, Option.map_map]
    exact map_signature? true [consumed cs r] fun _ _ _ => rfl
  · refine Eq.trans ?_ (map_signature? false [] fun _ _ _ => rfl)
    rw [Option.map_bind, Option.map_eq_bind]
    rfl

/-! ## Properties -/

/-- A modifier and the white space behind it. -/
def modifierPattern : Pattern :=
  .seq (.alt (.word "readonly") (.word "nameasis")) (.run isBlank)

def modifiersPattern : Pattern := .star modifierPattern

def propertyPattern : Pattern :=
  .seq (.group modifiersPattern) (.seq (.word "attribute") (.seq (.run isBlank)
    (.seq (.group propertyTypePattern) (.seq (.run isBlank)
      (.seq (.group (.run isWord)) endPattern)))))

/-- The groups are the modifiers, all in one, the type and the name. -/
def propertyFields : List (List Char) → Option PropertyText
  | [modifiers, type, name] => some
      { readonly := (wordsOf modifiers).contains "readonly".toList
        nameAsIs := (wordsOf modifiers).contains "nameasis".toList
        type, name }
  | _ => none

/-- The word that a modifier is written as. -/
def Modifier.spelling : Modifier → String
  | .readonly => "readonly"
  | .nameAsIs => "nameasis"

theorem Modifier.spelling_isWord (m : Modifier) :
    m.spelling.toList ≠ [] ∧ m.spelling.toList.all (fun c => !isBlank c) = true := by
  cases m with
  | readonly => decide
  | nameAsIs => decide

theorem afterModifier?_of_modifier? {m : Modifier} {rest : List Char}
    (h : modifier? cs = some (m, rest)) : afterModifier? m.spelling cs = some rest := by
  rcases Option.or_eq_some_iff.mp h with h | ⟨_, h⟩
  · obtain ⟨last, hlast, hp⟩ := Option.map_eq_some_iff.mp h
    cases hp
    exact hlast
  · obtain ⟨last, hlast, hp⟩ := Option.map_eq_some_iff.mp h
    cases hp
    exact hlast

/-- The two words begin with different characters, so at most one of them is there. -/
theorem literal?_nameasis_of_readonly {rest : List Char} (h : literal? "readonly" cs = some rest) :
    literal? "nameasis" cs = none := by
  refine literal?_eq_none_of_head? (c := 'n') rfl ?_
  rw [literal?_eq_some_iff.mp h]
  rintro ⟨⟩

theorem oneWay_modifierPattern :
    OneWay modifierPattern (fun cs => (modifier? cs).map Prod.snd) isBlank := by
  have hword : OneWay (.alt (.word "readonly") (.word "nameasis"))
      (fun cs => (literal? "readonly" cs).or (literal? "nameasis" cs)) (fun _ => false) := by
    refine ⟨fun {γ F} _ cs => ?_⟩
    rw [Pattern.seek_alt, Pattern.seek_word, Pattern.seek_word]
    cases hreadonly : literal? "readonly" cs with
    | none => rfl
    | some rest =>
        rw [literal?_nameasis_of_readonly hreadonly]
        exact Option.or_none
  refine (hword.seq OneWay.space (Pattern.notAt_run (by simp))).congr fun cs => ?_
  rw [modifier?, Option.map_or, Option.map_map, Option.map_map, afterModifier?, afterModifier?]
  cases hreadonly : literal? "readonly" cs with
  | none => exact Option.map_id'.symm
  | some rest =>
      rw [literal?_nameasis_of_readonly hreadonly, Option.bind_none, Option.map_none,
        Option.or_none, Option.or_none]
      exact Option.map_id'.symm

/-- All modifiers in one. -/
def modifiersToken? (cs : List Char) : Option (List Char × List Char) :=
  some (consumed cs (modifiers cs).2, (modifiers cs).2)

/-- In front of `attribute` all modifiers are taken. -/
theorem oneWay_modifiersPattern :
    OneWay modifiersPattern (fun cs => (modifiersToken? cs).map Prod.snd) (· != 'a') := by
  refine ⟨fun {γ F} hF cs => ?_⟩
  have hnotAt : modifierPattern.NotAt isBlank :=
    .seq (.alt (Pattern.notAt_word rfl (by decide)) (Pattern.notAt_word rfl (by decide))) _
  have hblank : ∀ c rest, isBlank c = true →
      modifiersPattern.seek (c :: rest) (fun m => F m.rest) = none := by
    intro c rest hc
    refine Pattern.seek_eq_none_of_begins (hnotAt.2 c hc) (hF c rest ?_)
    rw [bne_iff_ne]
    rintro rfl
    exact absurd hc (by decide)
  have hstep : ∀ cs, modifiersPattern.seek cs (fun m => F m.rest) =
      (((modifier? cs).map Prod.snd).bind fun r =>
        modifiersPattern.seek r fun m => F m.rest).or (F cs) := by
    intro cs
    rw [modifiersPattern, Pattern.seek_star (Pattern.advances_of_nullable rfl)]
    simp only [Way.andThen_rest]
    rw [oneWay_modifierPattern.seek
      (F := fun r => (Pattern.star modifierPattern).seek r fun m => F m.rest) hblank]
  show _ = F (modifiers cs).2
  fun_induction modifiers cs with
  | case1 cs h =>
      rw [hstep, h]
      rfl
  | case2 cs m rest h ih =>
      obtain ⟨mid, hmid, _⟩ := Option.bind_eq_some_iff.mp (afterModifier?_of_modifier? h)
      have hdead : F cs = none := by
        rw [literal?_eq_some_iff.mp hmid]
        cases m with
        | readonly => exact hF 'r' _ rfl
        | nameAsIs => exact hF 'n' _ rfl
      rw [hstep, h, hdead, Option.or_none]
      exact ih

/-- The words of the text that the modifiers take are the modifiers. -/
theorem wordsOf_modifiers (cs : List Char) :
    wordsOf (consumed cs (modifiers cs).2) =
      (modifiers cs).1.map fun m => m.spelling.toList := by
  fun_induction modifiers cs with
  | case1 cs _ =>
      have hnone : consumed cs cs = [] := consumed_append_left [] cs
      rw [hnone]
      rfl
  | case2 cs m rest h ih =>
      obtain ⟨mid, hmid, hspace⟩ := Option.bind_eq_some_iff.mp (afterModifier?_of_modifier? h)
      obtain ⟨blanks, hne, hblanks, _, rfl⟩ := afterSpace?_eq_some_iff.mp hspace
      obtain ⟨s, blanks, rfl⟩ := List.exists_cons_of_ne_nil hne
      obtain ⟨hs, hblanks⟩ := allIn_cons.mp hblanks
      have hcs : cs = (m.spelling.toList ++ s :: (blanks ++ consumed rest (modifiers rest).2)) ++
          (modifiers rest).2 := by
        rw [literal?_eq_some_iff.mp hmid]
        simp [consumed_append (modifiers_suffix rest)]
      obtain ⟨hspelling, hall⟩ := m.spelling_isWord
      rw [List.map_cons, ← ih, hcs, consumed_append_left,
        wordsOf_append_cons hspelling (List.all_eq_true.mp hall) hs,
        wordsOf_append_of_allIn hblanks]

theorem contains_spelling (ms : List Modifier) (m : Modifier) :
    (ms.map fun m => m.spelling.toList).contains m.spelling.toList = ms.contains m := by
  have hinj : Function.Injective fun m : Modifier => m.spelling.toList := by
    intro m m' h
    cases m <;> cases m' <;> first | rfl | exact absurd h (by decide)
  rw [Bool.eq_iff_iff, List.contains_iff_mem, List.contains_iff_mem, List.mem_map_of_injective hinj]

theorem property_readsBy : property.ReadsBy propertyPattern propertyFields := by
  intro cs
  have hfields : ∀ type name, propertyFields [consumed cs (modifiers cs).2, type, name] = some
      { readonly := (modifiers cs).1.contains .readonly
        nameAsIs := (modifiers cs).1.contains .nameAsIs
        type, name } := by
    intro type name
    have hreadonly := contains_spelling (modifiers cs).1 .readonly
    have hnameAsIs := contains_spelling (modifiers cs).1 .nameAsIs
    rw [propertyFields, wordsOf_modifiers, ← hreadonly, ← hnameAsIs]
    rfl
  have htype : ∀ b : Pattern, Pattern.NotAt isBlank (.seq (.group propertyTypePattern) b) :=
    fun b => .seq (.group (.alt (Pattern.notAt_run fun _ => isNamePart_eq_false_of_isBlank)
      (.seq (Pattern.notAt_word rfl (by decide)) _))) b
  have hend : endPattern.NotAt isWord :=
    notAt_endPattern (fun _ => isBlank_eq_false_of_isWord) (by decide)
  have htoken : ∀ {cs token rest}, modifiersToken? cs = some (token, rest) →
      cs = token ++ rest := by
    intro cs token rest h
    cases h
    exact (consumed_append (modifiers_suffix cs)).symm
  rw [Pattern.match?_eq_seek, propertyPattern, oneWay_modifiersPattern.seek_group_seq rfl htoken
    (.seq (Pattern.notAt_word rfl (by decide)) _), modifiersToken?, Option.bind_some,
    Pattern.seek_seq, Pattern.seek_word]
  simp only [Way.andThen_nil, OneWay.space.seek_seq rfl (htype _),
    oneWay_propertyTypePattern.seek_group_seq rfl (fun h => (propertyToken?_append h).1)
      (notAt_space (fun c hc => by simpa using hc) _),
    OneWay.space.seek_seq rfl (notAt_group_word _), OneWay.seek_group_run hend, seek_endPattern]
  simp only [property, hfields, word?, Option.map_eq_bind, Option.bind_assoc, Option.bind_some,
    Function.comp_def]

/-! ## Include lines -/

/-- A path between its marks, on one line. -/
def pathPattern (opening : String) (closing : Char) : Pattern :=
  .seq (.word opening) (.seq (.run fun c => c != closing && c != '\n')
    (.word (String.ofList [closing])))

def headerPattern : Pattern :=
  .group (.seq (.word "#include") (.seq (.star (.one isBlank))
    (.alt (pathPattern "<" '>') (pathPattern "\"" '"'))))

/-- The line as a whole is the one group. -/
def headerFields : List (List Char) → Option (List Char)
  | [line] => some line
  | _ => none

theorem oneWay_pathPattern (opening : String) (closing : Char) :
    OneWay (pathPattern opening closing) (afterPath? opening closing) (fun _ => false) := by
  have hinner := (OneWay.run fun c => c != closing && c != '\n').seq
    (OneWay.word (String.ofList [closing]) fun _ => false)
    (Pattern.notAt_word (String.toList_ofList) (by simp))
  refine ((OneWay.word opening fun _ => false).seq hinner
    (.seq (Pattern.notAt_run (by simp)) _)).congr fun cs => ?_
  simp only [afterPath?, Option.map_eq_bind, Option.bind_assoc, Option.bind_some,
    Function.comp_def]

theorem header_readsBy : header.ReadsBy headerPattern headerFields := by
  intro cs
  have hnotAt : Pattern.NotAt isBlank (.alt (pathPattern "<" '>') (pathPattern "\"" '"')) :=
    .alt (.seq (Pattern.notAt_word rfl (by decide)) _)
      (.seq (Pattern.notAt_word rfl (by decide)) _)
  have hpath : ∀ opening closing r, (pathPattern opening closing).seek r
      (fun m => some (Way.mk [consumed cs m.rest] m.rest)) =
        (afterPath? opening closing r).map fun rest => ⟨[consumed cs rest], rest⟩ := by
    intro opening closing r
    rw [Option.map_eq_bind]
    exact (oneWay_pathPattern opening closing).seek
      (F := fun rest => some (Way.mk [consumed cs rest] rest))
      (fun _ _ hc => absurd hc Bool.false_ne_true) r
  rw [Pattern.match?_eq_seek, headerPattern, Pattern.seek_group, Pattern.seek_groupless rfl,
    Pattern.seek_seq, Pattern.seek_word]
  simp only [Way.andThen_nil, OneWay.blanks.seek_seq rfl hnotAt, Option.bind_some,
    Pattern.seek_alt, hpath, ← Option.map_or]
  simp only [header, afterHeader?, headerFields, Option.map_eq_bind, Option.bind_assoc,
    Option.bind_some, Function.comp_def]

/-! ## Blocks -/

/-- The groups are the name and the body. -/
def interfaceFields : List (List Char) → Option InterfaceText
  | [name, body] => some { name, body }
  | _ => none

theorem interface_readsBy : interface.ReadsBy interfacePattern interfaceFields := by
  intro cs
  rw [← interface_read_map_eq_match?, Option.map_map]
  rfl

end IdlGlue.Statement
