/-
# IdlGlue.Proofs.Stop -- reading up to a stop

A stop is a character that stands nowhere inside a statement: neither a name character nor
white space nor one of the marks between them. The semicolon is one, and so are the slash
and the closing brace.

`Alike s t t' cs cs'` relates two texts that are the same up to their first `s`; from there
on they are `t` and `t'`. Every step of the reader takes alike texts to alike texts, and
gives up on both or on neither. There is one lemma for each step, and `rel_bind` puts them
together along the binds of a statement, as it is written there.

The steps before a parameter list pass no parenthesis either, so they are the same for `(` as
the stop.

What a statement makes of its semicolon is left open in the last section: `T` relates what
two alike texts leave behind it.
-/
import IdlGlue.Proofs.MemberKind
import IdlGlue.Statement.TopLevel

namespace IdlGlue.Scan

open IdlGlue.Text

/-! ## Related results -/

section Rel

variable {α β γ δ : Type} {R : α → β → Prop} {S : γ → δ → Prop}

theorem rel_bind {x : Option α} {y : Option β} {f : α → Option γ} {g : β → Option δ}
    (h : Option.Rel R x y) (hfg : ∀ {a b}, R a b → Option.Rel S (f a) (g b)) :
    Option.Rel S (x.bind f) (y.bind g) := by
  cases h with
  | none => exact .none
  | some hab => exact hfg hab

theorem rel_map {x : Option α} {y : Option β} {f : α → γ} {g : β → δ}
    (h : Option.Rel R x y) (hfg : ∀ {a b}, R a b → S (f a) (g b)) :
    Option.Rel S (x.map f) (y.map g) := by
  cases h with
  | none => exact .none
  | some hab => exact .some (hfg hab)

theorem rel_or {x x' : Option α} {y y' : Option β} (h : Option.Rel R x y)
    (h' : Option.Rel R x' y') : Option.Rel R (x.or x') (y.or y') := by
  cases h with
  | none => exact h'
  | some hab => exact .some hab

theorem rel_isSome {x : Option α} {y : Option β} (h : Option.Rel R x y) :
    x.isSome = y.isSome := by
  cases h with
  | none => rfl
  | some _ => rfl

theorem rel_ite {P : Prop} [Decidable P] {a : α} {b : β} (h : R a b) :
    Option.Rel R (if P then some a else none) (if P then some b else none) := by
  split
  · exact .some h
  · exact .none

theorem eq_none_of_rel {y : Option β} (h : Option.Rel R none y) : y = none := by
  cases h
  rfl

theorem exists_of_rel_some {a : α} {y : Option β} (h : Option.Rel R (some a) y) :
    ∃ b, y = some b ∧ R a b := by
  cases h with
  | some hab => exact ⟨_, rfl, hab⟩

end Rel

/-! ## Texts that are alike up to a stop -/

/-- A character before the parameter list of a statement: a name character, white space, or a
mark of a type. -/
def isHead (c : Char) : Bool := isNamePart c || isBlank c || ['<', '>', '&'].contains c

/-- A character inside statements: a name character, white space, or a mark that stands
between the two. -/
def isInside (c : Char) : Bool :=
  isNamePart c || isBlank c || ['(', ')', '<', '>', ',', '&'].contains c

/-- What two texts have behind the part in which they are the same: nothing, or the stop
and then anything. -/
inductive Tails (s : Char) : List Char → List Char → Prop
  | none : Tails s [] []
  | stop (z z' : List Char) : Tails s (s :: z) (s :: z')

/-- The texts are the same up to the first `s` in them, where the tails `t` and `t'` begin. -/
def Alike (s : Char) (t t' cs cs' : List Char) : Prop :=
  Tails s t t' ∧ ∃ u, s ∉ u ∧ cs = u ++ t ∧ cs' = u ++ t'

/-- The same was read, and the texts that are left are related. -/
def SameRead {α : Type} (T : List Char → List Char → Prop) (m m' : α × List Char) : Prop :=
  m.1 = m'.1 ∧ T m.2 m'.2

/-! ## The steps, one by one -/

section Steps

variable {s : Char} {t t' cs cs' rest rest' : List Char}

theorem Tails.left_stopsAt {p : Char → Bool} (hp : p s = false) (h : Tails s t t') :
    StopsAt p t := by
  cases h with
  | none => exact stopsAt_nil
  | stop z z' => exact stopsAt_cons.mpr hp

theorem Tails.symm (h : Tails s t t') : Tails s t' t := by
  cases h with
  | none => exact .none
  | stop z z' => exact .stop z' z

theorem takeWhile_append_of_stopsAt {p : Char → Bool} (ht : StopsAt p t) (u : List Char) :
    (u ++ t).takeWhile p = u.takeWhile p := by
  induction u with
  | nil => exact takeWhile_eq_of_stopsAt allIn_nil ht
  | cons c u ih =>
      rw [List.cons_append, List.takeWhile_cons, List.takeWhile_cons, ih]

theorem dropWhile_append_of_stopsAt {p : Char → Bool} (ht : StopsAt p t) (u : List Char) :
    (u ++ t).dropWhile p = u.dropWhile p ++ t := by
  induction u with
  | nil => exact dropWhile_eq_of_stopsAt allIn_nil ht
  | cons c u ih =>
      rw [List.cons_append, List.dropWhile_cons, List.dropWhile_cons, ih]
      split <;> rfl

/-- A run of a class without the stop. -/
theorem Alike.dropWhile {p : Char → Bool} (hp : p s = false) (h : Alike s t t' cs cs') :
    Alike s t t' (cs.dropWhile p) (cs'.dropWhile p) := by
  obtain ⟨htails, u, hu, rfl, rfl⟩ := h
  refine ⟨htails, u.dropWhile p, ?_, ?_, ?_⟩
  · intro hmem
    exact hu ((List.dropWhile_suffix p).subset hmem)
  · exact dropWhile_append_of_stopsAt (htails.left_stopsAt hp) u
  · exact dropWhile_append_of_stopsAt (htails.symm.left_stopsAt hp) u

theorem Alike.takeWhile {p : Char → Bool} (hp : p s = false) (h : Alike s t t' cs cs') :
    cs.takeWhile p = cs'.takeWhile p := by
  obtain ⟨htails, u, _, rfl, rfl⟩ := h
  rw [takeWhile_append_of_stopsAt (htails.left_stopsAt hp),
    takeWhile_append_of_stopsAt (htails.symm.left_stopsAt hp)]

/-- What was read lies before the tails, so they do not count in its length. -/
theorem Alike.consumed (h : Alike s t t' cs cs') (hrest : Alike s t t' rest rest') :
    consumed cs rest = consumed cs' rest' := by
  obtain ⟨_, u, _, rfl, rfl⟩ := h
  obtain ⟨_, v, _, rfl, rfl⟩ := hrest
  have htake : ∀ w : List Char,
      consumed (u ++ w) (v ++ w) = u.take (u.length - v.length) := by
    intro w
    have hlen : (u ++ w).length - (v ++ w).length = u.length - v.length := by
      simp only [List.length_append]
      omega
    rw [Scan.consumed, hlen, List.take_append_of_le_length (by omega)]
  rw [htake, htake]

/-- The tails begin here, or the first character is the same and is no stop. -/
theorem Alike.cases (h : Alike s t t' cs cs') :
    (cs = t ∧ cs' = t' ∧ Tails s t t') ∨
      ∃ c tail tail', c ≠ s ∧ cs = c :: tail ∧ cs' = c :: tail' ∧ Alike s t t' tail tail' := by
  obtain ⟨htails, u, hu, rfl, rfl⟩ := h
  cases u with
  | nil => exact Or.inl ⟨rfl, rfl, htails⟩
  | cons c u =>
      obtain ⟨hc, hu⟩ := not_or.mp (mt List.mem_cons.mpr hu)
      exact Or.inr ⟨c, _, _, Ne.symm hc, rfl, rfl, htails, u, hu, rfl, rfl⟩

theorem Alike.head? (h : Alike s t t' cs cs') : cs.head? = cs'.head? := by
  rcases h.cases with ⟨rfl, rfl, htails⟩ | ⟨c, tail, tail', _, rfl, rfl, _⟩
  · cases htails <;> rfl
  · rfl

/-- A character that both texts begin with and that is no stop. -/
theorem Alike.cons_of_head? {c : Char} (h : Alike s t t' cs cs') (hc : c ≠ s)
    (hhead : cs.head? = some c) :
    ∃ tail tail', cs = c :: tail ∧ cs' = c :: tail' ∧ Alike s t t' tail tail' := by
  rcases h.cases with ⟨rfl, rfl, htails⟩ | ⟨d, tail, tail', _, rfl, rfl, htail⟩
  · cases htails with
    | none => cases hhead
    | stop z z' =>
        cases hhead
        exact absurd rfl hc
  · cases hhead
    exact ⟨tail, tail', rfl, rfl, htail⟩

/-- A word in which the stop does not occur. -/
theorem Alike.dropStart? {w : List Char} (hw : s ∉ w) (h : Alike s t t' cs cs') :
    Option.Rel (Alike s t t') (dropStart? w cs) (dropStart? w cs') := by
  induction w generalizing cs cs' with
  | nil => exact .some h
  | cons d w ih =>
      obtain ⟨hd, hw⟩ := not_or.mp (mt List.mem_cons.mpr hw)
      rcases h.cases with ⟨rfl, rfl, htails⟩ | ⟨c, tail, tail', _, rfl, rfl, htail⟩
      · cases htails with
        | none => exact .none
        | stop z z' =>
            simp only [Text.dropStart?, if_neg (Ne.symm hd)]
            exact .none
      · simp only [Text.dropStart?]
        split
        · exact ih hw htail
        · exact .none

theorem Alike.literal? {w : String} (hw : s ∉ w.toList) (h : Alike s t t' cs cs') :
    Option.Rel (Alike s t t') (literal? w cs) (literal? w cs') :=
  h.dropStart? hw

theorem Alike.run? {p : Char → Bool} (hp : p s = false) (h : Alike s t t' cs cs') :
    Option.Rel (SameRead (Alike s t t')) (run? p cs) (run? p cs') := by
  have hrest := h.dropWhile hp
  have hread := h.takeWhile hp
  unfold Scan.run?
  rw [← hread]
  split
  · exact .none
  · exact .some ⟨rfl, hrest⟩

theorem ne_stop {p : Char → Bool} (hs : p s = false) {c : Char} (hc : p c = true) : c ≠ s := by
  rintro rfl
  rw [hc] at hs
  cases hs

/-- A word of a class without the stop. -/
theorem Alike.literal?_of_allIn {p : Char → Bool} (hs : p s = false) {w : String}
    (hw : AllIn p w.toList) (h : Alike s t t' cs cs') :
    Option.Rel (Alike s t t') (Scan.literal? w cs) (Scan.literal? w cs') :=
  h.literal? fun hmem => ne_stop hs (hw s hmem) rfl

/-! ### Before a parameter list -/

section Head

variable (hs : isHead s = false)

include hs

theorem isNamePart_stop : isNamePart s = false := by
  simp only [isHead, Bool.or_eq_false_iff] at hs
  exact hs.1.1

theorem isWord_stop : isWord s = false := by
  have h := isNamePart_stop hs
  simp only [isNamePart, Bool.or_eq_false_iff] at h
  exact h.1

theorem isBlank_stop : isBlank s = false := by
  simp only [isHead, Bool.or_eq_false_iff] at hs
  exact hs.1.2

theorem Alike.afterBlanks (h : Alike s t t' cs cs') :
    Alike s t t' (afterBlanks cs) (afterBlanks cs') :=
  h.dropWhile (isBlank_stop hs)

theorem Alike.name? (h : Alike s t t' cs cs') :
    Option.Rel (SameRead (Alike s t t')) (name? cs) (name? cs') :=
  h.run? (isNamePart_stop hs)

theorem Alike.word? (h : Alike s t t' cs cs') :
    Option.Rel (SameRead (Alike s t t')) (word? cs) (word? cs') :=
  h.run? (isWord_stop hs)

theorem Alike.afterSpace? (h : Alike s t t' cs cs') :
    Option.Rel (Alike s t t') (afterSpace? cs) (afterSpace? cs') := by
  rw [afterSpace?_eq_map_run?, afterSpace?_eq_map_run?]
  exact rel_map (h.run? (isBlank_stop hs)) fun hm => hm.2

theorem Alike.afterParam? (h : Alike s t t' cs cs') :
    Option.Rel (Alike s t t') (afterParam? cs) (afterParam? cs') := by
  refine rel_bind ((h.afterBlanks hs).name? hs) fun htype => ?_
  refine rel_bind (htype.2.afterSpace? hs) fun hrest => ?_
  exact rel_map (hrest.word? hs) fun hname => hname.2.afterBlanks hs

end Head

/-! ### Parameter lists -/

section Lists

variable (hs : isInside s = false)

include hs

theorem isHead_stop : isHead s = false := by
  simp only [isInside, Bool.or_eq_false_iff] at hs
  simp_all [isHead]

theorem Alike.paramsEnd? (h : Alike s t t' cs cs') :
    Option.Rel (Alike s t t') (paramsEnd? cs) (paramsEnd? cs') := by
  -- The list gets shorter with each pair that a comma follows.
  induction hn : cs.length using Nat.strong_induction_on generalizing cs cs' with
  | h n ih =>
  subst hn
  have hparam := h.afterParam? (isHead_stop hs)
  cases hcs : Scan.afterParam? cs with
  | none =>
      rw [hcs] at hparam
      rw [paramsEnd?_of_none hcs, paramsEnd?_of_none (eq_none_of_rel hparam), ← h.head?]
      exact rel_ite h
  | some rest =>
      rw [hcs] at hparam
      obtain ⟨rest', hcs', hrest⟩ := exists_of_rel_some hparam
      by_cases hcomma : rest.head? = some ','
      · obtain ⟨tail, tail', rfl, rfl, htail⟩ :=
          hrest.cons_of_head? (ne_stop hs (by decide)) hcomma
        have hlt := (afterParam?_suffix hcs).2
        simp only [List.length_cons] at hlt
        rw [paramsEnd?_of_comma hcs, paramsEnd?_of_comma hcs']
        exact ih tail.length (by omega) htail rfl
      · rw [paramsEnd?_of_ne hcs hcomma, paramsEnd?_of_ne hcs' (hrest.head? ▸ hcomma),
          ← hrest.head?]
        exact rel_ite hrest

theorem Alike.params? (h : Alike s t t' cs cs') :
    Option.Rel (SameRead (Alike s t t')) (params? cs) (params? cs') := by
  refine rel_bind (h.literal?_of_allIn hs (by decide)) fun hinner => ?_
  refine rel_bind (hinner.paramsEnd? hs) fun hclosing => ?_
  refine rel_map (hclosing.literal?_of_allIn hs (by decide)) fun hrest => ?_
  exact ⟨hinner.consumed hclosing, hrest⟩

end Lists

end Steps

end IdlGlue.Scan

namespace IdlGlue.Statement

open IdlGlue.Text IdlGlue.Scan

/-! ## Type tokens -/

section Tokens

variable {s : Char} {t t' cs cs' : List Char} (hs : isHead s = false)

include hs

theorem alike_anyOfToken? (h : Alike s t t' cs cs') :
    Option.Rel (SameRead (Alike s t t')) (anyOfToken? cs) (anyOfToken? cs') := by
  refine rel_map ?_ fun hrest => ⟨h.consumed hrest, hrest⟩
  refine rel_bind (h.literal?_of_allIn hs (by decide)) fun hinner => ?_
  refine rel_bind ((hinner.afterBlanks hs).name? hs) fun hset => ?_
  exact (hset.2.afterBlanks hs).literal?_of_allIn hs (by decide)

theorem alike_referenceToken? (h : Alike s t t' cs cs') :
    Option.Rel (SameRead (Alike s t t')) (referenceToken? cs) (referenceToken? cs') := by
  refine rel_map (h.name? hs) fun {a b} hname => ?_
  obtain ⟨name, rest⟩ := a
  obtain ⟨name', rest'⟩ := b
  obtain ⟨rfl, hrest⟩ := hname
  by_cases hmark : rest.head? = some '&'
  · obtain ⟨tail, tail', rfl, rfl, htail⟩ :=
      hrest.cons_of_head? (ne_stop hs (by decide)) hmark
    exact ⟨rfl, htail⟩
  · -- Neither name has the mark behind it.
    have hmark' : rest'.head? ≠ some '&' := hrest.head? ▸ hmark
    simp only
    split
    · exact absurd rfl hmark
    · split
      · exact absurd rfl hmark'
      · exact ⟨rfl, hrest⟩

theorem alike_propertyToken? (h : Alike s t t' cs cs') :
    Option.Rel (SameRead (Alike s t t')) (propertyToken? cs) (propertyToken? cs') := by
  have hanyOf := rel_isSome (h.literal?_of_allIn hs (w := "anyof<") (by decide))
  unfold propertyToken?
  rw [hanyOf]
  split
  · exact alike_anyOfToken? hs h
  · exact h.name? hs

theorem alike_resultToken? (h : Alike s t t' cs cs') :
    Option.Rel (SameRead (Alike s t t')) (resultToken? cs) (resultToken? cs') := by
  have hanyOf := rel_isSome (h.literal?_of_allIn hs (w := "anyof<") (by decide))
  unfold resultToken?
  rw [hanyOf]
  split
  · exact alike_anyOfToken? hs h
  · exact alike_referenceToken? hs h

theorem alike_afterModifier? {w : String} (hw : AllIn isHead w.toList)
    (h : Alike s t t' cs cs') :
    Option.Rel (Alike s t t') (afterModifier? w cs) (afterModifier? w cs') :=
  rel_bind (h.literal?_of_allIn hs hw) fun hrest => hrest.afterSpace? hs

theorem alike_modifier? (h : Alike s t t' cs cs') :
    Option.Rel (SameRead (Alike s t t')) (modifier? cs) (modifier? cs') := by
  refine rel_or ?_ ?_
  · exact rel_map (alike_afterModifier? hs (by decide) h) fun hrest => ⟨rfl, hrest⟩
  · exact rel_map (alike_afterModifier? hs (by decide) h) fun hrest => ⟨rfl, hrest⟩

theorem alike_modifiers (h : Alike s t t' cs cs') :
    SameRead (Alike s t t') (modifiers cs) (modifiers cs') := by
  fun_induction modifiers cs generalizing cs' with
  | case1 cs hnone =>
      have hmodifier := alike_modifier? hs h
      rw [hnone] at hmodifier
      rw [modifiers_of_none (eq_none_of_rel hmodifier)]
      exact ⟨rfl, h⟩
  | case2 cs m rest hsome ih =>
      have hmodifier := alike_modifier? hs h
      rw [hsome] at hmodifier
      obtain ⟨⟨m', rest'⟩, hsome', rfl, hrest⟩ := exists_of_rel_some hmodifier
      rw [modifiers_of_some hsome']
      exact ⟨congrArg (m :: ·) (ih hrest).1, (ih hrest).2⟩

end Tokens

/-! ## Statements -/

section Statements

variable {s : Char} {t t' cs cs' : List Char} {T : List Char → List Char → Prop}
  (hs : isInside s = false)
  (hend : ∀ {cs cs'}, Alike s t t' cs cs' →
    Option.Rel T (afterSemicolon? cs) (afterSemicolon? cs'))

include hs hend

theorem alike_delegate (h : Alike s t t' cs cs') :
    Option.Rel (SameRead T) (delegate.read cs) (delegate.read cs') := by
  refine rel_bind (h.literal?_of_allIn hs (by decide)) fun h0 => ?_
  refine rel_bind (h0.afterSpace? (isHead_stop hs)) fun h1 => ?_
  refine rel_bind (alike_referenceToken? (isHead_stop hs) h1) fun hresult => ?_
  refine rel_bind (hresult.2.afterSpace? (isHead_stop hs)) fun h2 => ?_
  refine rel_bind (h2.name? (isHead_stop hs)) fun hname => ?_
  refine rel_bind ((hname.2.afterBlanks (isHead_stop hs)).params? hs) fun hargs => ?_
  refine rel_map (hend hargs.2) fun hrest => ⟨?_, hrest⟩
  rw [hresult.1, hname.1, hargs.1]

theorem alike_constructor (h : Alike s t t' cs cs') :
    Option.Rel (SameRead T) (constructor.read cs) (constructor.read cs') := by
  refine rel_bind (h.literal?_of_allIn hs (by decide)) fun h0 => ?_
  refine rel_bind ((h0.afterBlanks (isHead_stop hs)).params? hs) fun hargs => ?_
  exact rel_map (hend hargs.2) fun hrest => ⟨hargs.1, hrest⟩

theorem alike_signature? {nameAsIs : Bool} (h : Alike s t t' cs cs') :
    Option.Rel (SameRead T) (signature? nameAsIs cs) (signature? nameAsIs cs') := by
  refine rel_bind (alike_resultToken? (isHead_stop hs) h) fun hresult => ?_
  refine rel_bind (hresult.2.afterSpace? (isHead_stop hs)) fun h1 => ?_
  refine rel_bind (h1.word? (isHead_stop hs)) fun hname => ?_
  refine rel_bind ((hname.2.afterBlanks (isHead_stop hs)).params? hs) fun hargs => ?_
  refine rel_map (hend hargs.2) fun hrest => ⟨?_, hrest⟩
  rw [hresult.1, hname.1, hargs.1]

theorem alike_method (h : Alike s t t' cs cs') :
    Option.Rel (SameRead T) (method.read cs) (method.read cs') := by
  refine rel_or ?_ (alike_signature? hs hend h)
  refine rel_bind (alike_afterModifier? (isHead_stop hs) (by decide) h) fun hrest => ?_
  exact alike_signature? hs hend hrest

theorem alike_property (h : Alike s t t' cs cs') :
    Option.Rel (SameRead T) (property.read cs) (property.read cs') := by
  have hmodifiers := alike_modifiers (isHead_stop hs) h
  refine rel_bind (hmodifiers.2.literal?_of_allIn hs (by decide)) fun h0 => ?_
  refine rel_bind (h0.afterSpace? (isHead_stop hs)) fun h1 => ?_
  refine rel_bind (alike_propertyToken? (isHead_stop hs) h1) fun htype => ?_
  refine rel_bind (htype.2.afterSpace? (isHead_stop hs)) fun h2 => ?_
  refine rel_bind (h2.word? (isHead_stop hs)) fun hname => ?_
  refine rel_map (hend hname.2) fun hrest => ⟨?_, hrest⟩
  rw [hmodifiers.1, htype.1, hname.1]

theorem alike_member (h : Alike s t t' cs cs') :
    Option.Rel (SameRead T) (member.read cs) (member.read cs') := by
  refine rel_or ?_ (rel_or ?_ ?_)
  · exact rel_map (alike_constructor hs hend h) fun hm => ⟨by rw [hm.1], hm.2⟩
  · exact rel_map (alike_method hs hend h) fun hm => ⟨by rw [hm.1], hm.2⟩
  · exact rel_map (alike_property hs hend h) fun hm => ⟨by rw [hm.1], hm.2⟩

end Statements

end IdlGlue.Statement
