/-
# IdlGlue.Proofs.OneWay -- patterns that are read in one way

A matcher takes a decision back only where the text that is left does not suit what follows. Most
parts of a statement end where a character stands that cannot belong to them, and what follows can
begin nowhere else. For such a part there is one way to be read, and a step that never takes
anything back finds it.

`OneWay a step? p` says this of the part `a` and the step `step?`: whatever follows `a`, if nothing
goes on from a character of the class `p`, then `a` leaves what the step leaves. What a part
always needs is that nothing goes on from inside it (`OneWay.run`). Parts are put together
with `OneWay.seq`, where the second must not begin inside the first, and a group that holds
a token tells its text (`OneWay.seek_group_seq`).
-/
import IdlGlue.Proofs.Pattern

namespace IdlGlue.Scan

open IdlGlue.Text

/-- Where nothing goes on from a character of the class, the pattern leaves what the step leaves. -/
structure OneWay (a : Pattern) (step? : List Char → Option (List Char)) (p : Char → Bool) :
    Prop where
  seek : ∀ {γ : Type} {F : List Char → Option γ}, (∀ c rest, p c = true → F (c :: rest) = none) →
    ∀ cs, a.seek cs (fun m => F m.rest) = (step? cs).bind F

namespace OneWay

variable {a b : Pattern} {s t : List Char → Option (List Char)} {p p' : Char → Bool}

/-! ## Parts -/

/-- A word is read in one way, whatever follows it. -/
theorem word (w : String) (p : Char → Bool) : OneWay (.word w) (literal? w) p where
  seek _ _ := Pattern.seek_word w

theorem run (p : Char → Bool) : OneWay (.run p) (fun cs => (run? p cs).map Prod.snd) p where
  seek hF cs := by
    rw [Pattern.seek_run hF, Option.bind_map]
    rfl

theorem star_one (p : Char → Bool) :
    OneWay (.star (.one p)) (fun cs => some (cs.dropWhile p)) p where
  seek hF _ := Pattern.seek_star_one hF

/-- White space that may be missing. -/
theorem blanks : OneWay (.star (.one isBlank)) (fun cs => some (afterBlanks cs)) isBlank :=
  star_one isBlank

/-- White space that has to be there. -/
theorem space : OneWay (.run isBlank) afterSpace? isBlank where
  seek hF cs := by rw [(run isBlank).seek hF, afterSpace?_eq_map_run?]

/-- It may be known of more characters that nothing goes on from them. -/
theorem mono (ha : OneWay a s p) (hp : ∀ c, p c = true → p' c = true) : OneWay a s p' where
  seek hF cs := ha.seek (fun c rest hc => hF c rest (hp c hc)) cs

theorem congr (ha : OneWay a s p) (hst : ∀ cs, s cs = t cs) : OneWay a t p where
  seek hF cs := by rw [ha.seek hF, hst]

/-! ## Parts in a row -/

theorem seq_of_seek (ha : OneWay a s p) (hb : OneWay b t p')
    (hbehind : ∀ {γ : Type} {F : List Char → Option γ},
      (∀ c rest, p' c = true → F (c :: rest) = none) →
      ∀ c rest, p c = true → b.seek (c :: rest) (fun m => F m.rest) = none) :
    OneWay (.seq a b) (fun cs => (s cs).bind t) p' := by
  refine ⟨fun {γ F} hF cs => ?_⟩
  rw [Pattern.seek_seq]
  simp only [Way.andThen_rest]
  rw [ha.seek (F := fun r => b.seek r fun m => F m.rest) (hbehind hF), Option.bind_assoc]
  exact Option.bind_congr fun r _ => hb.seek hF r

/-- The second part reads something, and does not begin inside the first. -/
theorem seq (ha : OneWay a s p) (hb : OneWay b t p') (hnot : b.NotAt p) :
    OneWay (.seq a b) (fun cs => (s cs).bind t) p' :=
  ha.seq_of_seek hb fun _ _ _ hc => hnot.seek_eq_none hc

/-- The second part may be missing, and neither it nor what follows goes on inside the first. -/
theorem seq_of_begins (ha : OneWay a s p) (hb : OneWay b t p')
    (hbegins : ∀ c, p c = true → b.begins c = false) (hp : ∀ c, p c = true → p' c = true) :
    OneWay (.seq a b) (fun cs => (s cs).bind t) p' := by
  refine ha.seq_of_seek hb fun hF c rest hc => ?_
  exact Pattern.seek_eq_none_of_begins (hbegins c hc) (hF c rest (hp c hc))

variable {γ : Type} {cs : List Char} {k : Way → Option γ}

/-- A part without groups, in front of what reads something. -/
theorem seek_seq (ha : OneWay a s p) (hgroups : a.groupless = true) (hb : b.NotAt p) :
    (Pattern.seq a b).seek cs k = (s cs).bind fun r => b.seek r k := by
  rw [Pattern.seek_seq, Pattern.seek_groupless hgroups]
  exact ha.seek (F := fun r => b.seek r k) (fun c rest hc => hb.seek_eq_none hc) cs

/-- A token in front of what reads something: the group that holds it tells its text. -/
theorem seek_group_seq {token? : List Char → Option (List Char × List Char)}
    (ha : OneWay a (fun cs => (token? cs).map Prod.snd) p) (hgroups : a.groupless = true)
    (htoken : ∀ {cs token rest}, token? cs = some (token, rest) → cs = token ++ rest)
    (hb : b.NotAt p) :
    (Pattern.seq (.group a) b).seek cs k =
      (token? cs).bind fun t => b.seek t.2 fun n => k ⟨t.1 :: n.groups, n.rest⟩ := by
  rw [Pattern.seek_seq, Pattern.seek_group, Pattern.seek_groupless hgroups]
  refine (ha.seek (F := fun r => b.seek r fun n => k ⟨consumed cs r :: n.groups, n.rest⟩)
    (fun c rest hc => hb.seek_eq_none hc) cs).trans ?_
  rw [Option.bind_map]
  refine Option.bind_congr fun t ht => ?_
  have htold : consumed cs t.2 = t.1 := by
    rw [htoken ht, consumed_append_left]
  rw [Function.comp_apply, htold]

/-- A run that a group holds, in front of what does not begin inside it. -/
theorem seek_group_run (hb : b.NotAt p) : (Pattern.seq (.group (.run p)) b).seek cs k =
    (run? p cs).bind fun w => b.seek w.2 fun n => k ⟨w.1 :: n.groups, n.rest⟩ :=
  (run p).seek_group_seq rfl run?_append hb

end OneWay

/-! ## What begins where -/

/-- No qualified name begins in white space. -/
theorem notAt_group_name (b : Pattern) :
    Pattern.NotAt isBlank (.seq (.group (.run isNamePart)) b) :=
  .seq (.group (Pattern.notAt_run fun _ => isNamePart_eq_false_of_isBlank)) b

/-- No word begins in white space. -/
theorem notAt_group_word (b : Pattern) : Pattern.NotAt isBlank (.seq (.group (.run isWord)) b) :=
  .seq (.group (Pattern.notAt_run fun _ => isWord_eq_false_of_isBlank)) b

/-- White space does not begin inside a token. -/
theorem notAt_space {p : Char → Bool} (hp : ∀ c, p c = true → isBlank c = false) (b : Pattern) :
    Pattern.NotAt p (.seq (.run isBlank) b) :=
  .seq (Pattern.notAt_run hp) b

theorem isBlank_eq_false_of_isWord {c : Char} (h : isWord c = true) : isBlank c = false :=
  isBlank_eq_false_of_isNamePart (isNamePart_of_isWord h)

end IdlGlue.Scan
