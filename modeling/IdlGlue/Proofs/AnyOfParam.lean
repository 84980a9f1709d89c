/-
# IdlGlue.Proofs.AnyOfParam -- what becomes of a parameter of the type `anyof<Set>`

Two readers look at a parameter list, and they tell such a parameter differently:

| reader          | told of `void f(anyof<S> x);`         | told of `void f(anyof< S > x);` |
|-----------------|---------------------------------------|---------------------------------|
| of a text       | no statement matches                  | no statement matches            |
| of a list alone | the type `anyof<S>` of `x`            | nothing: a class `anyof<`       |

The grammar of statements has no brackets in a parameter list, so the member is no statement, and
the reader of a text stops in front of it (`CallsWith.read_eq_none`). That no parameter may have the
type is settled behind the grammar, by the reader of a list, and a text never gets there.

The argument goes by characters. Before its parameter list a member holds neither a parenthesis
nor a semicolon, so the first of them tells where the list begins, or that there is none; and the
list ends at the next closing parenthesis.
-/
import IdlGlue.Proofs.LooseList
import IdlGlue.Proofs.Stop

namespace IdlGlue

open IdlGlue.Text IdlGlue.Scan IdlGlue.Statement

/-! ## Up to the first parenthesis or semicolon -/

/-- Before `rest` stand only characters that may stand before a parameter list. -/
def HeadTo (cs rest : List Char) : Prop := ∃ head, AllIn isHead head ∧ cs = head ++ rest

theorem isHead_of_isNamePart {c : Char} (h : isNamePart c = true) : isHead c = true := by
  simp [isHead, h]

theorem isHead_of_isBlank {c : Char} (h : isBlank c = true) : isHead c = true := by
  simp [isHead, h]

theorem isHead_of_isLoose {c : Char} (h : isLoose c = true) : isHead c = true := by
  simp only [isLoose, Bool.or_eq_true, beq_iff_eq] at h
  rcases h with ((h | h) | rfl) | rfl
  · exact isHead_of_isNamePart h
  · exact isHead_of_isBlank h
  · decide +kernel
  · decide +kernel

theorem isHead_paren : isHead '(' = false := by decide +kernel

theorem paren_not_mem_head {head : List Char} (h : AllIn isHead head) : '(' ∉ head := by
  intro hmem
  simpa [isHead_paren] using h _ hmem

section Steps

variable {cs mid rest w r r' : List Char} {c d : Char}

theorem HeadTo.trans (h : HeadTo cs mid) (h' : HeadTo mid rest) : HeadTo cs rest := by
  obtain ⟨first, hfirst, rfl⟩ := h
  obtain ⟨second, hsecond, rfl⟩ := h'
  exact ⟨first ++ second, allIn_append.mpr ⟨hfirst, hsecond⟩, (List.append_assoc _ _ _).symm⟩

/-- The first other character is where it is. -/
theorem HeadTo.unique (hc : isHead c = false) (hd : isHead d = false) (h : HeadTo cs (c :: r))
    (h' : HeadTo cs (d :: r')) : c :: r = d :: r' := by
  obtain ⟨head, hhead, rfl⟩ := h
  obtain ⟨head', hhead', heq⟩ := h'
  exact (hhead.append_inj (stopsAt_cons.mpr hc) hhead' (stopsAt_cons.mpr hd) heq).2

theorem headTo_literal? {word : String} (hword : AllIn isHead word.toList)
    (h : literal? word cs = some rest) : HeadTo cs rest :=
  ⟨word.toList, hword, literal?_eq_some_iff.mp h⟩

theorem headTo_afterBlanks (cs : List Char) : HeadTo cs (afterBlanks cs) := by
  obtain ⟨blanks, hblanks, _, heq⟩ := afterBlanks_eq_iff.mp (Eq.refl (afterBlanks cs))
  exact ⟨blanks, hblanks.mono fun _ => isHead_of_isBlank, heq⟩

theorem headTo_afterSpace? (h : afterSpace? cs = some rest) : HeadTo cs rest := by
  obtain ⟨blanks, _, hblanks, _, heq⟩ := afterSpace?_eq_some_iff.mp h
  exact ⟨blanks, hblanks.mono fun _ => isHead_of_isBlank, heq⟩

theorem headTo_name? (h : name? cs = some (w, rest)) : HeadTo cs rest := by
  obtain ⟨_, hw, _, heq⟩ := run?_eq_some_iff_append.mp h
  exact ⟨w, hw.mono fun _ => isHead_of_isNamePart, heq⟩

theorem headTo_word? (h : word? cs = some (w, rest)) : HeadTo cs rest := by
  obtain ⟨_, hw, _, heq⟩ := run?_eq_some_iff_append.mp h
  exact ⟨w, hw.mono fun _ hc => isHead_of_isNamePart (isNamePart_of_isWord hc), heq⟩

theorem headTo_anyOfToken? (h : anyOfToken? cs = some (w, rest)) : HeadTo cs rest := by
  obtain ⟨⟨set, htoken⟩, heq⟩ := anyOfToken?_eq_some_iff.mp h
  exact ⟨w, htoken.allIn.mono fun _ => isHead_of_isLoose, heq⟩

theorem headTo_referenceToken? (h : referenceToken? cs = some (w, rest)) : HeadTo cs rest := by
  obtain ⟨⟨name, r⟩, hname, hp⟩ := Option.map_eq_some_iff.mp h
  split at hp
  · next behind hr =>
      cases hp
      have hmark : HeadTo r rest := ⟨['&'], by decide +kernel, hr⟩
      exact (headTo_name? hname).trans hmark
  · cases hp
    exact headTo_name? hname

theorem headTo_resultToken? (h : resultToken? cs = some (w, rest)) : HeadTo cs rest := by
  unfold resultToken? at h
  split at h
  · exact headTo_anyOfToken? h
  · exact headTo_referenceToken? h

theorem headTo_propertyToken? (h : propertyToken? cs = some (w, rest)) : HeadTo cs rest := by
  unfold propertyToken? at h
  split at h
  · exact headTo_anyOfToken? h
  · exact headTo_name? h

theorem headTo_afterModifier? {word : String} (hword : AllIn isHead word.toList)
    (h : afterModifier? word cs = some rest) : HeadTo cs rest := by
  obtain ⟨mid, hmid, h⟩ := Option.bind_eq_some_iff.mp h
  exact (headTo_literal? hword hmid).trans (headTo_afterSpace? h)

theorem headTo_modifiers (cs : List Char) : HeadTo cs (modifiers cs).2 := by
  fun_induction modifiers cs with
  | case1 cs _ => exact ⟨[], allIn_nil, rfl⟩
  | case2 cs m rest h ih =>
      refine HeadTo.trans ?_ ih
      rcases Option.or_eq_some_iff.mp h with h | ⟨_, h⟩
      · obtain ⟨behind, h, hp⟩ := Option.map_eq_some_iff.mp h
        cases hp
        exact headTo_afterModifier? (by decide +kernel) h
      · obtain ⟨behind, h, hp⟩ := Option.map_eq_some_iff.mp h
        cases hp
        exact headTo_afterModifier? (by decide +kernel) h

end Steps

/-! ## Where the parameter list of a member stands -/

section Cuts

variable {cs args rest : List Char}

/-- A parameter list stands between two parentheses, which are the next ones. -/
def ListAt (cs args : List Char) : Prop :=
  (∃ params, ParamList 0 args params) ∧ ∃ tail, HeadTo cs ('(' :: (args ++ ')' :: tail))

theorem listAt_params? (h : params? cs = some (args, rest)) : ListAt cs args := by
  obtain ⟨hlist, hcs⟩ := params?_eq_some_iff.mp h
  exact ⟨hlist, rest, [], allIn_nil, hcs⟩

theorem HeadTo.listAt {mid : List Char} (h : HeadTo cs mid) (h' : ListAt mid args) :
    ListAt cs args := by
  obtain ⟨hparams, tail, hlist⟩ := h'
  exact ⟨hparams, tail, h.trans hlist⟩

theorem listAt_constructor (h : Statement.constructor.Reads cs args rest) : ListAt cs args := by
  obtain ⟨r0, h0, h⟩ := Option.bind_eq_some_iff.mp h
  obtain ⟨⟨args, r1⟩, hargs, h⟩ := Option.bind_eq_some_iff.mp h
  obtain ⟨last, _, hp⟩ := Option.map_eq_some_iff.mp h
  cases hp
  exact ((headTo_literal? (by decide +kernel) h0).trans (headTo_afterBlanks r0)).listAt
    (listAt_params? hargs)

theorem listAt_signature? {nameAsIs : Bool} {s : MethodText}
    (h : signature? nameAsIs cs = some (s, rest)) : ListAt cs s.args := by
  obtain ⟨result, hresult, h⟩ := Option.bind_eq_some_iff.mp h
  obtain ⟨r1, hspace, h⟩ := Option.bind_eq_some_iff.mp h
  obtain ⟨name, hname, h⟩ := Option.bind_eq_some_iff.mp h
  obtain ⟨⟨args, r2⟩, hargs, h⟩ := Option.bind_eq_some_iff.mp h
  obtain ⟨last, _, hp⟩ := Option.map_eq_some_iff.mp h
  cases hp
  have htoName := (headTo_resultToken? hresult).trans (headTo_afterSpace? hspace)
  exact ((htoName.trans (headTo_word? hname)).trans (headTo_afterBlanks name.2)).listAt
    (listAt_params? hargs)

theorem listAt_method {s : MethodText} (h : Statement.method.Reads cs s rest) :
    ListAt cs s.args := by
  rcases Option.or_eq_some_iff.mp h with h | ⟨_, h⟩
  · obtain ⟨mid, hmid, h⟩ := Option.bind_eq_some_iff.mp h
    exact (headTo_afterModifier? (by decide +kernel) hmid).listAt (listAt_signature? h)
  · exact listAt_signature? h

/-- A property has no parameter list: its first mark is a semicolon. -/
theorem headTo_property {s : PropertyText} (h : Statement.property.Reads cs s rest) :
    HeadTo cs (';' :: rest) := by
  obtain ⟨r0, h0, h⟩ := Option.bind_eq_some_iff.mp h
  obtain ⟨r1, h1, h⟩ := Option.bind_eq_some_iff.mp h
  obtain ⟨type, htype, h⟩ := Option.bind_eq_some_iff.mp h
  obtain ⟨r2, h2, h⟩ := Option.bind_eq_some_iff.mp h
  obtain ⟨name, hname, h⟩ := Option.bind_eq_some_iff.mp h
  obtain ⟨last, hlast, hp⟩ := Option.map_eq_some_iff.mp h
  cases hp
  have htoType := ((headTo_modifiers cs).trans (headTo_literal? (by decide +kernel) h0)).trans
    (headTo_afterSpace? h1)
  have htoName := (htoType.trans (headTo_propertyToken? htype)).trans (headTo_afterSpace? h2)
  have hend : afterBlanks name.2 = ';' :: rest := literal?_eq_some_iff.mp hlast
  rw [← hend]
  exact (htoName.trans (headTo_word? hname)).trans (headTo_afterBlanks name.2)

end Cuts

/-! ## Lists that differ -/

theorem PairText.not_mem {piece type name : List Char} {c : Char} (h : PairText piece type name)
    (hname : isNamePart c = false) (hblank : isBlank c = false) : c ∉ piece := by
  cases h with
  | mk hbefore _ htype _ hbetween _ hword hafter =>
      intro hc
      simp only [List.mem_append] at hc
      rcases hc with (((hc | hc) | hc) | hc) | hc
      · exact Bool.noConfusion ((hbefore c hc).symm.trans hblank)
      · exact Bool.noConfusion ((htype c hc).symm.trans hname)
      · exact Bool.noConfusion ((hbetween c hc).symm.trans hblank)
      · exact Bool.noConfusion ((isNamePart_of_isWord (hword c hc)).symm.trans hname)
      · exact Bool.noConfusion ((hafter c hc).symm.trans hblank)

/-- A parameter list holds commas, white space and name characters only. -/
theorem ParamList.not_mem {n : Nat} {args : List Char} {params : List Param} {c : Char}
    (h : ParamList n args params) (hcomma : c ≠ ',') (hname : isNamePart c = false)
    (hblank : isBlank c = false) : c ∉ args := by
  induction h with
  | nil n => exact List.not_mem_nil
  | last hpair => exact hpair.not_mem hname hblank
  | cons hpair _ ih =>
      rw [List.mem_append, List.mem_cons, not_or, not_or]
      exact ⟨hpair.not_mem hname hblank, hcomma, ih⟩

/-- A list with other types holds brackets beside these. -/
theorem LooseList.not_mem {args : List Char} {pairs : List (List Char × List Char)} {c : Char}
    (h : LooseList args pairs) (hcomma : c ≠ ',') (hc : isLoose c = false) : c ∉ args := by
  have hpiece {piece type name : List Char} (hpair : LoosePair piece type name) : c ∉ piece := by
    intro hmem
    rw [hpair.allIn c hmem] at hc
    cases hc
  induction h with
  | nil => exact List.not_mem_nil
  | last hpair => exact hpiece hpair
  | cons hpair _ ih =>
      rw [List.mem_append, List.mem_cons, not_or, not_or]
      exact ⟨hpiece hpair, hcomma, ih⟩

theorem LoosePair.mem_less {piece type name set : List Char} (h : LoosePair piece type name)
    (htoken : AnyOfToken type set) : '<' ∈ piece := by
  obtain ⟨before, between, after, _, _, _, _, _, _, _, _, _, rfl⟩ := h.parts
  simp only [List.mem_append]
  exact Or.inl (Or.inl (Or.inl (Or.inr htoken.mem_less)))

theorem LooseList.mem_less {args : List Char} {pairs : List (List Char × List Char)}
    (h : LooseList args pairs) (hany : ∃ pair ∈ pairs, ∃ set, AnyOfToken pair.1 set) :
    '<' ∈ args := by
  induction h with
  | nil =>
      obtain ⟨pair, hpair, _⟩ := hany
      cases hpair
  | last hpair =>
      obtain ⟨pair, hmem, set, htoken⟩ := hany
      rw [List.mem_singleton.mp hmem] at htoken
      exact hpair.mem_less htoken
  | cons hpair _ ih =>
      obtain ⟨pair, hmem, set, htoken⟩ := hany
      rw [List.mem_append, List.mem_cons]
      rcases List.mem_cons.mp hmem with rfl | hmem
      · exact Or.inl (hpair.mem_less htoken)
      · exact Or.inr (Or.inr (ih ⟨pair, hmem, set, htoken⟩))

/-- What stands before the first of a mark is settled by the text. -/
theorem append_cons_inj {m : Char} {a b x y : List Char} (ha : m ∉ a) (hb : m ∉ b)
    (h : a ++ m :: x = b ++ m :: y) : a = b ∧ x = y := by
  have hnot {w : List Char} (hw : m ∉ w) : AllIn (· != m) w := by
    intro c hc
    rw [bne_iff_ne]
    rintro rfl
    exact hw hc
  have hstop {w : List Char} : StopsAt (· != m) (m :: w) := stopsAt_cons.mpr (by simp)
  obtain ⟨hfirst, hrest⟩ := (hnot ha).append_inj hstop (hnot hb) hstop h
  exact ⟨hfirst, (List.cons.inj hrest).2⟩

/-- Up to its first parenthesis a text with a parameter list holds what may stand there. -/
theorem ListAt.allIn_isHead {head rest args : List Char} (h : ListAt (head ++ '(' :: rest) args)
    (hparen : '(' ∉ head) : AllIn isHead head := by
  obtain ⟨_, tail, head', hhead', heq⟩ := h
  obtain ⟨rfl, _⟩ := append_cons_inj hparen (paren_not_mem_head hhead') heq
  exact hhead'

/-- The list is what stands between the first parentheses. -/
theorem ListAt.args_eq {cs args xs tail : List Char} (h : ListAt cs args)
    (hhead : HeadTo cs ('(' :: (xs ++ ')' :: tail))) (hparen : ')' ∉ xs) : args = xs := by
  obtain ⟨⟨params, hparams⟩, tail', hhead'⟩ := h
  have hrest := (List.cons.inj (hhead'.unique isHead_paren isHead_paren hhead)).2
  have hparen' := hparams.not_mem (c := ')') (by decide) (by decide) (by decide)
  exact (append_cons_inj hparen' hparen hrest).1

/-! ## Calls -/

/-- The text begins with a constructor or a method, but for its parameter list, which is `args`:
with another list in this place it is one. -/
def CallsWith (cs args : List Char) : Prop :=
  ∃ head other tail, '(' ∉ head ∧ cs = head ++ '(' :: (args ++ ')' :: tail) ∧
    ((Statement.constructor.read (head ++ '(' :: (other ++ ')' :: tail))).isSome = true ∨
      (Statement.method.read (head ++ '(' :: (other ++ ')' :: tail))).isSome = true)

section Calls

variable {cs args : List Char} {pairs : List (List Char × List Char)}

theorem CallsWith.headTo (h : CallsWith cs args) :
    NameStart cs ∧ ∃ tail, HeadTo cs ('(' :: (args ++ ')' :: tail)) := by
  obtain ⟨head, other, tail, hparen, rfl, hread⟩ := h
  have hother : NameStart (head ++ '(' :: (other ++ ')' :: tail)) ∧
      ∃ args', ListAt (head ++ '(' :: (other ++ ')' :: tail)) args' := by
    rcases hread with hread | hread
    · obtain ⟨⟨args', rest⟩, hread⟩ := Option.isSome_iff_exists.mp hread
      have hmember := member_reads_iff.mpr (Or.inl ⟨args', hread, rfl⟩)
      exact ⟨member_start hmember, args', listAt_constructor hread⟩
    · obtain ⟨⟨s, rest⟩, hread⟩ := Option.isSome_iff_exists.mp hread
      have hmember := member_reads_iff.mpr (Or.inr (Or.inl ⟨s, hread, rfl⟩))
      exact ⟨member_start hmember, s.args, listAt_method hread⟩
  -- What stands before the parenthesis is the same, whatever stands behind it.
  obtain ⟨⟨c, behind, hstart, hc⟩, args', hlist⟩ := hother
  refine ⟨?_, tail, head, hlist.allIn_isHead hparen, rfl⟩
  cases head with
  | nil =>
      rw [← (List.cons.inj hstart).1, isNamePart_paren] at hc
      cases hc
  | cons d head => exact ⟨d, _, rfl, (List.cons.inj hstart).1 ▸ hc⟩

/-- **A member with a parameter of the type `anyof<Set>` is no statement.** -/
theorem CallsWith.read_eq_none (h : CallsWith cs args) (hlist : LooseList args pairs)
    (hany : ∃ pair ∈ pairs, ∃ set, AnyOfToken pair.1 set) : member.read cs = none := by
  obtain ⟨_, tail, hhead⟩ := h.headTo
  have hnoList : ∀ args', ¬ListAt cs args' := by
    intro args' hlistAt
    obtain rfl := hlistAt.args_eq hhead (hlist.not_mem (by decide) (by decide +kernel))
    obtain ⟨⟨params, hparams⟩, _⟩ := hlistAt
    exact hparams.not_mem (c := '<') (by decide) (by decide) (by decide) (hlist.mem_less hany)
  rw [Option.eq_none_iff_forall_ne_some]
  rintro ⟨s, rest⟩ hread
  rcases member_reads_iff.mp hread with ⟨args', hc, _⟩ | ⟨m, hm, _⟩ | ⟨p, hp, _⟩
  · exact hnoList args' (listAt_constructor hc)
  · exact hnoList m.args (listAt_method hm)
  · have hmarks := hhead.unique isHead_paren (by decide +kernel) (headTo_property hp)
    exact absurd (List.cons.inj hmarks).1 (by decide)

end Calls

end IdlGlue
