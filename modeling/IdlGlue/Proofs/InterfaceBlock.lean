/-
# IdlGlue.Proofs.InterfaceBlock -- which blocks are read, and how far

The recogniser of interface blocks against the pattern that describes them:

    interface\s+([\w:]+)\s*\x7b(body)\x7d\s*;?

Outside the body the pattern can be read without taking anything back, since behind
each run stands a character that is not in its class. So the preferred way of the
whole pattern is the preferred way of the body with the rest read around it, and the
recogniser finds exactly this one (`interface_read_map_eq_match?`).
-/
import IdlGlue.Proofs.BodyPattern
import IdlGlue.Proofs.OneWay
import IdlGlue.Statement.TopLevel

namespace IdlGlue.Statement

open IdlGlue.Text IdlGlue.Scan

/-! ## The pattern -/

/-- The closing brace, the white space behind it, and one semicolon that may be there. -/
def closingPattern : Pattern :=
  .seq (.word "\x7d") (.seq (.star (.one isBlank)) (.optional (.word ";")))

/-- A block from behind its name on. -/
def bracedPattern : Pattern :=
  .seq (.star (.one isBlank)) (.seq (.word "\x7b") (.seq (.group bodyPattern) closingPattern))

/-- A whole block; the groups are its name and its body. -/
def interfacePattern : Pattern :=
  .seq (.word "interface")
    (.seq (.run isBlank) (.seq (.group (.run isNamePart)) bracedPattern))

section Seeking

variable {γ : Type} {cs : List Char} {k : Way → Option γ}

theorem seek_optional_semicolon (hk : ∀ m, (k m).isSome) :
    (Pattern.optional (.word ";")).seek cs k = k ⟨[], afterOptionalSemicolon cs⟩ := by
  rw [Pattern.seek_optional, Pattern.seek_word]
  unfold afterOptionalSemicolon
  split
  · next rest => exact Option.or_of_isSome (hk _)
  · next hno =>
      have hnone : literal? ";" cs = none := by
        refine literal?_eq_none_of_head? (c := ';') rfl ?_
        intro hhead
        obtain ⟨rest, rfl⟩ := List.head?_eq_some_iff.mp hhead
        exact hno rest rfl
      rw [hnone]
      rfl

theorem seek_closingPattern (hk : ∀ m, (k m).isSome) :
    closingPattern.seek cs k =
      (literal? "\x7d" cs).bind fun r => k ⟨[], afterOptionalSemicolon (afterBlanks r)⟩ := by
  rw [closingPattern, Pattern.seek_seq, Pattern.seek_word]
  simp only [Way.andThen_nil, Pattern.seek_seq]
  congr
  funext r
  have hlast : ((Pattern.optional (.word ";")).seek (r.dropWhile isBlank) k).isSome := by
    rw [seek_optional_semicolon hk]
    exact hk _
  exact (Pattern.seek_star_one_of_isSome hlast).trans (seek_optional_semicolon hk)

/-- What is found behind a body of `cs` that ends before `r`: nothing, unless a brace
closes it. -/
def closeBody (k : Way → Option γ) (cs r : List Char) : Option γ :=
  (literal? "\x7d" r).bind fun rest =>
    k ⟨[consumed cs r], afterOptionalSemicolon (afterBlanks rest)⟩

theorem seek_body_closing (hk : ∀ m, (k m).isSome) :
    (Pattern.seq (.group bodyPattern) closingPattern).seek cs k =
      (body? cs).bind fun m => k ⟨[m.1], afterOptionalSemicolon (afterBlanks m.2)⟩ := by
  have hseek : (Pattern.seq (.group bodyPattern) closingPattern).seek cs k =
      seekBody (closeBody k cs) cs := by
    rw [Pattern.seek_seq, Pattern.seek_group, Pattern.seek_groupless bodyPattern_groupless]
    simp only [seek_closingPattern fun m => hk _]
    rfl
  have hother : ∀ r, r.head? ≠ some '}' → closeBody k cs r = none := by
    intro r hr
    rw [closeBody, literal?_eq_none_of_head? (c := '}') rfl hr]
    rfl
  rw [hseek, seekBody_eq_body? (fun rest => hk _) hother]
  cases hbody : body? cs with
  | none => rfl
  | some m =>
      have hconsumed : consumed cs ('}' :: m.2) = m.1 := by
        rw [body?_append hbody, consumed_append_left]
      show k ⟨[consumed cs ('}' :: m.2)], _⟩ = k ⟨[m.1], _⟩
      rw [hconsumed]

theorem seek_bracedPattern (hk : ∀ m, (k m).isSome) :
    bracedPattern.seek cs k = (literal? "\x7b" (afterBlanks cs)).bind fun inner =>
      (body? inner).bind fun m => k ⟨[m.1], afterOptionalSemicolon (afterBlanks m.2)⟩ := by
  rw [bracedPattern, OneWay.blanks.seek_seq rfl (.seq (Pattern.notAt_word rfl (by decide)) _),
    Option.bind_some, Pattern.seek_seq, Pattern.seek_word]
  simp only [Way.andThen_nil, seek_body_closing hk]

theorem seek_interfacePattern (hk : ∀ m, (k m).isSome) :
    interfacePattern.seek cs k =
      (interfaceHead? cs).bind fun head => (body? head.2).bind fun m =>
        k ⟨[head.1, m.1], afterOptionalSemicolon (afterBlanks m.2)⟩ := by
  -- From inside a name no block goes on, and a name does not begin with white space.
  have hbraced : bracedPattern.NotAt isNamePart :=
    .star_seq (fun _ => isBlank_eq_false_of_isNamePart)
      (.seq (Pattern.notAt_word rfl (by decide)) _)
  have hname : ∀ r, (Pattern.seq (.group (.run isNamePart)) bracedPattern).seek r k =
      (name? r).bind fun name => (literal? "\x7b" (afterBlanks name.2)).bind fun inner =>
        (body? inner).bind fun m =>
          k ⟨[name.1, m.1], afterOptionalSemicolon (afterBlanks m.2)⟩ := by
    intro r
    rw [OneWay.seek_group_run hbraced]
    simp only [seek_bracedPattern fun m => hk _]
    rfl
  rw [interfacePattern, Pattern.seek_seq, Pattern.seek_word]
  simp only [Way.andThen_nil, OneWay.space.seek_seq rfl (notAt_group_name _), hname]
  simp only [interfaceHead?, Option.bind_assoc, Option.bind_map, Function.comp_def]

end Seeking

/-- **The recogniser finds the match of the pattern.** -/
theorem interface_read_map_eq_match? (cs : List Char) :
    (interface.read cs).map (fun m => ⟨[m.1.name, m.1.body], m.2⟩) =
      interfacePattern.match? cs := by
  rw [Pattern.match?_eq_seek, seek_interfacePattern fun m => rfl]
  simp only [interface, Option.map_eq_bind, Option.bind_assoc,
    Function.comp_def, Option.bind_some]

/-! ## Heads and ends of blocks -/

/-- The text begins with the head of a block, which gives its name and leaves what stands
behind the opening brace. -/
inductive InterfaceHead : List Char → List Char → List Char → Prop
  | mk {space name blanks inner : List Char} : space ≠ [] → AllIn isBlank space →
      name ≠ [] → AllIn isNamePart name → AllIn isBlank blanks →
      InterfaceHead ("interface".toList ++ space ++ name ++ blanks ++ '{' :: inner) name inner

/-- What belongs to a block behind its closing brace: white space, and one semicolon if
there is one. -/
inductive BlockEnd : List Char → List Char → Prop
  | semicolon {space rest : List Char} : AllIn isBlank space →
      BlockEnd (space ++ ';' :: rest) rest
  | bare {space rest : List Char} : AllIn isBlank space → StopsAt isBlank rest →
      rest.head? ≠ some ';' → BlockEnd (space ++ rest) rest

theorem interfaceHead?_eq_some_iff {cs name inner : List Char} :
    interfaceHead? cs = some (name, inner) ↔ InterfaceHead cs name inner := by
  constructor
  · intro h
    obtain ⟨r0, h0, h⟩ := Option.bind_eq_some_iff.mp h
    obtain ⟨r1, h1, h⟩ := Option.bind_eq_some_iff.mp h
    obtain ⟨⟨word, r2⟩, h2, h⟩ := Option.bind_eq_some_iff.mp h
    obtain ⟨r3, h3, hp⟩ := Option.map_eq_some_iff.mp h
    cases hp
    obtain ⟨space, hspaceNe, hspace, _, rfl⟩ := afterSpace?_eq_some_iff.mp h1
    obtain ⟨hnameNe, hname, _, rfl⟩ := run?_eq_some_iff_append.mp h2
    obtain ⟨blanks, hblanks, _, hr2⟩ := afterBlanks_eq_iff.mp (literal?_eq_some_iff.mp h3)
    have hcs : cs = "interface".toList ++ space ++ word ++ blanks ++ '{' :: inner := by
      simp only at hr2
      rw [literal?_eq_some_iff.mp h0, hr2]
      simp only [List.append_assoc]
      rfl
    rw [hcs]
    exact .mk hspaceNe hspace hnameNe hname hblanks
  · intro h
    cases h with
    | @mk space name blanks inner hspaceNe hspace hnameNe hname hblanks =>
        have hbrace : StopsAt isBlank ('{' :: inner) := stopsAt_cons.mpr (by decide)
        have hbehind : StopsAt isNamePart (blanks ++ '{' :: inner) :=
          .of_disjoint hblanks (stopsAt_cons.mpr (by decide))
            fun _ => isNamePart_eq_false_of_isBlank
        have hstop : StopsAt isBlank (name ++ (blanks ++ '{' :: inner)) :=
          (stopsAt_append_of_ne_nil hnameNe).mpr hname.stopsAt_isBlank
        -- Each run ends where it does since the next character is not in its class.
        simp only [List.append_assoc]
        refine Option.bind_eq_some_iff.mpr ⟨_, literal?_eq_some_iff.mpr rfl, ?_⟩
        refine Option.bind_eq_some_iff.mpr
          ⟨_, afterSpace?_eq_some_iff.mpr ⟨space, hspaceNe, hspace, hstop, rfl⟩, ?_⟩
        refine Option.bind_eq_some_iff.mpr
          ⟨_, run?_eq_some_iff_append.mpr ⟨hnameNe, hname, hbehind, rfl⟩, ?_⟩
        rw [afterBlanks_append hblanks, afterBlanks_of_stopsAt hbrace]
        rfl

theorem blockEnd_iff {cs rest : List Char} :
    BlockEnd cs rest ↔ afterOptionalSemicolon (afterBlanks cs) = rest := by
  constructor
  · intro h
    cases h with
    | semicolon hspace =>
        rw [afterBlanks_append hspace, afterBlanks_of_stopsAt (stopsAt_cons.mpr (by decide))]
        rfl
    | bare hspace hstop hhead =>
        rw [afterBlanks_append hspace, afterBlanks_of_stopsAt hstop]
        unfold afterOptionalSemicolon
        split
        · exact absurd rfl hhead
        · rfl
  · rintro rfl
    obtain ⟨space, hspace, hstop, hcs⟩ := afterBlanks_eq_iff.mp (rfl : afterBlanks cs = _)
    generalize afterBlanks cs = behind at hstop hcs
    subst hcs
    unfold afterOptionalSemicolon
    split
    · exact .semicolon hspace
    · next hno =>
        refine .bare hspace hstop fun hhead => ?_
        obtain ⟨rest, rfl⟩ := List.head?_eq_some_iff.mp hhead
        exact hno rest rfl

/-! ## The law of blocks -/

/-- **Which blocks are read, and how far.** The recogniser finds the match of the pattern;
there is one exactly when a closing brace stands anywhere behind a head; and where one
stands outside comments, the body is the text up to the first such brace, and the
block goes on behind it over white space and at most one semicolon. -/
theorem interface_read_law (cs : List Char) :
    (interface.read cs).map (fun m => ⟨[m.1.name, m.1.body], m.2⟩) = interfacePattern.match? cs ∧
    ((interface.read cs).isSome ↔ ∃ name inner, InterfaceHead cs name inner ∧ '}' ∈ inner) ∧
    ∀ name before behind, InterfaceHead cs name (before ++ '}' :: behind) →
      FirstBrace (before ++ '}' :: behind) behind →
      ∃ rest, BlockEnd behind rest ∧
        interface.read cs = some ({ name := name, body := before }, rest) := by
  refine ⟨interface_read_map_eq_match? cs, ?_, ?_⟩
  · have hread : (interface.read cs).isSome ↔
        ∃ head, interfaceHead? cs = some head ∧ (body? head.2).isSome := by
      show ((interfaceHead? cs).bind _).isSome ↔ _
      simp only [Option.isSome_bind, Option.any_eq_true, Option.isSome_map]
    rw [hread]
    simp only [Prod.exists, interfaceHead?_eq_some_iff, body?_isSome_iff]
  · intro name before behind hhead hscan
    refine ⟨_, blockEnd_iff.mpr rfl, ?_⟩
    obtain ⟨body, hbody⟩ := hscan.body?_eq
    have hbefore : body = before := by
      have happ := body?_append hbody
      exact (List.append_cancel_right happ).symm
    subst hbefore
    show (interfaceHead? cs).bind _ = _
    rw [interfaceHead?_eq_some_iff.mpr hhead, Option.bind_some, hbody]
    rfl

end IdlGlue.Statement
