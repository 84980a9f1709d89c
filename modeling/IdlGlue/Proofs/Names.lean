/-
# IdlGlue.Proofs.Names -- of which characters the names in a source text are made

| name                                        | characters                        |
|---------------------------------------------|-----------------------------------|
| interface, delegate, class, set of classes   | word characters and colons        |
| method, property, parameter                  | word characters                   |

A type token holds marks and perhaps white space beside its name; `ofToken` drops both, so the
type that it stands for names word characters and colons only. The parameters of a list are
numbered from zero.

Whatever generated code copies of a source text is one of these names or an include line. So a
name cannot hold a bracket, a quote or a line end.
-/
import IdlGlue.Proofs.SourceTiling

namespace IdlGlue

open IdlGlue.Text IdlGlue.Scan IdlGlue.Statement

/-! ## Named types -/

/-- What the type names, if anything, is made of name characters. -/
inductive IdlType.Named : IdlType → Prop
  | void : Named .void
  | primitive (kind : Primitive) : Named (.primitive kind)
  | object {name : String} : AllIn isNamePart name.toList → Named (.object name)
  | reference {name : String} : AllIn isNamePart name.toList → Named (.reference name)
  | anyOf {set : String} : AllIn isNamePart set.toList → Named (.anyOf set)

structure Param.Named (p : Param) : Prop where
  type : p.type.Named
  name : AllIn isWord p.name.toList

structure Method.Named (m : Method) : Prop where
  result : m.result.Named
  name : AllIn isWord m.name.toList
  params : ∀ p ∈ m.params, p.Named

structure Property.Named (p : Property) : Prop where
  type : p.type.Named
  name : AllIn isWord p.name.toList

/-- All names in the member are made of name characters. -/
def Member.Named : Member → Prop
  | .constructor params => ∀ p ∈ params, p.Named
  | .method m => m.Named
  | .property p => p.Named

structure Interface.Named (i : Interface) : Prop where
  name : AllIn isNamePart i.name.toList
  members : ∀ m ∈ i.members, m.Named

structure Delegate.Named (d : Delegate) : Prop where
  result : d.result.Named
  name : AllIn isNamePart d.name.toList
  params : ∀ p ∈ d.params, p.Named

/-- The parameters are numbered from zero in their order. -/
def Numbered (params : List Param) : Prop :=
  params.map Param.index = List.range params.length

/-- What holds of every statement holds of all that are tiled. -/
theorem Scan.Tiled.forall_mem {α : Type} {R : List Char → α → List Char → Prop} {P : α → Prop}
    {cs rest : List Char} {as : List α} (h : Tiled R cs as rest)
    (hP : ∀ {cs a rest}, R cs a rest → P a) : ∀ a ∈ as, P a := by
  induction h with
  | nil cs => exact List.forall_mem_nil P
  | cons hread _ _ ih => exact List.forall_mem_cons.mpr ⟨hP hread, ih⟩

/-! ## Tokens -/

theorem named_of_allIn {w : List Char} (hne : w ≠ []) (hw : AllIn isNamePart w) :
    (IdlType.ofToken (String.ofList w)).Named := by
  rcases IdlType.ofToken_of_allIn hne hw with h | ⟨kind, h⟩ | h
  · exact h ▸ .void
  · exact h ▸ .primitive kind
  · rw [h]
    refine .object ?_
    rw [String.toList_ofList]
    exact hw

theorem ofToken_reference {w : List Char} (hne : w ≠ []) (hw : AllIn isNamePart w) :
    IdlType.ofToken (String.ofList (w ++ ['&'])) = .reference (String.ofList w) := by
  have htoken : trim (w ++ ['&']) = w ++ ['&'] := by
    refine trim_eq_self_iff.mpr ⟨(stopsAt_append_of_ne_nil hne).mpr hw.stopsAt_isBlank, ?_⟩
    rw [List.getLast?_concat]
    rintro c ⟨⟩
    decide
  have hend : trimEnd w = w := trimEnd_of_getLast fun c hc =>
    isBlank_eq_false_of_isNamePart (hw c (List.mem_of_mem_getLast? hc))
  rw [IdlType.ofToken_ampersand htoken, hend]

theorem ofToken_anyOf {before set after : List Char} (hbefore : AllIn isBlank before)
    (hne : set ≠ []) (hset : AllIn isNamePart set) (hafter : AllIn isBlank after) :
    IdlType.ofToken (String.ofList ("anyof<".toList ++ (before ++ set ++ after) ++ ['>'])) =
      .anyOf (String.ofList set) := by
  have htoken : trim ("anyof<".toList ++ ((before ++ set ++ after) ++ ['>'])) =
      "anyof<".toList ++ ((before ++ set ++ after) ++ ['>']) := IdlType.trim_inAngles
  have hcore : trim (before ++ set ++ after) = set :=
    trim_append hbefore hafter hne hset.stopsAt_isBlank fun c hc =>
      isBlank_eq_false_of_isNamePart (hset c (List.mem_of_mem_getLast? hc))
  rw [List.append_assoc, IdlType.ofToken_inAngles htoken, hcore]

/-- The token `anyof<Set>`, with white space inside its brackets or not. -/
inductive AnyOfToken : List Char → List Char → Prop
  | mk {before set after : List Char} : AllIn isBlank before → set ≠ [] → AllIn isNamePart set →
      AllIn isBlank after →
      AnyOfToken ("anyof<".toList ++ (before ++ set ++ after) ++ ['>']) set

/-- These are the tokens that the result of a method may have. -/
theorem anyOfToken?_eq_some_iff {cs token rest : List Char} :
    anyOfToken? cs = some (token, rest) ↔ (∃ set, AnyOfToken token set) ∧ cs = token ++ rest := by
  constructor
  · intro h
    obtain ⟨last, hlast, hp⟩ := Option.map_eq_some_iff.mp h
    cases hp
    obtain ⟨inner, h1, h2⟩ := Option.bind_eq_some_iff.mp hlast
    obtain ⟨⟨set, r⟩, h3, h4⟩ := Option.bind_eq_some_iff.mp h2
    obtain ⟨before, hbefore, _, hinner⟩ := afterBlanks_eq_iff.mp (Eq.refl (afterBlanks inner))
    obtain ⟨hne, hset, _, hname⟩ := run?_eq_some_iff_append.mp h3
    obtain ⟨after, hafter, _, hr⟩ := afterBlanks_eq_iff.mp (Eq.refl (afterBlanks r))
    have hcs : cs = "anyof<".toList ++ (before ++ set ++ after) ++ ['>'] ++ rest := by
      rw [literal?_eq_some_iff.mp h1, hinner, hname, hr, literal?_eq_some_iff.mp h4]
      simp only [List.append_assoc]
      rfl
    rw [hcs, consumed_append_left]
    exact ⟨⟨set, .mk hbefore hne hset hafter⟩, rfl⟩
  · rintro ⟨⟨set, htoken⟩, rfl⟩
    cases htoken with
    | @mk before set after hbefore hne hset hafter =>
        have hbehind : StopsAt isNamePart (after ++ '>' :: rest) :=
          StopsAt.of_disjoint hafter (stopsAt_cons.mpr (by decide))
            fun _ => isNamePart_eq_false_of_isBlank
        have hblanks : afterBlanks (before ++ (set ++ (after ++ '>' :: rest))) =
            set ++ (after ++ '>' :: rest) := by
          rw [afterBlanks_append hbefore, afterBlanks_of_stopsAt]
          exact (stopsAt_append_of_ne_nil hne).mpr hset.stopsAt_isBlank
        have hname : name? (set ++ (after ++ '>' :: rest)) = some (set, after ++ '>' :: rest) :=
          run?_eq_some_iff_append.mpr ⟨hne, hset, hbehind, rfl⟩
        have hclose : afterBlanks (after ++ '>' :: rest) = '>' :: rest := by
          rw [afterBlanks_append hafter, afterBlanks_of_stopsAt (stopsAt_cons.mpr (by decide))]
        have hcut : "anyof<".toList ++ (before ++ set ++ after) ++ ['>'] ++ rest =
            "anyof<".toList ++ (before ++ (set ++ (after ++ '>' :: rest))) := by
          simp only [List.append_assoc]
          rfl
        have hafterAnyOf : afterAnyOf?
            ("anyof<".toList ++ (before ++ set ++ after) ++ ['>'] ++ rest) = some rest := by
          rw [afterAnyOf?, hcut, literal?_eq_some_iff.mpr rfl, Option.bind_some, hblanks, hname,
            Option.bind_some, hclose]
          rfl
        rw [anyOfToken?, hafterAnyOf, Option.map_some, consumed_append_left]

theorem AnyOfToken.ofToken {token set : List Char} (h : AnyOfToken token set) :
    IdlType.ofToken (String.ofList token) = .anyOf (String.ofList set) := by
  cases h with
  | mk hbefore hne hset hafter => exact ofToken_anyOf hbefore hne hset hafter

theorem named_of_anyOfToken? {cs token rest : List Char}
    (h : anyOfToken? cs = some (token, rest)) : (IdlType.ofToken (String.ofList token)).Named := by
  obtain ⟨⟨set, htoken⟩, _⟩ := anyOfToken?_eq_some_iff.mp h
  rw [htoken.ofToken]
  cases htoken with
  | mk _ _ hset _ =>
      refine .anyOf ?_
      rw [String.toList_ofList]
      exact hset

theorem named_of_referenceToken? {cs token rest : List Char}
    (h : referenceToken? cs = some (token, rest)) :
    (IdlType.ofToken (String.ofList token)).Named := by
  obtain ⟨⟨name, r⟩, hname, hp⟩ := Option.map_eq_some_iff.mp h
  obtain ⟨hne, hin, _, _⟩ := run?_eq_some_iff_append.mp hname
  split at hp
  · cases hp
    rw [ofToken_reference hne hin]
    refine .reference ?_
    rw [String.toList_ofList]
    exact hin
  · cases hp
    exact named_of_allIn hne hin

theorem named_of_resultToken? {cs token rest : List Char}
    (h : resultToken? cs = some (token, rest)) :
    (IdlType.ofToken (String.ofList token)).Named := by
  unfold resultToken? at h
  split at h
  · exact named_of_anyOfToken? h
  · exact named_of_referenceToken? h

theorem named_of_propertyToken? {cs token rest : List Char}
    (h : propertyToken? cs = some (token, rest)) :
    (IdlType.ofToken (String.ofList token)).Named := by
  unfold propertyToken? at h
  split at h
  · exact named_of_anyOfToken? h
  · obtain ⟨hne, hin, _, _⟩ := run?_eq_some_iff_append.mp h
    exact named_of_allIn hne hin

/-! ## Parameters -/

theorem PairText.named {piece type name : List Char} (h : PairText piece type name) (n : Nat) :
    (Param.ofPair type name n).Named := by
  cases h with
  | mk _ htypeNe htype _ _ _ hname _ =>
      refine ⟨named_of_allIn htypeNe htype, ?_⟩
      show AllIn isWord (String.ofList name).toList
      rw [String.toList_ofList]
      exact hname

theorem ParamList.named {n : Nat} {args : List Char} {params : List Param}
    (h : ParamList n args params) : ∀ p ∈ params, p.Named := by
  induction h with
  | nil n => exact List.forall_mem_nil _
  | last hpair => exact List.forall_mem_singleton.mpr (hpair.named _)
  | cons hpair _ ih => exact List.forall_mem_cons.mpr ⟨hpair.named _, ih⟩

theorem ParamList.map_index {n : Nat} {args : List Char} {params : List Param}
    (h : ParamList n args params) : params.map Param.index = List.range' n params.length := by
  induction h with
  | nil n => rfl
  | last hpair => rfl
  | cons hpair _ ih =>
      rw [List.map_cons, ih, List.length_cons, List.range'_succ]
      rfl

theorem ParamList.numbered {args : List Char} {params : List Param}
    (h : ParamList 0 args params) : Numbered params := by
  rw [Numbered, List.range_eq_range']
  exact h.map_index

/-! ## Members and interfaces -/

theorem signature?_named {nameAsIs : Bool} {cs rest : List Char} {s : MethodText}
    (h : signature? nameAsIs cs = some (s, rest)) :
    (IdlType.ofToken (String.ofList s.result)).Named ∧ AllIn isWord s.name := by
  obtain ⟨result, h0, h⟩ := Option.bind_eq_some_iff.mp h
  obtain ⟨r1, _, h⟩ := Option.bind_eq_some_iff.mp h
  obtain ⟨name, h2, h⟩ := Option.bind_eq_some_iff.mp h
  obtain ⟨args, _, h⟩ := Option.bind_eq_some_iff.mp h
  obtain ⟨last, _, hp⟩ := Option.map_eq_some_iff.mp h
  cases hp
  exact ⟨named_of_resultToken? h0, (run?_eq_some_iff_append.mp h2).2.1⟩

theorem method_named {cs rest : List Char} {s : MethodText}
    (h : Statement.method.Reads cs s rest) :
    (IdlType.ofToken (String.ofList s.result)).Named ∧ AllIn isWord s.name := by
  rcases Option.or_eq_some_iff.mp h with h | ⟨_, h⟩
  · obtain ⟨mid, _, h⟩ := Option.bind_eq_some_iff.mp h
    exact signature?_named h
  · exact signature?_named h

theorem property_named {cs rest : List Char} {s : PropertyText}
    (h : Statement.property.Reads cs s rest) :
    (IdlType.ofToken (String.ofList s.type)).Named ∧ AllIn isWord s.name := by
  obtain ⟨r0, _, h⟩ := Option.bind_eq_some_iff.mp h
  obtain ⟨r1, _, h⟩ := Option.bind_eq_some_iff.mp h
  obtain ⟨type, h2, h⟩ := Option.bind_eq_some_iff.mp h
  obtain ⟨r2, _, h⟩ := Option.bind_eq_some_iff.mp h
  obtain ⟨name, h4, h⟩ := Option.bind_eq_some_iff.mp h
  obtain ⟨last, _, hp⟩ := Option.map_eq_some_iff.mp h
  cases hp
  exact ⟨named_of_propertyToken? h2, (run?_eq_some_iff_append.mp h4).2.1⟩

/-- The parameter lists of the member are numbered from zero. -/
def Member.Numbered (m : Member) : Prop := IdlGlue.Numbered m.params

theorem Member.Reads.named {cs rest : List Char} {m : Member} (h : Member.Reads cs m rest) :
    m.Named := by
  cases h with
  | constructor _ hparams => exact hparams.named
  | method hread hresult hname hparams _ =>
      obtain ⟨htype, hword⟩ := method_named hread
      exact ⟨hresult ▸ htype, by rw [hname, String.toList_ofList]; exact hword, hparams.named⟩
  | property hread htype hname _ _ =>
      obtain ⟨htoken, hword⟩ := property_named hread
      exact ⟨htype ▸ htoken, by rw [hname, String.toList_ofList]; exact hword⟩

theorem Member.Reads.numbered {cs rest : List Char} {m : Member} (h : Member.Reads cs m rest) :
    m.Numbered := by
  cases h with
  | constructor _ hparams => exact hparams.numbered
  | method _ _ _ hparams _ => exact hparams.numbered
  | property _ _ _ _ _ => exact rfl

theorem Interface.Reads.named {cs rest : List Char} {i : Interface}
    (h : Interface.Reads cs i rest) : i.Named := by
  obtain ⟨s, hread, hname, first, _, hmembers⟩ := h
  obtain ⟨head, hhead, hp⟩ := Option.bind_eq_some_iff.mp hread
  obtain ⟨body, _, hp⟩ := Option.map_eq_some_iff.mp hp
  cases hp
  obtain ⟨r0, _, hhead⟩ := Option.bind_eq_some_iff.mp hhead
  obtain ⟨r1, _, hhead⟩ := Option.bind_eq_some_iff.mp hhead
  obtain ⟨name, hrun, hhead⟩ := Option.bind_eq_some_iff.mp hhead
  obtain ⟨r2, _, hp⟩ := Option.map_eq_some_iff.mp hhead
  cases hp
  refine ⟨?_, hmembers.forall_mem fun h => h.named⟩
  rw [hname, String.toList_ofList]
  exact (run?_eq_some_iff_append.mp hrun).2.1

theorem Interface.Reads.numbered {cs rest : List Char} {i : Interface}
    (h : Interface.Reads cs i rest) : ∀ m ∈ i.members, m.Numbered := by
  obtain ⟨_, _, _, _, _, hmembers⟩ := h
  exact hmembers.forall_mem fun h => h.numbered

/-! ## Delegates -/

theorem Delegate.Reads.named {cs rest : List Char} {d : Delegate}
    (h : Delegate.Reads cs d rest) : d.Named := by
  obtain ⟨s, hread, hresult, hname, hparams⟩ := h
  obtain ⟨r0, _, hread⟩ := Option.bind_eq_some_iff.mp hread
  obtain ⟨r1, _, hread⟩ := Option.bind_eq_some_iff.mp hread
  obtain ⟨result, htoken, hread⟩ := Option.bind_eq_some_iff.mp hread
  obtain ⟨r2, _, hread⟩ := Option.bind_eq_some_iff.mp hread
  obtain ⟨name, hrun, hread⟩ := Option.bind_eq_some_iff.mp hread
  obtain ⟨args, _, hread⟩ := Option.bind_eq_some_iff.mp hread
  obtain ⟨last, _, hp⟩ := Option.map_eq_some_iff.mp hread
  cases hp
  refine ⟨hresult ▸ named_of_referenceToken? htoken, ?_, hparams.named⟩
  rw [hname, String.toList_ofList]
  exact (run?_eq_some_iff_append.mp hrun).2.1

/-! ## Files -/

/-- In an accepted text delegates have names of name characters only. -/
theorem SourceFile.delegates_named {text : String} {file : SourceFile}
    (h : SourceFile.ofText text = .ok file) : ∀ d ∈ file.delegates, d.Named := by
  obtain ⟨_, _, _, _, _, hdelegates, _⟩ := (SourceFile.tiles_of_ofText h).1
  exact hdelegates.forall_mem fun hread => hread.named

/-- The interfaces of an accepted text are read from blocks of it. -/
theorem SourceFile.interfaces_read {text : String} {file : SourceFile}
    (h : SourceFile.ofText text = .ok file) :
    ∀ i ∈ file.interfaces, ∃ cs rest, Interface.Reads cs i rest := by
  obtain ⟨headers, delegates, interfaces, ⟨c1, c2, _, _, hread⟩, _, _, his⟩ :=
    ofText_eq_ok_iff_readAll.mp h
  have htiled := (interface.tiled_readAll c2).1
  rw [hread] at htiled
  have hall := tiled_forall₂_iff.mpr ⟨interfaces, htiled, Traversal.mapM_eq_ok_iff.mp his⟩
  exact hall.forall_mem fun hi => ⟨_, _, (interface_declares_iff.mp hi).1⟩

/-- **In an accepted text interfaces have names of name characters only, and numbered
parameters.** -/
theorem SourceFile.interfaces_named {text : String} {file : SourceFile}
    (h : SourceFile.ofText text = .ok file) :
    ∀ i ∈ file.interfaces, i.Named ∧ ∀ m ∈ i.members, m.Numbered := by
  intro i hi
  obtain ⟨cs, rest, hread⟩ := SourceFile.interfaces_read h i hi
  exact ⟨hread.named, hread.numbered⟩

end IdlGlue
