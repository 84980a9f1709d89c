/-
# IdlGlue.Proofs.Stable -- statements do not look behind themselves

A statement that ends with its semicolon is read the same whatever stands behind it
(`Delegate.Reads.stable`, `Member.Reads.stable`): up to the semicolon two texts are alike,
and there the reader ends. An include line ends with the closing mark of its path instead,
and is opened by itself (`HeaderReads.stable`).

The semicolon is moreover the first one of the text, so that all that is read of a text, and
whether anything is, is settled at its first semicolon (`settled_at_semicolon`).

The same relation with another stop tells what is not in a statement: neither a slash nor a
closing brace is in a member (`member_no_stop`).
-/
import IdlGlue.Proofs.SourceTiling
import IdlGlue.Proofs.Stop

namespace IdlGlue.Statement

open IdlGlue.Text IdlGlue.Scan

/-! ## Statements that end with a semicolon -/

section Semicolon

variable {α : Type} {r : Recognizer α} {z z' cs cs' rest : List Char} {a : α} {t t' : List Char}

/-- The semicolon of the statement is the first one, so what stands behind is left. -/
theorem afterSemicolon?_alike (h : Alike ';' t t' cs cs') :
    Option.Rel (fun r r' => t = ';' :: r ∧ t' = ';' :: r')
      (afterSemicolon? cs) (afterSemicolon? cs') := by
  have hnone : ∀ {c : Char} {tail : List Char}, c ≠ ';' → literal? ";" (c :: tail) = none := by
    intro c tail hc
    exact literal?_eq_none_of_head? (c := ';') rfl (by simpa using hc)
  rcases (h.afterBlanks (by decide)).cases with
    ⟨hcs, hcs', htails⟩ | ⟨c, tail, tail', hc, hcs, hcs', _⟩
  · rw [afterSemicolon?, afterSemicolon?, hcs, hcs']
    cases htails with
    | none => exact .none
    | stop z z' => exact .some ⟨rfl, rfl⟩
  · rw [afterSemicolon?, afterSemicolon?, hcs, hcs', hnone hc, hnone hc]
    exact .none

/-- Any other stop is not passed over by a semicolon either. -/
theorem afterSemicolon?_alike_of_ne {s : Char} (hs : isInside s = false) (hne : s ≠ ';')
    (h : Alike s t t' cs cs') :
    Option.Rel (Alike s t t') (afterSemicolon? cs) (afterSemicolon? cs') := by
  refine (h.afterBlanks (isHead_stop hs)).literal? fun hmem => hne ?_
  simpa using hmem

/-- What a reader makes of a text is settled at the first semicolon. -/
structure SettledAtSemicolon (r : Recognizer α) : Prop where
  /-- No statement without a semicolon. -/
  needs : ∀ cs, ';' ∉ cs → r.read cs = none
  /-- A statement ends with the first semicolon. -/
  ends : ∀ u z a rest, ';' ∉ u → r.Reads (u ++ ';' :: z) a rest → rest = z
  /-- What stands behind the first semicolon can be replaced. -/
  same : ∀ u z z', ';' ∉ u → r.outcome (u ++ ';' :: z) = r.outcome (u ++ ';' :: z')

/-- **Nothing behind the first semicolon is looked at** by a reader that passes no stop and
ends with one. -/
theorem settledAtSemicolon_of_alike
    (hr : ∀ {t t' cs cs' : List Char}, Alike ';' t t' cs cs' →
      Option.Rel (SameRead fun r r' => t = ';' :: r ∧ t' = ';' :: r') (r.read cs) (r.read cs')) :
    SettledAtSemicolon r where
  needs cs hcs := by
    have hrel := hr ⟨.none, cs, hcs, (List.append_nil cs).symm, (List.append_nil cs).symm⟩
    cases hread : r.read cs with
    | none => rfl
    | some m =>
        rw [hread] at hrel
        obtain ⟨_, _, _, hz, _⟩ := exists_of_rel_some hrel
        cases hz
  ends u z a rest hu h := by
    have hrel := hr ⟨.stop z z, u, hu, rfl, rfl⟩
    rw [h] at hrel
    obtain ⟨_, _, _, hz, _⟩ := exists_of_rel_some hrel
    cases hz
    rfl
  same u z z' hu := by
    have hrel := hr ⟨.stop z z', u, hu, rfl, rfl⟩
    rw [List.append_cons u ';' z, List.append_cons u ';' z'] at hrel ⊢
    cases hread : r.read (u ++ [';'] ++ z) with
    | none =>
        rw [hread] at hrel
        rw [Recognizer.outcome, Recognizer.outcome, hread, eq_none_of_rel hrel]
        rfl
    | some m =>
        rw [hread] at hrel
        -- Both are read up to the semicolon, and that is one piece of the two texts.
        obtain ⟨⟨a, last⟩, hread', ha, hz, hz'⟩ := exists_of_rel_some hrel
        obtain ⟨b, last'⟩ := m
        cases ha
        cases hz
        cases hz'
        rw [r.outcome_of_reads hread, r.outcome_of_reads hread']

/-- Read once, a statement is read with anything behind it. -/
theorem SettledAtSemicolon.stable (hr : SettledAtSemicolon r) (h : r.Reads cs a rest) :
    ∃ u, cs = u ++ ';' :: rest ∧ ∀ z, r.Reads (u ++ ';' :: z) a z := by
  by_cases hmem : ';' ∈ cs
  · obtain ⟨u, z, rfl, hu⟩ := List.eq_append_cons_of_mem hmem
    refine ⟨u, by rw [hr.ends u z a rest hu h], fun z' => ?_⟩
    have hsame := hr.same u z z' hu
    rw [Recognizer.outcome, Recognizer.outcome, h] at hsame
    obtain ⟨⟨b, last⟩, hread, hp⟩ := Option.map_eq_some_iff.mp hsame.symm
    obtain ⟨rfl, -⟩ := Prod.mk.inj hp
    rw [Recognizer.Reads, hread, hr.ends u z' b last hu hread]
  · rw [Recognizer.Reads, hr.needs cs hmem] at h
    cases h

theorem settled_delegate : SettledAtSemicolon delegate :=
  settledAtSemicolon_of_alike (alike_delegate (by decide) afterSemicolon?_alike)

theorem settled_constructor : SettledAtSemicolon constructor :=
  settledAtSemicolon_of_alike (alike_constructor (by decide) afterSemicolon?_alike)

theorem settled_method : SettledAtSemicolon method :=
  settledAtSemicolon_of_alike (alike_method (by decide) afterSemicolon?_alike)

theorem settled_property : SettledAtSemicolon property :=
  settledAtSemicolon_of_alike (alike_property (by decide) afterSemicolon?_alike)

theorem settled_member : SettledAtSemicolon member :=
  settledAtSemicolon_of_alike (alike_member (by decide) afterSemicolon?_alike)

/-- A reader that leaves alike texts of alike texts has read no stop. -/
theorem not_mem_of_alike {s : Char}
    (hr : ∀ {t t' cs cs' : List Char}, Alike s t t' cs cs' →
      Option.Rel (SameRead (Alike s t t')) (r.read cs) (r.read cs'))
    {p : List Char} (h : r.Reads (p ++ rest) a rest) : s ∉ p := by
  rw [Recognizer.Reads] at h
  obtain ⟨u, t, htails, hu, hcs⟩ : ∃ u t, Tails s t t ∧ s ∉ u ∧ p ++ rest = u ++ t := by
    by_cases hmem : s ∈ p ++ rest
    · obtain ⟨u, z, hcs, hu⟩ := List.eq_append_cons_of_mem hmem
      exact ⟨u, s :: z, .stop z z, hu, hcs⟩
    · exact ⟨p ++ rest, [], .none, hmem, (List.append_nil _).symm⟩
  -- The text is like itself up to its first `s`, and so is what the reader leaves of it.
  have hrel := hr ⟨htails, u, hu, hcs, hcs⟩
  rw [h] at hrel
  obtain ⟨_, _, _, _, v, _, hv, _⟩ := exists_of_rel_some hrel
  simp only at hv
  rw [hv, ← List.append_assoc] at hcs
  rw [← List.append_cancel_right hcs] at hu
  exact fun hmem => hu (List.mem_append_left v hmem)

theorem member_no_stop {s : Char} {m : MemberText} {p : List Char} (hs : isInside s = false)
    (hne : s ≠ ';') (h : member.Reads (p ++ rest) m rest) : s ∉ p :=
  not_mem_of_alike (alike_member hs (afterSemicolon?_alike_of_ne hs hne)) h

end Semicolon

/-! ## Include lines -/

section Header

variable {cs rest : List Char}

theorem afterPath?_stable {opening : String} {closing : Char}
    (h : afterPath? opening closing cs = some rest) :
    ∃ p, cs = opening.toList ++ (p ++ rest) ∧
      ∀ z, afterPath? opening closing (opening.toList ++ (p ++ z)) = some z := by
  obtain ⟨inner, hinner, h⟩ := Option.bind_eq_some_iff.mp h
  obtain ⟨⟨path, behind⟩, hpath, hclosing⟩ := Option.bind_eq_some_iff.mp h
  obtain ⟨hne, hin, _, hinnerEq⟩ := run?_eq_some_iff_append.mp hpath
  have hbehind : behind = [closing] ++ rest := by
    have := literal?_eq_some_iff.mp hclosing
    rwa [String.toList_ofList] at this
  refine ⟨path ++ [closing], ?_, ?_⟩
  · rw [literal?_eq_some_iff.mp hinner, hinnerEq, hbehind, List.append_assoc]
  · intro z
    have hstop : StopsAt (fun c => c != closing && c != '\n') (closing :: z) :=
      stopsAt_cons.mpr (by simp)
    refine Option.bind_eq_some_iff.mpr ⟨_, literal?_eq_some_iff.mpr rfl, ?_⟩
    rw [List.append_assoc]
    refine Option.bind_eq_some_iff.mpr
      ⟨_, run?_eq_some_iff_append.mpr ⟨hne, hin, hstop, rfl⟩, ?_⟩
    rw [literal?_eq_some_iff, String.toList_ofList]
    rfl

theorem afterHeader?_stable (h : afterHeader? cs = some rest) :
    ∃ p, cs = p ++ rest ∧ ∀ z, afterHeader? (p ++ z) = some z := by
  obtain ⟨r0, h0, h⟩ := Option.bind_eq_some_iff.mp h
  rw [literal?_eq_some_iff] at h0
  obtain ⟨blanks, hblanks, _, hr0⟩ := afterBlanks_eq_iff.mp (rfl : afterBlanks r0 = _)
  -- The opening mark ends the white space, and tells which kind of path follows.
  have hskip : ∀ {c : Char} (tail : List Char), isBlank c = false →
      afterBlanks (blanks ++ c :: tail) = c :: tail := by
    intro c tail hc
    rw [afterBlanks_append hblanks, afterBlanks_of_stopsAt (stopsAt_cons.mpr hc)]
  rcases Option.or_eq_some_iff.mp h with h | ⟨_, h⟩
  · obtain ⟨p, hp, hstable⟩ := afterPath?_stable h
    refine ⟨"#include".toList ++ (blanks ++ '<' :: p), ?_, ?_⟩
    · rw [h0, hr0, hp]
      simp
    · intro z
      refine Option.bind_eq_some_iff.mpr ⟨blanks ++ '<' :: (p ++ z), ?_, ?_⟩
      · rw [literal?_eq_some_iff]
        simp
      · rw [hskip _ (by decide)]
        exact Option.or_eq_some_iff.mpr (Or.inl (hstable z))
  · obtain ⟨p, hp, hstable⟩ := afterPath?_stable h
    refine ⟨"#include".toList ++ (blanks ++ '"' :: p), ?_, ?_⟩
    · rw [h0, hr0, hp]
      simp
    · intro z
      refine Option.bind_eq_some_iff.mpr ⟨blanks ++ '"' :: (p ++ z), ?_, ?_⟩
      · rw [literal?_eq_some_iff]
        simp
      · rw [hskip _ (by decide)]
        exact Option.or_eq_some_iff.mpr (Or.inr ⟨rfl, hstable z⟩)

theorem header_stable {line : List Char} (h : header.Reads cs line rest) (z : List Char) :
    header.Reads (line ++ z) line z := by
  obtain ⟨last, hlast, hp⟩ := Option.map_eq_some_iff.mp h
  cases hp
  obtain ⟨p, rfl, hstable⟩ := afterHeader?_stable hlast
  rw [consumed_append_left]
  exact Option.map_eq_some_iff.mpr ⟨z, hstable z, by rw [consumed_append_left]⟩

end Header

end IdlGlue.Statement

namespace IdlGlue

open IdlGlue.Text IdlGlue.Scan IdlGlue.Statement

/-! ## Declarations -/

theorem HeaderReads.stable {cs rest : List Char} {line : String} (h : HeaderReads cs line rest)
    (z : List Char) : HeaderReads (line.toList ++ z) line z :=
  ⟨header_stable h.1 z, rfl⟩

theorem Delegate.Reads.stable {cs rest : List Char} {d : Delegate} (h : Delegate.Reads cs d rest) :
    ∃ p, cs = p ++ rest ∧ ∀ z, Delegate.Reads (p ++ z) d z := by
  obtain ⟨s, hread, hrest⟩ := h
  obtain ⟨u, rfl, hu⟩ := settled_delegate.stable hread
  refine ⟨u ++ [';'], by simp, fun z => ?_⟩
  rw [List.append_assoc]
  exact ⟨s, hu z, hrest⟩

theorem Member.Reads.stable {cs rest : List Char} {m : Member} (h : Member.Reads cs m rest) :
    ∃ p, cs = p ++ rest ∧ ∀ z, Member.Reads (p ++ z) m z := by
  suffices h : ∃ u, cs = u ++ ';' :: rest ∧ ∀ z, Member.Reads (u ++ ';' :: z) m z by
    obtain ⟨u, rfl, hu⟩ := h
    refine ⟨u ++ [';'], by simp, fun z => ?_⟩
    rw [List.append_assoc]
    exact hu z
  cases h with
  | constructor hread hlist =>
      obtain ⟨u, hcs, hu⟩ := settled_constructor.stable hread
      exact ⟨u, hcs, fun z => .constructor (hu z) hlist⟩
  | method hread hresult hname hlist hasIs =>
      obtain ⟨u, hcs, hu⟩ := settled_method.stable hread
      exact ⟨u, hcs, fun z => .method (hu z) hresult hname hlist hasIs⟩
  | property hread htype hname hreadonly hasIs =>
      obtain ⟨u, hcs, hu⟩ := settled_property.stable hread
      exact ⟨u, hcs, fun z => .property (hu z) htype hname hreadonly hasIs⟩

/-- The member at the start of a text, and how many bytes of it are passed over. -/
def Member.outcome (cs : List Char) : Except Fault (Option (Member × Nat)) :=
  (Member.read? cs).map (Option.map fun m => (m.1, byteSize (consumed cs m.2)))

/-- A member is what its statement declares, passed over as the statement is. -/
theorem Member.outcome_eq (cs : List Char) :
    Member.outcome cs = (member.outcome cs).elim (.ok none) fun m =>
      (Member.ofStatement m.1).map fun decl => some (decl, m.2) := by
  rw [Member.outcome, Member.read?, Recognizer.outcome]
  cases member.read cs with
  | none => rfl
  | some m =>
      simp only [Option.map_some, Option.elim_some]
      cases Member.ofStatement m.1 <;> rfl

theorem Member.outcome_of_semicolon {u : List Char} (hu : ';' ∉ u) (z z' : List Char) :
    Member.outcome (u ++ ';' :: z) = Member.outcome (u ++ ';' :: z') := by
  rw [Member.outcome_eq, Member.outcome_eq, settled_member.same u z z' hu]

/-- **The first semicolon settles what is read** of the statements that end with one: nothing is
where there is none, and where there is one the statement ends with it, if there is any, and what
stands behind it can be replaced. So a member depends on the text up to its first semicolon. -/
theorem settled_at_semicolon :
    SettledAtSemicolon constructor ∧ SettledAtSemicolon method ∧ SettledAtSemicolon property ∧
      SettledAtSemicolon delegate ∧
      (∀ cs, ';' ∉ cs → Member.outcome cs = .ok none) ∧
      ∀ u z z', ';' ∉ u → Member.outcome (u ++ ';' :: z) = Member.outcome (u ++ ';' :: z') := by
  refine ⟨settled_constructor, settled_method, settled_property, settled_delegate, ?_, ?_⟩
  · intro cs hcs
    rw [Member.outcome, Member.read?, settled_member.needs cs hcs]
    rfl
  · exact fun u z z' hu => Member.outcome_of_semicolon hu z z'

theorem Member.Reads.statement {cs rest : List Char} {m : Member} (h : Member.Reads cs m rest) :
    ∃ s, member.Reads cs s rest := by
  cases h with
  | constructor hread => exact ⟨_, member_reads_iff.mpr (Or.inl ⟨_, hread, rfl⟩)⟩
  | method hread => exact ⟨_, member_reads_iff.mpr (Or.inr (Or.inl ⟨_, hread, rfl⟩))⟩
  | property hread => exact ⟨_, member_reads_iff.mpr (Or.inr (Or.inr ⟨_, hread, rfl⟩))⟩

end IdlGlue
