/-
# IdlGlue.Proofs.ColonRuns -- colons in a name, paired from either end

Flattening takes its pairs of colons from the left, and the short name stands behind the last
pair from the right. On a run of three these are two different pairs:

| name      | stretches                | flat name | short name |
|-----------|--------------------------|-----------|------------|
| `A::B`    | `A`, `::`, `B`           | `AB`      | `B`        |
| `A:::B`   | `A`, `:::`, `B`          | `A:B`     | `B`        |
| `A::B:C`  | `A`, `::`, `B`, `:`, `C` | `AB:C`    | `B:C`      |
| `A:B`     | `A`, `:`, `B`            | `A:B`     | `A:B`      |
| `A::`     | `A`, `::`                | `A`       |            |

So a name is cut into stretches here, words and runs of colons by turns. Flattening goes stretch
by stretch, and the short name is what stands behind the last run that holds a pair. Behind that
run flattening finds nothing to take, so that the flat name ends in the short one (`ColonLaw`).
Both hold of any text, whether or not it is a name that can be declared.
-/
import IdlGlue.Proofs.FlatNames
import Mathlib.Data.List.Chain

namespace IdlGlue.Name

/-! ## Stretches -/

/-- A stretch of a name: a word, which holds no colon, or a run of colons. -/
inductive Stretch where
  | word (cs : List Char) (ne : cs ≠ []) (bare : ':' ∉ cs)
  | run (length : Nat) (pos : 0 < length)
deriving DecidableEq, Repr

namespace Stretch

def chars : Stretch → List Char
  | word cs _ _ => cs
  | run length _ => List.replicate length ':'

/-- What flattening leaves of the stretch: a word as it is, and of a run one colon or none. -/
def flat : Stretch → List Char
  | word cs _ _ => cs
  | run length _ => List.replicate (length % 2) ':'

def isRun : Stretch → Bool
  | word .. => false
  | run .. => true

/-- The stretch is a run of two colons or more, behind which a part of the name begins. -/
def Separates : Stretch → Prop
  | word .. => False
  | run length _ => 2 ≤ length

end Stretch

open Stretch

/-- Words and runs take turns, so that each run is as long as it goes. -/
def Turns (ss : List Stretch) : Prop := ss.IsChain fun s t => s.isRun ≠ t.isRun

/-- The text is cut into these stretches. -/
structure Cut (cs : List Char) (ss : List Stretch) : Prop where
  joins : ss.flatMap chars = cs
  turns : Turns ss

/-- One more character in front: the first stretch gets longer, or another one begins. -/
def extend (c : Char) (ss : List Stretch) : List Stretch :=
  if h : c = ':' then
    match ss with
    | run length _ :: ss => run (length + 1) length.succ_pos :: ss
    | ss => run 1 Nat.one_pos :: ss
  else
    match ss with
    | word cs _ bare :: ss => word (c :: cs) (by simp) (by simp [Ne.symm h, bare]) :: ss
    | ss => word [c] (by simp) (by simp [Ne.symm h]) :: ss

/-- The stretches of a text. -/
def stretches : List Char → List Stretch
  | [] => []
  | c :: cs => extend c (stretches cs)

theorem Cut.extend {cs : List Char} {ss : List Stretch} (h : Cut cs ss) (c : Char) :
    Cut (c :: cs) (Name.extend c ss) := by
  obtain ⟨rfl, hturns⟩ := h
  unfold Name.extend
  by_cases hc : c = ':'
  · -- A colon makes a run longer, and begins one in front of a word.
    rw [dif_pos hc]
    subst hc
    rcases ss with _ | ⟨⟨w, hne, hbare⟩ | ⟨length, hpos⟩, ss⟩
    · exact ⟨rfl, .singleton _⟩
    · exact ⟨rfl, hturns.cons_cons nofun⟩
    · exact ⟨rfl, List.isChain_cons.mpr (List.isChain_cons.mp hturns)⟩
  · -- Anything else makes a word longer, and begins one in front of a run.
    rw [dif_neg hc]
    rcases ss with _ | ⟨⟨w, hne, hbare⟩ | ⟨length, hpos⟩, ss⟩
    · exact ⟨rfl, .singleton _⟩
    · exact ⟨rfl, List.isChain_cons.mpr (List.isChain_cons.mp hturns)⟩
    · exact ⟨rfl, hturns.cons_cons nofun⟩

/-- Every text can be cut. -/
theorem cut_stretches (cs : List Char) : Cut cs (stretches cs) := by
  induction cs with
  | nil => exact ⟨rfl, .nil⟩
  | cons c cs ih => exact ih.extend c

theorem Cut.behind {cs : List Char} {s : Stretch} {before after : List Stretch}
    (h : Cut cs (before ++ s :: after)) : Cut (after.flatMap chars) after :=
  ⟨rfl, (List.IsChain.right_of_append h.turns).tail⟩

/-- What stands behind a run begins with no colon. -/
theorem Turns.head?_ne {length : Nat} {pos : 0 < length} {ss : List Stretch}
    (h : Turns (run length pos :: ss)) : (ss.flatMap chars).head? ≠ some ':' := by
  rcases ss with _ | ⟨⟨w, hne, hbare⟩ | ⟨length', hpos⟩, ss⟩
  · exact nofun
  · obtain ⟨c, w, rfl⟩ := List.exists_cons_of_ne_nil hne
    intro hhead
    cases hhead
    exact hbare List.mem_cons_self
  · exact absurd rfl (List.isChain_cons_cons.mp h).1

/-! ## Pairs -/

/-- Two colons stand in a row. -/
def HasPair (cs : List Char) : Prop := [':', ':'] <:+: cs

theorem HasPair.cons {cs : List Char} (h : HasPair cs) (c : Char) : HasPair (c :: cs) :=
  h.trans (List.suffix_cons c cs).isInfix

theorem not_hasPair_of_not_mem {cs : List Char} (h : ':' ∉ cs) : ¬HasPair cs :=
  fun hpair => h (hpair.subset List.mem_cons_self)

theorem hasPair_cons_iff {c : Char} {cs : List Char} :
    HasPair (c :: cs) ↔ (c = ':' ∧ cs.head? = some ':') ∨ HasPair cs := by
  have hhead : [':'] <+: cs ↔ cs.head? = some ':' := by
    cases cs <;> simp [List.cons_prefix_cons, eq_comm]
  rw [HasPair, List.infix_cons_iff, List.cons_prefix_cons, hhead, eq_comm]
  rfl

/-! ## Flattening -/

theorem head?_flattenChars_ne {cs : List Char} (h : cs.head? ≠ some ':') :
    (flattenChars cs).head? ≠ some ':' := by
  cases cs with
  | nil => exact h
  | cons c cs => rwa [flattenChars_cons (Or.inl fun hc => h (congrArg some hc))]

theorem not_hasPair_flattenChars (cs : List Char) : ¬HasPair (flattenChars cs) := by
  fun_induction flattenChars cs with
  | case1 cs ih => exact ih
  | case2 c cs hpair ih =>
      rw [hasPair_cons_iff]
      rintro (⟨rfl, hhead⟩ | hinfix)
      · -- Two colons that come together were a pair before.
        refine head?_flattenChars_ne (fun hcs => ?_) hhead
        obtain ⟨cs', rfl⟩ := List.head?_eq_some_iff.mp hcs
        exact hpair cs' rfl rfl
      · exact ih hinfix
  | case3 => exact not_hasPair_of_not_mem List.not_mem_nil

theorem flattenChars_of_not_hasPair {cs : List Char} (h : ¬HasPair cs) : flattenChars cs = cs := by
  fun_induction flattenChars cs with
  | case1 cs ih => exact absurd ⟨[], cs, rfl⟩ h
  | case2 c cs _ ih => rw [ih fun hcs => h (hcs.cons c)]
  | case3 => rfl

/-- **Flattening goes stretch by stretch.** -/
theorem Cut.flattenChars_eq {cs : List Char} {ss : List Stretch} (h : Cut cs ss) :
    flattenChars cs = ss.flatMap flat := by
  obtain ⟨rfl, hturns⟩ := h
  induction ss with
  | nil => rfl
  | cons s ss ih =>
      rw [List.flatMap_cons, List.flatMap_cons, ← ih hturns.tail]
      cases s with
      | word w hne hbare =>
          have hlast : w.getLast? ≠ some ':' := fun hlast => hbare (List.mem_of_getLast? hlast)
          have hself := flattenChars_of_not_hasPair (not_hasPair_of_not_mem hbare)
          rw [chars, flattenChars_append hlast, hself, flat]
      | run length hpos => exact flattenChars_replicate hturns.head?_ne length

/-- Where no run holds a pair, nothing is taken. -/
theorem flatMap_flat_eq {ss : List Stretch} (h : ∀ s ∈ ss, ¬s.Separates) :
    ss.flatMap flat = ss.flatMap chars := by
  refine List.flatMap_congr fun s hs => ?_
  cases s with
  | word => rfl
  | run length hpos =>
      have hone : length = 1 := by
        have hshort : ¬2 ≤ length := h _ hs
        omega
      subst hone
      rfl

theorem Cut.not_hasPair {cs : List Char} {ss : List Stretch} (h : Cut cs ss)
    (hss : ∀ s ∈ ss, ¬s.Separates) : ¬HasPair cs := by
  have hself : flattenChars cs = cs := by
    rw [h.flattenChars_eq, flatMap_flat_eq hss, h.joins]
  exact hself ▸ not_hasPair_flattenChars cs

/-! ## Short names -/

theorem lastPart?_eq_none {cs : List Char} (h : ¬HasPair cs) : lastPart? cs = none := by
  fun_induction lastPart? cs with
  | case1 => rfl
  | case2 c cs part hpart ih =>
      rw [ih fun hcs => h (hcs.cons c)] at hpart
      cases hpart
  | case3 part hnone ih => exact absurd ⟨[], part, rfl⟩ h
  | case4 => rfl

/-- A pair is the last one where none stands behind it or laps over its end. -/
theorem lastPart?_append {part : List Char} (h : ¬HasPair (':' :: part)) (before : List Char) :
    lastPart? (before ++ ':' :: ':' :: part) = some part := by
  induction before with
  | nil =>
      rw [List.nil_append, lastPart?, lastPart?_eq_none h]
  | cons c before ih =>
      rw [List.cons_append]
      unfold lastPart?
      rw [ih]

theorem shortChars_of_not_hasPair {cs : List Char} (h : ¬HasPair cs) : shortChars cs = cs := by
  rw [shortChars, lastPart?_eq_none h, Option.getD_none]

/-- **The short name stands behind the last run that holds a pair.** -/
theorem Cut.shortChars_eq {cs : List Char} {s : Stretch} {before after : List Stretch}
    (h : Cut cs (before ++ s :: after)) (hs : s.Separates) (hafter : ∀ t ∈ after, ¬t.Separates) :
    shortChars cs = after.flatMap chars := by
  cases s with
  | word => exact hs.elim
  | run length hpos =>
      have hturns : Turns (run length hpos :: after) := List.IsChain.right_of_append h.turns
      have hlast : ¬HasPair (':' :: after.flatMap chars) := by
        rw [hasPair_cons_iff]
        rintro (⟨-, hhead⟩ | hpair)
        · exact hturns.head?_ne hhead
        · exact h.behind.not_hasPair hafter hpair
      -- Of the run the last two colons are the pair, and the others belong to what is in front.
      obtain ⟨n, rfl⟩ := Nat.exists_eq_add_of_le' hs
      have hcs : cs = (before.flatMap chars ++ List.replicate n ':') ++
          ':' :: ':' :: after.flatMap chars := by
        rw [← h.joins, List.flatMap_append, List.flatMap_cons, chars, List.replicate_add,
          List.append_assoc, List.append_assoc]
        rfl
      rw [shortChars, hcs, lastPart?_append hlast, Option.getD_some]

theorem exists_last {ss : List Stretch} (h : ∃ s ∈ ss, s.Separates) :
    ∃ before s after, ss = before ++ s :: after ∧ s.Separates ∧ ∀ t ∈ after, ¬t.Separates := by
  induction ss with
  | nil => simp at h
  | cons s ss ih =>
      by_cases hss : ∃ t ∈ ss, t.Separates
      · obtain ⟨before, t, after, rfl, ht, hafter⟩ := ih hss
        exact ⟨s :: before, t, after, rfl, ht, hafter⟩
      · push Not at hss
        obtain ⟨t, ht, hsep⟩ := h
        rcases List.mem_cons.mp ht with rfl | ht
        · exact ⟨[], t, ss, rfl, hsep, hss⟩
        · exact absurd hsep (hss t ht)

/-- The short name holds no pair, and the flat name ends in it. -/
theorem shortChars_bare_suffix (cs : List Char) :
    ¬HasPair (shortChars cs) ∧ shortChars cs <:+ flattenChars cs := by
  have hcut := cut_stretches cs
  by_cases hsep : ∃ s ∈ stretches cs, s.Separates
  · obtain ⟨before, s, after, hss, hs, hafter⟩ := exists_last hsep
    rw [hss] at hcut
    rw [hcut.shortChars_eq hs hafter]
    refine ⟨hcut.behind.not_hasPair hafter, before.flatMap flat ++ s.flat, ?_⟩
    rw [hcut.flattenChars_eq, List.flatMap_append, List.flatMap_cons, flatMap_flat_eq hafter,
      List.append_assoc]
  · push Not at hsep
    have hbare := hcut.not_hasPair hsep
    rw [shortChars_of_not_hasPair hbare, flattenChars_of_not_hasPair hbare]
    exact ⟨hbare, List.suffix_rfl⟩

/-! ## Names -/

/-- What flattening and shortening make of the colons of a name. -/
structure ColonLaw (name : String) : Prop where
  /-- The name is words and runs by turns, each run as long as it goes. -/
  cut : Cut name.toList (stretches name.toList)
  /-- Flattening keeps all that is no colon, in its order, and of each run its remainder by two. -/
  kept : (flatten name).toList.filter (· ≠ ':') = name.toList.filter (· ≠ ':')
  flattened : ∀ ss, Cut name.toList ss → (flatten name).toList = ss.flatMap Stretch.flat
  flat_bare : ¬HasPair (flatten name).toList
  flat_again : flatten (flatten name) = flatten name
  /-- The short name is what stands behind the last run of two or more, if there is one. -/
  short_behind : ∀ before s after, Cut name.toList (before ++ s :: after) → s.Separates →
    (∀ t ∈ after, ¬t.Separates) → (short name).toList = after.flatMap Stretch.chars
  short_whole : ∀ ss, Cut name.toList ss → (∀ s ∈ ss, ¬s.Separates) → short name = name
  short_bare : ¬HasPair (short name).toList
  short_unchanged : flatten (short name) = short name
  /-- The two agree on the last part, whichever side the colons are paired from. -/
  suffix : (short name).toList <:+ (flatten name).toList

theorem flatten_of_not_hasPair {name : String} (h : ¬HasPair name.toList) :
    flatten name = name := by
  rw [flatten, flattenChars_of_not_hasPair h, String.ofList_toList]

/-- **The flat name and the short name of any text.** -/
theorem colonLaw (name : String) : ColonLaw name := by
  obtain ⟨hbare, hsuffix⟩ := shortChars_bare_suffix name.toList
  have hflat : (flatten name).toList = flattenChars name.toList := String.toList_ofList
  have hshort : (short name).toList = shortChars name.toList := String.toList_ofList
  have hpair : ¬HasPair (flatten name).toList := hflat ▸ not_hasPair_flattenChars name.toList
  rw [← hshort] at hbare
  exact {
    cut := cut_stretches name.toList
    kept := by
      rw [hflat]
      exact filter_flattenChars (by decide) name.toList
    flattened := fun ss hcut => hflat.trans hcut.flattenChars_eq
    flat_bare := hpair
    flat_again := flatten_of_not_hasPair hpair
    short_behind := fun before s after hcut hs hafter =>
      hshort.trans (hcut.shortChars_eq hs hafter)
    short_whole := by
      intro ss hcut hss
      rw [short, shortChars_of_not_hasPair (hcut.not_hasPair hss), String.ofList_toList]
    short_bare := hbare
    short_unchanged := flatten_of_not_hasPair hbare
    suffix := by
      rw [hflat, hshort]
      exact hsuffix }

/-- Of three colons flattening takes the first two, and the short name begins behind the last
two. -/
example :
    (stretches "A:::B:C".toList).map (fun s => String.ofList s.chars) =
      ["A", ":::", "B", ":", "C"] ∧
    flatten "A:::B:C" = "A:B:C" ∧ short "A:::B:C" = "B:C" := by
  decide

end IdlGlue.Name
