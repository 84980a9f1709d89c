/-
# IdlGlue.Proofs.Pattern -- patterns, and the order in which they try

Statements can be described by patterns, as in a regular expression matcher. A pattern
may match the start of a text in several ways, and the rule that picks one is by
preference: of two alternatives the left one, of a repetition that is greedy one round
more, of a lazy one no further round. `Pattern.ways` lists all ways in that order, and
the match of the pattern is the first of them.

This is the meaning of a matcher that takes decisions back, and no way to compute one.
What goes on behind a pattern decides which of its ways is taken, so all lemmas
are about `Pattern.seek p cs k`: the first way of `p` from which `k` finds an answer.

| pattern      | its ways, in order                                              |
|--------------|-----------------------------------------------------------------|
| `one q`      | one character of the class                                      |
| `word w`     | the word                                                        |
| `seq a b`    | each way of `a`, with each way of `b` behind it                   |
| `alt a b`    | the ways of `a`, then those of `b`                                |
| `optional a` | the ways of `a`, then nothing                                     |
| `star a`     | a round of `a` and the ways from there, then nothing              |
| `lazyStar a` | nothing, then a round of `a` and the ways from there              |
| `group a`    | the ways of `a`, and the text of each is told                     |
-/
import IdlGlue.Proofs.Run

namespace IdlGlue.Scan

open IdlGlue.Text

/-- Patterns for the start of a text. -/
inductive Pattern where
  | one (q : Char → Bool)
  | word (w : String)
  | seq (a b : Pattern)
  | alt (a b : Pattern)
  | optional (a : Pattern)
  | star (a : Pattern)
  | lazyStar (a : Pattern)
  | group (a : Pattern)

/-- A way to match: what the groups have taken, and the text behind. -/
structure Way where
  groups : List (List Char)
  rest : List Char
deriving DecidableEq, Repr

/-- The way that goes on with `n` where `m` has ended. -/
def Way.andThen (m n : Way) : Way := ⟨m.groups ++ n.groups, n.rest⟩

@[simp] theorem Way.andThen_nil (rest : List Char) (n : Way) :
    Way.andThen ⟨[], rest⟩ n = n := rfl

@[simp] theorem Way.andThen_rest (m n : Way) : (m.andThen n).rest = n.rest := rfl

/-- The ways of any number of rounds. A round that reads nothing is not taken. -/
def roundsOf (greedy : Bool) (round : List Char → List Way) (cs : List Char) : List Way :=
  let again := (round cs).flatMap fun m =>
    if _h : m.rest.length < cs.length then (roundsOf greedy round m.rest).map m.andThen else []
  if greedy then again ++ [⟨[], cs⟩] else ⟨[], cs⟩ :: again
termination_by cs.length

namespace Pattern

/-- All ways in which the pattern matches the start of the text, the preferred first. -/
def ways : Pattern → List Char → List Way
  | one q, cs =>
    match cs with
    | [] => []
    | c :: rest => if q c then [⟨[], rest⟩] else []
  | word w, cs => ((literal? w cs).map fun rest => ⟨[], rest⟩).toList
  | seq a b, cs => (a.ways cs).flatMap fun m => (b.ways m.rest).map m.andThen
  | alt a b, cs => a.ways cs ++ b.ways cs
  | optional a, cs => a.ways cs ++ [⟨[], cs⟩]
  | star a, cs => roundsOf true a.ways cs
  | lazyStar a, cs => roundsOf false a.ways cs
  | group a, cs => (a.ways cs).map fun m => ⟨consumed cs m.rest :: m.groups, m.rest⟩

/-- The match of the pattern: its first way. -/
def match? (p : Pattern) (cs : List Char) : Option Way := (p.ways cs).head?

/-- The first way of the pattern from which `k` finds an answer, and that answer. -/
def seek {γ : Type} (p : Pattern) (cs : List Char) (k : Way → Option γ) : Option γ :=
  (p.ways cs).findSome? k

variable {γ : Type} {a b : Pattern} {p q : Char → Bool} {c : Char} {cs rest : List Char}
  {k : Way → Option γ}

theorem match?_eq_seek (p : Pattern) (cs : List Char) : p.match? cs = p.seek cs some := by
  unfold match? seek
  cases p.ways cs with
  | nil => rfl
  | cons m ms => rfl

/-! ## The ways of single forms -/

theorem mem_ways_one_iff {m : Way} :
    m ∈ (one q).ways cs ↔ ∃ c rest, cs = c :: rest ∧ q c = true ∧ m = ⟨[], rest⟩ := by
  cases cs with
  | nil =>
      constructor
      · intro h
        cases h
      · rintro ⟨c, rest, h, _⟩
        cases h
  | cons c rest =>
      have hways : (one q).ways (c :: rest) = if q c then [⟨[], rest⟩] else [] := rfl
      rw [hways]
      constructor
      · intro h
        split at h
        · next hc => exact ⟨c, rest, rfl, hc, List.mem_singleton.mp h⟩
        · cases h
      · rintro ⟨d, tail, h, hd, rfl⟩
        cases h
        rw [if_pos hd]
        exact List.mem_singleton_self _

theorem mem_ways_word_iff {w : String} {m : Way} :
    m ∈ (word w).ways cs ↔ ∃ rest, cs = w.toList ++ rest ∧ m = ⟨[], rest⟩ := by
  rw [ways, Option.mem_toList, Option.map_eq_some_iff]
  exact exists_congr fun rest => and_congr literal?_eq_some_iff eq_comm

theorem mem_ways_seq_iff {m : Way} :
    m ∈ (seq a b).ways cs ↔
      ∃ first ∈ a.ways cs, ∃ n ∈ b.ways first.rest, first.andThen n = m := by
  simp only [ways, List.mem_flatMap, List.mem_map]

/-! ## Seeking, form by form -/

theorem findSome?_flatMap {α β : Type} (l : List α) (f : α → List β) (k : β → Option γ) :
    (l.flatMap f).findSome? k = l.findSome? fun x => (f x).findSome? k := by
  induction l with
  | nil => rfl
  | cons x l ih =>
      rw [List.flatMap_cons, List.findSome?_append, ih, List.findSome?_cons]
      cases (f x).findSome? k with
      | none => rfl
      | some y => rfl

theorem seek_one_cons :
    (one q).seek (c :: rest) k = if q c then k ⟨[], rest⟩ else none := by
  show (if q c then [⟨[], rest⟩] else []).findSome? k = _
  split
  · rw [List.findSome?_cons, List.findSome?_nil]
    cases k ⟨[], rest⟩ with
    | none => rfl
    | some y => rfl
  · rfl

theorem seek_one_nil : (one q).seek [] k = none := rfl

theorem seek_word (w : String) :
    (word w).seek cs k = (literal? w cs).bind fun rest => k ⟨[], rest⟩ := by
  unfold seek ways
  cases literal? w cs with
  | none => rfl
  | some rest => simp

theorem seek_seq : (seq a b).seek cs k =
    a.seek cs fun m => b.seek m.rest fun n => k (m.andThen n) := by
  unfold seek
  rw [ways, findSome?_flatMap]
  simp only [List.findSome?_map, Function.comp_def]

theorem seek_alt : (alt a b).seek cs k = (a.seek cs k).or (b.seek cs k) := by
  unfold seek
  rw [ways, List.findSome?_append]

theorem seek_optional : (optional a).seek cs k = (a.seek cs k).or (k ⟨[], cs⟩) := by
  unfold seek
  rw [ways, List.findSome?_append]
  simp

theorem seek_group :
    (group a).seek cs k = a.seek cs fun m => k ⟨consumed cs m.rest :: m.groups, m.rest⟩ := by
  unfold seek
  rw [ways, List.findSome?_map]
  rfl

theorem findSome?_congr {k' : Way → Option γ} {ms : List Way} (h : ∀ m ∈ ms, k m = k' m) :
    ms.findSome? k = ms.findSome? k' := by
  induction ms with
  | nil => rfl
  | cons m ms ih =>
      obtain ⟨hm, hms⟩ := List.forall_mem_cons.mp h
      rw [List.findSome?_cons, List.findSome?_cons, hm, ih hms]

theorem seek_congr {k' : Way → Option γ} (h : ∀ m ∈ a.ways cs, k m = k' m) :
    a.seek cs k = a.seek cs k' :=
  findSome?_congr h

theorem seek_eq_none_iff : a.seek cs k = none ↔ ∀ m ∈ a.ways cs, k m = none :=
  List.findSome?_eq_none_iff

/-! ## Repetitions -/

/-- The ways of at least one round. -/
def furtherRounds (greedy : Bool) (round : List Char → List Way) (cs : List Char) : List Way :=
  (round cs).flatMap fun m =>
    if m.rest.length < cs.length then (roundsOf greedy round m.rest).map m.andThen else []

theorem roundsOf_eq (greedy : Bool) (round : List Char → List Way) (cs : List Char) :
    roundsOf greedy round cs =
      if greedy then furtherRounds greedy round cs ++ [⟨[], cs⟩]
      else ⟨[], cs⟩ :: furtherRounds greedy round cs := by
  rw [roundsOf]
  rfl

theorem mem_furtherRounds_iff {greedy : Bool} {round : List Char → List Way} {m : Way} :
    m ∈ furtherRounds greedy round cs ↔ ∃ first ∈ round cs, first.rest.length < cs.length ∧
      ∃ n ∈ roundsOf greedy round first.rest, first.andThen n = m := by
  unfold furtherRounds
  rw [List.mem_flatMap]
  refine exists_congr fun first => and_congr_right fun _ => ?_
  split
  · next hlt => simp [hlt]
  · next hlt => simp [hlt]

theorem mem_roundsOf_iff {greedy : Bool} {round : List Char → List Way} {m : Way} :
    m ∈ roundsOf greedy round cs ↔ m = ⟨[], cs⟩ ∨ m ∈ furtherRounds greedy round cs := by
  rw [roundsOf_eq]
  cases greedy with
  | true => rw [if_pos rfl, List.mem_append, List.mem_singleton, or_comm]
  | false => rw [if_neg Bool.false_ne_true, List.mem_cons]

/-- The induction on the rounds: what holds of no round, and of a round and what follows
it, holds of every way of a repetition. -/
theorem forall_mem_roundsOf {greedy : Bool} {round : List Char → List Way}
    {P : List Char → Way → Prop} (hnone : ∀ cs, P cs ⟨[], cs⟩)
    (hagain : ∀ cs, ∀ m ∈ round cs, ∀ n, P m.rest n → P cs (m.andThen n)) (cs : List Char) :
    ∀ m ∈ roundsOf greedy round cs, P cs m := by
  induction hlen : cs.length using Nat.strong_induction_on generalizing cs with
  | _ len ih =>
      intro m hm
      rcases mem_roundsOf_iff.mp hm with rfl | hm
      · exact hnone cs
      · obtain ⟨first, hfirst, hlt, n, hn, rfl⟩ := mem_furtherRounds_iff.mp hm
        exact hagain cs first hfirst n (ih _ (hlen ▸ hlt) _ rfl n hn)

theorem findSome?_furtherRounds {greedy : Bool} {round : List Char → List Way}
    (hround : ∀ cs, ∀ m ∈ round cs, m.rest.length < cs.length) :
    (furtherRounds greedy round cs).findSome? k = (round cs).findSome? fun m =>
      (roundsOf greedy round m.rest).findSome? fun n => k (m.andThen n) := by
  unfold furtherRounds
  rw [findSome?_flatMap]
  have hcongr : ∀ m ∈ round cs, (if m.rest.length < cs.length then
      (roundsOf greedy round m.rest).map m.andThen else []).findSome? k =
      (roundsOf greedy round m.rest).findSome? fun n => k (m.andThen n) := by
    intro m hm
    rw [if_pos (hround cs m hm), List.findSome?_map]
    rfl
  exact findSome?_congr hcongr

/-- Every way of the pattern reads something. -/
def Advances (a : Pattern) : Prop := ∀ cs, ∀ m ∈ a.ways cs, m.rest.length < cs.length

/-- A greedy repetition goes one round further, and ends here only if that leads nowhere. -/
theorem seek_star (ha : a.Advances) : (star a).seek cs k =
    (a.seek cs fun m => (star a).seek m.rest fun n => k (m.andThen n)).or (k ⟨[], cs⟩) := by
  show (roundsOf true a.ways cs).findSome? k = _
  rw [roundsOf_eq, if_pos rfl, List.findSome?_append, findSome?_furtherRounds ha,
    List.findSome?_singleton]
  rfl

/-- A lazy repetition ends here, and goes one round further only if that leads nowhere. -/
theorem seek_lazyStar (ha : a.Advances) : (lazyStar a).seek cs k =
    (k ⟨[], cs⟩).or (a.seek cs fun m => (lazyStar a).seek m.rest fun n => k (m.andThen n)) := by
  show (roundsOf false a.ways cs).findSome? k = _
  rw [roundsOf_eq, if_neg Bool.false_ne_true, List.findSome?_cons, findSome?_furtherRounds ha]
  cases k ⟨[], cs⟩ with
  | none => rfl
  | some y => rfl

/-! ## What a way leaves, and what it tells -/

/-- The pattern has no group in it. -/
def groupless : Pattern → Bool
  | one _ | word _ => true
  | seq a b | alt a b => a.groupless && b.groupless
  | optional a | star a | lazyStar a => a.groupless
  | group _ => false

theorem rest_suffix_of_mem_roundsOf {greedy : Bool} {round : List Char → List Way}
    (hround : ∀ cs, ∀ m ∈ round cs, m.rest <:+ cs) (cs : List Char) :
    ∀ m ∈ roundsOf greedy round cs, m.rest <:+ cs :=
  forall_mem_roundsOf (P := fun cs m => m.rest <:+ cs) List.suffix_refl
    (fun cs m hm _ hn => hn.trans (hround cs m hm)) cs

/-- A way leaves a part of the text. -/
theorem rest_suffix (a : Pattern) (cs : List Char) : ∀ m ∈ a.ways cs, m.rest <:+ cs := by
  induction a generalizing cs with
  | one q =>
      intro m hm
      obtain ⟨c, rest, rfl, _, rfl⟩ := mem_ways_one_iff.mp hm
      exact List.suffix_cons c rest
  | word w =>
      intro m hm
      obtain ⟨rest, rfl, rfl⟩ := mem_ways_word_iff.mp hm
      exact List.suffix_append w.toList rest
  | seq a b iha ihb =>
      intro m hm
      obtain ⟨first, hfirst, n, hn, rfl⟩ := mem_ways_seq_iff.mp hm
      exact (ihb _ n hn).trans (iha cs first hfirst)
  | alt a b iha ihb =>
      intro m hm
      rcases List.mem_append.mp hm with hm | hm
      · exact iha cs m hm
      · exact ihb cs m hm
  | optional a ih =>
      intro m hm
      rcases List.mem_append.mp hm with hm | hm
      · exact ih cs m hm
      · obtain rfl := List.mem_singleton.mp hm
        exact List.suffix_refl cs
  | star a ih | lazyStar a ih =>
      exact rest_suffix_of_mem_roundsOf ih cs
  | group a ih =>
      intro m hm
      obtain ⟨n, hn, rfl⟩ := List.mem_map.mp hm
      exact ih cs n hn

/-- A pattern without groups tells nothing. -/
theorem groups_eq_nil {a : Pattern} (ha : a.groupless = true) (cs : List Char) :
    ∀ m ∈ a.ways cs, m.groups = [] := by
  induction a generalizing cs with
  | one q =>
      intro m hm
      obtain ⟨c, rest, _, _, rfl⟩ := mem_ways_one_iff.mp hm
      rfl
  | word w =>
      intro m hm
      obtain ⟨rest, _, rfl⟩ := mem_ways_word_iff.mp hm
      rfl
  | seq a b iha ihb =>
      intro m hm
      obtain ⟨ha, hb⟩ := Bool.and_eq_true_iff.mp ha
      obtain ⟨first, hfirst, n, hn, rfl⟩ := mem_ways_seq_iff.mp hm
      simp only [Way.andThen, iha ha cs first hfirst, ihb hb _ n hn, List.append_nil]
  | alt a b iha ihb =>
      intro m hm
      obtain ⟨ha, hb⟩ := Bool.and_eq_true_iff.mp ha
      rcases List.mem_append.mp hm with hm | hm
      · exact iha ha cs m hm
      · exact ihb hb cs m hm
  | optional a ih =>
      intro m hm
      rcases List.mem_append.mp hm with hm | hm
      · exact ih ha cs m hm
      · rw [List.mem_singleton.mp hm]
  | star a ih | lazyStar a ih =>
      refine forall_mem_roundsOf (P := fun _ m => m.groups = []) (fun _ => rfl) ?_ cs
      intro cs m hm n hn
      simp only [Way.andThen, ih ha cs m hm, hn, List.append_nil]
  | group a _ => cases ha

/-- Behind a pattern without groups only the text that is left counts. -/
theorem seek_groupless (ha : a.groupless = true) :
    a.seek cs k = a.seek cs fun m => k ⟨[], m.rest⟩ := by
  refine seek_congr fun m hm => ?_
  rw [← groups_eq_nil ha cs m hm]

/-! ## Where a way begins -/

/-- There may be a way that reads nothing. -/
def nullable : Pattern → Bool
  | one _ => false
  | word w => w.toList.isEmpty
  | seq a b => a.nullable && b.nullable
  | alt a b => a.nullable || b.nullable
  | optional _ | star _ | lazyStar _ => true
  | group a => a.nullable

/-- There may be a way that begins with the character. -/
def begins (c : Char) : Pattern → Bool
  | one q => q c
  | word w => w.toList.head? == some c
  | seq a b => a.begins c || (a.nullable && b.begins c)
  | alt a b => a.begins c || b.begins c
  | optional a | star a | lazyStar a | group a => a.begins c

/-- A way reads nothing, or the text begins as the pattern may begin. -/
theorem reads_of_mem_ways (a : Pattern) (cs : List Char) : ∀ m ∈ a.ways cs,
    (a.nullable = true ∧ m.rest = cs) ∨
      (m.rest.length < cs.length ∧ ∃ c ∈ cs.head?, a.begins c = true) := by
  induction a generalizing cs with
  | one q =>
      intro m hm
      obtain ⟨c, rest, rfl, hc, rfl⟩ := mem_ways_one_iff.mp hm
      exact .inr ⟨Nat.lt_succ_self _, c, rfl, hc⟩
  | word w =>
      intro m hm
      obtain ⟨rest, rfl, rfl⟩ := mem_ways_word_iff.mp hm
      cases hw : w.toList with
      | nil => exact .inl ⟨by simp [nullable, hw], rfl⟩
      | cons c tail =>
          have hlt : rest.length < (c :: (tail ++ rest)).length := by
            simp only [List.length_cons, List.length_append]
            omega
          exact .inr ⟨hlt, c, rfl, by simp [begins, hw]⟩
  | seq a b iha ihb =>
      intro m hm
      obtain ⟨first, hfirst, n, hn, rfl⟩ := mem_ways_seq_iff.mp hm
      rcases iha cs first hfirst with ⟨hnull, rfl⟩ | ⟨hlt, c, hc, hbegins⟩
      · rcases ihb _ n hn with ⟨hnull', hrest⟩ | ⟨hlt, c, hc, hbegins⟩
        · exact .inl ⟨by simp [nullable, hnull, hnull'], hrest⟩
        · exact .inr ⟨hlt, c, hc, by simp [begins, hnull, hbegins]⟩
      · have hle := (rest_suffix b _ n hn).length_le
        exact .inr ⟨hle.trans_lt hlt, c, hc, by simp [begins, hbegins]⟩
  | alt a b iha ihb =>
      intro m hm
      rcases List.mem_append.mp hm with hm | hm
      · rcases iha cs m hm with ⟨hnull, hrest⟩ | ⟨hlt, c, hc, hbegins⟩
        · exact .inl ⟨by simp [nullable, hnull], hrest⟩
        · exact .inr ⟨hlt, c, hc, by simp [begins, hbegins]⟩
      · rcases ihb cs m hm with ⟨hnull, hrest⟩ | ⟨hlt, c, hc, hbegins⟩
        · exact .inl ⟨by simp [nullable, hnull], hrest⟩
        · exact .inr ⟨hlt, c, hc, by simp [begins, hbegins]⟩
  | optional a ih =>
      intro m hm
      rcases List.mem_append.mp hm with hm | hm
      · exact (ih cs m hm).imp_left fun h => ⟨rfl, h.2⟩
      · exact .inl ⟨rfl, by rw [List.mem_singleton.mp hm]⟩
  | star a ih | lazyStar a ih =>
      intro m hm
      rcases mem_roundsOf_iff.mp hm with rfl | hm
      · exact .inl ⟨rfl, rfl⟩
      · -- A round that is taken reads something, so it is the round that begins the way.
        obtain ⟨first, hfirst, hlt, n, hn, rfl⟩ := mem_furtherRounds_iff.mp hm
        have hle := (rest_suffix_of_mem_roundsOf (rest_suffix a) first.rest n hn).length_le
        rcases ih cs first hfirst with ⟨_, hrest⟩ | ⟨_, hbegins⟩
        · exact absurd (congrArg List.length hrest) hlt.ne
        · exact .inr ⟨hle.trans_lt hlt, hbegins⟩
  | group a ih =>
      intro m hm
      obtain ⟨n, hn, rfl⟩ := List.mem_map.mp hm
      exact ih cs n hn

theorem advances_of_nullable (ha : a.nullable = false) : a.Advances := by
  intro cs m hm
  rcases reads_of_mem_ways a cs m hm with ⟨hnull, _⟩ | ⟨hlt, _⟩
  · rw [ha] at hnull
    cases hnull
  · exact hlt

theorem advances_one (q : Char → Bool) : (one q).Advances := advances_of_nullable rfl

/-- The pattern reads something, and does not begin with a character of the class. -/
def NotAt (q : Char → Bool) (a : Pattern) : Prop :=
  a.nullable = false ∧ ∀ c, q c = true → a.begins c = false

theorem NotAt.seek_eq_none (ha : a.NotAt q) (hc : q c = true) : a.seek (c :: rest) k = none := by
  refine seek_eq_none_iff.mpr fun m hm => ?_
  rcases reads_of_mem_ways a _ m hm with ⟨hnull, _⟩ | ⟨_, d, hd, hbegins⟩
  · rw [ha.1] at hnull
    cases hnull
  · cases hd
    rw [ha.2 c hc] at hbegins
    cases hbegins

theorem notAt_word {w : String} {tail : List Char} (hw : w.toList = c :: tail)
    (hc : p c = false) : (word w).NotAt p := by
  refine ⟨by simp [nullable, hw], fun d hd => ?_⟩
  have hne : c ≠ d := by
    rintro rfl
    rw [hc] at hd
    cases hd
  simp [begins, hw, hne]

theorem NotAt.seq (ha : a.NotAt p) (b : Pattern) : (seq a b).NotAt p :=
  ⟨by simp [nullable, ha.1], fun c hc => by simp [begins, ha.1, ha.2 c hc]⟩

theorem NotAt.group (ha : a.NotAt p) : a.group.NotAt p := ha

theorem NotAt.alt (ha : a.NotAt p) (hb : b.NotAt p) : (alt a b).NotAt p :=
  ⟨by simp [nullable, ha.1, hb.1], fun c hc => by simp [begins, ha.2 c hc, hb.2 c hc]⟩

/-- A part that may be missing, in front of another. -/
theorem NotAt.star_seq (ha : ∀ c, p c = true → q c = false) (hb : b.NotAt p) :
    (Pattern.seq (star (one q)) b).NotAt p :=
  ⟨by simp [nullable, hb.1], fun c hc => by simp [begins, ha c hc, hb.2 c hc]⟩

/-- What follows may begin where the pattern reads nothing, and nowhere else. -/
theorem seek_eq_none_of_begins {F : List Char → Option γ} (ha : a.begins c = false)
    (hF : F (c :: rest) = none) : a.seek (c :: rest) (fun m => F m.rest) = none := by
  refine seek_eq_none_iff.mpr fun m hm => ?_
  rcases reads_of_mem_ways a _ m hm with ⟨_, hrest⟩ | ⟨_, d, hd, hbegins⟩
  · rw [hrest]
    exact hF
  · cases hd
    rw [ha] at hbegins
    cases hbegins

/-! ## Runs of one class -/

/-- A run of the class, of at least one character. -/
def run (q : Char → Bool) : Pattern := seq (one q) (star (one q))

theorem notAt_run (h : ∀ c, p c = true → q c = false) : (run q).NotAt p :=
  ⟨rfl, fun c hc => by simp [run, begins, nullable, h c hc]⟩

theorem seek_star_one_cons (hc : q c = true) :
    (star (one q)).seek (c :: rest) k =
      ((star (one q)).seek rest k).or (k ⟨[], c :: rest⟩) := by
  rw [seek_star (advances_one q), seek_one_cons, if_pos hc]
  rfl

theorem seek_star_one_of_stopsAt (h : StopsAt q cs) :
    (star (one q)).seek cs k = k ⟨[], cs⟩ := by
  rw [seek_star (advances_one q)]
  cases cs with
  | nil => rfl
  | cons c rest => simp [seek_one_cons, stopsAt_cons.mp h]

/-- Where nothing goes on from inside a run, the longest run is taken. -/
theorem seek_star_one (hk : ∀ c rest, q c = true → k ⟨[], c :: rest⟩ = none) :
    (star (one q)).seek cs k = k ⟨[], cs.dropWhile q⟩ := by
  induction cs with
  | nil => exact seek_star_one_of_stopsAt stopsAt_nil
  | cons c cs ih =>
      cases hc : q c with
      | true => rw [seek_star_one_cons hc, ih, hk c cs hc, Option.or_none,
          List.dropWhile_cons_of_pos hc]
      | false => rw [seek_star_one_of_stopsAt (stopsAt_cons.mpr hc),
          List.dropWhile_cons_of_neg (by simp [hc])]

/-- Where something goes on behind the longest run, that one is taken. -/
theorem seek_star_one_of_isSome (hk : (k ⟨[], cs.dropWhile q⟩).isSome) :
    (star (one q)).seek cs k = k ⟨[], cs.dropWhile q⟩ := by
  induction cs with
  | nil => exact seek_star_one_of_stopsAt stopsAt_nil
  | cons c cs ih =>
      cases hc : q c with
      | true =>
          rw [List.dropWhile_cons_of_pos hc] at hk ⊢
          rw [seek_star_one_cons hc, ih hk, Option.or_of_isSome hk]
      | false => rw [seek_star_one_of_stopsAt (stopsAt_cons.mpr hc),
          List.dropWhile_cons_of_neg (by simp [hc])]

theorem seek_run_of_stopsAt (h : StopsAt q cs) : (run q).seek cs k = none := by
  rw [run, seek_seq]
  cases cs with
  | nil => rfl
  | cons c rest => rw [seek_one_cons, stopsAt_cons.mp h, if_neg Bool.false_ne_true]

/-- Where nothing goes on from inside a run, the longest run is taken, if there is one. -/
theorem seek_run (hk : ∀ c rest, q c = true → k ⟨[], c :: rest⟩ = none) :
    (run q).seek cs k = (run? q cs).bind fun m => k ⟨[], m.2⟩ := by
  cases cs with
  | nil => rfl
  | cons c rest =>
      cases hc : q c with
      | true =>
          rw [run, seek_seq, seek_one_cons, if_pos hc]
          simp only [Way.andThen_nil]
          rw [seek_star_one hk, run?, List.takeWhile_cons_of_pos hc,
            List.dropWhile_cons_of_pos hc]
          rfl
      | false =>
          have hstop : StopsAt q (c :: rest) := stopsAt_cons.mpr hc
          rw [seek_run_of_stopsAt hstop, run?_eq_none_of_stopsAt hstop]
          rfl

end Pattern

end IdlGlue.Scan
