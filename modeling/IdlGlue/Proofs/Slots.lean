/-
# IdlGlue.Proofs.Slots -- the prototype slots of a file are closed and unambiguous

Two passes over a file have to agree. The glue of its interfaces names slots, wherever
a wrapped object gets its prototype and in every projection record; and `slotsOf` declares
slots at the start of the namespace, without a look at that glue. `SlotsClosed` says that
the two match:

| slot of                                      | declared             | order                      |
|----------------------------------------------|----------------------|----------------------------|
| an interface of the file                     | once, as defined     | of the interfaces          |
| another class that a member gives out        | once, as `extern`    | of their first references  |
| anything else                                | not, and never named |                            |

Slots are told apart by flat names, so two qualified names that flatten to one share
their slot. The elements of a list without its repetitions stand in the order of their first
occurrence (`pairwise_idxOf_eraseDups`), and so do those that a filter keeps.
-/
import IdlGlue.Proofs.Acceptance
import IdlGlue.Proofs.Mentions

namespace IdlGlue

open IdlGlue.Native

/-- The flat names of the classes that methods and properties give out, in the order of the
file and with repetitions. -/
def SourceFile.references (file : SourceFile) : List String :=
  (file.interfaces.flatMap Interface.members).filterMap Member.reference?

namespace Glue

/-! ## First occurrences -/

section FirstOccurrence

variable {α : Type} [BEq α] [LawfulBEq α]

/-- A filter does not swap what it keeps. -/
theorem idxOf_lt_of_idxOf_filter_lt {p : α → Bool} {a b : α} (hb : p b = true) {l : List α}
    (h : (l.filter p).idxOf a < (l.filter p).idxOf b) : l.idxOf a < l.idxOf b := by
  induction l with
  | nil => exact h
  | cons x l ih =>
      by_cases hxb : x = b
      · subst hxb
        rw [List.filter_cons_of_pos hb, List.idxOf_cons_self] at h
        exact absurd h (Nat.not_lt_zero _)
      · rw [List.idxOf_cons_ne l hxb]
        by_cases hxa : x = a
        · rw [List.idxOf_cons_eq l hxa]
          exact Nat.succ_pos _
        · rw [List.idxOf_cons_ne l hxa]
          refine Nat.succ_lt_succ (ih ?_)
          by_cases hx : p x = true
          · rw [List.filter_cons_of_pos hx, List.idxOf_cons_ne _ hxa,
              List.idxOf_cons_ne _ hxb] at h
            exact Nat.lt_of_succ_lt_succ h
          · rw [List.filter_cons_of_neg hx] at h
            exact h

theorem pairwise_idxOf_eraseDups (l : List α) :
    l.eraseDups.Pairwise fun a b => l.idxOf a < l.idxOf b := by
  match l with
  | [] => exact List.Pairwise.nil
  | x :: l =>
      have hne {a : α} (ha : a ∈ (l.filter fun b => !b == x).eraseDups) : (!a == x) = true :=
        (List.mem_filter.mp (List.mem_eraseDups.mp ha)).2
      have hx {a : α} (ha : a ∈ (l.filter fun b => !b == x).eraseDups) : x ≠ a := by
        rintro rfl
        simpa using hne ha
      rw [List.eraseDups_cons, List.pairwise_cons]
      refine ⟨fun a ha => ?_, ?_⟩
      · rw [List.idxOf_cons_self, List.idxOf_cons_ne l (hx ha)]
        exact Nat.succ_pos _
      · refine (pairwise_idxOf_eraseDups (l.filter fun b => !b == x)).imp_of_mem ?_
        intro a b ha hb hab
        rw [List.idxOf_cons_ne l (hx ha), List.idxOf_cons_ne l (hx hb)]
        exact Nat.succ_lt_succ (idxOf_lt_of_idxOf_filter_lt (p := fun b => !b == x) (hne hb) hab)
termination_by l.length
decreasing_by exact Nat.lt_succ_of_le (List.length_filter_le _ _)

end FirstOccurrence

/-! ## Declared slots -/

theorem prototype_spelling_injective :
    Function.Injective fun flat => (Symbol.prototype flat).spelling :=
  fun _ _ h => (String.append_right_inj "Js").mp ((String.append_left_inj "Prototype").mp h)

/-- The line that defines a slot. -/
def slotLine (flat : String) : String := "JsValueRef " ++ (Symbol.prototype flat).spelling ++ ";\n"

/-- The flat names of the slots that the file defines. -/
def FileGlue.definitions (glue : FileGlue) : List String :=
  (glue.slots.filter fun s => !s.foreign).map Slot.flatName

/-- The flat names of the slots that the file declares as defined elsewhere. -/
def FileGlue.externs (glue : FileGlue) : List String :=
  (glue.slots.filter Slot.foreign).map Slot.flatName

/-- The names of all declared slots. -/
def FileGlue.declared (glue : FileGlue) : List String :=
  (glue.definitions ++ glue.externs).map fun flat => (Symbol.prototype flat).spelling

/-- The slots that the glue of interfaces names are the slots that the file declares. -/
structure SlotsClosed (file : SourceFile) (glue : FileGlue) : Prop where
  /-- All declarations stand at the start of the namespace, before the glue of any interface. -/
  layout : glue.code =
    String.join (glue.headers.map (· ++ "\n")) ++
      String.join (glue.callbacks.map fun c => "\n" ++ c.code) ++ "\nnamespace\n\x7b\n" ++
      (String.join (glue.definitions.map slotLine) ++
        String.join (glue.externs.map fun flat => "extern " ++ slotLine flat)) ++
      String.join (glue.interfaces.map InterfaceGlue.code) ++ "\n\x7d\n"
  /-- A slot that is named has exactly one declaration. -/
  named : ∀ g ∈ glue.interfaces, ∀ name, g.NamesSlot name → glue.declared.count name = 1
  distinct : glue.declared.Nodup
  definitions : glue.definitions = file.interfaces.map Interface.flatName
  externs : ∀ flat, flat ∈ glue.externs ↔
    flat ∈ file.references ∧ ∀ i ∈ file.interfaces, i.flatName ≠ flat
  order : glue.externs.Pairwise fun flat flat' =>
    file.references.idxOf flat < file.references.idxOf flat'
  disjoint : glue.definitions.Disjoint glue.externs
  /-- No slot is declared as defined elsewhere without a use. -/
  used : ∀ flat ∈ glue.externs,
    ∃ g ∈ glue.interfaces, g.NamesSlot (Symbol.prototype flat).spelling

theorem givenClasses_eq (file : SourceFile) :
    givenClasses file = file.references.eraseDups := by
  have hgiven (m : Member) :
      ((givenType? m).bind fun type => type.className?.map Name.flatten) = m.reference? := by
    cases m with
    | constructor params => rfl
    | method m => rfl
    | property p => rfl
  simp only [givenClasses, hgiven]
  rfl

theorem foreign_of_mem {flats : List String} {foreign : Bool} {s : Slot}
    (hs : s ∈ flats.map ({ flatName := ·, foreign })) : s.foreign = foreign := by
  obtain ⟨flat, _, rfl⟩ := List.mem_map.mp hs
  rfl

section

variable {file : SourceFile} {glue : FileGlue} (hslots : glue.slots = slotsOf file)

include hslots

theorem definitions_eq : glue.definitions = file.interfaces.map Interface.flatName := by
  rw [FileGlue.definitions, hslots, slotsOf, List.filter_append, List.filter_eq_self.mpr,
    List.filter_eq_nil_iff.mpr, List.append_nil, List.map_map]
  · exact List.map_id _
  · intro s hs
    rw [foreign_of_mem hs]
    exact Bool.false_ne_true
  · intro s hs
    rw [foreign_of_mem hs]
    rfl

theorem externs_eq : glue.externs =
    file.references.eraseDups.filter (· ∉ file.interfaces.map Interface.flatName) := by
  rw [FileGlue.externs, hslots, slotsOf, givenClasses_eq, List.filter_append,
    List.filter_eq_nil_iff.mpr, List.filter_eq_self.mpr, List.nil_append, List.map_map]
  · exact List.map_id _
  · intro s hs
    exact foreign_of_mem hs
  · intro s hs
    rw [foreign_of_mem hs]
    exact Bool.false_ne_true

theorem slotCode_eq : String.join (glue.slots.map Slot.code) =
    String.join (glue.definitions.map slotLine) ++
      String.join (glue.externs.map fun flat => "extern " ++ slotLine flat) := by
  have hdefined (flat : String) :
      Slot.code { flatName := flat, foreign := false } = slotLine flat := by
    show "" ++ "JsValueRef " ++ (Symbol.prototype flat).spelling ++ ";\n" = slotLine flat
    rw [String.empty_append]
    rfl
  have hforeign (flat : String) :
      Slot.code { flatName := flat, foreign := true } = "extern " ++ slotLine flat := by
    rw [slotLine, ← String.append_assoc, ← String.append_assoc]
    rfl
  rw [definitions_eq hslots, externs_eq hslots, hslots, slotsOf, givenClasses_eq, List.map_append,
    String.join_append]
  simp only [List.map_map, Function.comp_def, hdefined, hforeign]

end

/-! ## Named slots -/

/-- The glue of all interfaces names the slots of the interfaces and of the classes that their
members give out. -/
theorem exists_namesSlot_iff {rules : Rules} {interfaces : List Interface}
    {glues : List InterfaceGlue}
    (h : List.Forall₂ (fun i g => (interfaceGlue rules i).outcome = .ok g) interfaces glues)
    (name : String) :
    (∃ g ∈ glues, g.NamesSlot name) ↔
      ∃ flat, (flat ∈ (interfaces.flatMap Interface.members).filterMap Member.reference? ∨
        ∃ i ∈ interfaces, i.flatName = flat) ∧ name = (Symbol.prototype flat).spelling := by
  rw [Traversal.exists_mem_iff_of_forall₂ h fun i g hg => namesSlot_interfaceGlue_iff hg name]
  constructor
  · rintro ⟨i, hi, flat, hflat | rfl, hname⟩
    · refine ⟨flat, Or.inl ?_, hname⟩
      obtain ⟨m, hm, hreference⟩ := List.mem_filterMap.mp hflat
      exact List.mem_filterMap.mpr ⟨m, List.mem_flatMap.mpr ⟨i, hi, hm⟩, hreference⟩
    · exact ⟨i.flatName, Or.inr ⟨i, hi, rfl⟩, hname⟩
  · rintro ⟨flat, hflat | ⟨i, hi, rfl⟩, hname⟩
    · obtain ⟨m, hm, hreference⟩ := List.mem_filterMap.mp hflat
      obtain ⟨i, hi, hm⟩ := List.mem_flatMap.mp hm
      exact ⟨i, hi, flat, Or.inl (List.mem_filterMap.mpr ⟨m, hm, hreference⟩), hname⟩
    · exact ⟨i, hi, i.flatName, Or.inr rfl, hname⟩

/-! ## Files -/

/-- What is known of the glue of a file, where it has some. -/
theorem fileGlue_parts {dialect : Dialect} {registry : Registry} {file : SourceFile}
    {glue : FileGlue} (h : (fileGlue dialect registry file).outcome = .ok glue) :
    (file.interfaces.map Interface.flatName).Nodup ∧ glue.slots = slotsOf file ∧
      List.Forall₂ (fun i g => (interfaceGlue (rulesFor dialect registry file) i).outcome = .ok g)
        file.interfaces glue.interfaces := by
  rw [outcome_fileGlue] at h
  obtain ⟨⟨⟩, hnames, h⟩ := Traversal.bind_eq_ok_iff.mp h
  obtain ⟨callbacks, _, h⟩ := Traversal.bind_eq_ok_iff.mp h
  obtain ⟨interfaces, hinterfaces, h⟩ := Traversal.bind_eq_ok_iff.mp h
  cases h
  have hnodup := (checkNames_verdict file).ok_iff.mp ⟨(), hnames⟩
  exact ⟨hnodup.1, rfl, Traversal.mapM_eq_ok_iff.mp hinterfaces⟩

/-- **Every slot that the glue of a file names is declared once, as its own where an interface
of the file has it and as defined elsewhere otherwise; and nothing else is declared so.** -/
theorem slotsClosed_of_fileGlue {dialect : Dialect} {registry : Registry} {file : SourceFile}
    {glue : FileGlue} (h : (fileGlue dialect registry file).outcome = .ok glue) :
    SlotsClosed file glue := by
  obtain ⟨hown, hslots, hinterfaces⟩ := fileGlue_parts h
  have hdefinitions := definitions_eq hslots
  have hexterns (flat : String) : flat ∈ glue.externs ↔
      flat ∈ file.references ∧ ∀ i ∈ file.interfaces, i.flatName ≠ flat := by
    rw [externs_eq hslots, List.mem_filter, List.mem_eraseDups, decide_eq_true_iff,
      List.mem_map, not_exists]
    simp only [not_and, ne_eq]
  have horder : glue.externs.Pairwise fun flat flat' =>
      file.references.idxOf flat < file.references.idxOf flat' := by
    rw [externs_eq hslots]
    exact (pairwise_idxOf_eraseDups file.references).filter _
  have hdisjoint : glue.definitions.Disjoint glue.externs := by
    intro flat hflat hextern
    rw [hdefinitions] at hflat
    obtain ⟨i, hi, hname⟩ := List.mem_map.mp hflat
    exact ((hexterns flat).mp hextern).2 i hi hname
  have hdistinct : glue.declared.Nodup := by
    refine List.Nodup.map prototype_spelling_injective (List.Nodup.append ?_ ?_ hdisjoint)
    · rw [hdefinitions]
      exact hown
    · refine horder.imp ?_
      rintro flat flat' hlt rfl
      exact Nat.lt_irrefl _ hlt
  have hnamed := exists_namesSlot_iff hinterfaces
  refine ⟨?_, ?_, hdistinct, hdefinitions, hexterns, horder, hdisjoint, ?_⟩
  · rw [← slotCode_eq hslots]
    rfl
  · -- a slot that is named is that of an interface of the file, or else foreign
    intro g hg name hname
    obtain ⟨flat, hflat, rfl⟩ := (hnamed name).mp ⟨g, hg, hname⟩
    refine List.count_eq_one_of_mem hdistinct (List.mem_map_of_mem ?_)
    rw [List.mem_append, hdefinitions, List.mem_map]
    by_cases hfile : ∃ i ∈ file.interfaces, i.flatName = flat
    · exact Or.inl hfile
    · refine Or.inr ((hexterns flat).mpr ⟨hflat.resolve_right hfile, ?_⟩)
      exact fun i hi heq => hfile ⟨i, hi, heq⟩
  · intro flat hflat
    exact (hnamed _).mpr ⟨flat, Or.inl ((hexterns flat).mp hflat).1, rfl⟩

/-- A class whose members give out another class twice, by reference and by pointer, and itself. -/
def worldFile : SourceFile where
  headers := []
  delegates := []
  interfaces := [{
    name := "Zmey::World"
    members := [
      .method {
        result := .reference "Zmey::Entity", name := "spawn", params := [], nameAsIs := false },
      .property {
        type := .object "Zmey::Entity", name := "player", readonly := true, nameAsIs := false },
      .method {
        result := .object "Zmey::World", name := "self", params := [], nameAsIs := false }] }]

theorem slotsClosed_worldFile :
    ∃ glue, (fileGlue .standard (.hashed "Zmey::Chakra::Binding" "Zmey::Hash") worldFile).outcome =
        .ok glue ∧ SlotsClosed worldFile glue := by
  have hok : ∃ glue, (fileGlue .standard (.hashed "Zmey::Chakra::Binding" "Zmey::Hash")
      worldFile).outcome = .ok glue := ⟨_, rfl⟩
  obtain ⟨glue, hglue⟩ := hok
  exact ⟨glue, hglue, slotsClosed_of_fileGlue hglue⟩

end Glue

end IdlGlue
