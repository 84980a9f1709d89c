/-
# IdlGlue.Proofs.FlatNames -- which flat names are identifiers

A qualified name is any string of word characters and colons, and its flat name drops the colons
in pairs. So it goes by the length of a run of colons whether one of them is left:

| name     | flat name | symbols like      |
|----------|-----------|-------------------|
| `A::B`   | `AB`      | `JsABPrototype`   |
| `::A::`  | `A`       | `JsAPrototype`    |
| `A:B`    | `A:B`     | `JsA:BPrototype`  |
| `A:::B`  | `A:B`     | `JsA:BPrototype`  |
| `::`     |           | `JsPrototype`     |

`FlatLaw` says what a flat name is for every name that a text can declare, and that it is an
identifier exactly where all runs are even and something stands beside them. The grammar asks for
neither, so `strayText` and `colonsText` are accepted.
-/
import IdlGlue.Proofs.Bare
import IdlGlue.Proofs.Symbols
import Mathlib.Algebra.Group.Nat.Even

namespace IdlGlue

open IdlGlue.Native IdlGlue.Text IdlGlue.Scan IdlGlue.Statement

namespace Name

/-! ## Runs of colons -/

/-- Every run of colons, as long as it goes, has an even length. -/
def EvenColons (cs : List Char) : Prop :=
  ∀ before length after, cs = before ++ List.replicate length ':' ++ after →
    before.getLast? ≠ some ':' → after.head? ≠ some ':' → Even length

theorem flattenChars_cons {c : Char} {cs : List Char} (h : c ≠ ':' ∨ cs.head? ≠ some ':') :
    flattenChars (c :: cs) = c :: flattenChars cs := by
  rw [flattenChars]
  rintro cs' rfl rfl
  exact h.elim (absurd rfl) (absurd rfl)

theorem getLast?_ne_of_cons {c : Char} {cs : List Char} (h : (c :: cs).getLast? ≠ some ':') :
    cs.getLast? ≠ some ':' := by
  cases cs with
  | nil => exact nofun
  | cons d cs => rwa [List.getLast?_cons_cons] at h

/-- Behind anything but a colon a name is flattened as if it began there. -/
theorem flattenChars_append {before after : List Char} (h : before.getLast? ≠ some ':') :
    flattenChars (before ++ after) = flattenChars before ++ flattenChars after := by
  fun_induction flattenChars before with
  | case1 cs ih => exact ih (getLast?_ne_of_cons (getLast?_ne_of_cons h))
  | case2 c cs hpair ih =>
      rw [List.cons_append, List.cons_append, ← ih (getLast?_ne_of_cons h)]
      apply flattenChars_cons
      cases cs with
      | nil => exact Or.inl fun hc => h (congrArg some hc)
      | cons d cs =>
          by_cases hc : c = ':'
          · refine Or.inr fun hd => ?_
            exact hpair cs hc (congrArg (· :: cs) (Option.some.inj hd))
          · exact Or.inl hc
  | case3 => rfl

/-- Of a run of colons one is left, or none. -/
theorem flattenChars_replicate {after : List Char} (h : after.head? ≠ some ':') (length : Nat) :
    flattenChars (List.replicate length ':' ++ after) =
      List.replicate (length % 2) ':' ++ flattenChars after := by
  induction length using Nat.twoStepInduction with
  | zero => rfl
  | one => exact flattenChars_cons (Or.inr h)
  | more n ih _ =>
      rw [Nat.add_mod_right, ← ih]
      rfl

/-- **A maximal run of colons is flattened by itself**, to its remainder by two. -/
theorem flattenChars_run {before after : List Char} (length : Nat)
    (hbefore : before.getLast? ≠ some ':') (hafter : after.head? ≠ some ':') :
    flattenChars (before ++ List.replicate length ':' ++ after) =
      flattenChars before ++ List.replicate (length % 2) ':' ++ flattenChars after := by
  rw [List.append_assoc, flattenChars_append hbefore, flattenChars_replicate hafter,
    List.append_assoc]

/-! ## Word characters -/

/-- What is no colon is kept, in its order. -/
theorem filter_flattenChars {p : Char → Bool} (h : p ':' = false) (cs : List Char) :
    (flattenChars cs).filter p = cs.filter p := by
  fun_induction flattenChars cs with
  | case1 cs ih => rw [ih, List.filter_cons_of_neg (by simp [h]),
      List.filter_cons_of_neg (by simp [h])]
  | case2 c cs _ ih => rw [List.filter_cons, List.filter_cons, ih]
  | case3 => rfl

theorem filter_isWord_flattenChars (cs : List Char) :
    (flattenChars cs).filter isWord = cs.filter isWord :=
  filter_flattenChars (by decide +kernel) cs

theorem EvenColons.of_colons {cs : List Char} (h : EvenColons (':' :: ':' :: cs)) :
    EvenColons cs := by
  rintro before length after rfl hbefore hafter
  cases before with
  | nil =>
      -- The run goes on to the left.
      have heven : Even (length + 2) := h [] (length + 2) after rfl nofun hafter
      exact (Nat.even_add.mp heven).mpr (by decide)
  | cons c before =>
      refine h (':' :: ':' :: c :: before) length after rfl ?_ hafter
      rwa [List.getLast?_cons_cons, List.getLast?_cons_cons]

theorem EvenColons.of_cons {c : Char} {cs : List Char} (hc : c ≠ ':') (h : EvenColons (c :: cs)) :
    EvenColons cs := by
  rintro before length after rfl hbefore hafter
  refine h (c :: before) length after rfl ?_ hafter
  cases before with
  | nil => exact fun hlast => hc (Option.some.inj hlast)
  | cons d before => rwa [List.getLast?_cons_cons]

/-- No colon is left exactly where all runs are even. -/
theorem allIn_isWord_flattenChars_iff {cs : List Char} (h : AllIn isNamePart cs) :
    AllIn isWord (flattenChars cs) ↔ EvenColons cs := by
  constructor
  · rintro hword before length after rfl hbefore hafter
    rw [flattenChars_run length hbefore hafter, allIn_append, allIn_append] at hword
    -- An odd run would leave a colon, which is no word character.
    rw [Nat.even_iff]
    by_contra hodd
    have hcolon : ':' ∈ List.replicate (length % 2) ':' := by
      rw [List.mem_replicate]
      exact ⟨hodd, rfl⟩
    exact absurd (hword.1.2 ':' hcolon) (by decide +kernel)
  · intro heven
    fun_induction flattenChars cs with
    | case1 cs ih =>
        rw [allIn_cons, allIn_cons] at h
        exact ih h.2.2 heven.of_colons
    | case2 c cs hpair ih =>
        obtain ⟨hc, hcs⟩ := allIn_cons.mp h
        -- A colon here would be a run of length one.
        have hne : c ≠ ':' := by
          rintro rfl
          have hnext : cs.head? ≠ some ':' := by
            intro hhead
            cases cs with
            | nil => cases hhead
            | cons d cs' => exact hpair cs' rfl (congrArg (· :: cs') (Option.some.inj hhead))
          have hone : Even 1 := heven [] 1 cs rfl (by simp) hnext
          exact absurd hone (by decide)
        refine allIn_cons.mpr ⟨?_, ih hcs (heven.of_cons hne)⟩
        simpa [isNamePart, hne] using hc
    | case3 => exact allIn_nil

end Name

/-! ## Flat names -/

/-- The text is an identifier: word characters, and at least one. -/
def Identifier (text : String) : Prop := text ≠ "" ∧ AllIn isWord text.toList

instance (text : String) : Decidable (Identifier text) :=
  inferInstanceAs (Decidable (_ ∧ _))

/-- What is known of the flat name of a declared name, and of the symbols that are built of it. -/
structure FlatLaw (name : String) (symbols : List Symbol) : Prop where
  declared : name ≠ "" ∧ AllIn isNamePart name.toList
  /-- The word characters are kept, and of each run of colons its remainder by two. -/
  words : (Name.flatten name).toList.filter isWord = name.toList.filter isWord
  run : ∀ before length after, name.toList = before ++ List.replicate length ':' ++ after →
    before.getLast? ≠ some ':' → after.head? ≠ some ':' →
    (Name.flatten name).toList =
      Name.flattenChars before ++ List.replicate (length % 2) ':' ++ Name.flattenChars after
  identifier : Identifier (Name.flatten name) ↔
    Name.EvenColons name.toList ∧ ∃ c ∈ name.toList, isWord c = true
  symbols : ∀ s ∈ symbols, s.flat = Name.flatten name ∧
    (Identifier s.spelling ↔ Name.EvenColons name.toList)

theorem ne_empty_iff {text : String} : text ≠ "" ↔ text.toList ≠ [] :=
  not_congr String.toList_eq_nil_iff.symm

theorem identifier_flatten_iff {name : String} (h : AllIn isNamePart name.toList) :
    Identifier (Name.flatten name) ↔
      Name.EvenColons name.toList ∧ ∃ c ∈ name.toList, isWord c = true := by
  have hwords := Name.filter_isWord_flattenChars name.toList
  rw [Identifier, ne_empty_iff, Name.flatten, String.toList_ofList,
    Name.allIn_isWord_flattenChars_iff h, and_comm]
  refine and_congr_right fun heven => ?_
  -- All of the flat name are word characters, so it holds one where the name does.
  have hall := (Name.allIn_isWord_flattenChars_iff h).mpr heven
  rw [List.filter_eq_self.mpr hall] at hwords
  rw [hwords, Ne, List.filter_eq_nil_iff]
  push Not
  rfl

/-! ## Symbols -/

theorem allIn_isWord_lead (s : Symbol) : AllIn isWord s.lead.toList := by
  have hleads : ∀ lead ∈ ["Js", "", "As"], AllIn isWord lead.toList := by decide +kernel
  apply hleads
  rcases s.lead_cases with h | ⟨h, _⟩ | ⟨h, _⟩
  · rw [h]
    decide
  · rw [h]
    decide
  · rw [h]
    decide

theorem allIn_isWord_word (s : Symbol) : AllIn isWord s.word.toList := by
  have hwords : ∀ word ∈ Symbol.words, AllIn isWord word.toList := by decide +kernel
  by_cases hnone : s.word = ""
  · rw [hnone]
    exact allIn_nil
  · exact hwords s.word (Symbol.word_mem_words hnone)

theorem spelling_ne_empty (s : Symbol) : s.spelling ≠ "" := by
  intro hempty
  rw [Symbol.spelling_eq, String.append_eq_empty_iff, String.append_eq_empty_iff, Symbol.role,
    String.append_eq_empty_iff] at hempty
  obtain ⟨hlead, _, _, hword⟩ := hempty
  rcases s.lead_cases with h | ⟨_, _, h⟩ | ⟨h, _⟩
  · rw [hlead] at h
    exact absurd h (by decide)
  · exact h hword
  · rw [hlead] at h
    exact absurd h (by decide)

/-- Beside a flat name only the name of a member counts. -/
theorem identifier_spelling_iff {s : Symbol} (hmember : AllIn isWord s.member.toList) :
    Identifier s.spelling ↔ AllIn isWord s.flat.toList := by
  rw [Identifier, and_iff_right (spelling_ne_empty s), Symbol.spelling_eq, Symbol.role]
  simp only [String.toList_append, allIn_append]
  exact ⟨fun h => h.2.1, fun h => ⟨allIn_isWord_lead s, h, hmember, allIn_isWord_word s⟩⟩

theorem flatLaw_of_symbols {name : String} {symbols : List Symbol}
    (hname : name ≠ "" ∧ AllIn isNamePart name.toList)
    (hsymbols : ∀ s ∈ symbols, s.flat = Name.flatten name ∧ AllIn isWord s.member.toList) :
    FlatLaw name symbols where
  declared := hname
  words := by
    rw [Name.flatten, String.toList_ofList]
    exact Name.filter_isWord_flattenChars name.toList
  run := by
    intro before length after hcut hbefore hafter
    rw [Name.flatten, String.toList_ofList, hcut]
    exact Name.flattenChars_run length hbefore hafter
  identifier := identifier_flatten_iff hname.2
  symbols := by
    intro s hs
    obtain ⟨hflat, hmember⟩ := hsymbols s hs
    refine ⟨hflat, (identifier_spelling_iff hmember).trans ?_⟩
    rw [hflat, Name.flatten, String.toList_ofList]
    exact Name.allIn_isWord_flattenChars_iff hname.2

/-! ## Declared names -/

theorem interface_name {cs rest : List Char} {s : InterfaceText} (h : interface.Reads cs s rest) :
    s.name ≠ [] ∧ AllIn isNamePart s.name := by
  obtain ⟨head, hhead, hp⟩ := Option.bind_eq_some_iff.mp h
  obtain ⟨body, _, hp⟩ := Option.map_eq_some_iff.mp hp
  cases hp
  obtain ⟨r0, _, hhead⟩ := Option.bind_eq_some_iff.mp hhead
  obtain ⟨r1, _, hhead⟩ := Option.bind_eq_some_iff.mp hhead
  obtain ⟨name, hrun, hhead⟩ := Option.bind_eq_some_iff.mp hhead
  obtain ⟨r2, _, hp⟩ := Option.map_eq_some_iff.mp hhead
  cases hp
  obtain ⟨hne, hname, _, _⟩ := run?_eq_some_iff_append.mp hrun
  exact ⟨hne, hname⟩

theorem delegate_name {cs rest : List Char} {s : DelegateText} (h : delegate.Reads cs s rest) :
    s.name ≠ [] ∧ AllIn isNamePart s.name := by
  obtain ⟨r0, _, h⟩ := Option.bind_eq_some_iff.mp h
  obtain ⟨r1, _, h⟩ := Option.bind_eq_some_iff.mp h
  obtain ⟨result, _, h⟩ := Option.bind_eq_some_iff.mp h
  obtain ⟨r2, _, h⟩ := Option.bind_eq_some_iff.mp h
  obtain ⟨name, hrun, h⟩ := Option.bind_eq_some_iff.mp h
  obtain ⟨args, _, h⟩ := Option.bind_eq_some_iff.mp h
  obtain ⟨last, _, hp⟩ := Option.map_eq_some_iff.mp h
  cases hp
  obtain ⟨hne, hname, _, _⟩ := run?_eq_some_iff_append.mp hrun
  exact ⟨hne, hname⟩

theorem declared_ofList {name : List Char} (h : name ≠ [] ∧ AllIn isNamePart name) :
    String.ofList name ≠ "" ∧ AllIn isNamePart (String.ofList name).toList := by
  rw [ne_empty_iff, String.toList_ofList]
  exact h

/-- The members of a named interface give symbols whose member name is an identifier. -/
theorem allIn_isWord_member {i : Interface} (hi : i.Named) {s : Symbol} (hs : s ∈ i.symbols) :
    AllIn isWord s.member.toList := by
  rcases Interface.mem_symbols hs with ⟨m, hm, hof⟩ | hof
  · have hnamed := hi.members m hm
    rcases hof.name with ⟨hname, _⟩ | ⟨hname, _⟩
    · cases m with
      | method m =>
          rw [← Option.some.inj hname]
          exact Method.Named.name hnamed
      | constructor | property => cases hname
    · cases m with
      | property p =>
          rw [← Option.some.inj hname]
          exact Property.Named.name hnamed
      | constructor | method => cases hname
  · have hword := hof.word
    cases s with
    | method | getter | setter => simp [Symbol.word] at hword
    | _ => exact allIn_nil

theorem Interface.Reads.flatLaw {cs rest : List Char} {i : Interface}
    (h : Interface.Reads cs i rest) : FlatLaw i.name (.prototype i.flatName :: i.symbols) := by
  have hnamed := h.named
  obtain ⟨s, hread, hname, _⟩ := h
  refine flatLaw_of_symbols (hname ▸ declared_ofList (interface_name hread)) ?_
  rw [List.forall_mem_cons]
  refine ⟨⟨rfl, allIn_nil⟩, fun s hs => ?_⟩
  exact ⟨(parts_of_mem_symbols hs).1, allIn_isWord_member hnamed hs⟩

theorem Delegate.Reads.flatLaw {cs rest : List Char} {d : Delegate}
    (h : Delegate.Reads cs d rest) : FlatLaw d.name d.symbols := by
  obtain ⟨s, hread, _, hname, _⟩ := h
  refine flatLaw_of_symbols (hname ▸ declared_ofList (delegate_name hread)) ?_
  rw [Delegate.symbols, List.forall_mem_cons, List.forall_mem_singleton]
  exact ⟨⟨rfl, allIn_nil⟩, ⟨rfl, allIn_nil⟩⟩

/-- **The flat names of an accepted text**, and when they are identifiers. -/
theorem SourceFile.flatLaw_of_ofText {text : String} {file : SourceFile}
    (h : SourceFile.ofText text = .ok file) :
    (∀ i ∈ file.interfaces, FlatLaw i.name (.prototype i.flatName :: i.symbols)) ∧
      ∀ d ∈ file.delegates, FlatLaw d.name d.symbols := by
  obtain ⟨⟨headers, delegates, interfaces, _, _, hdelegates, hinterfaces⟩, _⟩ :=
    SourceFile.tiles_of_ofText h
  exact ⟨hinterfaces.forall_mem Interface.Reads.flatLaw,
    hdelegates.forall_mem Delegate.Reads.flatLaw⟩

/-- Names with pairs of colons, one of them in front. -/
def worldText : String :=
  "delegate void ::Zmey::Tick(int time); interface Zmey::World \x7b int f(); \x7d"

def worldFile : SourceFile where
  headers := []
  delegates := [
    { result := .void, name := "::Zmey::Tick", params := [⟨.primitive .int, "time", 0⟩] }]
  interfaces := [
    { name := "Zmey::World"
      members := [.method {
        result := .primitive .int, name := "f", params := [], nameAsIs := false }] }]

/-- The flat names `ZmeyTick` and `ZmeyWorld` are identifiers. -/
theorem flatLaw_worldText :
    SourceFile.ofText worldText = .ok worldFile ∧
      (∀ i ∈ worldFile.interfaces, FlatLaw i.name (.prototype i.flatName :: i.symbols)) ∧
      (∀ d ∈ worldFile.delegates, FlatLaw d.name d.symbols) ∧
      worldFile.interfaces.map Interface.flatName = ["ZmeyWorld"] ∧
      worldFile.delegates.map Delegate.flatName = ["ZmeyTick"] := by
  have hread : SourceFile.ofText worldText = .ok worldFile := by decide +kernel
  obtain ⟨hinterfaces, hdelegates⟩ := SourceFile.flatLaw_of_ofText hread
  exact ⟨hread, hinterfaces, hdelegates, by decide, by decide⟩

/-- A name with a single colon. -/
def strayText : String := "interface A:B \x7b\x7d"

/-- A name with nothing but a pair of colons. -/
def colonsText : String := "interface :: \x7b\x7d"

/-- The flat name of an accepted interface need not be an identifier: it may keep a colon, and then
no symbol of the interface is one, and it may be empty. -/
theorem not_identifier_flatName :
    (∃ file, SourceFile.ofText strayText = .ok file ∧ ∃ i ∈ file.interfaces,
      ¬Identifier i.flatName ∧ (Symbol.prototype i.flatName).spelling = "JsA:BPrototype") ∧
    ∃ file, SourceFile.ofText colonsText = .ok file ∧ ∃ i ∈ file.interfaces, i.flatName = "" := by
  have hstray : SourceFile.ofText strayText = .ok ⟨[], [], [⟨"A:B", []⟩]⟩ := by decide +kernel
  have hcolons : SourceFile.ofText colonsText = .ok ⟨[], [], [⟨"::", []⟩]⟩ := by decide +kernel
  refine ⟨⟨_, hstray, _, List.mem_singleton_self _, ?_, by decide⟩,
    ⟨_, hcolons, _, List.mem_singleton_self _, by decide⟩⟩
  decide +kernel

end IdlGlue
