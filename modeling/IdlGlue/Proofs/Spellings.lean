/-
# IdlGlue.Proofs.Spellings -- when two symbols have one spelling

A spelling is a lead that goes by the kind of the symbol, the flat name, and a role: the name of a
member, a word that goes by the kind, or both.

| symbol                   | lead | role                                 |
|--------------------------|------|--------------------------------------|
| prototype, constructor   | Js   | Prototype, Constructor               |
| method                   | Js   | the member                           |
| getter, setter           | Js   | the member, then Getter, Setter      |
| registration             | Js   | DefineProperties                     |
| projector, tables        |      | Projector, MemberNames, MemberFuncs  |
| callback                 |      | Callback                             |
| cast of a callback       | As   |                                      |

Nothing marks where one part ends and the next begins. Two symbols may thus have one spelling, and
`Clash` tells the ways in which they can:

| clash    | a symbol                     | another with the same spelling   | spelling       |
|----------|------------------------------|----------------------------------|----------------|
| named    | method `Prototype` of `A`    | prototype of `A`                 | JsAPrototype   |
| extended | method `Bc` of `A`           | method `c` of `AB`               | JsABc          |
| led      | cast of delegate `BCallback` | callback of delegate `AsB`       | AsBCallback    |

There are no others (`spelling_eq_iff`). What rules them out is that no two of the nine words end
alike, so the end of a spelling tells its word, and that no word begins with a lead.
-/
import IdlGlue.Native.Symbol
import Mathlib.Data.List.Basic

namespace IdlGlue.Native

/-- Two ways to cut one text: one of the cuts comes first. -/
theorem append_eq_append_iff {a b c d : String} :
    a ++ b = c ++ d ↔ (∃ r, c = a ++ r ∧ b = r ++ d) ∨ ∃ r, a = c ++ r ∧ d = r ++ b := by
  constructor
  · intro h
    have hchars : a.toList ++ b.toList = c.toList ++ d.toList := by
      rw [← String.toList_append, h, String.toList_append]
    rcases List.append_eq_append_iff.mp hchars with ⟨r, hc, hb⟩ | ⟨r, ha, hd⟩
    · refine Or.inl ⟨String.ofList r, ?_, ?_⟩
      · rw [← String.toList_inj, String.toList_append, String.toList_ofList, hc]
      · rw [← String.toList_inj, String.toList_append, String.toList_ofList, hb]
    · refine Or.inr ⟨String.ofList r, ?_, ?_⟩
      · rw [← String.toList_inj, String.toList_append, String.toList_ofList, ha]
      · rw [← String.toList_inj, String.toList_append, String.toList_ofList, hd]
  · rintro (⟨r, rfl, rfl⟩ | ⟨r, rfl, rfl⟩)
    · rw [String.append_assoc]
    · rw [String.append_assoc]

namespace Symbol

/-! ## The parts of a spelling -/

/-- What stands before the flat name. -/
def lead : Symbol → String
  | .prototype _ | .constructor _ | .method _ _ | .getter _ _ | .setter _ _
  | .registration _ => "Js"
  | .projector _ | .memberNames _ | .memberFunctions _ | .callback _ => ""
  | .callbackCast _ => "As"

/-- The flat name of the interface or delegate. -/
def flat : Symbol → String
  | .prototype flat | .constructor flat | .method flat _ | .getter flat _ | .setter flat _
  | .registration flat | .projector flat | .memberNames flat | .memberFunctions flat
  | .callback flat | .callbackCast flat => flat

/-- The name of the member, if the symbol has one. -/
def member : Symbol → String
  | .method _ name | .getter _ name | .setter _ name => name
  | .prototype _ | .constructor _ | .registration _ | .projector _ | .memberNames _
  | .memberFunctions _ | .callback _ | .callbackCast _ => ""

/-- The word at the end of the spelling, if it has one. -/
def word : Symbol → String
  | .prototype _ => "Prototype"
  | .constructor _ => "Constructor"
  | .getter _ _ => "Getter"
  | .setter _ _ => "Setter"
  | .registration _ => "DefineProperties"
  | .projector _ => "Projector"
  | .memberNames _ => "MemberNames"
  | .memberFunctions _ => "MemberFuncs"
  | .callback _ => "Callback"
  | .method _ _ | .callbackCast _ => ""

/-- What stands behind the flat name. -/
def role (s : Symbol) : String := s.member ++ s.word

theorem spelling_eq (s : Symbol) : s.spelling = s.lead ++ (s.flat ++ s.role) := by
  cases s with
  | method flat name =>
      show "Js" ++ flat ++ name = "Js" ++ (flat ++ (name ++ ""))
      rw [String.append_empty, String.append_assoc]
  | getter flat name =>
      show "Js" ++ flat ++ name ++ "Getter" = "Js" ++ (flat ++ (name ++ "Getter"))
      simp only [String.append_assoc]
  | setter flat name =>
      show "Js" ++ flat ++ name ++ "Setter" = "Js" ++ (flat ++ (name ++ "Setter"))
      simp only [String.append_assoc]
  | callbackCast flat =>
      show "As" ++ flat = "As" ++ (flat ++ ("" ++ ""))
      simp only [String.append_empty]
  | prototype | constructor | registration =>
      simp only [spelling, lead, flat, role, member, word, String.append_assoc, String.empty_append]
  | projector | memberNames | memberFunctions | callback =>
      simp only [spelling, lead, flat, role, member, word, String.empty_append]

/-- Without a word there are methods and casts. -/
theorem eq_of_word_eq_empty {s : Symbol} (h : s.word = "") :
    s = .method s.flat s.role ∨ s = .callbackCast s.flat := by
  cases s with
  | method flat name =>
      apply Or.inl
      show Symbol.method flat name = .method flat (name ++ "")
      rw [String.append_empty]
  | callbackCast flat => exact Or.inr rfl
  | _ => simp [word] at h

/-- What the lead tells of the role. -/
theorem lead_cases (s : Symbol) :
    s.lead = "Js" ∨ (s.lead = "" ∧ s.member = "" ∧ s.word ≠ "") ∨
      (s.lead = "As" ∧ s.role = "") := by
  cases s <;> simp [lead, word, role, member]

theorem lead_of_ne_empty {s : Symbol} (h : s.lead ≠ "") : s.lead = "Js" ∨ s.lead = "As" := by
  rcases s.lead_cases with hjs | ⟨hnone, _⟩ | ⟨has, _⟩
  · exact Or.inl hjs
  · exact absurd hnone h
  · exact Or.inr has

theorem eq_of_lead_eq_as {s : Symbol} (h : s.lead = "As") : s = .callbackCast s.flat := by
  cases s with
  | callbackCast flat => rfl
  | _ => simp [lead] at h

/-! ## Words -/

/-- The words at the end of spellings. -/
def words : List String :=
  ["Prototype", "Constructor", "Getter", "Setter", "DefineProperties", "Projector", "MemberNames",
    "MemberFuncs", "Callback"]

theorem word_mem_words {s : Symbol} (h : s.word ≠ "") : s.word ∈ words := by
  cases s with
  | method | callbackCast => exact absurd rfl h
  | _ => simp [word, words]

/-- The last six characters, from the last. The shortest word has six. -/
def ending (w : String) : List Char := w.toList.reverse.take 6

theorem ending_append (x : String) {w : String} (h : w ∈ words) : ending (x ++ w) = ending w := by
  have hlength : ∀ w ∈ words, 6 ≤ w.toList.reverse.length := by decide
  rw [ending, String.toList_append, List.reverse_append,
    List.take_append_of_le_length (hlength w h)]
  rfl

theorem eq_of_ending_eq : ∀ w ∈ words, ∀ w' ∈ words, ending w = ending w' → w = w' := by decide

/-- The end of a text tells which of the words it ends in. -/
theorem word_eq_of_append {s t : Symbol} {x y : String} (hs : s.word ≠ "") (ht : t.word ≠ "")
    (h : x ++ s.word = y ++ t.word) : s.word = t.word := by
  apply eq_of_ending_eq _ (word_mem_words hs) _ (word_mem_words ht)
  rw [← ending_append x (word_mem_words hs), h, ending_append y (word_mem_words ht)]

/-- A word belongs to one kind of symbol. -/
theorem eq_of_word_eq {s t : Symbol} (hs : s.word ≠ "") (hword : s.word = t.word)
    (hflat : s.flat = t.flat) (hmember : s.member = t.member) : s = t := by
  cases s <;> cases t <;> simp_all [word, flat, member]

/-! ## Clashes -/

/-- The two symbols have one spelling, though they are not the same. -/
inductive Clash : Symbol → Symbol → Prop
  /-- A method has for name what stands behind the flat name in another symbol of its class. -/
  | named (t : Symbol) : t.lead = "Js" → t ≠ .method t.flat t.role →
      Clash (.method t.flat t.role) t
  /-- A flat name goes on as another flat name and the role behind it do together. -/
  | extended {s t : Symbol} (rest : String) : s.lead = "Js" → t.lead = "Js" → rest ≠ "" →
      t.flat = s.flat ++ rest → s.role = rest ++ t.role → Clash s t
  /-- A flat name begins with the lead of the other symbol, and has no lead itself. -/
  | led {s t : Symbol} (rest : String) : s.lead ≠ "" → t.lead = "" → t.flat = s.lead ++ rest →
      s.flat ++ s.role = rest ++ t.role → Clash s t

theorem Clash.spelling_eq {s t : Symbol} (h : s.Clash t) : s.spelling = t.spelling := by
  rw [s.spelling_eq, t.spelling_eq]
  cases h with
  | named t hlead hne =>
      show "Js" ++ (t.flat ++ (t.role ++ "")) = t.lead ++ (t.flat ++ t.role)
      rw [hlead, String.append_empty]
  | extended rest hs ht _ hflat hrole =>
      rw [hs, ht, hflat, hrole, String.append_assoc]
  | led rest _ ht hflat hrole =>
      rw [ht, hflat, hrole, String.empty_append, String.append_assoc]

/-- No symbol clashes with itself. -/
theorem Clash.ne {s t : Symbol} (h : s.Clash t) : s ≠ t := by
  intro heq
  cases h with
  | named t _ hne => exact hne heq.symm
  | extended rest _ _ hrest hflat _ =>
      have hself : t.flat ++ "" = t.flat ++ rest := by rw [String.append_empty, ← heq, ← hflat, heq]
      exact hrest ((String.append_right_inj t.flat).mp hself).symm
  | led rest hs ht _ _ =>
      rw [heq] at hs
      exact hs ht

/-- A symbol without a word that agrees with another in all parts is the same, or it is a method
that has for name what stands behind the flat name in the other. -/
theorem eq_or_clash_of_wordless {s t : Symbol} (hword : s.word = "") (hlead : s.lead = t.lead)
    (hflat : s.flat = t.flat) (hrole : s.role = t.role) : s = t ∨ s.Clash t := by
  rcases eq_of_word_eq_empty hword with hs | hs
  · have hmethod : s = .method t.flat t.role := by rw [← hflat, ← hrole]; exact hs
    by_cases heq : s = t
    · exact Or.inl heq
    · apply Or.inr
      rw [hmethod]
      apply Clash.named
      · rw [← hlead, hmethod]
        rfl
      · intro ht
        exact heq (hmethod.trans ht.symm)
  · have ht : t.lead = "As" := by
      rw [← hlead, hs]
      rfl
    apply Or.inl
    rw [hs, eq_of_lead_eq_as ht, hflat]

theorem eq_or_clash_of_parts {s t : Symbol} (hlead : s.lead = t.lead) (hflat : s.flat = t.flat)
    (hrole : s.role = t.role) : s = t ∨ s.Clash t ∨ t.Clash s := by
  by_cases hs : s.word = ""
  · rcases eq_or_clash_of_wordless hs hlead hflat hrole with heq | hclash
    · exact Or.inl heq
    · exact Or.inr (Or.inl hclash)
  by_cases ht : t.word = ""
  · rcases eq_or_clash_of_wordless ht hlead.symm hflat.symm hrole.symm with heq | hclash
    · exact Or.inl heq.symm
    · exact Or.inr (Or.inr hclash)
  · have hword : s.word = t.word := word_eq_of_append hs ht hrole
    have hmember : s.member = t.member := by
      rw [role, role, hword, String.append_left_inj] at hrole
      exact hrole
    exact Or.inl (eq_of_word_eq hs hword hflat hmember)

/-- One lead, and flat names of which one goes on as the other and a rest. -/
theorem eq_or_clash_of_rest {s t : Symbol} (hlead : s.lead = t.lead) {rest : String}
    (hflat : t.flat = s.flat ++ rest) (hrole : s.role = rest ++ t.role) :
    s = t ∨ s.Clash t ∨ t.Clash s := by
  by_cases hrest : rest = ""
  · rw [hrest, String.append_empty] at hflat
    rw [hrest, String.empty_append] at hrole
    exact eq_or_clash_of_parts hlead hflat.symm hrole
  rcases s.lead_cases with hs | ⟨hs, hmember, hword⟩ | ⟨_, hs⟩
  · exact Or.inr (Or.inl (.extended rest hs (hlead ▸ hs) hrest hflat hrole))
  · -- a word cannot begin in the flat name of another
    have hword' : t.word ≠ "" := by
      rcases t.lead_cases with ht | ⟨_, _, ht⟩ | ⟨ht, _⟩
      · simp [← hlead, hs] at ht
      · exact ht
      · simp [← hlead, hs] at ht
    rw [role, role, ← String.append_assoc] at hrole
    rw [word_eq_of_append hword hword' hrole, String.append_left_inj, hmember] at hrole
    exact absurd (String.append_eq_empty_iff.mp hrole.symm).1 hrest
  · rw [hs] at hrole
    exact absurd (String.append_eq_empty_iff.mp hrole.symm).1 hrest

theorem lead_chars (s : Symbol) : ∀ c ∈ s.lead.toList, c = 'J' ∨ c = 's' ∨ c = 'A' := by
  cases s <;> simp [lead]

/-- No word begins with a character of a lead. -/
theorem role_head {t : Symbol} (ht : t.lead = "") :
    ∀ c ∈ t.role.toList.head?, c ≠ 'J' ∧ c ≠ 's' ∧ c ≠ 'A' := by
  cases t with
  | projector | memberNames | memberFunctions | callback => simp [role, member, word]
  | _ => simp [lead] at ht

theorem js_append_ne_as_append (x y : String) : "Js" ++ x ≠ "As" ++ y := by
  rw [ne_eq, ← String.toList_inj, String.toList_append, String.toList_append]
  simp

/-- A lead against none: no word begins with a character of a lead, so the flat name does. -/
theorem clash_of_lead {s t : Symbol} (hs : s.lead ≠ "") (ht : t.lead = "")
    (h : s.spelling = t.spelling) : s.Clash t := by
  rw [s.spelling_eq, t.spelling_eq, ht, String.empty_append] at h
  rcases append_eq_append_iff.mp h with ⟨rest, hflat, hrole⟩ | ⟨rest, hlead, hrole⟩
  · exact .led rest hs ht hflat hrole
  · cases hchars : rest.toList with
    | nil =>
        rw [String.toList_eq_nil_iff.mp hchars] at hlead hrole
        refine .led "" hs ht ?_ hrole.symm
        rw [hlead, String.append_empty, String.append_empty]
    | cons c cs =>
        have hin : c ∈ s.lead.toList := by
          rw [hlead, String.toList_append, hchars]
          simp
        have hfirst : t.role.toList.head? = some c := by
          rw [hrole, String.toList_append, hchars]
          rfl
        obtain ⟨hJ, hs', hA⟩ := role_head ht c hfirst
        rcases lead_chars s c hin with h | h | h
        · exact absurd h hJ
        · exact absurd h hs'
        · exact absurd h hA

/-- Leads differ in their first character. -/
theorem lead_eq_of_spelling_eq {s t : Symbol} (hs : s.lead ≠ "") (ht : t.lead ≠ "")
    (h : s.spelling = t.spelling) : s.lead = t.lead := by
  rw [s.spelling_eq, t.spelling_eq] at h
  rcases lead_of_ne_empty hs with hs | hs
  · rcases lead_of_ne_empty ht with ht | ht
    · rw [hs, ht]
    · rw [hs, ht] at h
      exact absurd h (js_append_ne_as_append _ _)
  · rcases lead_of_ne_empty ht with ht | ht
    · rw [hs, ht] at h
      exact absurd h.symm (js_append_ne_as_append _ _)
    · rw [hs, ht]

/-- **Two symbols have one spelling just if they are the same or clash.** -/
theorem spelling_eq_iff {s t : Symbol} :
    s.spelling = t.spelling ↔ s = t ∨ s.Clash t ∨ t.Clash s := by
  constructor
  · intro h
    by_cases hlead : s.lead = t.lead
    · rw [s.spelling_eq, t.spelling_eq, hlead, String.append_right_inj] at h
      rcases append_eq_append_iff.mp h with ⟨rest, hflat, hrole⟩ | ⟨rest, hflat, hrole⟩
      · exact eq_or_clash_of_rest hlead hflat hrole
      · rcases eq_or_clash_of_rest hlead.symm hflat hrole with heq | hclash | hclash
        · exact Or.inl heq.symm
        · exact Or.inr (Or.inr hclash)
        · exact Or.inr (Or.inl hclash)
    by_cases ht : t.lead = ""
    · exact Or.inr (Or.inl (clash_of_lead (ht ▸ hlead) ht h))
    by_cases hs : s.lead = ""
    · exact Or.inr (Or.inr (clash_of_lead ht hs h.symm))
    · exact absurd (lead_eq_of_spelling_eq hs ht h) hlead
  · rintro (rfl | h | h)
    · rfl
    · exact h.spelling_eq
    · exact h.spelling_eq.symm

end Symbol

end IdlGlue.Native
