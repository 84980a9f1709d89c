/-
# IdlGlue.Proofs.Spread -- statements spread over a text

    part := white space | block comment | line comment newline | statement

`Spread R E cs as` says that the text `cs` is parts one after the other, of which the
statements are `as`, and then a rest in `E`. It is the same as a tiling with gaps
(`spread_iff_tiled`), cut finer: every part is a piece of text of its own, and this is why
a text can be changed between two parts.

`Place R post pre` says that a position of the text `pre ++ post` lies between two parts,
reached from the start by passing whole parts. What stands behind a place can be replaced
by anything that declares the same (`Place.replace`), and one spread text can be put behind
another (`Spread.append`).

A line comment counts as one part with its newline. A position behind `//` and before the
newline is inside the comment, be it the last one on that line.
-/
import IdlGlue.Proofs.Tiled

namespace IdlGlue.Scan

open IdlGlue.Text

/-! ## Parts of gaps -/

/-- A comment that ends by itself, whatever stands behind it: a block comment, or a line
comment with its newline. -/
inductive WholeComment : List Char → Prop
  | line {x : List Char} : '\n' ∉ x → WholeComment ('/' :: '/' :: (x ++ ['\n']))
  | block {x : List Char} : ¬ ['*', '/'] <:+: x → WholeComment ('/' :: '*' :: (x ++ ['*', '/']))

/-- What may stand at the end of a file: nothing, or a line comment without a newline. -/
inductive FileEnd : List Char → Prop
  | empty : FileEnd []
  | line {x : List Char} : '\n' ∉ x → FileEnd ('/' :: '/' :: x)

theorem isBlank_newline : isBlank '\n' = true := by decide

variable {w w' cs cs' : List Char}

/-- A whole comment is a gap to what stands behind it. -/
theorem WholeComment.gap (h : WholeComment w) (cs : List Char) : Gap (w ++ cs) cs := by
  cases h with
  | @line x hx =>
      have hcomment : Comment ('/' :: '/' :: (x ++ '\n' :: cs)) ('\n' :: cs) := .line hx (by simp)
      simpa using Gap.comment hcomment (.blank isBlank_newline (.none cs))
  | @block x hx =>
      have hcomment : Comment ('/' :: '*' :: (x ++ '*' :: '/' :: cs)) cs := .block hx
      simpa using Gap.comment hcomment (.none cs)

theorem WholeComment.head (h : WholeComment w) : ∃ tail, w = '/' :: tail := by
  cases h with
  | line => exact ⟨_, rfl⟩
  | block => exact ⟨_, rfl⟩

theorem FileEnd.head (h : FileEnd cs) : cs = [] ∨ ∃ tail, cs = '/' :: tail := by
  cases h with
  | empty => exact Or.inl rfl
  | line => exact Or.inr ⟨_, rfl⟩

theorem Comment.functional {rest rest' : List Char} (h : Comment cs rest)
    (h' : Comment cs rest') : rest = rest' := by
  have heq := afterComment?_eq_some_iff.mpr h
  rw [afterComment?_eq_some_iff.mpr h'] at heq
  exact (Option.some.inj heq).symm

/-- A text begins with one whole comment at most. -/
theorem WholeComment.append_inj (h : WholeComment w) (h' : WholeComment w')
    (heq : w ++ cs = w' ++ cs') : cs = cs' := by
  cases h with
  | @line x hx =>
      cases h' with
      | @line y hy =>
          have hcs : Comment ('/' :: '/' :: (x ++ '\n' :: cs)) ('\n' :: cs) := .line hx (by simp)
          have hcs' : Comment ('/' :: '/' :: (y ++ '\n' :: cs')) ('\n' :: cs') :=
            .line hy (by simp)
          have htext : '/' :: '/' :: (x ++ '\n' :: cs) = '/' :: '/' :: (y ++ '\n' :: cs') := by
            simpa using heq
          rw [htext] at hcs
          exact (List.cons.inj (hcs.functional hcs')).2
      | block => simp at heq
  | @block x hx =>
      cases h' with
      | line => simp at heq
      | @block y hy =>
          have hcs : Comment ('/' :: '*' :: (x ++ '*' :: '/' :: cs)) cs := .block hx
          have hcs' : Comment ('/' :: '*' :: (y ++ '*' :: '/' :: cs')) cs' := .block hy
          have htext : '/' :: '*' :: (x ++ '*' :: '/' :: cs) =
              '/' :: '*' :: (y ++ '*' :: '/' :: cs') := by
            simpa using heq
          rw [htext] at hcs
          exact hcs.functional hcs'

/-- No end of a file begins with a whole comment. -/
theorem WholeComment.not_fileEnd (h : WholeComment w) : ¬ FileEnd (w ++ cs) := by
  cases h with
  | @line x hx =>
      intro hend
      generalize hcs : '/' :: '/' :: (x ++ ['\n']) ++ cs = text at hend
      cases hend with
      | empty => simp at hcs
      | line hy =>
          simp only [List.cons_append, List.cons.injEq, true_and] at hcs
          exact hy (by simp [← hcs])
  | @block x hx =>
      intro hend
      generalize hcs : '/' :: '*' :: (x ++ ['*', '/']) ++ cs = text at hend
      cases hend with
      | empty => simp at hcs
      | line hy => simp at hcs

/-! ## Spread statements -/

section Spread

variable {α : Type} {R S : List Char → α → List Char → Prop} {E : List Char → Prop}

/-- The text is white space, whole comments and the statements `as`, in any number and
order, and a rest in `E`. -/
inductive Spread (R : List Char → α → List Char → Prop) (E : List Char → Prop) :
    List Char → List α → Prop
  | last {cs : List Char} : E cs → Spread R E cs []
  | blank {c : Char} {cs : List Char} {as : List α} :
      isBlank c = true → Spread R E cs as → Spread R E (c :: cs) as
  | comment {w cs : List Char} {as : List α} :
      WholeComment w → Spread R E cs as → Spread R E (w ++ cs) as
  | item {cs behind : List Char} {a : α} {as : List α} :
      R cs a behind → Spread R E behind as → Spread R E cs (a :: as)

/-- The text begins with a character that begins no part of a gap, and is no semicolon. -/
def ItemStart (cs : List Char) : Prop :=
  ∃ c tail, cs = c :: tail ∧ isBlank c = false ∧ c ≠ '/' ∧ c ≠ ';'

/-- Every statement begins with such a character. -/
def Starts (R : List Char → α → List Char → Prop) : Prop :=
  ∀ ⦃cs a rest⦄, R cs a rest → ItemStart cs

/-- Behind white space there is no semicolon. -/
def NoSemicolon (cs : List Char) : Prop := (afterBlanks cs).head? ≠ some ';'

theorem ItemStart.settled (h : ItemStart cs) : Settled cs := by
  obtain ⟨c, tail, rfl, hblank, hslash, _⟩ := h
  intro d hd
  cases hd
  exact ⟨hblank, hslash⟩

theorem Starts.settled (hR : Starts R) {cs rest : List Char} {a : α} (h : R cs a rest) :
    Settled cs :=
  (hR h).settled

theorem noSemicolon_of_cons {c : Char} (hblank : isBlank c = false) (hc : c ≠ ';')
    (cs : List Char) : NoSemicolon (c :: cs) := by
  rw [NoSemicolon, afterBlanks_of_stopsAt (stopsAt_cons.mpr hblank)]
  simpa using hc

theorem noSemicolon_of_blank {c : Char} (hc : isBlank c = true) (h : NoSemicolon cs) :
    NoSemicolon (c :: cs) := by
  have hskip : afterBlanks (c :: cs) = afterBlanks cs := by simp [afterBlanks, hc]
  rw [NoSemicolon, hskip]
  exact h

/-- Nor is there one behind a gap, before a statement. -/
theorem Gap.noSemicolon {first : List Char} (h : Gap cs first) (hfirst : ItemStart first) :
    NoSemicolon cs := by
  induction h with
  | none =>
      obtain ⟨c, tail, rfl, hblank, _, hsemicolon⟩ := hfirst
      exact noSemicolon_of_cons hblank hsemicolon tail
  | blank hc _ ih => exact noSemicolon_of_blank hc (ih hfirst)
  | comment hcomment _ _ =>
      obtain ⟨tail, rfl⟩ := hcomment.head
      exact noSemicolon_of_cons (by decide) (by decide) tail

theorem Spread.mono {E' : List Char → Prop} (hRS : ∀ {cs a rest}, R cs a rest → S cs a rest)
    (hE : ∀ cs, E cs → E' cs) {as : List α} (h : Spread R E cs as) : Spread S E' cs as := by
  induction h with
  | last hend => exact .last (hE _ hend)
  | blank hc _ ih => exact .blank hc ih
  | comment hw _ ih => exact .comment hw ih
  | item hread _ ih => exact .item (hRS hread) ih

/-- No statement is read from nothing. -/
theorem Spread.eq_nil (hR : Starts R) {as : List α} (h : Spread R E [] as) : as = [] := by
  cases as with
  | nil => rfl
  | cons a as =>
      generalize htext : ([] : List Char) = text at h
      cases h with
      | blank _ _ => cases htext
      | comment hw _ =>
          obtain ⟨tail, rfl⟩ := hw.head
          cases htext
      | item hread _ =>
          obtain ⟨c, tail, rfl, _⟩ := hR hread
          cases htext

/-- Where the text does not begin with a part of a gap, it begins with a statement. -/
theorem Spread.first (hE : ∀ cs, E cs → FileEnd cs) {as : List α} (hstart : ItemStart cs)
    (h : Spread R E cs as) :
    ∃ a bs behind, as = a :: bs ∧ R cs a behind ∧ Spread R E behind bs := by
  obtain ⟨c, tail, rfl, hblank, hslash, _⟩ := hstart
  generalize htext : c :: tail = text at h
  cases h with
  | last hend =>
      subst htext
      rcases (hE _ hend).head with hnil | ⟨tail', htail⟩
      · cases hnil
      · cases htail
        exact absurd rfl hslash
  | blank hc _ =>
      cases htext
      rw [hc] at hblank
      cases hblank
  | comment hw _ =>
      obtain ⟨tail', rfl⟩ := hw.head
      cases htext
      exact absurd rfl hslash
  | item hfirst hrest => exact ⟨_, _, _, rfl, hfirst, hrest⟩

/-! ### Passing over the first part -/

section First

variable (hR : Starts R) (hE : ∀ cs, E cs → FileEnd cs)

include hR hE

/-- A spread text goes on behind each of its blanks. -/
theorem Spread.behind_blank {c : Char} {as : List α} (hc : isBlank c = true)
    (h : Spread R E (c :: cs) as) : Spread R E cs as := by
  generalize htext : c :: cs = text at h
  cases h with
  | last hend =>
      subst htext
      rcases (hE _ hend).head with hnil | ⟨tail, htail⟩
      · cases hnil
      · cases htail
        exact absurd hc (by decide)
  | blank _ hrest =>
      cases htext
      exact hrest
  | comment hw _ =>
      obtain ⟨tail, rfl⟩ := hw.head
      cases htext
      exact absurd hc (by decide)
  | item hread _ =>
      obtain ⟨d, tail, rfl, hd, _⟩ := hR hread
      cases htext
      rw [hc] at hd
      cases hd

/-- ... and behind each whole comment. -/
theorem Spread.behind_comment {as : List α} (hw : WholeComment w)
    (h : Spread R E (w ++ cs) as) : Spread R E cs as := by
  obtain ⟨start, hstart⟩ := hw.head
  generalize htext : w ++ cs = text at h
  cases h with
  | last hend =>
      subst htext
      exact absurd (hE _ hend) hw.not_fileEnd
  | blank hc _ =>
      rw [hstart] at htext
      cases htext
      exact absurd hc (by decide)
  | comment hw' hrest =>
      rw [hw.append_inj hw' htext]
      exact hrest
  | item hread _ =>
      obtain ⟨c, tail, rfl, _, hslash, _⟩ := hR hread
      rw [hstart] at htext
      cases htext
      exact absurd rfl hslash

theorem Spread.noSemicolon {as : List α} (h : Spread R E cs as) : NoSemicolon cs := by
  induction h with
  | last hend =>
      rcases (hE _ hend).head with rfl | ⟨tail, rfl⟩
      · exact fun hnil => nomatch hnil
      · exact noSemicolon_of_cons (by decide) (by decide) tail
  | blank hc _ ih => exact noSemicolon_of_blank hc ih
  | comment hw _ _ =>
      obtain ⟨tail, rfl⟩ := hw.head
      exact noSemicolon_of_cons (by decide) (by decide) _
  | item hread _ _ =>
      obtain ⟨c, tail, rfl, hblank, _, hsemicolon⟩ := hR hread
      exact noSemicolon_of_cons hblank hsemicolon tail

end First

/-! ### Spread texts are tiled texts -/

/-- What stands behind a gap can be read with the gap before it. -/
theorem Spread.of_gap (hR : Starts R) {rest : List Char} {as : List α} (hgap : Gap cs rest)
    (h : Spread R FileEnd rest as) : Spread R FileEnd cs as := by
  induction hgap with
  | none => exact h
  | blank hc _ ih => exact .blank hc (ih h)
  | @comment cs mid _ hcomment _ ih =>
      have hrest := ih h
      cases hcomment with
      | @line x _ hx hmid =>
          -- The newline, if there is one, goes to the comment.
          cases mid with
          | nil =>
              obtain rfl := hrest.eq_nil hR
              rw [List.append_nil]
              exact .last (.line hx)
          | cons c mid =>
              obtain rfl : c = '\n' := hmid c rfl
              have hbehind := hrest.behind_blank hR (fun _ => id) isBlank_newline
              have hwhole := Spread.comment (WholeComment.line hx) hbehind
              simpa using hwhole
      | @block x _ hx =>
          have hwhole := Spread.comment (WholeComment.block hx) hrest
          simpa using hwhole

/-- **Spread and tiled is the same**, also where the two read different pieces as a
statement, provided that each kind of statement can be taken for the other with what
stands behind. -/
theorem spread_iff_tiled (hS : Starts S)
    (hto : ∀ {cs a rest as}, R cs a rest → Spread S FileEnd rest as →
      Spread S FileEnd cs (a :: as))
    (hfrom : ∀ {cs a rest first}, S cs a rest → Gap rest first → Settled first →
      ∃ behind, R cs a behind ∧ Gap behind first)
    (hsettled : ∀ {cs a rest}, R cs a rest → Settled cs) {as : List α} :
    Spread S FileEnd cs as ↔ ∃ first, Gap cs first ∧ Tiled R first as [] := by
  constructor
  · intro h
    induction h with
    | last hend =>
        refine ⟨[], ?_, .nil []⟩
        cases hend with
        | empty => exact .none []
        | @line x hx =>
            have hcomment : Comment ('/' :: '/' :: (x ++ [])) [] := .line hx (by simp)
            simpa using Gap.comment hcomment (.none [])
    | blank hc _ ih =>
        obtain ⟨first, hgap, htiled⟩ := ih
        exact ⟨first, .blank hc hgap, htiled⟩
    | comment hw _ ih =>
        obtain ⟨first, hgap, htiled⟩ := ih
        exact ⟨first, (hw.gap _).trans hgap, htiled⟩
    | item hread _ ih =>
        obtain ⟨first, hgap, htiled⟩ := ih
        obtain ⟨behind, hread, hgap⟩ := hfrom hread hgap (htiled.start hsettled settled_nil)
        exact ⟨_, .none _, .cons hread hgap htiled⟩
  · rintro ⟨first, hgap, htiled⟩
    refine Spread.of_gap hS hgap ?_
    clear hgap
    generalize hnil : ([] : List Char) = last at htiled
    induction htiled with
    | nil cs =>
        subst hnil
        exact .last .empty
    | cons hread hgap _ ih => exact hto hread (.of_gap hS hgap (ih hnil))

/-! ### Places, and what may stand behind them -/

/-- What it takes to change a text behind a statement: two statements at one place end at one
place, and a statement stays what it is with anything else behind it, save that no
semicolon may come next. -/
structure Laid (R : List Char → α → List Char → Prop) : Prop where
  starts : Starts R
  ends : ∀ {cs a b rest rest'}, R cs a rest → R cs b rest' → rest = rest'
  stable : ∀ {cs a rest}, R cs a rest →
    ∃ p, cs = p ++ rest ∧ ∀ rest', NoSemicolon rest' → R (p ++ rest') a rest'

/-- The text `pre ++ post` can be cut before `post`: one comes there from the start over
white space, whole comments and whole statements. -/
inductive Place (R : List Char → α → List Char → Prop) (post : List Char) : List Char → Prop
  | here : Place R post []
  | blank {c : Char} {pre : List Char} : isBlank c = true → Place R post pre →
      Place R post (c :: pre)
  | comment {w pre : List Char} : WholeComment w → Place R post pre → Place R post (w ++ pre)
  | item {p pre : List Char} {a : α} : R (p ++ (pre ++ post)) a (pre ++ post) →
      Place R post pre → Place R post (p ++ pre)

/-- The last place of a text is where its end begins. -/
theorem Spread.exists_last_place (hR : Laid R) {as : List α} (h : Spread R E cs as) :
    ∃ pre post, cs = pre ++ post ∧ E post ∧ Place R post pre := by
  induction h with
  | last hend => exact ⟨[], _, rfl, hend, .here⟩
  | @blank c cs _ hc _ ih =>
      obtain ⟨pre, post, rfl, hend, hplace⟩ := ih
      exact ⟨c :: pre, post, rfl, hend, .blank hc hplace⟩
  | @comment w cs _ hw _ ih =>
      obtain ⟨pre, post, rfl, hend, hplace⟩ := ih
      exact ⟨w ++ pre, post, (List.append_assoc ..).symm, hend, .comment hw hplace⟩
  | item hread _ ih =>
      obtain ⟨pre, post, rfl, hend, hplace⟩ := ih
      obtain ⟨p, rfl, _⟩ := hR.stable hread
      exact ⟨p ++ pre, post, (List.append_assoc ..).symm, hend, .item hread hplace⟩

section Laid

variable {pre post post' : List Char} {as : List α} (hR : Laid R)
  (hE : ∀ cs, E cs → FileEnd cs)

include hR hE

/-- **What stands behind a place can be replaced by what declares the same.** -/
theorem Place.replace (hplace : Place R post pre) (h : Spread R E (pre ++ post) as)
    (hpost : ∀ {bs}, Spread R E post bs → Spread R E post' bs) :
    Spread R E (pre ++ post') as := by
  induction hplace generalizing as with
  | here => exact hpost h
  | blank hc _ ih => exact .blank hc (ih (h.behind_blank hR.starts hE hc))
  | comment hw _ ih =>
      rw [List.append_assoc] at h ⊢
      exact .comment hw (ih (h.behind_comment hR.starts hE hw))
  | @item p pre a hread _ ih =>
      rw [List.append_assoc] at h ⊢
      -- The same text is read as one statement only, so the place lies behind that.
      obtain ⟨b, bs, behind, rfl, hfirst, hrest⟩ := h.first hE (hR.starts hread)
      obtain rfl := hR.ends hfirst hread
      have hbehind := ih hrest
      obtain ⟨q, hq, hstable⟩ := hR.stable hfirst
      rw [List.append_cancel_right hq]
      exact .item (hstable _ (hbehind.noSemicolon hR.starts hE)) hbehind

/-- A whole comment can be put at any place. -/
theorem Place.insert (hplace : Place R post pre) (hw : WholeComment w)
    (h : Spread R E (pre ++ post) as) : Spread R E (pre ++ (w ++ post)) as :=
  hplace.replace hR hE h fun hrest => .comment hw hrest

end Laid

/-- **One text behind another.** A newline between the two ends a line comment that the first
may end in; nothing of the second is read as part of the first. -/
theorem Spread.append (hR : Laid R) (hS : Starts S) (hRS : ∀ {cs a rest}, R cs a rest → S cs a rest)
    {a b : List Char} {as bs : List α} (ha : Spread R FileEnd a as) (hb : Spread S FileEnd b bs) :
    Spread S FileEnd (a ++ '\n' :: b) (as ++ bs) := by
  induction ha with
  | last hend =>
      cases hend with
      | empty => exact .blank isBlank_newline hb
      | line hx =>
          have hwhole := Spread.comment (WholeComment.line hx) hb
          simpa using hwhole
  | blank hc _ ih => exact .blank hc ih
  | comment hw _ ih =>
      rw [List.append_assoc]
      exact .comment hw ih
  | item hread _ ih =>
      obtain ⟨p, rfl, hstable⟩ := hR.stable hread
      rw [List.append_assoc]
      exact .item (hRS (hstable _ (ih.noSemicolon hS fun _ => id))) ih

/-- **Whole parts before a statement are a tiling up to it**, also where a statement takes more of
the gap behind it in the tiling. -/
theorem Spread.tiled (hR : Laid R)
    (hto : ∀ {cs a rest first}, R cs a rest → Gap rest first → Settled first →
      ∃ behind, S cs a behind ∧ Gap behind first)
    {pre post : List Char} {as : List α} (h : Spread R (· = []) pre as) (hpost : ItemStart post) :
    ∃ first, Gap (pre ++ post) first ∧ ItemStart first ∧ Tiled S first as post := by
  induction h with
  | last hend =>
      subst hend
      exact ⟨post, .none post, hpost, .nil post⟩
  | blank hc _ ih =>
      obtain ⟨first, hgap, hfirst, htiled⟩ := ih
      exact ⟨first, .blank hc hgap, hfirst, htiled⟩
  | comment hw _ ih =>
      obtain ⟨first, hgap, hfirst, htiled⟩ := ih
      rw [List.append_assoc]
      exact ⟨first, (hw.gap _).trans hgap, hfirst, htiled⟩
  | item hread _ ih =>
      obtain ⟨first, hgap, hfirst, htiled⟩ := ih
      obtain ⟨p, rfl, hstable⟩ := hR.stable hread
      have hnext := hstable _ (hgap.noSemicolon hfirst)
      obtain ⟨behind, hnextTo, hgapTo⟩ := hto hnext hgap hfirst.settled
      rw [List.append_assoc]
      exact ⟨_, .none _, hR.starts hnext, .cons hnextTo hgapTo htiled⟩

end Spread

end IdlGlue.Scan
