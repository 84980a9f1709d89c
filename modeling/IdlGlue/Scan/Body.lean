/-
# IdlGlue.Scan.Body -- the body of an interface block

The body of a block reaches to the first closing brace outside comments. Comments are
passed over as a whole as long as a closing brace is left behind them. Where none is
left, the text has no other way to close the block than with a brace inside that last
comment, and then

* a line comment that holds a brace ends the block at its last one, and
* a block comment counts as plain characters.

So a text that holds a closing brace anywhere always has a body, and a text that
holds none never has.
-/
import IdlGlue.Scan.Gap

namespace IdlGlue.Scan

open IdlGlue.Text

/-- The text before the last closing brace, and the text behind it. -/
def splitLastBrace? : List Char → Option (List Char × List Char)
  | [] => none
  | c :: cs =>
    match splitLastBrace? cs with
    | some (before, rest) => some (c :: before, rest)
    | none => if c = '}' then some ([], cs) else none

/-- The body of a block, read from behind its opening brace, and the text behind its
closing brace. -/
def body? (cs : List Char) : Option (List Char × List Char) :=
  match cs with
  | [] => none
  | c :: tail =>
    if c = '}' then some ([], tail)
    else
      match _h : afterComment? (c :: tail) with
      | none => (body? tail).map fun m => (c :: m.1, m.2)
      | some rest =>
        if '}' ∈ rest then
          (body? rest).map fun m => (consumed (c :: tail) rest ++ m.1, m.2)
        else if (afterLineComment? (c :: tail)).isSome then
          splitLastBrace? (c :: tail)
        else
          (body? tail).map fun m => (c :: m.1, m.2)
termination_by cs.length
decreasing_by
  · simp
  · exact (afterComment?_length_lt _h).2
  · simp

theorem splitLastBrace?_append {cs before rest : List Char}
    (h : splitLastBrace? cs = some (before, rest)) : cs = before ++ '}' :: rest := by
  induction cs generalizing before with
  | nil => simp [splitLastBrace?] at h
  | cons c cs ih =>
      simp only [splitLastBrace?] at h
      split at h
      · next b r hs => cases h; rw [ih hs]; rfl
      · split at h
        · next hc => cases h; rw [hc]; rfl
        · cases h

theorem body?_append {cs before rest : List Char} (h : body? cs = some (before, rest)) :
    cs = before ++ '}' :: rest := by
  fun_induction body? cs generalizing before with
  | case1 => cases h
  | case2 tail => cases h; rfl
  | case3 c tail _ _ ih =>
      obtain ⟨m, hm, hp⟩ := Option.map_eq_some_iff.mp h
      cases hp
      rw [ih hm]
      rfl
  | case4 c tail _ rest' hcomment _ ih =>
      obtain ⟨m, hm, hp⟩ := Option.map_eq_some_iff.mp h
      cases hp
      rw [List.append_assoc, ← ih hm, consumed_append (afterComment?_length_lt hcomment).1]
  | case5 c tail => exact splitLastBrace?_append h
  | case6 c tail _ _ _ _ _ ih =>
      obtain ⟨m, hm, hp⟩ := Option.map_eq_some_iff.mp h
      cases hp
      rw [ih hm]
      rfl

theorem body?_suffix {cs before rest : List Char} (h : body? cs = some (before, rest)) :
    rest <:+ cs :=
  ⟨before ++ ['}'], by rw [body?_append h]; simp⟩

end IdlGlue.Scan
