/-
# IdlGlue.Text.Harmless -- a message that a terminal only shows

Some control characters make a terminal act: the escape character begins a command,
the bell rings, the backspace takes the cursor back. A message can quote the text of
a source and the name of any file, so it spells these characters out:

    07, 08, 0C, 1B, 7F    by two digits,     as in  \x1b
    80 to 9F              by their number,   as in  \u{9b}

All others stay as they are, line ends and tabs among them. No character of a
harmless text makes a terminal act (`acts_eq_false_of_mem_harmless`).
-/

namespace IdlGlue.Text

/-- A character by its number in lower case hexadecimal, between braces. -/
def byNumber (c : Char) : List Char :=
  ['\\', 'u', '\x7b'] ++ Nat.toDigits 16 c.toNat ++ ['\x7d']

/-- A character below 256 by the two hexadecimal digits of its number. -/
def byTwoDigits (c : Char) : List Char :=
  ['\\', 'x', Nat.digitChar (c.toNat / 16), Nat.digitChar (c.toNat % 16)]

/-- The characters below 128 that a terminal acts on. -/
def basicControls : List Char := ['\x07', '\x08', '\x0c', '\x1b', '\x7f']

/-- One of the controls from 128 on, on all of which a terminal may act. -/
def isHighControl (c : Char) : Bool := 0x80 ≤ c.toNat && c.toNat ≤ 0x9F

/-- A terminal acts on this character. -/
def acts (c : Char) : Bool := basicControls.contains c || isHighControl c

/-- One character of a message. -/
def harmlessChar (c : Char) : List Char :=
  if basicControls.contains c then byTwoDigits c
  else if isHighControl c then byNumber c
  else [c]

/-- The message with all characters spelled out that a terminal acts on. -/
def harmless (message : String) : String :=
  String.ofList (message.toList.flatMap harmlessChar)

theorem harmlessChar_of_not_acts {c : Char} (h : acts c = false) : harmlessChar c = [c] := by
  rw [acts, Bool.or_eq_false_iff] at h
  simp only [harmlessChar, h.1, h.2, Bool.false_eq_true, if_false]

/-- The controls that a terminal acts on are among the first 160 characters. -/
theorem toNat_lt_of_acts {c : Char} (h : acts c = true) : c.toNat < 0xA0 := by
  rw [acts, Bool.or_eq_true, List.contains_iff_mem] at h
  rcases h with h | h
  · have basic : basicControls.all (fun d => d.toNat.blt 0xA0) = true := by decide +kernel
    have := List.all_eq_true.mp basic c h
    rwa [Nat.blt_eq] at this
  · simp only [isHighControl, Bool.and_eq_true, decide_eq_true_eq] at h
    omega

/-- What stands for one of the first 160 characters leaves a terminal alone. -/
theorem harmlessChar_table :
    (List.range 0xA0).all (fun n =>
      (harmlessChar (Char.ofNat n)).all (fun d => !acts d)) = true := by
  decide +kernel

theorem acts_eq_false_of_mem_harmlessChar {c d : Char} (h : d ∈ harmlessChar c) :
    acts d = false := by
  cases hc : acts c with
  | false =>
    rw [harmlessChar_of_not_acts hc, List.mem_singleton] at h
    rwa [h]
  | true =>
    have spelled := List.all_eq_true.mp harmlessChar_table c.toNat
      (List.mem_range.mpr (toNat_lt_of_acts hc))
    rw [Char.ofNat_toNat] at spelled
    simpa using List.all_eq_true.mp spelled d h

theorem acts_eq_false_of_mem_harmless {message : String} {d : Char}
    (h : d ∈ (harmless message).toList) : acts d = false := by
  rw [harmless, String.toList_ofList, List.mem_flatMap] at h
  obtain ⟨c, -, hd⟩ := h
  exact acts_eq_false_of_mem_harmlessChar hd

end IdlGlue.Text
