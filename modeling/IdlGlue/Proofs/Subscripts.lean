/-
# IdlGlue.Proofs.Subscripts -- what the text of a function subscripts

The views on statements say which places of the argument array they read. Here the same is
read off the text: `subscripts` lists what stands behind each opening bracket, up to the next
closing one. Where no name in a function holds a bracket, the subscripts of its text are the
places that its statements read, in order (`subscripts_text`); a name cannot bring in an access
of its own.

Names without brackets are what all texts are read as, and what the generator makes of them:
flat names, capitals, and the expressions of the hashed registry.
-/
import IdlGlue.Proofs.Outcome
import IdlGlue.Proofs.Traversal
import Mathlib.Data.List.TakeWhile

namespace IdlGlue

open IdlGlue.Native

/-! ## Subscripts of a text -/

/-- What stands in brackets, from each opening bracket up to the next closing one. -/
def subscripts : List Char → List (List Char)
  | [] => []
  | c :: cs => if c = '[' then cs.takeWhile (· ≠ ']') :: subscripts cs else subscripts cs

/-- The numeral of a place. -/
def numeral (place : Nat) : List Char := (toString place).toList

/-- These places are subscripted in the text, whatever stands behind it. -/
def Subscripted (text : String) (places : List Nat) : Prop :=
  ∀ rest, subscripts (text.toList ++ rest) = places.map numeral ++ subscripts rest

/-- The character does not occur in the text. -/
def Lacks (c : Char) (text : String) : Prop := c ∉ text.toList

instance (c : Char) (text : String) : Decidable (Lacks c text) :=
  inferInstanceAs (Decidable (c ∉ text.toList))

@[simp] theorem lacks_append (c : Char) (s t : String) :
    Lacks c (s ++ t) ↔ Lacks c s ∧ Lacks c t := by
  simp only [Lacks, String.toList_append, List.mem_append, not_or]

@[simp] theorem lacks_ofList (c : Char) (cs : List Char) :
    Lacks c (String.ofList cs) ↔ c ∉ cs := by
  rw [Lacks, String.toList_ofList]

theorem subscripts_append {cs : List Char} (h : '[' ∉ cs) (rest : List Char) :
    subscripts (cs ++ rest) = subscripts rest := by
  induction cs with
  | nil => rfl
  | cons c cs ih =>
      obtain ⟨hc, hcs⟩ := not_or.mp (List.mem_cons.not.mp h)
      rw [List.cons_append, subscripts, if_neg (Ne.symm hc), ih hcs]

theorem Lacks.subscripted {text : String} (h : Lacks '[' text) : Subscripted text [] :=
  fun rest => subscripts_append h rest

theorem Subscripted.append {s t : String} {places places' : List Nat}
    (hs : Subscripted s places) (ht : Subscripted t places') :
    Subscripted (s ++ t) (places ++ places') := by
  intro rest
  rw [String.toList_append, List.append_assoc, hs, ht, List.map_append, List.append_assoc]

/-- Names around a text add nothing. -/
theorem Subscripted.between {before text after : String} {places : List Nat}
    (h : Subscripted text places) (hbefore : Lacks '[' before) (hafter : Lacks '[' after) :
    Subscripted (before ++ text ++ after) places := by
  have hall := (hbefore.subscripted.append h).append hafter.subscripted
  rwa [List.nil_append, List.append_nil] at hall

theorem Subscripted.subscripts_eq {text : String} {places : List Nat}
    (h : Subscripted text places) : subscripts text.toList = places.map numeral := by
  have hall := h []
  rwa [List.append_nil, subscripts, List.append_nil] at hall

/-! ## Operands and statements -/

theorem isDigit_of_mem_numeral {place : Nat} {c : Char} (hc : c ∈ numeral place) :
    c.isDigit = true := by
  rw [numeral, Nat.toString_eq_ofList_toDigits, String.toList_ofList] at hc
  exact Nat.isDigit_of_mem_toDigits (by decide) (by decide) hc

theorem subscripted_argument (place : Nat) :
    Subscripted (Operand.argument place).text [place] := by
  have hopen : '[' ∉ numeral place ++ [']'] := by
    rw [List.mem_append, not_or]
    exact ⟨fun h => absurd (isDigit_of_mem_numeral h) (by decide), by decide⟩
  intro rest
  have htext : (Operand.argument place).text.toList ++ rest =
      "arguments".toList ++ '[' :: (numeral place ++ [']'] ++ rest) := by
    show ("arguments[" ++ toString place ++ "]").toList ++ rest = _
    simp only [String.toList_append, List.append_assoc]
    rfl
  have hread : (numeral place ++ [']'] ++ rest).takeWhile (· ≠ ']') = numeral place := by
    rw [List.append_assoc, List.takeWhile_append_of_pos, List.singleton_append,
      List.takeWhile_cons_of_neg (by simp), List.append_nil]
    intro c hc
    rw [decide_eq_true_eq]
    rintro rfl
    exact absurd (isDigit_of_mem_numeral hc) (by decide)
  rw [htext, subscripts_append (by decide), subscripts, if_pos rfl, hread, subscripts_append hopen]
  rfl

namespace Native

/-- The character is in no name of the operand. -/
def Operand.Bare (c : Char) : Operand → Prop
  | .argument _ | .null => True
  | .value name | .address name | .pointerAddress name => Lacks c name
  | .cast type name => Lacks c type ∧ Lacks c name
  | .prototype source => Lacks c source.text

/-- The character is in no name of what native code is asked for. -/
def Access.Bare (c : Char) : Access → Prop
  | .call member operands => Lacks c member ∧ ∀ x ∈ operands, x.Bare c
  | .field member => Lacks c member
  | .other expression => Lacks c expression

/-- The character is in no name of the statement. -/
def Stmt.Bare (c : Char) : Stmt → Prop
  | .expectCall _ _ | .openOutput | .checkReceiver | .returnOutput => True
  | .declare decl => Lacks c decl.type ∧ Lacks c decl.name
  | .castReceiver type => Lacks c type
  | .invoke callee operands => Lacks c callee ∧ ∀ x ∈ operands, x.Bare c
  | .assign target callee operands =>
    Lacks c target ∧ Lacks c callee ∧ ∀ x ∈ operands, x.Bare c
  | .store target conversion source =>
    Lacks c target ∧ Lacks c (conversion.apply "") ∧ source.Bare c
  | .perform source => source.Bare c
  | .writeField member value => Lacks c member ∧ value.Bare c
  | .create type operands => Lacks c type ∧ ∀ x ∈ operands, x.Bare c

end Native

theorem subscripted_operand {x : Operand} (h : x.Bare '[') :
    Subscripted x.text (argumentIndices [x]) := by
  cases x with
  | argument place => exact subscripted_argument place
  | value name => exact Lacks.subscripted h
  | address name =>
      have hname : Lacks '[' name := h
      have htext : Lacks '[' ("&" ++ name) := by simp +decide only [lacks_append, hname]
      exact htext.subscripted
  | pointerAddress name =>
      have hname : Lacks '[' name := h
      have htext : Lacks '[' ("reinterpret_cast<void**>(&" ++ name ++ ")") := by
        simp +decide only [lacks_append, hname]
      exact htext.subscripted
  | cast type name =>
      have htext : Lacks '[' ("(" ++ type ++ ")" ++ name) := by
        simp +decide only [lacks_append, h.1, h.2]
      exact htext.subscripted
  | null => exact Lacks.subscripted (by decide)
  | prototype source => exact Lacks.subscripted h

theorem subscripted_operandList {xs : List Operand} (h : ∀ x ∈ xs, x.Bare '[') :
    Subscripted (operandList xs) (argumentIndices xs) := by
  induction xs with
  | nil => exact Lacks.subscripted (by decide)
  | cons x xs ih =>
      obtain ⟨hx, hxs⟩ := List.forall_mem_cons.mp h
      have hcons : argumentIndices (x :: xs) = argumentIndices [x] ++ argumentIndices xs :=
        List.filterMap_append (l := [x])
      rw [hcons]
      cases xs with
      | nil =>
          have htext : operandList [x] = x.text := String.intercalate_singleton
          have hnil : argumentIndices [] = [] := rfl
          rw [htext, hnil, List.append_nil]
          exact subscripted_operand hx
      | cons y ys =>
          have htext : operandList (x :: y :: ys) = x.text ++ ", " ++ operandList (y :: ys) :=
            String.intercalate_cons_cons
          have hcomma : Lacks '[' ", " := by decide
          rw [htext, ← List.append_nil (argumentIndices [x])]
          exact ((subscripted_operand hx).append hcomma.subscripted).append (ih hxs)

theorem subscripted_access {source : Access} (h : source.Bare '[') :
    Subscripted source.text (argumentIndices source.operands) := by
  cases source with
  | call member operands =>
      refine (subscripted_operandList h.2).between ?_ (by decide)
      simp +decide only [lacks_append, h.1]
  | field member =>
      have hmember : Lacks '[' member := h
      have htext : Lacks '[' (receiverName ++ "->" ++ member) := by
        simp +decide only [lacks_append, hmember]
      exact htext.subscripted
  | other expression => exact Lacks.subscripted h

theorem subscripted_conversion {c : Conversion} (hc : Lacks '[' (c.apply "")) {text : String}
    {places : List Nat} (h : Subscripted text places) : Subscripted (c.apply text) places := by
  cases c with
  | none => exact h
  | cast type =>
      have hbefore : Lacks '[' ("(" ++ type ++ ")") := ((lacks_append _ _ "").mp hc).1
      exact hbefore.subscripted.append h
  | address =>
      have hbefore : Lacks '[' "&" := by decide
      exact hbefore.subscripted.append h

theorem Subscripted.line {text : String} {places : List Nat} (h : Subscripted text places) :
    Subscripted (bodyLine text) places :=
  h.between (by decide) (by decide)

/-- **The text of a statement subscripts the places that the statement reads.** -/
theorem subscripted_stmt {s : Stmt} (h : s.Bare '[') : Subscripted s.text s.argumentsRead := by
  cases s with
  | expectCall construct count =>
      have hcount : Lacks '[' (toString count) := fun hmem =>
        absurd (isDigit_of_mem_numeral hmem) (by decide)
      have hnot : Lacks '[' (if construct then "" else "!") := by cases construct <;> decide
      have htext : Lacks '[' ("assert(" ++ (if construct then "" else "!") ++
          "isConstructCall && argumentCount == " ++ toString count ++ ");") := by
        simp +decide only [lacks_append, hcount, hnot]
      exact htext.subscripted.line
  | openOutput => exact Lacks.subscripted (by decide)
  | declare decl =>
      have htext : Lacks '[' (decl.type ++ " " ++ decl.name ++ ";") := by
        simp +decide only [lacks_append, h.1, h.2]
      exact htext.subscripted.line
  | checkReceiver =>
      have hopen : Lacks '[' "if (JsGetExternalData(" := by decide
      have hcomma : Lacks '[' ", &" := by decide
      have hobject : Lacks '[' objectName := by decide
      have hclose : Lacks '[' ") != JsNoError)" := by decide
      have hreturn : Lacks '[' (bodyLine "\x7b") ∧
          Lacks '[' (bodyLine ("\treturn " ++ outputName ++ ";")) ∧
          Lacks '[' (bodyLine "\x7d") := by decide
      have hcall := (((subscripted_argument 0).between hopen hcomma).append
        hobject.subscripted).append hclose.subscripted
      exact ((hcall.line.append hreturn.1.subscripted).append
        hreturn.2.1.subscripted).append hreturn.2.2.subscripted
  | castReceiver type =>
      have htype : Lacks '[' type := h
      have htext : Lacks '[' (type ++ "* " ++ receiverName ++ " = static_cast<" ++ type ++ "*>(" ++
          objectName ++ ");") := by
        simp +decide only [lacks_append, htype]
      exact htext.subscripted.line
  | invoke callee operands =>
      refine Subscripted.line ((subscripted_operandList h.2).between ?_ (by decide))
      simp +decide only [lacks_append, h.1]
  | assign target callee operands =>
      refine Subscripted.line ((subscripted_operandList h.2.2).between ?_ (by decide))
      simp +decide only [lacks_append, h.1, h.2.1]
  | store target conversion source =>
      refine Subscripted.line
        ((subscripted_conversion h.2.1 (subscripted_access h.2.2)).between ?_ (by decide))
      simp +decide only [lacks_append, h.1]
  | perform source =>
      have hsemicolon : Lacks '[' ";" := by decide
      have hall := (subscripted_access h).append hsemicolon.subscripted
      rw [List.append_nil] at hall
      exact hall.line
  | writeField member value =>
      refine Subscripted.line ((subscripted_operand h.2).between ?_ (by decide))
      have htext : Lacks '[' (receiverName ++ "->" ++ member ++ " = ") := by
        simp +decide only [lacks_append, h.1]
      exact htext
  | create type operands =>
      refine Subscripted.line ((subscripted_operandList h.2).between ?_ (by decide))
      simp +decide only [lacks_append, h.1]
  | returnOutput => exact Lacks.subscripted (by decide)

theorem subscripted_body {body : List Stmt} (h : ∀ s ∈ body, s.Bare '[') :
    Subscripted (bodyText body) (body.flatMap Stmt.argumentsRead) := by
  induction body with
  | nil => exact Lacks.subscripted (by decide)
  | cons s body ih =>
      obtain ⟨hs, hbody⟩ := List.forall_mem_cons.mp h
      have htext : bodyText (s :: body) = s.text ++ bodyText body := String.join_cons
      rw [htext, List.flatMap_cons]
      exact (subscripted_stmt hs).append (ih hbody)

/-- **The text of a function subscripts the places that the function reads, and nothing else.** -/
theorem subscripts_text {f : Function} (hsymbol : Lacks '[' f.symbol.spelling)
    (hbody : ∀ s ∈ f.body, s.Bare '[') :
    subscripts f.text.toList = f.argumentsRead.map numeral := by
  have hbefore : Lacks '[' "\nJsValueRef CALLBACK " := by decide +kernel
  have hparams : Lacks '['
      "(JsValueRef callee, bool isConstructCall, JsValueRef* arguments, " := by decide +kernel
  have hrest : Lacks '[' "unsigned short argumentCount, void* callbackState)\n" := by
    decide +kernel
  have hsignature : Lacks '[' (Function.signature f.symbol.spelling ++ "\x7b\n") := by
    show Lacks '[' (_ ++ _ ++ _ ++ _ ++ _)
    simp only [lacks_append]
    exact ⟨⟨⟨⟨hbefore, hsymbol⟩, hparams⟩, hrest⟩, by decide⟩
  exact ((subscripted_body hbody).between hsignature (by decide)).subscripts_eq

end IdlGlue
