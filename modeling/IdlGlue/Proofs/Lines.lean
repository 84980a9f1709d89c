/-
# IdlGlue.Proofs.Lines -- generated code line by line

The views on statements (`asserted?`, `nativeOperands?`, `operands`, `slots`) say what a function
does. Here it is said what a reader of the code sees of it. Every form of statement has one line,
but for the check of the receiver, which has four:

| form          | its line                                                 |
|---------------|----------------------------------------------------------|
| `expectCall`  | `assert(` `!` `isConstructCall && argumentCount == n);`  |
| `openOutput`  | `JsValueRef output = JS_INVALID_REFERENCE;`              |
| `declare`     | type name`;`                                             |
| `castReceiver`| type`* ptr = static_cast<`type`*>(object);`              |
| `invoke`      | callee`(`operands`);`                                    |
| `assign`      | target` = `callee`(`operands`);`                         |
| `store`       | target` = `conversion and source`;`                      |
| `perform`     | source`;`                                                |
| `writeField`  | `ptr->`member` = `value`;`                               |
| `create`      | type`* object = new `type`(`operands`);`                 |
| `returnOutput`| `return output;`                                         |

`HasLines` says of a text which lines it is. Where no name holds a newline, the lines of a function
are its signature and, between braces, the lines of its statements, each behind a tab.
-/
import IdlGlue.Proofs.Arguments
import IdlGlue.Proofs.Bare
import IdlGlue.Proofs.Mentions
import IdlGlue.Proofs.Printed

namespace IdlGlue.Text

open IdlGlue.Scan

/-! ## Lines -/

section Lines

variable {cs rest : List Char} {lines : List (List Char)}

/-- The pieces of a text between its newlines. -/
def linePieces (cs : List Char) : List (List Char) := pieces (· == '\n') cs

theorem linePieces_of_not_mem (h : '\n' ∉ cs) : linePieces cs = [cs] := by
  refine pieces_of_allIn fun c hc => ?_
  have hne : c ≠ '\n' := fun heq => h (heq ▸ hc)
  simpa using hne

theorem linePieces_append_cons (cs rest : List Char) :
    linePieces (cs ++ '\n' :: rest) = linePieces cs ++ linePieces rest :=
  pieces_append rfl cs rest

/-- What stands before the first newline belongs to the first line. -/
theorem linePieces_start (h : '\n' ∉ cs) (rest : List Char) :
    ∃ first others, linePieces rest = first :: others ∧
      linePieces (cs ++ rest) = (cs ++ first) :: others := by
  refine pieces_start (fun c hc => ?_) rest
  have hne : c ≠ '\n' := fun heq => h (heq ▸ hc)
  simpa using hne

theorem newline_not_mem_of_mem_linePieces {line : List Char} (h : line ∈ linePieces cs) :
    '\n' ∉ line :=
  fun hmem => absurd (not_mem_of_mem_pieces h _ hmem) (by decide)

/-- Texts with a newline behind each fall into the lines of each. -/
theorem linePieces_flatMap (lines : List (List Char)) (rest : List Char) :
    linePieces (lines.flatMap (· ++ ['\n']) ++ rest) =
      lines.flatMap linePieces ++ linePieces rest := by
  induction lines with
  | nil => rfl
  | cons line lines ih =>
      rw [List.flatMap_cons, List.flatMap_cons, List.append_assoc, List.append_assoc,
        List.append_assoc, List.singleton_append, linePieces_append_cons, ih]

theorem flatMap_linePieces (h : ∀ line ∈ lines, '\n' ∉ line) :
    lines.flatMap linePieces = lines := by
  induction lines with
  | nil => rfl
  | cons line lines ih =>
      obtain ⟨hline, hlines⟩ := List.forall_mem_cons.mp h
      rw [List.flatMap_cons, linePieces_of_not_mem hline, ih hlines]
      rfl

end Lines

end IdlGlue.Text

namespace IdlGlue

open IdlGlue.Native IdlGlue.Text

/-! ## Texts of whole lines -/

/-- The text is these lines, each with the newline that ends it. -/
def HasLines (text : String) (lines : List (List Char)) : Prop :=
  ∀ rest, linePieces (text.toList ++ rest) = lines ++ linePieces rest

section HasLines

variable {s t line : String} {lines lines' : List (List Char)}

theorem hasLines_empty : HasLines "" [] := fun _ => rfl

theorem HasLines.append (hs : HasLines s lines) (ht : HasLines t lines') :
    HasLines (s ++ t) (lines ++ lines') := by
  intro rest
  rw [String.toList_append, List.append_assoc, hs, ht, List.append_assoc]

/-- A text with a newline behind it is the lines that it falls into. -/
theorem hasLines_newline (line : String) : HasLines (line ++ "\n") (linePieces line.toList) := by
  intro rest
  rw [String.toList_append, List.append_assoc]
  exact linePieces_append_cons _ _

/-- Without a newline of its own it is one line. -/
theorem hasLines_line (h : Lacks '\n' line) : HasLines (line ++ "\n") [line.toList] := by
  have hlines := hasLines_newline line
  rwa [linePieces_of_not_mem h] at hlines

end HasLines

namespace Native

/-! ## The line of each statement -/

section Forms

variable (target callee member type : String) (operands : List Operand)

theorem Access.text_call :
    (Access.call member operands).text = "ptr->" ++ member ++ "(" ++ operandList operands ++ ")" :=
  rfl

namespace Stmt

theorem text_expectCall (construct : Bool) (count : Nat) :
    (expectCall construct count).text = "\tassert(" ++ (if construct then "" else "!") ++
      "isConstructCall && argumentCount == " ++ toString count ++ ");\n" := by
  unfold text bodyLine
  simp only [String.append_assoc]
  rfl

theorem text_openOutput : openOutput.text = "\tJsValueRef output = JS_INVALID_REFERENCE;\n" := by
  decide +kernel

theorem text_declare (decl : Local) :
    (declare decl).text = "\t" ++ decl.type ++ " " ++ decl.name ++ ";\n" := by
  unfold text bodyLine Local.text
  simp only [String.append_assoc]
  rfl

theorem text_checkReceiver : checkReceiver.text =
    "\tif (JsGetExternalData(arguments[0], &object) != JsNoError)\n" ++
      "\t\x7b\n\t\treturn output;\n\t\x7d\n" := by
  decide +kernel

theorem text_castReceiver : (castReceiver type).text =
    "\t" ++ type ++ "* ptr = static_cast<" ++ type ++ "*>(object);\n" := by
  unfold text bodyLine
  apply String.toList_inj.mp
  simp [receiverName, objectName]

theorem text_invoke :
    (invoke callee operands).text = "\t" ++ callee ++ "(" ++ operandList operands ++ ");\n" := by
  unfold text bodyLine
  simp only [String.append_assoc]
  rfl

theorem text_assign : (assign target callee operands).text =
    "\t" ++ target ++ " = " ++ callee ++ "(" ++ operandList operands ++ ");\n" := by
  unfold text bodyLine
  simp only [String.append_assoc]
  rfl

theorem text_store (conversion : Conversion) (source : Access) :
    (store target conversion source).text =
      "\t" ++ target ++ " = " ++ conversion.apply source.text ++ ";\n" := by
  unfold text bodyLine
  simp only [String.append_assoc]
  rfl

theorem text_perform (source : Access) : (perform source).text = "\t" ++ source.text ++ ";\n" := by
  unfold text bodyLine
  simp only [String.append_assoc]
  rfl

theorem text_writeField (value : Operand) :
    (writeField member value).text = "\tptr->" ++ member ++ " = " ++ value.text ++ ";\n" := by
  unfold text bodyLine
  simp only [String.append_assoc]
  rfl

theorem text_create : (create type operands).text =
    "\t" ++ type ++ "* object = new " ++ type ++ "(" ++ operandList operands ++ ");\n" := by
  unfold text bodyLine
  apply String.toList_inj.mp
  simp [objectName]

theorem text_returnOutput : returnOutput.text = "\treturn output;\n" := by
  decide +kernel

end Stmt

end Forms

/-! ## What the views see -/

section Views

variable {s : Stmt} {x : Operand} {operands : List Operand}

/-- An operand stands in the list between parentheses. -/
theorem exists_operandList_eq (hx : x ∈ operands) :
    ∃ before after, operandList operands = before ++ x.text ++ after := by
  induction operands with
  | nil => cases hx
  | cons y ys ih =>
      cases ys with
      | nil =>
          rw [List.mem_singleton.mp hx]
          exact ⟨"", "", by simp [operandList]⟩
      | cons z zs =>
          have htext : operandList (y :: z :: zs) = y.text ++ ", " ++ operandList (z :: zs) :=
            String.intercalate_cons_cons
          rw [htext]
          rcases List.mem_cons.mp hx with rfl | hx
          · exact ⟨"", ", " ++ operandList (z :: zs), by
              simp only [String.empty_append, String.append_assoc]⟩
          · obtain ⟨before, after, heq⟩ := ih hx
            exact ⟨y.text ++ ", " ++ before, after, by rw [heq]; simp only [String.append_assoc]⟩

theorem Conversion.apply_eq (c : Conversion) (expression : String) :
    c.apply expression = c.apply "" ++ expression := by
  cases c with
  | none => exact (String.empty_append ..).symm
  | cast type =>
      simp only [Conversion.apply, String.append_empty]
  | address => rfl

/-- An assertion of a count is the line that says so. -/
theorem Stmt.text_of_asserted? {count : Nat} (h : s.asserted? = some count) :
    ∃ construct : Bool, s.text = "\tassert(" ++ (if construct then "" else "!") ++
      "isConstructCall && argumentCount == " ++ toString count ++ ");\n" := by
  cases s with
  | expectCall construct n =>
      obtain rfl : n = count := Option.some.inj h
      exact ⟨construct, text_expectCall construct n⟩
  | _ => cases h

/-- What native code is called by: a method of the receiver, or the constructor of a class. -/
inductive NativeCallee : String → Prop
  | method (member : String) : NativeCallee ("ptr->" ++ member)
  | constructor (type : String) : NativeCallee ("new " ++ type)

/-- The line of a call of native code ends in this call. -/
theorem Stmt.text_of_nativeOperands? (h : s.nativeOperands? = some operands) :
    ∃ before callee, NativeCallee callee ∧
      s.text = before ++ callee ++ "(" ++ operandList operands ++ ");\n" := by
  cases s with
  | store target conversion source =>
      cases source with
      | call member operands' =>
          obtain rfl : operands' = operands := Option.some.inj h
          refine ⟨"\t" ++ target ++ " = " ++ conversion.apply "", _, .method member, ?_⟩
          rw [text_store, Conversion.apply_eq, Access.text_call]
          simp only [String.append_assoc]
          rfl
      | field | other => cases h
  | perform source =>
      cases source with
      | call member operands' =>
          obtain rfl : operands' = operands := Option.some.inj h
          refine ⟨"\t", _, .method member, ?_⟩
          rw [text_perform, Access.text_call]
          simp only [String.append_assoc]
          rfl
      | field | other => cases h
  | create type operands' =>
      obtain rfl : operands' = operands := Option.some.inj h
      refine ⟨"\t" ++ type ++ "* object = ", _, .constructor type, ?_⟩
      rw [text_create]
      simp only [String.append_assoc]
      rfl
  | _ => cases h

/-- An operand of a statement stands in its line. -/
theorem Stmt.exists_text_eq (hx : x ∈ s.operands) :
    ∃ before after, s.text = before ++ x.text ++ after := by
  have hlist : ∀ {operands : List Operand} {opening closing : String}, x ∈ operands →
      s.text = opening ++ operandList operands ++ closing →
      ∃ before after, s.text = before ++ x.text ++ after := by
    intro operands opening closing hx htext
    obtain ⟨before, after, heq⟩ := exists_operandList_eq hx
    rw [htext, heq]
    exact ⟨opening ++ before, after ++ closing, by simp only [String.append_assoc]⟩
  have hnative : s.nativeOperands? = some s.operands →
      ∃ before after, s.text = before ++ x.text ++ after := by
    intro h
    obtain ⟨before, callee, _, htext⟩ := text_of_nativeOperands? h
    exact hlist hx htext
  cases s with
  | invoke callee operands => exact hlist hx (text_invoke callee operands)
  | assign target callee operands => exact hlist hx (text_assign target callee operands)
  | create type operands => exact hnative rfl
  | store target conversion source =>
      cases source with
      | call member operands => exact hnative rfl
      | field | other => cases hx
  | perform source =>
      cases source with
      | call member operands => exact hnative rfl
      | field | other => cases hx
  | writeField member value =>
      rw [List.mem_singleton.mp hx]
      exact ⟨_, _, text_writeField member value⟩
  | expectCall | openOutput | declare | checkReceiver | castReceiver | returnOutput => cases hx

end Views

end Native

namespace Glue

/-- A list between separators begins with its first element. -/
theorem exists_intercalate_cons (separator x : String) (xs : List String) :
    ∃ tail, separator.intercalate (x :: xs) = x ++ tail := by
  cases xs with
  | nil => exact ⟨"", by rw [String.intercalate_singleton, String.append_empty]⟩
  | cons y ys =>
      rw [String.intercalate_cons_cons, String.append_assoc]
      exact ⟨_, rfl⟩

/-- A name that stands for a slot is an operand of a call that sets a prototype, or the third
argument of a projection record. -/
theorem Item.NamesSlot.text_eq {item : Item} {name : String} (h : item.NamesSlot name) :
    (∃ before operands operands' after, item.text =
      before ++ "\tJsSetPrototype(" ++ operands ++ name ++ operands' ++ ");\n" ++ after) ∨
    ∃ before first second after, item.text =
      before ++ "(\n\t" ++ first ++ ",\n\t" ++ second ++ ",\n\t" ++ name ++ after := by
  cases h with
  | @call f flat h =>
      obtain ⟨operands, hcall, hslot⟩ := h
      obtain ⟨opening, closing, hbody⟩ := List.append_of_mem hcall
      obtain ⟨before, after, hoperands⟩ := exists_operandList_eq hslot
      have htext : bodyText f.body = bodyText opening ++ "\tJsSetPrototype(" ++ before ++
          (Symbol.prototype flat).spelling ++ after ++ ");\n" ++ bodyText closing := by
        rw [hbody, bodyText, List.map_append, List.map_cons, String.join_append, String.join_cons,
          Stmt.text_invoke, hoperands]
        simp only [String.append_assoc]
        rfl
      refine .inl ⟨Function.signature f.symbol.spelling ++ "\x7b\n" ++ bodyText opening, before,
        after, bodyText closing ++ "\x7d\n", ?_⟩
      show Function.text f = _
      unfold Function.text
      rw [htext]
      simp only [String.append_assoc]
  | @record p _ h =>
      obtain ⟨first, second, others, harguments⟩ :
          ∃ first second others, p.arguments = first :: second :: name :: others := by
        unfold Projection.arguments at h ⊢
        simp only [List.cons_append, List.nil_append, List.getElem?_cons_succ,
          List.getElem?_cons_zero, Option.some.injEq] at h ⊢
        exact ⟨_, _, _, by rw [h]⟩
      obtain ⟨tail, htail⟩ := exists_intercalate_cons ",\n" ("\t" ++ name) (others.map ("\t" ++ ·))
      refine .inr ⟨"\n" ++ p.tables ++ p.bindingNamespace ++ "::AutoNativeClassProjecter " ++
        (Symbol.projector p.flat).spelling, first, second, tail ++ "\n);\n", ?_⟩
      show p.text = _
      rw [p.text_eq]
      unfold Projection.record
      rw [harguments, List.map_cons, List.map_cons, List.map_cons, String.intercalate_cons_cons,
        String.intercalate_cons_cons, htail]
      apply String.toList_inj.mp
      simp

end Glue

/-! ## The lines of a function -/

/-- The text is whole lines, each of which begins with a tab. -/
def Indented (text : String) : Prop :=
  ∃ lines, HasLines text lines ∧ ∀ line ∈ lines, line.head? = some '\t'

section Indented

variable {s t content : String} {x : Operand} {operands : List Operand} {source : Access}

theorem indented_empty : Indented "" := ⟨[], hasLines_empty, List.forall_mem_nil _⟩

theorem Indented.append (hs : Indented s) (ht : Indented t) : Indented (s ++ t) := by
  obtain ⟨lines, hs, hlines⟩ := hs
  obtain ⟨lines', ht, hlines'⟩ := ht
  exact ⟨lines ++ lines', hs.append ht, List.forall_mem_append.mpr ⟨hlines, hlines'⟩⟩

theorem indented_bodyLine (h : Lacks '\n' content) : Indented (bodyLine content) := by
  have hline : Lacks '\n' ("\t" ++ content) := by simp +decide only [lacks_append, h]
  refine ⟨_, hasLines_line hline, List.forall_mem_singleton.mpr ?_⟩
  rw [String.toList_append]
  rfl

theorem lacks_numeral (n : Nat) : Lacks '\n' (toString n) := fun hmem =>
  absurd (isDigit_of_mem_numeral hmem) (by decide)

theorem lacks_operand (h : x.Bare '\n') : Lacks '\n' x.text := by
  cases x with
  | argument place =>
      show Lacks '\n' ("arguments[" ++ toString place ++ "]")
      simp +decide only [lacks_append, lacks_numeral]
  | value name => exact h
  | address name =>
      have hname : Lacks '\n' name := h
      show Lacks '\n' ("&" ++ name)
      simp +decide only [lacks_append, hname]
  | pointerAddress name =>
      have hname : Lacks '\n' name := h
      show Lacks '\n' ("reinterpret_cast<void**>(&" ++ name ++ ")")
      simp +decide only [lacks_append, hname]
  | cast type name =>
      show Lacks '\n' ("(" ++ type ++ ")" ++ name)
      simp +decide only [lacks_append, h.1, h.2]
  | null =>
      show Lacks '\n' "nullptr"
      decide
  | prototype source => exact h

theorem lacks_intercalate {c : Char} {separator : String} {xs : List String}
    (hseparator : Lacks c separator) (h : ∀ x ∈ xs, Lacks c x) :
    Lacks c (separator.intercalate xs) := by
  induction xs with
  | nil => exact List.not_mem_nil
  | cons x xs ih =>
      obtain ⟨hx, hxs⟩ := List.forall_mem_cons.mp h
      cases xs with
      | nil =>
          rw [String.intercalate_singleton]
          exact hx
      | cons y ys =>
          rw [String.intercalate_cons_cons, lacks_append, lacks_append]
          exact ⟨⟨hx, hseparator⟩, ih hxs⟩

theorem lacks_operandList (h : ∀ x ∈ operands, x.Bare '\n') :
    Lacks '\n' (operandList operands) :=
  lacks_intercalate (by decide) (List.forall_mem_map.mpr fun x hx => lacks_operand (h x hx))

theorem lacks_access (h : source.Bare '\n') : Lacks '\n' source.text := by
  cases source with
  | call member operands =>
      rw [Access.text_call]
      simp +decide only [lacks_append, h.1, lacks_operandList h.2]
  | field member =>
      have hmember : Lacks '\n' member := h
      show Lacks '\n' ("ptr->" ++ member)
      simp +decide only [lacks_append, hmember]
  | other expression => exact h

/-- **Every statement is whole lines behind a tab.** -/
theorem indented_stmt {s : Stmt} (h : s.Bare '\n') : Indented s.text := by
  cases s with
  | expectCall construct count =>
      refine indented_bodyLine ?_
      have hnot : Lacks '\n' (if construct then "" else "!") := by cases construct <;> decide
      simp +decide only [lacks_append, lacks_numeral, hnot]
  | openOutput => exact indented_bodyLine (by decide)
  | declare decl =>
      refine indented_bodyLine ?_
      show Lacks '\n' (decl.type ++ " " ++ decl.name ++ ";")
      simp +decide only [lacks_append, h.1, h.2]
  | checkReceiver =>
      exact (((indented_bodyLine (by decide +kernel)).append (indented_bodyLine (by decide))).append
        (indented_bodyLine (by decide))).append (indented_bodyLine (by decide))
  | castReceiver type =>
      have htype : Lacks '\n' type := h
      refine indented_bodyLine ?_
      simp +decide only [lacks_append, htype]
  | invoke callee operands =>
      refine indented_bodyLine ?_
      simp +decide only [lacks_append, h.1, lacks_operandList h.2]
  | assign target callee operands =>
      refine indented_bodyLine ?_
      simp +decide only [lacks_append, h.1, h.2.1, lacks_operandList h.2.2]
  | store target conversion source =>
      refine indented_bodyLine ?_
      rw [Conversion.apply_eq]
      simp +decide only [lacks_append, h.1, h.2.1, lacks_access h.2.2]
  | perform source =>
      refine indented_bodyLine ?_
      simp +decide only [lacks_append, lacks_access h]
  | writeField member value =>
      refine indented_bodyLine ?_
      show Lacks '\n' ("ptr->" ++ member ++ " = " ++ value.text ++ ";")
      simp +decide only [lacks_append, h.1, lacks_operand h.2]
  | create type operands =>
      refine indented_bodyLine ?_
      simp +decide only [lacks_append, h.1, lacks_operandList h.2]
  | returnOutput => exact indented_bodyLine (by decide)

theorem indented_join {texts : List String} (h : ∀ t ∈ texts, Indented t) :
    Indented (String.join texts) := by
  induction texts with
  | nil => exact indented_empty
  | cons t texts ih =>
      obtain ⟨ht, htexts⟩ := List.forall_mem_cons.mp h
      rw [String.join_cons]
      exact ht.append (ih htexts)

theorem indented_body {body : List Stmt} (h : ∀ s ∈ body, s.Bare '\n') :
    Indented (bodyText body) :=
  indented_join (List.forall_mem_map.mpr fun s hs => indented_stmt (h s hs))

end Indented

end IdlGlue
