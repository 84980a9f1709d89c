/-
# IdlGlue.Proofs.Measured -- what a recogniser reads, measured in bytes

| recogniser    | what it captures                 |
|---------------|----------------------------------|
| `header`      | the line, which is all it reads  |
| `interface`   | name, body                       |
| `property`    | type, name                       |
| `method`      | result, name, parameters         |
| `constructor` | parameters                       |
| `delegate`    | result, name, parameters         |

A recogniser answers with what it captures and with a number of bytes, and whoever goes on
reading cuts the text at that number. `Measures` says what makes this safe: the number is not
zero, the text can be cut there, and all that is captured lies before the cut.
-/
import IdlGlue.Proofs.Offsets
import IdlGlue.Proofs.SourceTiling

namespace IdlGlue.Scan

open IdlGlue.Text

variable {α : Type} {cs mid w behind rest : List Char}

/-! ## Pieces of what is read -/

theorem consumed_suffix (hmid : mid <:+ cs) (hrest : rest <:+ mid) :
    consumed mid rest <:+ consumed cs rest := by
  obtain ⟨first, rfl⟩ := hmid
  obtain ⟨second, rfl⟩ := hrest
  rw [consumed_append_left, ← List.append_assoc, consumed_append_left]
  exact List.suffix_append first second

/-- What stands somewhere behind the start, with the end of the reading behind it, is a piece of
what is read. -/
theorem infix_consumed (hmid : mid <:+ cs) (hw : mid = w ++ behind) (hrest : rest <:+ behind) :
    w <:+: consumed cs rest := by
  obtain ⟨more, rfl⟩ := hrest
  have hpiece : consumed mid rest = w ++ more := by
    rw [hw, ← List.append_assoc, consumed_append_left]
  have hend : rest <:+ mid := by
    rw [hw, ← List.append_assoc]
    exact List.suffix_append _ rest
  have hprefix : w <+: consumed mid rest := by
    rw [hpiece]
    exact List.prefix_append w more
  exact hprefix.isInfix.trans (consumed_suffix hmid hend).isInfix

/-- What is captured and the number of bytes that are passed over fit the text: the number is that
of a beginning of the text, which is not empty and holds all that is captured. -/
def Recognizer.Measures (r : Recognizer α) (captured : α → List (List Char)) : Prop :=
  ∀ cs a n, r.outcome cs = some (a, n) → 0 < n ∧ ∃ piece rest, cs = piece ++ rest ∧
    n = byteSize piece ∧ sliceFrom? cs n = some rest ∧ ∀ w ∈ captured a, w <:+: piece

/-- Where a statement is read, the cursor can go on behind it. -/
theorem Recognizer.sliceFrom?_of_reads {r : Recognizer α} {a : α} (h : r.Reads cs a rest) :
    sliceFrom? cs (byteSize (consumed cs rest)) = some rest :=
  sliceFrom?_eq_some_iff.mpr ⟨_, (consumed_append (r.suffix h)).symm, rfl⟩

theorem Recognizer.measures_of_reads {r : Recognizer α} {captured : α → List (List Char)}
    (hcaptured : ∀ {cs a rest}, r.Reads cs a rest → ∀ w ∈ captured a, w <:+: consumed cs rest) :
    r.Measures captured := by
  intro cs a n h
  obtain ⟨⟨b, rest⟩, hread, hm⟩ := Option.map_eq_some_iff.mp h
  cases hm
  obtain ⟨piece, hne, rfl⟩ := r.advances hread
  have hslice := r.sliceFrom?_of_reads hread
  have hall := hcaptured hread
  simp only [consumed_append_left] at hslice hall ⊢
  exact ⟨byteSize_pos hne, piece, rest, rfl, rfl, hslice, hall⟩

end IdlGlue.Scan

namespace IdlGlue.Statement

open IdlGlue.Text IdlGlue.Scan

variable {cs args rest : List Char}

/-! ## The texts that are captured -/

def InterfaceText.captured (s : InterfaceText) : List (List Char) := [s.name, s.body]

def PropertyText.captured (s : PropertyText) : List (List Char) := [s.type, s.name]

def MethodText.captured (s : MethodText) : List (List Char) := [s.result, s.name, s.args]

def DelegateText.captured (s : DelegateText) : List (List Char) := [s.result, s.name, s.args]

/-! ## The six recognisers -/

/-- The text of a parameter list is a piece of what is read up to any place behind it. -/
theorem infix_params {mid behind : List Char} (hmid : mid <:+ cs)
    (h : params? mid = some (args, behind)) (hrest : rest <:+ behind) :
    args <:+: consumed cs rest := by
  have hopen : args ++ ')' :: behind <:+ mid := by
    rw [(params?_eq_some_iff.mp h).2]
    exact List.suffix_cons _ _
  exact infix_consumed (hopen.trans hmid) rfl (hrest.trans (List.suffix_cons _ _))

theorem measures_header : header.Measures fun line => [line] := by
  refine Recognizer.measures_of_reads fun h => ?_
  obtain ⟨last, _, hm⟩ := Option.map_eq_some_iff.mp h
  cases hm
  exact List.forall_mem_singleton.mpr (List.infix_refl _)

theorem measures_interface : interface.Measures InterfaceText.captured := by
  refine Recognizer.measures_of_reads fun {cs _ rest} h => ?_
  obtain ⟨head, hhead, h⟩ := Option.bind_eq_some_iff.mp h
  obtain ⟨body, hbody, hm⟩ := Option.map_eq_some_iff.mp h
  cases hm
  obtain ⟨r0, h0, hhead⟩ := Option.bind_eq_some_iff.mp hhead
  obtain ⟨r1, h1, hhead⟩ := Option.bind_eq_some_iff.mp hhead
  obtain ⟨name, h2, hhead⟩ := Option.bind_eq_some_iff.mp hhead
  obtain ⟨r2, h3, hm⟩ := Option.map_eq_some_iff.mp hhead
  cases hm
  have hstart : r1 <:+ cs := (afterSpace?_suffix h1).trans (literal?_suffix h0)
  have hopen : r2 <:+ name.2 := (literal?_suffix h3).trans (afterBlanks_suffix _)
  have hend : afterOptionalSemicolon (afterBlanks body.2) <:+ body.2 :=
    (afterOptionalSemicolon_suffix _).trans (afterBlanks_suffix _)
  have hbodyAppend := body?_append hbody
  refine List.forall_mem_cons.mpr ⟨?_, List.forall_mem_singleton.mpr ?_⟩
  · exact infix_consumed hstart (run?_append h2) (hend.trans ((body?_suffix hbody).trans hopen))
  · exact infix_consumed (hopen.trans ((run?_suffix h2).trans hstart)) hbodyAppend
      (hend.trans (List.suffix_cons _ _))

theorem measures_property : property.Measures PropertyText.captured := by
  refine Recognizer.measures_of_reads fun {cs _ rest} h => ?_
  obtain ⟨r0, h0, h⟩ := Option.bind_eq_some_iff.mp h
  obtain ⟨r1, h1, h⟩ := Option.bind_eq_some_iff.mp h
  obtain ⟨type, h2, h⟩ := Option.bind_eq_some_iff.mp h
  obtain ⟨r2, h3, h⟩ := Option.bind_eq_some_iff.mp h
  obtain ⟨name, h4, h⟩ := Option.bind_eq_some_iff.mp h
  obtain ⟨last, h5, hm⟩ := Option.map_eq_some_iff.mp h
  cases hm
  have htype := (propertyToken?_append h2).1
  have hstart : r1 <:+ cs :=
    (afterSpace?_suffix h1).trans ((literal?_suffix h0).trans (modifiers_suffix cs))
  have hspace : r2 <:+ type.2 := afterSpace?_suffix h3
  have hend : rest <:+ name.2 := afterSemicolon?_suffix h5
  refine List.forall_mem_cons.mpr ⟨?_, List.forall_mem_singleton.mpr ?_⟩
  · exact infix_consumed hstart htype (hend.trans ((run?_suffix h4).trans hspace))
  · exact infix_consumed (hspace.trans (List.IsSuffix.trans ⟨_, htype.symm⟩ hstart))
      (run?_append h4) hend

/-- A signature passes over its result, its name and its parameters. -/
theorem signature?_captured {nameAsIs : Bool} {s : MethodText}
    (h : signature? nameAsIs cs = some (s, rest)) :
    rest <:+ cs ∧ ∀ w ∈ s.captured, w <:+: consumed cs rest := by
  obtain ⟨result, h0, h⟩ := Option.bind_eq_some_iff.mp h
  obtain ⟨r1, h1, h⟩ := Option.bind_eq_some_iff.mp h
  obtain ⟨name, h2, h⟩ := Option.bind_eq_some_iff.mp h
  obtain ⟨args, h3, h⟩ := Option.bind_eq_some_iff.mp h
  obtain ⟨last, h4, hm⟩ := Option.map_eq_some_iff.mp h
  cases hm
  have hresult := (resultToken?_append h0).1
  have hspace : r1 <:+ result.2 := afterSpace?_suffix h1
  have hname : r1 <:+ cs := hspace.trans ⟨_, hresult.symm⟩
  have hargs : afterBlanks name.2 <:+ r1 := (afterBlanks_suffix _).trans (run?_suffix h2)
  have hend : rest <:+ args.2 := afterSemicolon?_suffix h4
  have hlist : rest <:+ afterBlanks name.2 := hend.trans (params?_suffix h3)
  refine ⟨hlist.trans (hargs.trans hname), ?_⟩
  rw [MethodText.captured, List.forall_mem_cons, List.forall_mem_cons, List.forall_mem_singleton]
  refine ⟨?_, ?_, infix_params (hargs.trans hname) h3 hend⟩
  · exact infix_consumed (List.suffix_refl cs) hresult (hlist.trans (hargs.trans hspace))
  · exact infix_consumed hname (run?_append h2) (hlist.trans (afterBlanks_suffix _))

theorem measures_method : method.Measures MethodText.captured := by
  refine Recognizer.measures_of_reads fun {cs _ rest} h => ?_
  rcases Option.or_eq_some_iff.mp h with h | ⟨_, h⟩
  · obtain ⟨mid, hmodifier, hsignature⟩ := Option.bind_eq_some_iff.mp h
    obtain ⟨hend, hall⟩ := signature?_captured hsignature
    have hpiece := consumed_suffix (afterModifier?_suffix hmodifier) hend
    exact fun w hw => (hall w hw).trans hpiece.isInfix
  · exact (signature?_captured h).2

theorem measures_constructor : constructor.Measures fun args => [args] := by
  refine Recognizer.measures_of_reads fun {cs _ rest} h => ?_
  obtain ⟨r0, h0, h⟩ := Option.bind_eq_some_iff.mp h
  obtain ⟨args, h1, h⟩ := Option.bind_eq_some_iff.mp h
  obtain ⟨last, h2, hm⟩ := Option.map_eq_some_iff.mp h
  cases hm
  have hstart : afterBlanks r0 <:+ cs := (afterBlanks_suffix r0).trans (literal?_suffix h0)
  exact List.forall_mem_singleton.mpr (infix_params hstart h1 (afterSemicolon?_suffix h2))

theorem measures_delegate : delegate.Measures DelegateText.captured := by
  refine Recognizer.measures_of_reads fun {cs _ rest} h => ?_
  obtain ⟨r0, h0, h⟩ := Option.bind_eq_some_iff.mp h
  obtain ⟨r1, h1, h⟩ := Option.bind_eq_some_iff.mp h
  obtain ⟨result, h2, h⟩ := Option.bind_eq_some_iff.mp h
  obtain ⟨r2, h3, h⟩ := Option.bind_eq_some_iff.mp h
  obtain ⟨name, h4, h⟩ := Option.bind_eq_some_iff.mp h
  obtain ⟨args, h5, h⟩ := Option.bind_eq_some_iff.mp h
  obtain ⟨last, h6, hm⟩ := Option.map_eq_some_iff.mp h
  cases hm
  have hresult := (referenceToken?_append h2).1
  have hstart : r1 <:+ cs := (afterSpace?_suffix h1).trans (literal?_suffix h0)
  have hspace : r2 <:+ result.2 := afterSpace?_suffix h3
  have hname : r2 <:+ cs := hspace.trans (List.IsSuffix.trans ⟨_, hresult.symm⟩ hstart)
  have hargs : afterBlanks name.2 <:+ r2 := (afterBlanks_suffix _).trans (run?_suffix h4)
  have hend : rest <:+ args.2 := afterSemicolon?_suffix h6
  have hlist : rest <:+ afterBlanks name.2 := hend.trans (params?_suffix h5)
  rw [DelegateText.captured, List.forall_mem_cons, List.forall_mem_cons, List.forall_mem_singleton]
  refine ⟨?_, ?_, infix_params (hargs.trans hname) h5 hend⟩
  · exact infix_consumed hstart hresult (hlist.trans (hargs.trans hspace))
  · exact infix_consumed hname (run?_append h4) (hlist.trans (afterBlanks_suffix _))

end IdlGlue.Statement
