/-
# IdlGlue.Proofs.Keyed -- the definitions in compiled code

The code of a file holds the beginning of a definition for each symbol that the file declares.
`Keyed` puts together what is known of these symbols in compiled code: they are different where no
interface repeats the name of a method or property, and their spellings are different just where
no two of them clash.

Different flat names are not enough for that: `longerText` compiles, and its code defines one
function twice.
-/
import IdlGlue.Proofs.Compilation
import IdlGlue.Proofs.Printed
import IdlGlue.Proofs.Symbols

namespace IdlGlue

open IdlGlue.Native

/-! ## Symbols in the code -/

/-- What stands before and behind the spelling of a symbol where it is defined. -/
def surroundings : Symbol → String × String
  | .prototype _ => ("JsValueRef ", ";\n")
  | .constructor _ | .method _ _ | .getter _ _ | .setter _ _ =>
    ("\nJsValueRef CALLBACK ", "(JsValueRef callee, bool isConstructCall, JsValueRef* arguments, ")
  | .registration _ => ("\nvoid ", "(JsValueRef object)\n\x7b\n")
  | .projector _ => ("::AutoNativeClassProjecter ", "(\n")
  | .memberNames _ => ("const wchar_t* ", "[] = \x7b")
  | .memberFunctions _ => ("const JsNativeFunction ", "[] = \x7b")
  | .callback _ => ("using ", " = ")
  | .callbackCast _ => (" ", "(void* callback)\n\x7b\n")

/-- The definition of the symbol begins somewhere in the text. -/
def DefinedIn (text : String) (s : Symbol) : Prop :=
  ∃ before after, text = before ++ (surroundings s).1 ++ s.spelling ++ (surroundings s).2 ++ after

namespace DefinedIn

variable {text : String} {s : Symbol}

theorem start {opening closing : String} (h : surroundings s = (opening, closing))
    (after : String) : DefinedIn (opening ++ s.spelling ++ closing ++ after) s := by
  refine ⟨"", after, ?_⟩
  rw [h, String.empty_append]

theorem append_left (h : DefinedIn text s) (before : String) : DefinedIn (before ++ text) s := by
  obtain ⟨b, a, rfl⟩ := h
  exact ⟨before ++ b, a, by simp only [String.append_assoc]⟩

theorem append_right (h : DefinedIn text s) (after : String) : DefinedIn (text ++ after) s := by
  obtain ⟨b, a, rfl⟩ := h
  exact ⟨b, a ++ after, by simp only [String.append_assoc]⟩

theorem join {texts : List String} (h : DefinedIn text s) (htext : text ∈ texts) :
    DefinedIn (String.join texts) s := by
  induction texts with
  | nil => cases htext
  | cons first texts ih =>
      rw [String.join_cons]
      rcases List.mem_cons.mp htext with rfl | htext
      · exact h.append_right _
      · exact (ih htext).append_left _

end DefinedIn

namespace Glue

theorem CallbackGlue.definedIn_aliasLine (g : CallbackGlue) :
    DefinedIn g.aliasLine (.callback g.flatName) := by
  refine ⟨"", g.result ++ "(*)(" ++ ", ".intercalate g.params ++ ");\n", ?_⟩
  apply String.toList_inj.mp
  simp [aliasLine, surroundings, Symbol.spelling]

theorem CallbackGlue.definedIn_castHelper (g : CallbackGlue) :
    DefinedIn g.castHelper (.callbackCast g.flatName) := by
  refine ⟨"inline " ++ g.flatName ++ "Callback",
    "\treturn reinterpret_cast<" ++ g.flatName ++ "Callback>(callback);\n\x7d\n", ?_⟩
  apply String.toList_inj.mp
  simp [castHelper, castLine, surroundings, Symbol.spelling]

theorem definedIn_callback {g : CallbackGlue} {s : Symbol} (h : s ∈ g.defined) :
    DefinedIn (g.aliasLine ++ g.castHelper) s := by
  rw [CallbackGlue.defined, List.mem_pair] at h
  rcases h with rfl | rfl
  · exact g.definedIn_aliasLine.append_right _
  · exact g.definedIn_castHelper.append_left _

theorem definedIn_tables {p : Projection} {s : Symbol} (hmethods : ¬p.methods.isEmpty)
    (h : s ∈ [Symbol.memberNames p.flat, .memberFunctions p.flat]) : DefinedIn p.tables s := by
  rw [p.tables_eq, if_neg hmethods]
  rcases List.mem_pair.mp h with rfl | rfl
  · apply DefinedIn.append_right
    apply DefinedIn.start
    rfl
  · apply DefinedIn.append_left
    apply DefinedIn.start
    rfl

theorem definedIn_projection {p : Projection} {s : Symbol} (h : s ∈ p.defined) :
    DefinedIn p.text s := by
  rw [Projection.defined] at h
  rw [p.text_eq]
  rcases List.mem_append.mp h with h | h
  · split at h
    · cases h
    · next hmethods =>
        exact (((definedIn_tables hmethods h).append_left _).append_right _).append_right _
  · rw [List.mem_singleton.mp h]
    apply DefinedIn.append_left
    apply DefinedIn.start
    rfl

theorem definedIn_registration (r : Registration) : DefinedIn r.text (.registration r.flat) := by
  rw [r.text_eq]
  apply DefinedIn.start
  rfl

theorem definedIn_function {c : Context} {m : Member} {e : Entry} {f : Function}
    (h : MadeOf c m e f) : DefinedIn f.text f.symbol := by
  rw [f.text_eq]
  apply DefinedIn.start
  rw [h.symbol]
  cases h with
  | constructor => rfl
  | method => rfl
  | getter => rfl
  | setter => rfl

theorem definedIn_interface {rules : Rules} {i : Interface} {g : InterfaceGlue}
    (h : (interfaceGlue rules i).outcome = .ok g) {s : Symbol} (hs : s ∈ g.defined) :
    DefinedIn g.code s := by
  have hfunctions : ∀ f ∈ g.functions, DefinedIn f.text f.symbol :=
    Traversal.forall_mem_of_forall₂ (madeOf_interfaceGlue h) fun e _ f hmade => by
      obtain ⟨m, _, hmade⟩ := hmade
      exact definedIn_function hmade
  obtain ⟨item, hitem, hdefined⟩ := List.mem_flatMap.mp hs
  suffices htext : DefinedIn item.text s from htext.join (List.mem_map_of_mem hitem)
  cases item with
  | function f =>
      rw [List.mem_singleton.mp hdefined]
      exact hfunctions f (List.mem_filterMap.mpr ⟨_, hitem, rfl⟩)
  | registration r =>
      rw [List.mem_singleton.mp hdefined]
      exact definedIn_registration r
  | projection p => exact definedIn_projection hdefined

theorem definedIn_slot (slot : Slot) : DefinedIn slot.code (.prototype slot.flatName) := by
  refine ⟨if slot.foreign then "extern " else "", "", ?_⟩
  rw [String.append_empty]
  rfl

/-- The delegates stand ahead of the namespace. -/
theorem definedIn_prelude {glue : FileGlue} {g : CallbackGlue} {s : Symbol}
    (hg : g ∈ glue.callbacks) (hs : s ∈ g.defined) : DefinedIn glue.prelude s := by
  have hblock : DefinedIn ("\n" ++ g.aliasLine ++ g.castHelper) s := by
    rw [String.append_assoc]
    exact (definedIn_callback hs).append_left _
  have hmem : "\n" ++ g.aliasLine ++ g.castHelper ∈
      glue.callbacks.map fun c => "\n" ++ c.aliasLine ++ c.castHelper :=
    List.mem_map_of_mem hg
  exact (hblock.join hmem).append_left _

/-- The code of a file defines all its symbols. -/
theorem definedIn_fileGlue {dialect : Dialect} {registry : Registry} {file : SourceFile}
    {glue : FileGlue} (h : (fileGlue dialect registry file).outcome = .ok glue) {s : Symbol}
    (hs : s ∈ glue.symbols) : DefinedIn glue.code s := by
  obtain ⟨_, _, hinterfaces⟩ := fileGlue_parts h
  rw [glue.code_eq]
  apply DefinedIn.append_right
  rcases List.mem_append.mp hs with hs | hs
  · rcases List.mem_append.mp hs with hs | hs
    · obtain ⟨c, hc, hdefined⟩ := List.mem_flatMap.mp hs
      exact ((definedIn_prelude hc hdefined).append_right _).append_right _
    · apply DefinedIn.append_left
      obtain ⟨flat, hflat, rfl⟩ := List.mem_map.mp hs
      obtain ⟨slot, hslot, rfl⟩ := List.mem_map.mp hflat
      have hmem : slot.code ∈ glue.slots.map Slot.code :=
        List.mem_map_of_mem (List.mem_filter.mp hslot).1
      exact ((definedIn_slot slot).join hmem).append_right _
  · apply DefinedIn.append_left
    obtain ⟨g, hg, hdefined⟩ := List.mem_flatMap.mp hs
    have hcode : ∀ g ∈ glue.interfaces, ∀ s ∈ g.defined, DefinedIn g.code s :=
      Traversal.forall_mem_of_forall₂ hinterfaces fun i _ g hi s hs => definedIn_interface hi hs
    exact ((hcode g hg s hdefined).join (List.mem_map_of_mem hg)).append_left _

end Glue

/-! ## Compiled files -/

/-- What the symbols of compiled code are, and when their spellings are different. -/
structure Keyed (file : SourceFile) (glue : Glue.FileGlue) : Prop where
  symbols : glue.symbols = file.symbols
  defined : ∀ s ∈ glue.symbols, DefinedIn glue.code s
  distinct : (∀ i ∈ file.interfaces, i.MembersDistinct) → glue.symbols.Nodup
  spellings : (∀ i ∈ file.interfaces, i.MembersDistinct) →
    ((glue.symbols.map Symbol.spelling).Nodup ↔
      ∀ s ∈ glue.symbols, ∀ t ∈ glue.symbols, ¬s.Clash t)
  /-- It takes no more than a look at the declared names. -/
  apart : file.NamesApart → (glue.symbols.map Symbol.spelling).Nodup

/-- **In compiled code, where no interface repeats the name of a method or property, the
definitions have different symbols, and they have different names just where no two of the symbols
clash.** -/
theorem keyed_of_compile {options : Options} {text : String} {c : Compiled}
    (h : (compile options text).outcome = .ok c) :
    ∃ file glue, SourceFile.ofText text = .ok file ∧
      (Glue.fileGlue options.dialect options.registry file).outcome = .ok glue ∧
      c.code = glue.code ∧ Keyed file glue := by
  obtain ⟨file, glue, hfile, hglue, rfl⟩ := compile_eq_ok_iff.mp h
  obtain ⟨hinterfaces, hdelegates⟩ := Glue.nodup_of_fileGlue hglue
  have hsymbols := Glue.symbols_fileGlue hglue
  have hdistinct : (∀ i ∈ file.interfaces, i.MembersDistinct) → glue.symbols.Nodup := by
    intro hmembers
    rw [hsymbols]
    exact SourceFile.nodup_symbols hinterfaces hdelegates hmembers
  refine ⟨file, glue, hfile, hglue, rfl, hsymbols, ?_, hdistinct, ?_, ?_⟩
  · intro s hs
    exact Glue.definedIn_fileGlue hglue hs
  · intro hmembers
    exact nodup_spelling_iff (hdistinct hmembers)
  · intro hapart
    rw [nodup_spelling_iff (hdistinct hapart.members), hsymbols]
    intro s hs t ht
    exact hapart.not_clash hinterfaces hs ht

theorem keyed_shopText :
    ∃ c, (compile .standard shopText).outcome = .ok c ∧
      ∃ file glue, SourceFile.ofText shopText = .ok file ∧
        (Glue.fileGlue Options.standard.dialect Options.standard.registry file).outcome =
          .ok glue ∧
        c.code = glue.code ∧ Keyed file glue := by
  have hok : (compile .standard shopText).outcome.isOk = true := by decide +kernel
  obtain ⟨c, hc⟩ := Traversal.isOk_iff.mp hok
  exact ⟨c, hc, keyed_of_compile hc⟩

/-- Two classes of which the second has a longer name, and a method with a shorter one. -/
def longerText : String := "interface A \x7b int Bc(); \x7d\ninterface AB \x7b int c(); \x7d"

def longerFile : SourceFile where
  headers := []
  delegates := []
  interfaces := [
    { name := "A"
      members := [.method {
        result := .primitive .int, name := "Bc", params := [], nameAsIs := false }] },
    { name := "AB"
      members := [.method {
        result := .primitive .int, name := "c", params := [], nameAsIs := false }] }]

theorem ofText_longerText : SourceFile.ofText longerText = .ok longerFile := by decide +kernel

/-- Flat names that are different do not keep symbols apart: this text compiles, and its code
defines the function `JsABc` twice. -/
theorem not_nodup_spelling_longerText :
    ∃ c file glue, (compile .standard longerText).outcome = .ok c ∧
      SourceFile.ofText longerText = .ok file ∧
      (Glue.fileGlue Options.standard.dialect Options.standard.registry file).outcome = .ok glue ∧
      c.code = glue.code ∧ (∀ i ∈ file.interfaces, i.MembersDistinct) ∧
      ¬(glue.symbols.map Symbol.spelling).Nodup := by
  have hok : (Glue.fileGlue Options.standard.dialect Options.standard.registry
      longerFile).outcome.isOk = true := by decide +kernel
  obtain ⟨glue, hglue⟩ := Traversal.isOk_iff.mp hok
  have hmembers : ∀ i ∈ longerFile.interfaces, i.methodNames.Nodup ∧ i.propertyNames.Nodup := by
    decide
  have hcompile := compile_eq_ok_iff.mpr ⟨longerFile, glue, ofText_longerText, hglue, rfl⟩
  refine ⟨_, longerFile, glue, hcompile, ofText_longerText, hglue, rfl, ?_, ?_⟩
  · intro i hi
    exact ⟨(hmembers i hi).1, (hmembers i hi).2⟩
  · rw [Glue.symbols_fileGlue hglue]
    decide +kernel

end IdlGlue
