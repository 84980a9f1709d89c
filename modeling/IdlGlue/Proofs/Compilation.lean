/-
# IdlGlue.Proofs.Compilation -- what is known of a text that compiles

A compilation reads the text and makes the glue of what it has read, and it gives a value
exactly when both do (`compile_eq_ok_iff`). So everything that is proved of accepted texts and
of the glue of files holds of compiled code: its functions are called and call as the text
declares them (`calledAsDeclared_of_compile`), and within one source no two interfaces and no
two delegates share a flat name.
-/
import IdlGlue.Proofs.Acceptance
import IdlGlue.Proofs.Arguments
import IdlGlue.Proofs.Bare
import IdlGlue.Proofs.Slots

namespace IdlGlue

open IdlGlue.Native

/-- A compilation reads the text, and makes the glue of what it has read. -/
theorem outcome_compile (options : Options) (text : String) :
    (compile options text).outcome = SourceFile.ofText text >>= fun file =>
      (Glue.fileGlue options.dialect options.registry file).outcome >>= fun glue =>
      .ok { code := glue.code
            interfaces := file.interfaces.map Interface.name
            flatNames := glue.interfaces.map Glue.InterfaceGlue.flatName
            delegates := file.delegates.map Delegate.name } := by
  rw [compile, Logged.outcome_bind]
  simp only [Logged.outcome_bind]
  rfl

/-- The value of a compilation, by the value of its two parts. -/
theorem compile_eq_ok_iff {options : Options} {text : String} {c : Compiled} :
    (compile options text).outcome = .ok c ↔
      ∃ file glue, SourceFile.ofText text = .ok file ∧
        (Glue.fileGlue options.dialect options.registry file).outcome = .ok glue ∧
        c = { code := glue.code
              interfaces := file.interfaces.map Interface.name
              flatNames := glue.interfaces.map Glue.InterfaceGlue.flatName
              delegates := file.delegates.map Delegate.name } := by
  rw [outcome_compile, Traversal.bind_eq_ok_iff]
  constructor
  · rintro ⟨file, hfile, h⟩
    obtain ⟨glue, hglue, h⟩ := Traversal.bind_eq_ok_iff.mp h
    exact ⟨file, glue, hfile, hglue, (Except.ok.inj h).symm⟩
  · rintro ⟨file, glue, hfile, hglue, rfl⟩
    exact ⟨file, hfile, Traversal.bind_eq_ok_iff.mpr ⟨glue, hglue, rfl⟩⟩

/-! ## Names -/

namespace Glue

theorem flatName_of_interfaceGlue {rules : Rules} {i : Interface} {g : InterfaceGlue}
    (h : (interfaceGlue rules i).outcome = .ok g) : g.flatName = Name.flatten i.name := by
  rw [outcome_interfaceGlue] at h
  obtain ⟨draft, _, h⟩ := Traversal.bind_eq_ok_iff.mp h
  cases h
  rfl

theorem nodup_of_fileGlue {dialect : Dialect} {registry : Registry} {file : SourceFile}
    {glue : FileGlue} (h : (fileGlue dialect registry file).outcome = .ok glue) :
    (file.interfaces.map Interface.flatName).Nodup ∧
      (file.delegates.map Delegate.flatName).Nodup := by
  rw [outcome_fileGlue] at h
  obtain ⟨⟨⟩, hnames, _⟩ := Traversal.bind_eq_ok_iff.mp h
  exact (checkNames_verdict file).ok_iff.mp ⟨(), hnames⟩

end Glue

/-- The flat names that a compilation reports are those of the interfaces that it reports. -/
theorem flatNames_of_compile {options : Options} {text : String} {c : Compiled}
    (h : (compile options text).outcome = .ok c) :
    c.flatNames = c.interfaces.map Name.flatten := by
  obtain ⟨file, glue, _, hglue, rfl⟩ := compile_eq_ok_iff.mp h
  obtain ⟨_, _, hinterfaces⟩ := Glue.fileGlue_parts hglue
  have hall : List.Forall₂ (· = ·) (glue.interfaces.map Glue.InterfaceGlue.flatName)
      (file.interfaces.map Interface.flatName) := by
    rw [List.forall₂_map_left_iff, List.forall₂_map_right_iff]
    exact hinterfaces.flip.imp fun _ _ hg => Glue.flatName_of_interfaceGlue hg
  rw [List.forall₂_eq_eq_eq] at hall
  simp only [List.map_map]
  exact hall

/-- No two interfaces and no two delegates of one source share a flat name. -/
theorem nodup_of_compile {options : Options} {text : String} {c : Compiled}
    (h : (compile options text).outcome = .ok c) :
    (c.interfaces.map Name.flatten).Nodup ∧ (c.delegates.map Name.flatten).Nodup := by
  obtain ⟨file, glue, _, hglue, rfl⟩ := compile_eq_ok_iff.mp h
  have hnodup := Glue.nodup_of_fileGlue hglue
  simp only [List.map_map]
  exact hnodup

/-! ## Calls -/

/-- The functions in the glue of a file are those that the file declares, in its order. Each is
called and calls as it is declared, and its text has no subscripts but the places that it
reads. -/
structure CalledAsDeclared (file : SourceFile) (glue : Glue.FileGlue) : Prop where
  functions : List.Forall₂ (fun i g => List.Forall₂ Glue.Keeps i.entries g.functions)
    file.interfaces glue.interfaces
  texts : ∀ g ∈ glue.interfaces, ∀ f ∈ g.functions,
    subscripts f.text.toList = f.argumentsRead.map numeral

/-- **In code that is compiled with the standard options every function asserts the count of its
arguments, reads each parameter from its own place, once and in order, reads nothing but them
and its receiver, and hands the parameters to native code in the same order.** -/
theorem calledAsDeclared_of_compile {text : String} {c : Compiled}
    (h : (compile .standard text).outcome = .ok c) :
    ∃ file glue, SourceFile.ofText text = .ok file ∧
      (Glue.fileGlue Options.standard.dialect Options.standard.registry file).outcome = .ok glue ∧
      c.code = glue.code ∧ CalledAsDeclared file glue := by
  obtain ⟨file, glue, hfile, hglue, rfl⟩ := compile_eq_ok_iff.mp h
  obtain ⟨_, _, hinterfaces⟩ := Glue.fileGlue_parts hglue
  have hnamed := SourceFile.interfaces_named hfile
  refine ⟨file, glue, hfile, hglue, rfl, ?_, ?_⟩
  · have hboth := (List.forall₂_and_left _ _).mpr ⟨hnamed, hinterfaces⟩
    exact hboth.imp fun i g h => Glue.keeps_interfaceGlue h.1.2 h.2
  · refine Traversal.forall_mem_of_forall₂ hinterfaces fun i hi g hg => ?_
    exact Glue.subscripts_interfaceGlue (Glue.bareRules_standard _) (hnamed i hi).1 hg

/-- A class with a function of each kind. -/
def shopText : String :=
  "interface Shop \x7b constructor(int size, string name); int take(Item what, double price);" ++
  " attribute int open; \x7d"

theorem calledAsDeclared_shopText :
    ∃ c, (compile .standard shopText).outcome = .ok c ∧
      ∃ file glue, SourceFile.ofText shopText = .ok file ∧
        (Glue.fileGlue Options.standard.dialect Options.standard.registry file).outcome =
          .ok glue ∧
        c.code = glue.code ∧ CalledAsDeclared file glue := by
  have hok : (compile .standard shopText).outcome.isOk = true := by decide +kernel
  cases hc : (compile .standard shopText).outcome with
  | error e =>
      rw [hc] at hok
      cases hok
  | ok c => exact ⟨c, rfl, calledAsDeclared_of_compile hc⟩

end IdlGlue
