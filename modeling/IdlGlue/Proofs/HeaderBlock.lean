/-
# IdlGlue.Proofs.HeaderBlock -- the include lines at the head of the code

    `#include` blanks `<` path `>`          `#include` blanks `"` path `"`

An include line of a source is one of these two, and is kept as it is written. The code of a file
begins with the include lines that the dialect asks for and those of the source, each with a newline
behind it, and with an empty line. So much holds of every source, in its order and with every
repetition (`HeaderBlock.text`).

Whether each include line is one line of the code is another matter. The path has no newline, but
the blanks in front of it may have, and an include line that is broken there stays broken.

| the blanks        | lines of the code | directive                     |
|-------------------|-------------------|-------------------------------|
| without a newline | one               | complete                      |
| with a newline    | two or more       | none of the lines is complete |

The include lines of a source are lines of its code exactly when the first row holds of all of them
(`HeaderBlock.oneLineEach_iff`).
-/
import IdlGlue.Proofs.Compilation
import IdlGlue.Proofs.Lines
import IdlGlue.Proofs.MemberForm

namespace IdlGlue

open IdlGlue.Text IdlGlue.Scan IdlGlue.Statement

/-! ## Include lines -/

/-- The marks around the path of an include line. -/
inductive PathMarks where
  | angle
  | quote
deriving DecidableEq, Repr

def PathMarks.opening : PathMarks → String
  | .angle => "<"
  | .quote => "\""

def PathMarks.closing : PathMarks → Char
  | .angle => '>'
  | .quote => '"'

/-- A path opens with one character, and neither mark breaks the line. -/
theorem PathMarks.opening_eq (m : PathMarks) :
    ∃ c, m.opening.toList = [c] ∧ '\n' ≠ c ∧ c ≠ 'i' ∧ '\n' ≠ m.closing := by
  cases m with
  | angle => exact ⟨'<', by decide⟩
  | quote => exact ⟨'"', by decide⟩

/-- The parts of an include line. -/
structure HeaderForm where
  blanks : Blanks
  marks : PathMarks
  path : {w : List Char // w ≠ [] ∧ AllIn (fun c => c != marks.closing && c != '\n') w}

/-- The include line as it is written. -/
def HeaderForm.text (p : HeaderForm) : List Char :=
  "#include".toList ++ (p.blanks.1 ++ (p.marks.opening.toList ++
    (p.path.1 ++ [p.marks.closing])))

/-- The text is an include line, complete and on one line. -/
def Directive (line : String) : Prop :=
  ∃ p : HeaderForm, line.toList = p.text ∧ '\n' ∉ p.blanks.1

/-- A line can be broken only in front of its path. -/
theorem HeaderForm.newline_mem_text_iff (p : HeaderForm) : '\n' ∈ p.text ↔ '\n' ∈ p.blanks.1 := by
  have hword : '\n' ∉ "#include".toList := by decide
  have hpath : '\n' ∉ p.path.1 := fun hmem => by simpa using p.path.2.2 '\n' hmem
  obtain ⟨mark, hopening, hmark, _, hclosing⟩ := p.marks.opening_eq
  unfold HeaderForm.text
  simp only [hopening, List.mem_append, List.mem_singleton, hword, hmark, hclosing, hpath,
    or_false, false_or]

theorem exists_path_of_afterPath? {marks : PathMarks} {cs rest : List Char}
    (h : afterPath? marks.opening marks.closing cs = some rest) :
    ∃ path, path ≠ [] ∧ AllIn (fun c => c != marks.closing && c != '\n') path ∧
      cs = marks.opening.toList ++ (path ++ marks.closing :: rest) := by
  obtain ⟨inner, hopening, h⟩ := Option.bind_eq_some_iff.mp h
  obtain ⟨⟨path, behind⟩, hpath, hclosing⟩ := Option.bind_eq_some_iff.mp h
  obtain ⟨hne, hin, _, rfl⟩ := run?_eq_some_iff_append.mp hpath
  have hbehind : behind = marks.closing :: rest := by
    rw [show behind = _ from literal?_eq_some_iff.mp hclosing, String.toList_ofList]
    rfl
  exact ⟨path, hne, hin, hbehind ▸ literal?_eq_some_iff.mp hopening⟩

/-- An include line is read only where one stands, up to its closing mark. -/
theorem HeaderReads.exists_form {cs rest : List Char} {line : String}
    (h : HeaderReads cs line rest) : ∃ p : HeaderForm, line.toList = p.text := by
  obtain ⟨hread, hcs⟩ := h
  obtain ⟨last, hlast, hp⟩ := Option.map_eq_some_iff.mp hread
  obtain ⟨-, rfl⟩ := Prod.mk.inj hp
  obtain ⟨behind, hword, hpath⟩ := Option.bind_eq_some_iff.mp hlast
  obtain ⟨blanks, hblanks⟩ := exists_blanks behind
  have hform : ∀ marks : PathMarks,
      afterPath? marks.opening marks.closing (afterBlanks behind) = some last →
      ∃ p : HeaderForm, line.toList = p.text := by
    intro marks h
    obtain ⟨path, hne, hin, hbehind⟩ := exists_path_of_afterPath? h
    refine ⟨⟨blanks, marks, path, hne, hin⟩, (List.append_left_inj last).mp ?_⟩
    unfold HeaderForm.text
    rw [← hcs, literal?_eq_some_iff.mp hword, hblanks, hbehind]
    simp only [List.append_assoc, List.singleton_append]
  rcases Option.or_eq_some_iff.mp hpath with h | ⟨_, h⟩
  · exact hform .angle h
  · exact hform .quote h

/-- What a source keeps as include lines are include lines. -/
theorem SourceFile.Tiles.header_form {cs : List Char} {file : SourceFile}
    (h : SourceFile.Tiles cs file) {line : String} (hline : line ∈ file.headers) :
    ∃ p : HeaderForm, line.toList = p.text := by
  obtain ⟨_, _, _, _, hheaders, _⟩ := h
  exact hheaders.forall_mem (fun hread => hread.exists_form) line hline

/-! ## The block in the code -/

/-- Behind the include lines and an empty line the code goes on with the first delegate, or with
the namespace where there is none. -/
def OpensBehind (file : SourceFile) (behind : String) : Prop :=
  match file.delegates with
  | [] => ∃ tail, behind = "namespace\n\x7b\n" ++ tail
  | d :: _ => ∃ tail,
      behind = "using " ++ (Native.Symbol.callback d.flatName).spelling ++ " = " ++ tail

/-- Include lines and an empty line are the first lines of the code, each as it is given. -/
def OneLineEach (headers : List String) (file : SourceFile) (code : String) : Prop :=
  ∃ behind, OpensBehind file behind ∧
    linePieces code.toList = headers.map String.toList ++ [] :: linePieces behind.toList

/-- The head of the code of a file, where the dialect asks for the include lines `runtime`. -/
structure HeaderBlock (runtime : List String) (file : SourceFile) (code : String) : Prop where
  /-- Nothing but include lines is kept as one. -/
  forms : ∀ line ∈ file.headers, ∃ p : HeaderForm, line.toList = p.text
  /-- The include lines stand at the head, all and in their order, and an empty line behind them. -/
  text : ∃ behind, OpensBehind file behind ∧
    code = String.join ((runtime ++ file.headers).map (· ++ "\n")) ++ "\n" ++ behind ∧
    linePieces code.toList = runtime.map String.toList ++
      file.headers.flatMap (fun line => linePieces line.toList) ++ [] :: linePieces behind.toList
  /-- They are lines of the code where none of them is broken. -/
  oneLineEach_iff : OneLineEach (runtime ++ file.headers) file code ↔
    ∀ line ∈ file.headers, Directive line

theorem toList_joinLines (lines : List String) :
    (String.join (lines.map (· ++ "\n"))).toList =
      (lines.map String.toList).flatMap (· ++ ['\n']) := by
  simp [String.toList_join, List.flatMap_map]

namespace Glue

open IdlGlue.Native

variable {dialect : Dialect} {registry : Registry} {file : SourceFile} {glue : FileGlue}

/-- The glue of the delegate: its flat name, and the native spellings of its types. -/
structure CallbackGlue.Of (rules : Rules) (d : Delegate) (c : CallbackGlue) : Prop where
  flatName : c.flatName = d.flatName
  result : rules.signatureType d.result = .ok c.result
  params : List.Forall₂ (fun p type => rules.signatureType p.type = .ok type) d.params c.params

theorem of_callbackGlue {rules : Rules} {d : Delegate} {c : CallbackGlue}
    (h : (callbackGlue rules d).outcome = .ok c) : c.Of rules d := by
  rw [outcome_callbackGlue] at h
  obtain ⟨result, hresult, h⟩ := Traversal.bind_eq_ok_iff.mp h
  obtain ⟨params, hparams, h⟩ := Traversal.bind_eq_ok_iff.mp h
  cases h
  exact ⟨rfl, hresult, Traversal.mapM_eq_ok_iff.mp hparams⟩

/-- What stands ahead of the namespace: include lines and delegates. -/
theorem prelude_fileGlue (h : (fileGlue dialect registry file).outcome = .ok glue) :
    glue.headers = dialect.runtimeHeaders ++ file.headers ∧
      List.Forall₂ (CallbackGlue.Of (rulesFor dialect registry file)) file.delegates
        glue.callbacks := by
  rw [outcome_fileGlue] at h
  obtain ⟨⟨⟩, _, h⟩ := Traversal.bind_eq_ok_iff.mp h
  obtain ⟨callbacks, hcallbacks, h⟩ := Traversal.bind_eq_ok_iff.mp h
  obtain ⟨interfaces, _, h⟩ := Traversal.bind_eq_ok_iff.mp h
  cases h
  exact ⟨rfl, (Traversal.mapM_eq_ok_iff.mp hcallbacks).imp fun _ _ hc => of_callbackGlue hc⟩

theorem CallbackGlue.aliasLine_start (g : CallbackGlue) :
    ∃ tail, g.aliasLine = "using " ++ (Symbol.callback g.flatName).spelling ++ " = " ++ tail := by
  refine ⟨g.result ++ "(*)(" ++ ", ".intercalate g.params ++ ");\n", ?_⟩
  apply String.toList_inj.mp
  simp [aliasLine, Symbol.spelling]

/-- The code of a file, from its include lines on. -/
theorem exists_code_eq (h : (fileGlue dialect registry file).outcome = .ok glue) :
    ∃ behind, OpensBehind file behind ∧
      glue.code =
        String.join ((dialect.runtimeHeaders ++ file.headers).map (· ++ "\n")) ++ "\n" ++
          behind := by
  obtain ⟨hheaders, hcallbacks⟩ := prelude_fileGlue h
  rw [glue.code_eq, FileGlue.prelude, hheaders]
  unfold OpensBehind
  generalize file.delegates = delegates at hcallbacks ⊢
  generalize glue.callbacks = callbacks at hcallbacks ⊢
  cases hcallbacks with
  | nil =>
      refine ⟨"namespace\n\x7b\n" ++ (glue.inside ++ "\n\x7d\n"), ⟨_, rfl⟩, ?_⟩
      simp only [List.map_nil, String.join_nil, String.append_empty, String.append_assoc]
      rfl
  | @cons d c ds cs hc hcs =>
      obtain ⟨tail, htail⟩ := c.aliasLine_start
      rw [hc.flatName] at htail
      refine ⟨c.aliasLine ++ (c.castHelper ++
        (String.join (cs.map fun c => "\n" ++ c.aliasLine ++ c.castHelper) ++
          ("\nnamespace\n\x7b\n" ++ (glue.inside ++ "\n\x7d\n")))), ?_, ?_⟩
      · rw [htail]
        simp only [String.append_assoc]
        exact ⟨_, rfl⟩
      · rw [List.map_cons, String.join_cons]
        simp only [String.append_assoc]

end Glue

theorem headerBlock_of_fileGlue {dialect : Dialect} {registry : Registry} {file : SourceFile}
    {glue : Glue.FileGlue} (hruntime : ∀ line ∈ dialect.runtimeHeaders, '\n' ∉ line.toList)
    (hforms : ∀ line ∈ file.headers, ∃ p : HeaderForm, line.toList = p.text)
    (h : (Glue.fileGlue dialect registry file).outcome = .ok glue) :
    HeaderBlock dialect.runtimeHeaders file glue.code := by
  obtain ⟨behind, hbehind, hcode⟩ := Glue.exists_code_eq h
  have hdirective : ∀ line ∈ file.headers, '\n' ∉ line.toList ↔ Directive line := by
    intro line hline
    constructor
    · intro hnewline
      obtain ⟨p, hp⟩ := hforms line hline
      exact ⟨p, hp, fun hmem => hnewline (hp ▸ p.newline_mem_text_iff.mpr hmem)⟩
    · rintro ⟨p, hp, hblanks⟩
      rw [hp, p.newline_mem_text_iff]
      exact hblanks
  have hlines : linePieces glue.code.toList = dialect.runtimeHeaders.map String.toList ++
      file.headers.flatMap (fun line => linePieces line.toList) ++
        [] :: linePieces behind.toList := by
    have hempty : linePieces ('\n' :: behind.toList) = [] :: linePieces behind.toList :=
      linePieces_append_cons [] behind.toList
    rw [hcode, String.append_assoc, String.toList_append, toList_joinLines, linePieces_flatMap,
      String.toList_append, List.map_append, List.flatMap_append,
      flatMap_linePieces (List.forall_mem_map.mpr hruntime), List.flatMap_map]
    exact congrArg _ hempty
  refine ⟨hforms, ⟨behind, hbehind, hcode, hlines⟩, ?_⟩
  constructor
  · -- A line of the code has no newline, whichever line it is.
    rintro ⟨behind', _, heach⟩ line hline
    refine (hdirective line hline).mp
      (newline_not_mem_of_mem_linePieces (?_ : line.toList ∈ linePieces glue.code.toList))
    rw [heach]
    exact List.mem_append_left _ (List.mem_map_of_mem (List.mem_append_right _ hline))
  · intro heach
    refine ⟨behind, hbehind, ?_⟩
    have hunbroken : ∀ line ∈ file.headers.map String.toList, '\n' ∉ line :=
      List.forall_mem_map.mpr fun line hline => (hdirective line hline).mpr (heach line hline)
    rw [hlines, List.map_append, ← List.flatMap_map, flatMap_linePieces hunbroken]

/-- **The code of a source that compiles begins with the standard include lines and those of the
source, as they are written, in their order and with every repetition, and an empty line follows in
front of the first delegate or the namespace.** They are its first lines, one by one, exactly when
no include line of the source is broken between `#include` and its path. -/
theorem headerBlock_of_compile {text : String} {c : Compiled}
    (h : (compile .standard text).outcome = .ok c) :
    ∃ file, SourceFile.ofText text = .ok file ∧ SourceFile.Tiles text.toList file ∧
      HeaderBlock Dialect.standard.runtimeHeaders file c.code := by
  obtain ⟨file, glue, hfile, hglue, rfl⟩ := compile_eq_ok_iff.mp h
  have htiles := (SourceFile.tiles_of_ofText hfile).1
  have hruntime : ∀ line ∈ Dialect.standard.runtimeHeaders, '\n' ∉ line.toList := by decide
  exact ⟨file, hfile, htiles,
    headerBlock_of_fileGlue hruntime (fun _ hline => htiles.header_form hline) hglue⟩

/-- Include lines of both kinds, one of them twice and one behind another on the same line. -/
def includesText : String :=
  "#include <a.h> #include \"b.h\"\n#include\t<a.h>\ndelegate void D(int x);"

theorem headerBlock_includesText :
    ∃ c, (compile .standard includesText).outcome = .ok c ∧
      ∃ file, SourceFile.ofText includesText = .ok file ∧
        SourceFile.Tiles includesText.toList file ∧
        HeaderBlock Dialect.standard.runtimeHeaders file c.code := by
  have hok : (compile .standard includesText).outcome.isOk = true := by decide +kernel
  obtain ⟨c, hc⟩ := Traversal.isOk_iff.mp hok
  exact ⟨c, hc, headerBlock_of_compile hc⟩

/-- An include line that is broken in front of its path. -/
def brokenText : String := "#include\n<a.h>\ninterface A \x7b\x7d"

def brokenFile : SourceFile where
  headers := ["#include\n<a.h>"]
  delegates := []
  interfaces := [{ name := "A", members := [] }]

/-- The text compiles, and the fourth line of its code is half an include line. -/
theorem not_oneLineEach_brokenText :
    ∃ c, (compile .standard brokenText).outcome = .ok c ∧
      SourceFile.ofText brokenText = .ok brokenFile ∧
      ¬ (∀ line ∈ brokenFile.headers, Directive line) ∧
      ¬ OneLineEach (Dialect.standard.runtimeHeaders ++ brokenFile.headers) brokenFile c.code := by
  have hok : (compile .standard brokenText).outcome.isOk = true := by decide +kernel
  obtain ⟨c, hc⟩ := Traversal.isOk_iff.mp hok
  have hfile : SourceFile.ofText brokenText = .ok brokenFile := by decide +kernel
  obtain ⟨file, glue, hread, hglue, rfl⟩ := compile_eq_ok_iff.mp hc
  obtain rfl := Except.ok.inj (hfile.symm.trans hread)
  have htiles := (SourceFile.tiles_of_ofText hfile).1
  have hblock := headerBlock_of_fileGlue (by decide) (fun _ hline => htiles.header_form hline) hglue
  have hbroken : ¬ ∀ line ∈ brokenFile.headers, Directive line := by
    intro hall
    obtain ⟨p, hp, hblanks⟩ := hall _ List.mem_cons_self
    rw [← p.newline_mem_text_iff, ← hp] at hblanks
    exact hblanks (by decide)
  exact ⟨_, hc, hfile, hbroken, fun heach => hbroken (hblock.oneLineEach_iff.mp heach)⟩

end IdlGlue
