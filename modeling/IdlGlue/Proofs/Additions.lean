/-
# IdlGlue.Proofs.Additions -- what may be added to a source file

Two changes of a source file that do not touch what it declares before:

* a comment at any gap position, whatever it holds
  (`SourceFile.ofText_insert_comment`), and
* another source file behind it, as far as the sections stay in their order
  (`SourceFile.ofText_append`).

Both ask that every block closes at a brace outside comments. A block whose only brace is in
a line comment ends the file with it, and there more text changes where that brace is.
-/
import IdlGlue.Proofs.FileSpread

namespace IdlGlue

open IdlGlue.Text IdlGlue.Scan IdlGlue.Statement

/-! ## Comments -/

/-- The gap positions of a source file: between two declarations, before the first or behind
the last; or in the body of a block between two members, before the first or behind the
last. -/
inductive GapPosition : List Char → List Char → Prop
  | between {pre post : List Char} :
      Place (Decl.Stands Interface.Block BlockTail) post pre → GapPosition pre post
  | inside {pre head name inner post behind : List Char} :
      Place (Decl.Stands Interface.Block BlockTail) (head ++ (inner ++ post ++ '}' :: behind)) pre →
      InterfaceHead (head ++ (inner ++ post ++ '}' :: behind)) name
        (inner ++ post ++ '}' :: behind) →
      FirstBrace (inner ++ post ++ '}' :: behind) behind → Place Member.Reads post inner →
      GapPosition (pre ++ (head ++ inner)) (post ++ '}' :: behind)

section Comments

variable {pre post w head name inner behind behind' : List Char} {i : Interface}

/-- A comment in the body of a block. -/
theorem Interface.Block.insert
    (hhead : InterfaceHead (head ++ (inner ++ post ++ '}' :: behind)) name
      (inner ++ post ++ '}' :: behind))
    (hbrace : FirstBrace (inner ++ post ++ '}' :: behind) behind)
    (hplace : Place Member.Reads post inner) (hw : WholeComment w)
    (h : Interface.Block (head ++ (inner ++ post ++ '}' :: behind)) i behind') :
    behind' = behind ∧
      Interface.Block (head ++ (inner ++ (w ++ post) ++ '}' :: behind)) i behind := by
  obtain ⟨name', body, hhead', hname, hbody⟩ := h
  obtain ⟨rfl, hinner⟩ := interfaceHead_functional hhead hhead'
  have hends : FirstBrace (body ++ '}' :: behind') behind' := firstBrace_of_spread hbody
  rw [← hinner] at hends
  obtain rfl := hends.functional hbrace
  obtain rfl := List.append_cancel_right hinner
  obtain ⟨p, hp, hstable⟩ := interfaceHead_stable hhead
  obtain rfl := List.append_cancel_right hp
  have hnew := hplace.insert laid_member BodyEnd.fileEnd hw hbody
  exact ⟨rfl, name, inner ++ (w ++ post), hstable _, hname, hnew⟩

/-- A comment at a gap position leaves the declarations what they are. -/
theorem GapPosition.insert {ds : List Decl} (hplace : GapPosition pre post)
    (hw : WholeComment w)
    (h : Spread (Decl.Stands Interface.Block BlockTail) FileEnd (pre ++ post) ds) :
    Spread (Decl.Stands Interface.Block BlockTail) FileEnd (pre ++ (w ++ post)) ds := by
  cases hplace with
  | between hplace => exact hplace.insert laid_decl (fun _ => id) hw h
  | @inside pre head name inner post behind hblock hhead hbrace hplace =>
      have htext : pre ++ (head ++ inner) ++ (post ++ '}' :: behind) =
          pre ++ (head ++ (inner ++ post ++ '}' :: behind)) := by simp
      have htext' : pre ++ (head ++ inner) ++ (w ++ (post ++ '}' :: behind)) =
          pre ++ (head ++ (inner ++ (w ++ post) ++ '}' :: behind)) := by simp
      rw [htext] at h
      rw [htext']
      refine hblock.replace laid_decl (fun _ => id) h ?_
      intro ds hrest
      -- The block stands first behind the place, and stays what it is.
      obtain ⟨tail, hi⟩ := interfaceHead_start hhead
      have hstart : ItemStart (head ++ (inner ++ post ++ '}' :: behind)) :=
        ⟨'i', tail, hi, by decide, by decide, by decide⟩
      obtain ⟨d, ds, rest, rfl, hfirst, hbehind⟩ := hrest.first (fun _ => id) hstart
      obtain ⟨tail', hd⟩ := hfirst.head? Interface.Block.start
      rw [hi] at hd
      have hmark := (List.cons.inj hd).1
      cases hfirst with
      | header => exact absurd hmark (by simp [Decl.mark])
      | delegate => exact absurd hmark (by simp [Decl.mark])
      | interface hstands htail =>
          obtain ⟨rfl, hnew⟩ := hstands.insert hhead hbrace hplace hw
          exact .item (.interface hnew htail) hbehind

end Comments

/-- Texts that close every block outside comments and declare the same as an accepted one are
accepted. -/
theorem SourceFile.ofText_eq_ok_of_spread {cs : List Char} {file : SourceFile}
    (h : Spread (Decl.Stands Interface.Block BlockTail) FileEnd cs file.decls)
    (hvoid : ∀ p ∈ file.params, p.type ≠ .void) :
    SourceFile.ofText (String.ofList cs) = .ok file := by
  rw [SourceFile.ofText_eq_ok_iff_spread, String.toList_ofList]
  refine ⟨h.mono ?_ (fun _ => id), hvoid⟩
  intro cs d rest hstands
  exact hstands.opens

/-- **A comment at a gap position changes nothing.** Its text may be anything that does not
end it. -/
theorem SourceFile.ofText_insert_comment {pre post w : List Char} {file : SourceFile}
    (hread : SourceFile.ofText (String.ofList (pre ++ post)) = .ok file)
    (hclosed : SourceFile.ClosedTiles (pre ++ post) file) (hplace : GapPosition pre post)
    (hw : WholeComment w) :
    SourceFile.ofText (String.ofList (pre ++ (w ++ post))) = .ok file := by
  have hspread := SourceFile.closedTiles_iff_spread.mp hclosed
  have hvoid := (SourceFile.ofText_eq_ok_iff_spread.mp hread).2
  exact SourceFile.ofText_eq_ok_of_spread (hplace.insert hw hspread) hvoid

/-- A method without parameters. -/
def count : Method := { result := .ofToken "int", name := "count", params := [], nameAsIs := false }

/-- A class with this method. -/
def shelf : Interface := { name := "Shelf", members := [.method count] }

/-- The text of the class: its head, what stands in its body, and the closing brace. -/
def shelfHead : List Char := "interface Shelf \x7b".toList

def shelfBody : List Char := " int count(); ".toList

theorem head_shelf (inner : List Char) :
    InterfaceHead (shelfHead ++ inner) "Shelf".toList inner := by
  have hhead : shelfHead = "interface".toList ++ [' '] ++ "Shelf".toList ++ [' '] ++ ['{'] := by
    decide
  have htext : shelfHead ++ inner =
      "interface".toList ++ [' '] ++ "Shelf".toList ++ [' '] ++ '{' :: inner := by
    rw [hhead, List.append_assoc]
    rfl
  rw [htext]
  exact .mk (by decide) (by decide) (by decide) (by decide) (by decide)

theorem spread_shelfBody : Spread Member.Reads BodyEnd shelfBody [.method count] := by
  have hbody : shelfBody = ' ' :: "int count(); ".toList := by decide
  have hread : method.read "int count(); ".toList = some
      ({ nameAsIs := false, result := "int".toList, name := "count".toList, args := [] },
        [' ']) := by
    decide +kernel
  have hmember : Member.Reads "int count(); ".toList (.method count) [' '] :=
    .method hread (by decide) (by decide) (.nil 0) rfl
  rw [hbody]
  exact .blank (by decide) (.item hmember (.blank (by decide) (.last rfl)))

/-- The class is a whole source file. -/
def shelfFile : SourceFile := { headers := [], delegates := [], interfaces := [shelf] }

def shelfText : List Char := shelfHead ++ (shelfBody ++ ['}'])

theorem spread_shelfText :
    Spread (Decl.Stands Interface.Block BlockTail) FileEnd shelfText shelfFile.decls := by
  have hname : shelf.name = String.ofList "Shelf".toList := by decide
  have hblock : Interface.Block shelfText shelf [] :=
    ⟨_, shelfBody, head_shelf _, hname, spread_shelfBody⟩
  have hno : NoSemicolon [] := fun h => nomatch h
  exact .item (.interface hblock (.bare hno)) (.last .empty)

theorem ofText_shelfText : SourceFile.ofText (String.ofList shelfText) = .ok shelfFile :=
  SourceFile.ofText_eq_ok_of_spread spread_shelfText (by decide)

theorem ofText_insert_comment_shelf :
    SourceFile.ofText (String.ofList (shelfHead ++ (shelfBody ++ ['}']))) = .ok shelfFile ∧
    SourceFile.ofText (String.ofList (shelfHead ++ ("/* \x7d ; // interface Box */".toList ++
      (shelfBody ++ ['}'])))) = .ok shelfFile := by
  have hplace : GapPosition ([] ++ (shelfHead ++ [])) (shelfBody ++ ['}']) :=
    .inside .here (head_shelf _) (firstBrace_of_spread spread_shelfBody) .here
  rw [List.nil_append, List.append_nil] at hplace
  have hw : WholeComment "/* \x7d ; // interface Box */".toList := by
    have htext : "/* \x7d ; // interface Box */".toList =
        '/' :: '*' :: (" \x7d ; // interface Box ".toList ++ ['*', '/']) := by decide
    rw [htext]
    exact .block (by decide +kernel)
  exact ⟨ofText_shelfText, SourceFile.ofText_insert_comment ofText_shelfText
    (SourceFile.closedTiles_iff_spread.mpr spread_shelfText) hplace hw⟩

/-! ## Source files one behind the other -/

/-- Where the sections stay in their order, the declarations of both files are those of one. -/
theorem SourceFile.decls_append {A B : SourceFile}
    (hheaders : B.headers ≠ [] → A.delegates = [] ∧ A.interfaces = [])
    (hdelegates : B.delegates ≠ [] → A.interfaces = []) :
    SourceFile.decls { headers := A.headers ++ B.headers, delegates := A.delegates ++ B.delegates,
                       interfaces := A.interfaces ++ B.interfaces } = A.decls ++ B.decls := by
  by_cases hinterfaces : A.interfaces = []
  · by_cases hA : A.delegates = []
    · simp [SourceFile.decls, hinterfaces, hA]
    · have hB : B.headers = [] := by
        by_contra hne
        exact hA (hheaders hne).1
      simp [SourceFile.decls, hinterfaces, hB]
  · have hB : B.headers = [] := by
      by_contra hne
      exact hinterfaces (hheaders hne).2
    have hB' : B.delegates = [] := by
      by_contra hne
      exact hinterfaces (hdelegates hne)
    simp [SourceFile.decls, hB, hB']

/-- **One file behind another declares what both declare.** Nothing of the second is read as
part of the first, as long as the blocks of the first close outside comments. -/
theorem SourceFile.ofText_append {a b : String} {A B : SourceFile}
    (ha : SourceFile.ofText a = .ok A) (hb : SourceFile.ofText b = .ok B)
    (hclosed : SourceFile.ClosedTiles a.toList A)
    (hheaders : B.headers ≠ [] → A.delegates = [] ∧ A.interfaces = [])
    (hdelegates : B.delegates ≠ [] → A.interfaces = []) :
    SourceFile.ofText (a ++ "\n" ++ b) =
      .ok { headers := A.headers ++ B.headers, delegates := A.delegates ++ B.delegates,
            interfaces := A.interfaces ++ B.interfaces } := by
  obtain ⟨_, hvoidA⟩ := SourceFile.ofText_eq_ok_iff_spread.mp ha
  obtain ⟨hspreadB, hvoidB⟩ := SourceFile.ofText_eq_ok_iff_spread.mp hb
  have hspreadA := SourceFile.closedTiles_iff_spread.mp hclosed
  have happend := hspreadA.append laid_decl (starts_decl Interface.Opens.start)
    (fun hstands => hstands.opens) hspreadB
  have htext : (a ++ "\n" ++ b).toList = a.toList ++ '\n' :: b.toList := by
    simp [String.toList_append]
  rw [SourceFile.ofText_eq_ok_iff_spread, htext, SourceFile.decls_append hheaders hdelegates]
  refine ⟨happend, ?_⟩
  rw [SourceFile.forall_mem_params_iff] at hvoidA hvoidB ⊢
  simp only [List.forall_mem_append]
  exact ⟨⟨hvoidA.1, hvoidB.1⟩, hvoidA.2, hvoidB.2⟩

/-- An include line, and a comment that goes to the end of the text. -/
def includeText : String := "#include <shelf.h> // the class itself follows"

def includeFile : SourceFile where
  headers := ["#include <shelf.h>"]
  delegates := []
  interfaces := []

theorem spread_includeText :
    Spread (Decl.Stands Interface.Block BlockTail) FileEnd includeText.toList
      includeFile.decls := by
  have hread : header.read includeText.toList =
      some ("#include <shelf.h>".toList,
        ' ' :: '/' :: '/' :: " the class itself follows".toList) := by
    decide +kernel
  have hheader : HeaderReads includeText.toList "#include <shelf.h>"
      (' ' :: '/' :: '/' :: " the class itself follows".toList) :=
    ⟨hread, by decide⟩
  exact .item (.header hheader) (.blank (by decide) (.last (.line (by decide))))

theorem ofText_append_shelf :
    SourceFile.ofText (includeText ++ "\n" ++ String.ofList shelfText) =
      .ok { headers := ["#include <shelf.h>"] ++ [], delegates := [] ++ [],
            interfaces := [] ++ [shelf] } := by
  have hread : SourceFile.ofText includeText = .ok includeFile := by
    have h := SourceFile.ofText_eq_ok_of_spread spread_includeText (by decide)
    rwa [String.ofList_toList] at h
  exact SourceFile.ofText_append hread ofText_shelfText
    (SourceFile.closedTiles_iff_spread.mpr spread_includeText) (by decide) (by decide)

end IdlGlue
