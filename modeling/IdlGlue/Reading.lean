/-
# IdlGlue.Reading -- from text to declarations

A source file is include lines, then delegates, then interfaces, with gaps between
them and nothing else. The statements of each kind are read as far as they go; what
they declare is then worked out in the order of the file, and text that is left over
is the last fault to be found. A statement out of place is therefore reported as text
where an interface should begin.

The body of an interface is read the same way, with one kind of statement, its
members, and a fault of its own for text that is left over.
-/
import IdlGlue.Declaration
import IdlGlue.Statement.TopLevel
import IdlGlue.Statement.Member

namespace IdlGlue

open IdlGlue.Scan IdlGlue.Statement

/-! ## What a statement declares -/

/-- The delegate that a statement declares. -/
def Delegate.ofStatement (s : DelegateText) : Except Fault Delegate := do
  let params ← Param.listOfText s.args
  return { result := .ofToken (String.ofList s.result), name := String.ofList s.name, params }

/-- The member that a statement declares. -/
def Member.ofStatement : MemberText → Except Fault Member
  | .constructor args => do
    let params ← Param.listOfText args
    return .constructor params
  | .method s => do
    let params ← Param.listOfText s.args
    return .method
      { result := .ofToken (String.ofList s.result), name := String.ofList s.name, params
        nameAsIs := s.nameAsIs }
  | .property s =>
    .ok (.property
      { type := .ofToken (String.ofList s.type), name := String.ofList s.name
        readonly := s.readonly, nameAsIs := s.nameAsIs })

/-- Nothing may be left of a text; `fault` tells of what is. -/
def expectEnd (fault : List Char → Fault) (rest : List Char) : Except Fault Unit :=
  if rest.isEmpty then .ok () else .error (fault rest)

/-- The members of an interface body. -/
def Member.listOfBody (body : List Char) : Except Fault (List Member) := do
  let (statements, rest) := member.readAll (afterGap body)
  let members ← statements.mapM Member.ofStatement
  expectEnd .noStatementAt rest
  return members

/-- The interface that a block declares. -/
def Interface.ofStatement (s : InterfaceText) : Except Fault Interface := do
  let members ← Member.listOfBody s.body
  return { name := String.ofList s.name, members }

/-! ## Whole texts -/

/-- The member at the start of a text and the text behind it; nothing where no member
statement begins. -/
def Member.read? (cs : List Char) : Except Fault (Option (Member × List Char)) :=
  match member.read cs with
  | none => .ok none
  | some (statement, rest) => do
    let decl ← Member.ofStatement statement
    return some (decl, rest)

/-- The declarations of a source file. -/
def SourceFile.ofText (text : String) : Except Fault SourceFile := do
  let (headers, behindHeaders) := header.readAll (afterGap text.toList)
  let (delegates, behindDelegates) := delegate.readAll behindHeaders
  let (interfaces, rest) := interface.readAll behindDelegates
  let delegates ← delegates.mapM Delegate.ofStatement
  let interfaces ← interfaces.mapM Interface.ofStatement
  expectEnd .noInterfaceAt rest
  return { headers := headers.map String.ofList, delegates, interfaces }

end IdlGlue
