/-
# IdlGlue.Glue.Member -- the functions that stand for the members of an interface

A method becomes one function, a property a getter and, unless it is readonly, a
setter, a constructor one function. Every function states how it expects to be called,
reads each declared parameter from its place in the argument array, asks native code,
and gives back `output`. A member function first unwraps its receiver from place zero;
a constructor function makes a new object and wraps it.
-/
import IdlGlue.Rules
import IdlGlue.Native.Function

namespace IdlGlue.Glue

open IdlGlue.Native

/-- What the functions of one interface share: its qualified name, and the rules. -/
structure Context where
  name : String
  rules : Rules

/-- The key of the interface's symbols. -/
def Context.flat (c : Context) : String := Name.flatten c.name

/-! ## Parts of a body -/

/-- The opening of a member function: the receiver, unwrapped. -/
def receiver (className : String) : List Stmt :=
  [.openOutput, .declare ⟨"void*", objectName⟩, .checkReceiver, .castReceiver className]

/-- One local, filled in from its place in the argument array. -/
def readLocal (r : Rules) (type : IdlType) (name : String) (index : Nat) :
    Except Fault (List Stmt) := do
  let decl ← r.storage type name
  let read ← Rules.readArgument type name index
  return .declare decl :: read

/-- The locals of the declared parameters, each filled in as soon as it is declared. -/
def readParams (r : Rules) : List Param → Except Fault (List Stmt)
  | [] => .ok []
  | p :: ps => do
    let first ← readLocal r p.type (localName p.name) p.scriptIndex
    let others ← readParams r ps
    return first ++ others

/-- The operands of the native call, one for each declared parameter. -/
def callOperands (params : List Param) : Except Fault (List Operand) :=
  params.mapM fun p => Rules.operand p.type (localName p.name)

/-- A native result, stored and given to the script. -/
def giveAccess (r : Rules) (type : IdlType) (source : Access) (selector : String) :
    Except Fault (List Stmt) := do
  let decl ← r.storage type resultName
  let conversion ← Rules.conversion type
  let give ← r.giveResult type selector
  return .declare decl :: .store resultName conversion source :: give

/-! ## Members -/

/-- The native expression that tells the classes of a method's `anyof` result apart: the
local of its first parameter, or the receiver where it has none. -/
def methodSelector (params : List Param) : String :=
  match params with
  | [] => receiverName
  | p :: _ => localName p.name

/-- The function of a method. -/
def methodFunction (c : Context) (m : Method) : Except Fault Function := do
  let reads ← readParams c.rules m.params
  let operands ← callOperands m.params
  let source := Access.call (memberName m.name m.nameAsIs) operands
  let ask ←
    if m.result = .void then pure [.perform source]
    else giveAccess c.rules m.result source (methodSelector m.params)
  return {
    symbol := .method c.flat m.name
    body := .expectCall false (m.params.length + 1) :: receiver c.name ++ reads ++ ask ++
      [.returnOutput] }

/-- The function that gives a property to the script. -/
def getterFunction (c : Context) (p : Property) : Except Fault Function := do
  let give ← giveAccess c.rules p.type (.field (memberName p.name p.nameAsIs)) receiverName
  return {
    symbol := .getter c.flat p.name
    body := .expectCall false 1 :: receiver c.name ++ give ++ [.returnOutput] }

/-- The function that sets a property from the script. -/
def setterFunction (c : Context) (p : Property) : Except Fault Function := do
  let read ← readLocal c.rules p.type (localName p.name) 1
  let value ← Rules.operand p.type (localName p.name)
  return {
    symbol := .setter c.flat p.name
    body := .expectCall false 2 :: receiver c.name ++ read ++
      [.writeField (memberName p.name p.nameAsIs) value, .returnOutput] }

/-- The functions of a property: its getter and, where it can be set, its setter. -/
def propertyFunctions (c : Context) (p : Property) : Except Fault (List Function) := do
  let getter ← getterFunction c p
  if p.readonly then return [getter]
  let setter ← setterFunction c p
  return [getter, setter]

/-- The function of a constructor. -/
def constructorFunction (c : Context) (params : List Param) : Except Fault Function := do
  let reads ← readParams c.rules params
  let operands ← callOperands params
  return {
    symbol := .constructor c.flat
    body := .expectCall true (params.length + 1) :: .openOutput :: reads ++
      [.create c.name operands] ++ Rules.wrapObject objectName (.slot c.flat) ++
      [.invoke (Symbol.registration c.flat).spelling [.value outputName], .returnOutput] }

end IdlGlue.Glue
