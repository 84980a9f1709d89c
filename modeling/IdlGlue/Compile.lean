/-
# IdlGlue.Compile -- from interface text to glue

`compile` reads a source text and makes the glue of it. The options choose the
dialect, and how the prototypes of `anyof` values are found: by a registry of the
caller's, or by the hashed table of the binding layer.
-/
import IdlGlue.Reading
import IdlGlue.Glue.File

namespace IdlGlue

/-- What a compilation may be told. -/
structure Options where
  dialect : Dialect
  /-- The function that hashes the names of type sets; for the hashed table only. -/
  hashFunction : String
  /-- The registry, where it is not the hashed table. -/
  registry? : Option Registry

/-- The options that are used where none are chosen. -/
def Options.standard : Options where
  dialect := .standard
  hashFunction := "Zmey::Hash"
  registry? := none

/-- The registry that resolves `anyof` values. -/
def Options.registry (o : Options) : Registry :=
  o.registry?.getD (.hashed o.dialect.bindingNamespace o.hashFunction)

/-- What a compilation gives. -/
structure Compiled where
  /-- The generated code. -/
  code : String
  /-- The qualified names of the interfaces. -/
  interfaces : List String
  /-- The flat names of the interfaces. -/
  flatNames : List String
  /-- The qualified names of the delegates. -/
  delegates : List String
deriving DecidableEq, Repr

/-- The source declares neither an interface nor a delegate. -/
def Compiled.isEmpty (c : Compiled) : Bool := c.interfaces.isEmpty && c.delegates.isEmpty

/-- The glue of a source text. -/
def compile (options : Options) (text : String) : Logged Compiled := do
  let file ← SourceFile.ofText text
  let glue ← Glue.fileGlue options.dialect options.registry file
  return {
    code := glue.code
    interfaces := file.interfaces.map Interface.name
    flatNames := glue.interfaces.map Glue.InterfaceGlue.flatName
    delegates := file.delegates.map Delegate.name }

end IdlGlue
