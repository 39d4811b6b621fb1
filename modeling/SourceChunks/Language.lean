-- SUMMARY: What the chunker knows about a language: its node kinds and its ways to read symbols, imports and exports.
import SourceChunks.Calls
import SourceChunks.Complexity.Cognitive
import SourceChunks.Complexity.Cyclomatic
import SourceChunks.Complexity.Halstead
import SourceChunks.Imports
import SourceChunks.Symbol

/-!
# Languages

A language is a value: lists of node kinds, the vocabulary of its complexity metrics, and a few
functions that read symbols, imports and exports off its syntax trees. Everything else is said once
for all languages.
-/

namespace SourceChunks

/-- A programming language. Functions that read a tree take the source text first. -/
structure Language where
  tag : String
  /-- File extensions, without the dot. -/
  extensions : List String
  /-- Kinds of nodes that become symbols. -/
  targets : List String
  /-- Kinds of nodes whose body holds members. -/
  containers : List String
  /-- Kinds of nodes that may bind a function value to a name. -/
  declarations : List String := []
  /-- Kinds of nodes that are looked through. -/
  passThrough : List String
  /-- Kinds of function values that a declaration may bind. -/
  functionValues : List String := []
  /-- Kinds of nodes that may be import statements. -/
  importKinds : List String
  /-- Kinds of nodes that are calls. -/
  callKinds : List String
  rules : Complexity.Rules
  /-- The name that members of a container carry. -/
  containerName? : String → Node → Option String :=
    fun source n => n.fieldText? source "name"
  /-- The symbol that a node becomes, given the name of its container. -/
  symbol? : String → Place → Option String → Option Symbol
  /-- All imports of one statement, those of the standard library included. -/
  importEntries : String → Place → List Import
  /-- Paths of the standard library. -/
  isStandardPath : String → Bool := fun _ => false
  /-- The names that a file exports, each once, in the order of first occurrence. -/
  exports : String → Node → List String
  /-- Whether a symbol is among the exported names. -/
  isExported : List String → Place → Symbol → Bool :=
    fun exports _ symbol => exports.contains symbol.name

namespace Language

def isTarget (lang : Language) (n : Node) : Bool := n.isOneOf lang.targets

def isContainer (lang : Language) (n : Node) : Bool := n.isOneOf lang.containers

def isDeclaration (lang : Language) (n : Node) : Bool := n.isOneOf lang.declarations

def isPassThrough (lang : Language) (n : Node) : Bool := n.isOneOf lang.passThrough

/-- Whether a file extension, in any case, belongs to a language. -/
def handlesExtension (lang : Language) (extension : String) : Bool :=
  lang.extensions.any (Text.sameLetters extension)

/-- A line that shows the tag and the extensions of a language. -/
def summary (lang : Language) : String :=
  let quoted (text : String) := "\"" ++ text ++ "\""
  "LanguageDefinition \x7b tag: " ++ quoted lang.tag ++ ", extensions: ["
    ++ ", ".intercalate (lang.extensions.map quoted) ++ "], .. \x7d"

/-- The node whose named children are the members of a container. -/
def containerBody? (n : Node) : Option Node :=
  n.field? "body"

/-! ## Imports -/

/-- The imports of a place that may be an import statement. -/
def statementEntries (lang : Language) (source : String) (place : Place) : List Import :=
  if place.node.isOneOf lang.importKinds then lang.importEntries source place else []

/-- The imports of a place and of what is below it, in source order, without those of the standard
library. Nothing is looked for inside a statement that has imports. -/
def importsFrom (lang : Language) (source : String) (place : Place) : FileImports :=
  let entries := lang.statementEntries source
  .ofList (((place.node.namedPlaces (fun place => (entries place).isEmpty) place.parent).flatMap
    entries).filter fun entry => !lang.isStandardPath entry.path)

def imports (lang : Language) (source : String) (root : Node) : FileImports :=
  lang.importsFrom source ⟨root, none⟩

/-- The first path of a statement that is not in the standard library. -/
def importPath? (lang : Language) (source : String) (place : Place) : Option String :=
  ((lang.importEntries source place).map (·.path)).find? fun path => !lang.isStandardPath path

end Language

end SourceChunks
