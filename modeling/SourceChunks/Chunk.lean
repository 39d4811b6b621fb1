-- SUMMARY: Chunks: pieces of a source file with what is known about them.
import SourceChunks.Calls
import SourceChunks.Complexity.Halstead
import SourceChunks.Imports
import SourceChunks.Symbol
import SourceChunks.Windows

/-!
# Chunks

A chunk is a range of lines with its text and what is known about it: the symbol or template block
it belongs to, how complex that is, what it calls, and what the file imports and exports.
-/

namespace SourceChunks

/-- The kinds of blocks that stand apart from the text of a template. -/
inductive BlockKind where
  | schema
  | style
  | javascript
  deriving Repr, DecidableEq, Inhabited

/-- What a chunk is: text between symbols or blocks, a block of a template, or a symbol. -/
inductive ChunkKind where
  | template
  | block
  | symbol (kind : SymbolKind)
  deriving Repr, DecidableEq, Inhabited

/-- What the element is that a chunk belongs to. -/
inductive ElementKind where
  | symbol (kind : SymbolKind)
  | block (kind : BlockKind)
  deriving Repr, DecidableEq, Inhabited

/-- What is known about a chunk. -/
structure Metadata where
  file : String
  /-- The first line, counted from one. -/
  startLine : Nat
  /-- The last line, counted from one. -/
  endLine : Nat
  kind : ChunkKind
  /-- The tag of the language. -/
  language : String
  symbolName : Option String := none
  symbolType : Option ElementKind := none
  parentClass : Option String := none
  complexity : Option Nat := none
  cognitiveComplexity : Option Nat := none
  halsteadVolume : Option Float := none
  halsteadDifficulty : Option Float := none
  halsteadEffort : Option Float := none
  halsteadBugs : Option Float := none
  parameters : Option (List String) := none
  signature : Option String := none
  returnType : Option String := none
  /-- The import paths of the whole file. -/
  imports : Option (List String) := none
  /-- The names imported from each path. -/
  importedSymbols : Option (List (String × List String)) := none
  /-- The names that the whole file exports. -/
  exports : Option (List String) := none
  callSites : Option (List CallSite) := none
  deriving Repr, Inhabited

/-- A piece of a source file. -/
structure Chunk where
  content : String
  metadata : Metadata
  deriving Repr, Inhabited

namespace ChunkKind

def isSymbol : ChunkKind → Bool
  | symbol _ => true
  | _ => false

end ChunkKind

namespace Metadata

/-- Adds what is known about a symbol. -/
def withSymbol (m : Metadata) (s : Symbol) : Metadata :=
  { m with
    symbolName := some s.name
    symbolType := some (.symbol s.kind)
    parentClass := s.parentClass
    complexity := some s.complexity
    cognitiveComplexity := some s.cognitiveComplexity
    parameters := some s.parameters
    signature := some s.signature
    returnType := s.returnType }

def withHalstead (m : Metadata) (h : Halstead) : Metadata :=
  { m with
    halsteadVolume := some h.volume
    halsteadDifficulty := some h.difficulty
    halsteadEffort := some h.effort
    halsteadBugs := some h.bugs }

/-- Adds the imports of the file, if there are any. -/
def withImports (m : Metadata) (imports : FileImports) : Metadata :=
  if imports.isEmpty then m
  else { m with imports := some imports.paths, importedSymbols := some imports.namesByPath }

end Metadata

namespace Chunk

def startLine (c : Chunk) : Nat := c.metadata.startLine

def endLine (c : Chunk) : Nat := c.metadata.endLine

def lineCount (c : Chunk) : Nat :=
  c.endLine - c.startLine + 1

def containsLine (c : Chunk) (line : Nat) : Bool :=
  LineRange.contains ⟨c.startLine, c.endLine⟩ line

/-- Chunks in the order of their first lines; chunks that start on one line keep their order. -/
def sorted (chunks : List Chunk) : List Chunk :=
  chunks.mergeSort fun a b => a.startLine ≤ b.startLine

end Chunk

end SourceChunks
