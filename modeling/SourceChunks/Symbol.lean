-- SUMMARY: Symbols: the named program elements of a source file.
import SourceChunks.Symbol.Signature

/-!
# Symbols

A symbol is a named program element with its line range: a function, a method, a class or an
interface. Symbols are read from the nodes of a syntax tree; their complexity is measured later.
-/

namespace SourceChunks

/-- The kinds of program elements. -/
inductive SymbolKind where
  | function
  | method
  /-- Classes and other types that hold data. -/
  | classLike
  | interface
  deriving Repr, DecidableEq, Inhabited

/-- A named program element. -/
structure Symbol where
  name : String
  kind : SymbolKind
  /-- The first line, counted from one. -/
  startLine : Nat
  /-- The last line, counted from one. -/
  endLine : Nat
  /-- The class, interface or other container that the element is a member of. -/
  parentClass : Option String
  /-- The header of the declaration, on one line. -/
  signature : String
  parameters : List String
  returnType : Option String
  /-- The cyclomatic complexity. -/
  complexity : Nat := 1
  cognitiveComplexity : Nat := 0
  deriving Repr, DecidableEq, Inhabited

namespace SymbolKind

/-- What a function is called: a method inside a container, a function elsewhere. -/
def ofFunction (container : Option String) : SymbolKind :=
  if container.isSome then .method else .function

end SymbolKind

namespace Symbol

def lineCount (s : Symbol) : Nat :=
  s.endLine - s.startLine + 1

/-- The symbol that a declaration introduces: lines and header from the whole node, parameters and
return type from the fields that hold them in most grammars. -/
def ofNode (source : String) (n : Node) (name : String) (kind : SymbolKind)
    (container : Option String) : Symbol where
  name := name
  kind := kind
  startLine := n.startLine source
  endLine := n.endLine source
  parentClass := container
  signature := n.signature source n
  parameters := n.parameters source "parameters"
  returnType := n.returnType? source ["return_type"]

end Symbol

/-- How the definitions of a language become symbols: kinds of nodes for each kind of symbol, and
the place of the return type where it is not the usual one. -/
structure Definitions where
  classes : List String
  interfaces : List String
  functions : List String
  /-- Kinds of nodes that hold a return type in fields of their own. -/
  typed : List String := []
  typeFields : List String := []

namespace Definitions

def kind? (definitions : Definitions) (n : Node) (container : Option String) :
    Option SymbolKind :=
  if n.isOneOf definitions.classes then some .classLike
  else if n.isOneOf definitions.interfaces then some .interface
  else if n.isOneOf definitions.functions then some (.ofFunction container)
  else none

def symbol? (definitions : Definitions) (source : String) (place : Place)
    (container : Option String) : Option Symbol :=
  let n := place.node
  (definitions.kind? n container).bind fun kind =>
    (n.declaredName? source).map fun name =>
      let symbol := Symbol.ofNode source n name kind container
      if n.isOneOf definitions.typed then
        { symbol with returnType := n.returnType? source definitions.typeFields }
      else symbol

end Definitions

end SourceChunks
