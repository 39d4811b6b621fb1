-- SUMMARY: Python: symbols, `import` and `from` statements, and top-level definitions.
import SourceChunks.Language

/-!
# Python

Every top-level function and class is exported, with or without decorators. A class lists its base
classes as parameters.
-/

namespace SourceChunks.Language

namespace Python

def rules : Complexity.Rules where
  decisionPoints :=
    ["if_statement", "elif_clause", "for_statement", "while_statement", "except_clause",
     "conditional_expression", "case_clause", "for_in_clause", "if_clause", "and", "or"]
  nesting :=
    ["if_statement", "for_statement", "while_statement", "except_clause", "match_statement"]
  flat :=
    ["elif_clause", "else_clause", "conditional_expression", "case_clause"]
  operatorSymbols :=
    ["=", "+=", "-=", "*=", "/=", "//=", "%=", "**=", "@=", "&=", "|=", "^=", "<<=", ">>=", ":=",
     "+", "-", "*", "/", "//", "%", "**", "@", "==", "!=", "<", ">", "<=", ">=", "&", "|", "^",
     "~", "<<", ">>", "->", ".", ",", ":", "(", "[", "\x7b"]
  operatorKeywords :=
    ["and", "or", "not", "in", "is", "if", "elif", "else", "for", "while", "return", "yield",
     "await", "async", "def", "class", "lambda", "try", "except", "finally", "raise", "with",
     "as", "pass", "break", "continue", "del", "global", "nonlocal", "assert", "match", "case"]
  atomicOperands :=
    ["string", "concatenated_string"]

def symbol? (source : String) (place : Place) (container : Option String) : Option Symbol :=
  let n := place.node
  match n.kind with
  | "class_definition" =>
    (n.declaredName? source).map fun name =>
      { Symbol.ofNode source n name .classLike container with
        parameters := n.parameters source "superclasses" }
  | "function_definition" =>
    (n.declaredName? source).map fun name =>
      Symbol.ofNode source n name (.ofFunction container) container
  | _ => none

/-- The import of one name of an `import` statement: the alias, or the first part of the path, is
what comes into scope. -/
def moduleImport? (source : String) (name : Node) : Option Import :=
  if name.kind == "aliased_import" then
    (name.fieldText? source "name").bind fun path =>
      (name.fieldText? source "alias").map fun other => ⟨path, [other]⟩
  else
    let path := name.text source
    some ⟨path, [(Text.splitAt '.' path).headD ""]⟩

/-- What one name of a `from` statement brings into scope. -/
def importedName? (source : String) (name : Node) : Option String :=
  if name.kind == "aliased_import" then name.fieldText? source "alias"
  else some (name.text source)

def importEntries (source : String) (place : Place) : List Import :=
  let n := place.node
  let names := n.fieldChildren "name"
  match n.kind with
  | "import_statement" => names.filterMap (moduleImport? source)
  | "import_from_statement" =>
    ((n.fieldText? source "module_name").map fun path =>
      { path
        names := names.filterMap (importedName? source)
          ++ if n.namedChildren.any (·.kind == "wildcard_import") then ["*"] else [] }).toList
  | _ => []

/-- The definition that a top-level statement holds, under its decorators. -/
def definition? (statement : Node) : Option Node :=
  if statement.kind == "decorated_definition" then statement.field? "definition"
  else some statement

/-- The names of the top-level functions and classes. -/
def exports (source : String) (root : Node) : List String :=
  (((root.namedChildren.filterMap definition?).filter
    (·.isOneOf ["function_definition", "class_definition"])).filterMap
      (·.declaredName? source)).eraseDups

end Python

def python : Language where
  tag := "python"
  extensions := ["py", "pyi"]
  targets := ["function_definition", "class_definition"]
  containers := ["class_definition"]
  declarations := ["expression_statement"]
  passThrough := ["module", "decorated_definition"]
  functionValues := ["lambda"]
  importKinds := ["import_statement", "import_from_statement"]
  callKinds := ["call"]
  rules := Python.rules
  symbol? := Python.symbol?
  importEntries := Python.importEntries
  exports := Python.exports

end SourceChunks.Language
