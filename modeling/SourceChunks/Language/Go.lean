-- SUMMARY: Go: symbols, import declarations, and capitalised names.
import SourceChunks.Language
import SourceChunks.Text.Uppercase

/-!
# Go

A name is exported if it begins with an uppercase letter; a method also needs an exported receiver
type. A package belongs to the standard library if the first segment of its path has no dot.
-/

namespace SourceChunks.Language

namespace Go

def rules : Complexity.Rules where
  decisionPoints :=
    ["if_statement", "for_statement", "expression_case", "type_case", "communication_case", "&&",
     "||"]
  nesting :=
    ["if_statement", "for_statement", "expression_switch_statement", "type_switch_statement",
     "select_statement"]
  flat :=
    ["else", "expression_case", "type_case", "communication_case"]
  operatorSymbols :=
    ["=", ":=", "+=", "-=", "*=", "/=", "%=", "&=", "|=", "^=", "<<=", ">>=", "&^=", "+", "-",
     "*", "/", "%", "++", "--", "==", "!=", "<", ">", "<=", ">=", "&&", "||", "!", "&", "|", "^",
     "&^", "<<", ">>", "<-", "...", ".", ",", ";", ":", "(", "[", "\x7b"]
  operatorKeywords :=
    ["if", "else", "for", "range", "switch", "case", "default", "select", "go", "defer", "return",
     "break", "continue", "goto", "fallthrough", "func", "type", "struct", "interface", "map",
     "chan", "var", "const"]
  atomicOperands :=
    ["interpreted_string_literal", "raw_string_literal", "rune_literal"]

/-! ## Symbols -/

/-- The type that a method belongs to. -/
def receiverType? (source : String) (method : Node) : Option String :=
  (method.field? "receiver").bind fun receiver =>
    (receiver.namedChildren.find? (·.kind == "parameter_declaration")).bind fun parameter =>
      (parameter.field? "type").bind (·.simpleName? source)

/-- The types that a type declaration introduces. -/
def typeSpecs (declaration : Node) : List Node :=
  declaration.namedChildren.filter (·.isOneOf ["type_spec", "type_alias"])

/-- The node whose lines and header a type has: the whole declaration, if it introduces nothing
else. -/
def typeOwner (place : Place) : Node :=
  (place.parent.filter fun declaration =>
    declaration.kind == "type_declaration" && (typeSpecs declaration).length == 1).getD place.node

def typeKind? (type : Node) : Option SymbolKind :=
  match type.kind with
  | "struct_type" => some .classLike
  | "interface_type" => some .interface
  | _ => none

/-- The symbol of a function, a method, a struct or an interface. -/
def symbol? (source : String) (place : Place) (container : Option String) : Option Symbol :=
  let n := place.node
  match n.kind with
  | "function_declaration" =>
    (n.declaredName? source).map fun name =>
      { Symbol.ofNode source n name (.ofFunction container) container with
        returnType := n.returnType? source ["result"] }
  | "method_declaration" =>
    (n.declaredName? source).map fun name =>
      { Symbol.ofNode source n name .method (receiverType? source n <|> container) with
        returnType := n.returnType? source ["result"] }
  | "type_spec" =>
    ((n.field? "type").bind typeKind?).bind fun kind =>
      (n.declaredName? source).map fun name =>
        Symbol.ofNode source (typeOwner place) name kind container
  | _ => none

/-! ## Imports -/

/-- The import specifications of one part of a declaration, which may be a list. -/
def partSpecs (part : Node) : List Node :=
  match part.kind with
  | "import_spec" => [part]
  | "import_spec_list" => part.namedChildren.filter (·.kind == "import_spec")
  | _ => []

/-- The import specifications of a declaration, single or in a list. -/
def importSpecs (declaration : Node) : List Node :=
  declaration.namedChildren.flatMap partSpecs

/-- The import of a specification: its alias, or the last segment of the path, is what comes into
scope. -/
def specImport? (source : String) (spec : Node) : Option Import :=
  (spec.field? "path").map fun literal =>
    let path := Text.unquote (literal.text source)
    let last := (Text.splitAt '/' path).getLastD path
    ⟨path, [(spec.fieldText? source "name").getD last]⟩

def importEntries (source : String) (place : Place) : List Import :=
  (importSpecs place.node).filterMap (specImport? source)

/-- Packages of the standard library have no dot in the first segment of their path. -/
def isStandardPath (path : String) : Bool :=
  !Text.holds "." ((Text.splitAt '/' path).headD path)

/-! ## Exports -/

def isCapitalized (name : String) : Bool :=
  name.toList.head?.any Text.isUppercase

/-- The specifications of a constant or variable declaration, single or in a list. -/
def valueSpecs (declaration : Node) : List Node :=
  declaration.namedChildren.flatMap fun child =>
    match child.kind with
    | "const_spec" | "var_spec" => [child]
    | "var_spec_list" => child.namedChildren.filter (·.kind == "var_spec")
    | _ => []

/-- The names that a top-level item introduces where they can be exported. -/
def itemNames (source : String) (item : Node) : List String :=
  match item.kind with
  | "function_declaration" => (item.declaredName? source).toList
  | "method_declaration" =>
    if (receiverType? source item).any isCapitalized then (item.declaredName? source).toList
    else []
  | "type_declaration" => (typeSpecs item).filterMap (·.declaredName? source)
  | "const_declaration" | "var_declaration" =>
    (valueSpecs item).flatMap fun spec => (spec.fieldChildren "name").map (·.text source)
  | _ => []

/-- The capitalised names of the top-level items. -/
def exports (source : String) (root : Node) : List String :=
  ((root.namedChildren.flatMap (itemNames source)).filter isCapitalized).eraseDups

end Go

def go : Language where
  tag := "go"
  extensions := ["go"]
  targets := ["function_declaration", "method_declaration", "type_spec"]
  containers := []
  declarations := ["var_declaration", "var_spec"]
  passThrough := ["source_file", "type_declaration", "var_declaration", "var_spec_list"]
  functionValues := ["func_literal"]
  importKinds := ["import_declaration"]
  callKinds := ["call_expression"]
  rules := Go.rules
  symbol? := Go.symbol?
  importEntries := Go.importEntries
  isStandardPath := Go.isStandardPath
  exports := Go.exports

end SourceChunks.Language
