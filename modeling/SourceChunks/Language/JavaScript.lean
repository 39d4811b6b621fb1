-- SUMMARY: JavaScript: symbols, module and `require` imports, and `export` statements.
import SourceChunks.Language

/-!
# JavaScript

Function values and classes without a name of their own are called `anonymous`. Imports are
`import` statements, calls of `require` with the names they are bound to, and dynamic imports.
Exports are what `export` statements name.
-/

namespace SourceChunks.Language.JavaScript

/-- The name of function values and classes that have none. -/
def anonymous : String := "anonymous"

/-- Function values, which are named after what they are bound to. -/
def functionValues : List String :=
  ["arrow_function", "function_expression", "function", "generator_function"]

def rules : Complexity.Rules where
  decisionPoints :=
    ["if_statement", "for_statement", "for_in_statement", "while_statement", "do_statement",
     "switch_case", "catch_clause", "ternary_expression", "&&", "||", "??"]
  nesting :=
    ["if_statement", "for_statement", "for_in_statement", "while_statement", "do_statement",
     "switch_statement", "catch_clause"]
  flat :=
    ["else_clause", "ternary_expression", "switch_case"]
  operatorSymbols :=
    ["=", "+=", "-=", "*=", "/=", "%=", "**=", "&=", "|=", "^=", "<<=", ">>=", ">>>=", "&&=",
     "||=", "??=", "+", "-", "*", "/", "%", "**", "++", "--", "==", "===", "!=", "!==", "<", ">",
     "<=", ">=", "&&", "||", "??", "!", "&", "|", "^", "~", "<<", ">>", ">>>", "?", ":", ".",
     "?.", "...", ",", ";", "(", "[", "\x7b", "=>"]
  operatorKeywords :=
    ["if", "else", "for", "while", "do", "switch", "case", "default", "break", "continue",
     "return", "throw", "try", "catch", "finally", "new", "delete", "typeof", "instanceof", "in",
     "of", "void", "await", "yield", "function", "class", "const", "let", "var", "async"]
  atomicOperands :=
    ["string", "template_string", "regex"]

/-! ## Symbols -/

/-- The name and kind of the symbol that a node becomes. -/
def nameAndKind? (source : String) (n : Node) (container : Option String) :
    Option (String × SymbolKind) :=
  match n.kind with
  | "class_declaration" => (n.declaredName? source).map (·, .classLike)
  | "class" => some ((n.declaredName? source).getD anonymous, .classLike)
  | "method_definition" => (n.declaredName? source).map (·, .method)
  | "function_declaration" | "generator_function_declaration" =>
    (n.declaredName? source).map (·, .ofFunction container)
  | _ =>
    if n.isOneOf functionValues then
      some ((n.declaredName? source).getD anonymous, .ofFunction container)
    else none

/-- The symbol of a node; an arrow function may have a single parameter without parentheses. -/
def symbol? (source : String) (place : Place) (container : Option String) : Option Symbol :=
  (nameAndKind? source place.node container).map fun (name, kind) =>
    let symbol := Symbol.ofNode source place.node name kind container
    if symbol.parameters.isEmpty then
      { symbol with parameters := place.node.parameters source "parameter" }
    else symbol

/-! ## Imports -/

def identifierTexts (source : String) (n : Node) : List String :=
  (n.namedChildren.filter (·.kind == "identifier")).map (·.text source)

/-- The name that an import or export specifier binds: its alias, or the name itself. -/
def specifierName? (source : String) (n : Node) : Option String :=
  (n.field? "alias" <|> n.field? "name").map fun binding => Text.unquote (binding.text source)

/-- The names that one part of an import clause brings into scope. -/
def clausePartNames (source : String) (part : Node) : List String :=
  match part.kind with
  | "identifier" => [part.text source]
  | "namespace_import" => identifierTexts source part
  | "named_imports" =>
    (part.namedChildren.filter (·.kind == "import_specifier")).filterMap (specifierName? source)
  | _ => []

/-- The names that one part of an import statement brings into scope. -/
def statementPartNames (source : String) (part : Node) : List String :=
  match part.kind with
  | "import_clause" => part.namedChildren.flatMap (clausePartNames source)
  | "import_require_clause" => identifierTexts source part
  | _ => []

/-- The import of an `import` statement, also of the form `import a = require(...)`. -/
def moduleImport? (source : String) (n : Node) : Option Import :=
  let required := n.namedChildren.find? (·.kind == "import_require_clause")
  (n.field? "source" <|> required.bind (·.field? "source")).map fun path =>
    { path := Text.unquote (path.text source)
      names := n.namedChildren.flatMap (statementPartNames source) }

/-- The name that one part of an object pattern binds. -/
def propertyName? (source : String) (property : Node) : Option String :=
  match property.kind with
  | "shorthand_property_identifier_pattern" => some (property.text source)
  | "pair_pattern" => (property.field? "value").bind (·.simpleName? source)
  | _ => none

/-- The names that a declarator around a call binds its result to. -/
def requireNames (source : String) (place : Place) : List String :=
  match place.parent.filter (·.kind == "variable_declarator") |>.bind (·.field? "name") with
  | none => []
  | some pattern =>
    match pattern.kind with
    | "identifier" => [pattern.text source]
    | "object_pattern" => pattern.namedChildren.filterMap (propertyName? source)
    | _ => []

/-- The import of a call of `require` or of a dynamic import, whose first argument must be a
string. -/
def callImport? (source : String) (place : Place) : Option Import :=
  (place.node.field? "function").bind fun function =>
    let isRequire := function.kind == "identifier" && function.text source == "require"
    if !isRequire && function.kind != "import" then none
    else
      (((place.node.field? "arguments").bind (·.namedChildren.head?)).filter
        (·.kind == "string")).map fun argument =>
          { path := Text.unquote (argument.text source)
            names := if isRequire then requireNames source place else [] }

def importEntries (source : String) (place : Place) : List Import :=
  match place.node.kind with
  | "import_statement" => (moduleImport? source place.node).toList
  | "call_expression" => (callImport? source place).toList
  | _ => []

/-! ## Exports -/

def isDefault (statement : Node) : Bool :=
  statement.children.any (·.kind == "default")

mutual

/-- The names that an exported declaration introduces. -/
def declarationNames (source : String) : Node → List String
  | .mk label children =>
    match label.kind with
    | "lexical_declaration" | "variable_declaration" =>
      ((children.filter fun c => c.isNamed && c.kind == "variable_declarator").filterMap
        (·.declaredName? source))
    | "ambient_declaration" => declarationNamesAll source children
    | _ => ((Node.mk label children).declaredName? source).toList

/-- The names that the named ones among several declarations introduce. -/
def declarationNamesAll (source : String) : List Node → List String
  | [] => []
  | n :: ns =>
    (if n.isNamed then declarationNames source n else []) ++ declarationNamesAll source ns

end

def valueName? (source : String) (value : Node) : Option String :=
  if value.kind == "identifier" then some (value.text source) else value.declaredName? source

/-- The names in one part of an export statement. -/
def exportPartNames (source : String) (part : Node) : List String :=
  match part.kind with
  | "export_clause" =>
    (part.namedChildren.filter (·.kind == "export_specifier")).filterMap (specifierName? source)
  | "namespace_export" =>
    ((part.namedChildren.find? (·.isOneOf ["identifier", "string"])).map
      fun name => Text.unquote (name.text source)).toList
  | _ => []

/-- The names that an export statement exports. -/
def statementNames (source : String) (statement : Node) : List String :=
  ((statement.field? "declaration").map (declarationNames source)).getD []
    ++ ((statement.field? "value").bind (valueName? source)).toList
    ++ statement.namedChildren.flatMap (exportPartNames source)
    ++ (if isDefault statement then ["default"] else [])

/-- The names that the top-level export statements of a file export. -/
def exports (source : String) (root : Node) : List String :=
  ((root.namedChildren.filter (·.kind == "export_statement")).flatMap
    (statementNames source)).eraseDups

/-- A symbol without a name of its own stands for the default export of the statement it is in. -/
def isExported (exports : List String) (place : Place) (symbol : Symbol) : Bool :=
  exports.contains symbol.name
    || (symbol.name == anonymous && exports.contains "default"
      && place.parent.any fun statement => statement.kind == "export_statement" && isDefault statement)

end SourceChunks.Language.JavaScript

namespace SourceChunks.Language

/-- JavaScript, with and without JSX. -/
def javaScript : Language where
  tag := "javascript"
  extensions := ["js", "jsx", "mjs", "cjs"]
  targets :=
    ["function_declaration", "generator_function_declaration", "class_declaration", "class",
     "method_definition", "arrow_function", "function_expression", "function",
     "generator_function"]
  containers := ["class_declaration", "class"]
  declarations :=
    ["lexical_declaration", "variable_declaration", "expression_statement", "field_definition",
     "public_field_definition"]
  passThrough := ["program", "export_statement"]
  functionValues := JavaScript.functionValues
  importKinds := ["import_statement", "call_expression"]
  callKinds := ["call_expression", "new_expression"]
  rules := JavaScript.rules
  symbol? := JavaScript.symbol?
  importEntries := JavaScript.importEntries
  exports := JavaScript.exports
  isExported := JavaScript.isExported

end SourceChunks.Language
