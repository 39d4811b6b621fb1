-- SUMMARY: TypeScript and TSX: JavaScript with interfaces, abstract classes, method signatures and namespaces.
import SourceChunks.Language.JavaScript

/-!
# TypeScript

TypeScript is JavaScript with more kinds of symbols and more constructs to look through. Imports,
exports, calls and complexity are those of JavaScript.
-/

namespace SourceChunks.Language

namespace TypeScript

/-- The kinds of symbols that JavaScript does not have. -/
def addedKind? (n : Node) : Option SymbolKind :=
  match n.kind with
  | "interface_declaration" => some .interface
  | "abstract_class_declaration" => some .classLike
  | "method_signature" | "abstract_method_signature" => some .method
  | _ => none

/-- The symbol of a node: one of the added kinds, or what JavaScript makes of it. -/
def symbol? (source : String) (place : Place) (container : Option String) : Option Symbol :=
  match addedKind? place.node with
  | some kind =>
    (place.node.declaredName? source).map fun name =>
      Symbol.ofNode source place.node name kind container
  | none => javaScript.symbol? source place container

end TypeScript

def typeScript : Language :=
  { javaScript with
    tag := "typescript"
    extensions := ["ts", "mts", "cts"]
    targets :=
      ["function_declaration", "generator_function_declaration", "class_declaration", "class",
       "abstract_class_declaration", "interface_declaration", "method_definition",
       "method_signature", "abstract_method_signature", "arrow_function", "function_expression",
       "function", "generator_function"]
    containers :=
      ["class_declaration", "class", "abstract_class_declaration", "interface_declaration"]
    passThrough :=
      ["program", "export_statement", "ambient_declaration", "internal_module", "module",
       "statement_block", "expression_statement"]
    symbol? := TypeScript.symbol? }

/-- TypeScript with JSX. -/
def tsx : Language :=
  { typeScript with
    tag := "tsx"
    extensions := ["tsx"] }

end SourceChunks.Language
