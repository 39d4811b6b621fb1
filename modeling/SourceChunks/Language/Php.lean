-- SUMMARY: PHP: symbols, `use` declarations, and the definitions of files and namespaces.
import SourceChunks.Language

/-!
# PHP

Imports are read from the text of `use` declarations: plain, aliased, of functions and constants,
and grouped. Every function and type outside other definitions is exported, in any namespace.
-/

namespace SourceChunks.Language

namespace Php

def typeDeclarations : List String :=
  ["class_declaration", "interface_declaration", "trait_declaration", "enum_declaration"]

def rules : Complexity.Rules where
  decisionPoints :=
    ["if_statement", "else_if_clause", "for_statement", "foreach_statement", "while_statement",
     "do_statement", "catch_clause", "conditional_expression", "case_statement",
     "match_conditional_expression", "&&", "||", "and", "or", "??"]
  nesting :=
    ["if_statement", "for_statement", "foreach_statement", "while_statement", "do_statement",
     "catch_clause", "switch_statement", "match_expression"]
  flat :=
    ["else_if_clause", "else_clause", "conditional_expression", "case_statement",
     "match_conditional_expression"]
  operatorSymbols :=
    ["=", "+=", "-=", "*=", "/=", ".=", "%=", "**=", "??=", "&=", "|=", "^=", "<<=", ">>=", "+",
     "-", "*", "/", "%", "**", ".", "==", "===", "!=", "!==", "<>", "<", ">", "<=", ">=", "<=>",
     "&&", "||", "!", "??", "&", "|", "^", "~", "<<", ">>", "++", "--", "->", "?->", "::", "=>",
     ",", ";", ":", "?", "(", "[", "\x7b"]
  operatorKeywords :=
    ["if", "elseif", "else", "for", "foreach", "as", "while", "do", "switch", "case", "default",
     "match", "break", "continue", "return", "throw", "try", "catch", "finally", "new",
     "instanceof", "function", "fn", "class", "interface", "trait", "enum", "extends",
     "implements", "static", "public", "private", "protected", "abstract", "final", "echo",
     "yield", "and", "or", "xor"]
  atomicOperands :=
    ["string", "encapsed_string", "heredoc", "nowdoc", "variable_name"]

def kinds : Definitions where
  classes := ["class_declaration", "trait_declaration", "enum_declaration"]
  interfaces := ["interface_declaration"]
  functions := ["function_definition", "method_declaration"]

/-! ## Imports -/

/-- The alias in the words after a qualified name. -/
def alias? : List String → Option String
  | keyword :: other :: _ => if Text.sameLetters keyword "as" then some other else none
  | _ => none

/-- The namespace and the item of a qualified name; a name without a namespace is both. -/
def namespaceAndItem (qualified : String) : String × String :=
  ((Text.splitLast? "\\" qualified).filter fun (path, item) => !path.isEmpty && !item.isEmpty).getD
    (qualified, qualified)

/-- The import of one clause: a qualified name, perhaps with an alias. -/
def clauseImport? (clause : String) : Option Import :=
  match Text.words clause with
  | [] => none
  | name :: rest =>
    let (path, item) := namespaceAndItem (Text.dropStartWhile (· == '\\') name)
    if path.isEmpty then none else some ⟨path, [(alias? rest).getD item]⟩

/-- The part of a declaration after the word `function` or `const`. -/
def dropImportKind (body : String) : String :=
  (["function ", "const "].findSome? (Text.after? · body)).getD body

/-- The clauses of a declaration, with the common namespace of a group in front of each. -/
def clauses (body : String) : List String :=
  match Text.splitFirst? "\x7b" body with
  | some (base, group) =>
    let base := Text.dropEndWhile (· == '\\') (Text.trim base)
    let group := Text.dropEndWhile (· == '\x7d') (Text.trim group)
    (((Text.splitAt ',' group).map Text.trim).filter (!·.isEmpty)).map (base ++ "\\" ++ ·)
  | none => Text.splitAt ',' body

def textImports (text : String) : List Import :=
  let text := Text.trim (Text.dropEndWhile (· == ';') (Text.trim text))
  match Text.after? "use" text with
  | none => []
  | some body => (clauses (dropImportKind (Text.trimStart body))).filterMap clauseImport?

def importEntries (source : String) (place : Place) : List Import :=
  textImports (place.node.text source)

/-! ## Exports -/

/-- The names that a scope exports: its functions and types, and those of its namespaces. -/
def scopeNames (source : String) (scope : Node) : List String :=
  scope.namedChildren.attach.flatMap fun ⟨item, _⟩ =>
    if item.kind == "namespace_definition" then
      match _h : item.field? "body" with
      | some body => scopeNames source body
      | none => []
    else if item.kind == "function_definition" || item.isOneOf typeDeclarations then
      (item.declaredName? source).toList
    else []
termination_by sizeOf scope
decreasing_by
  exact Nat.lt_trans (Node.sizeOf_lt_of_field? ‹_›) (Node.sizeOf_lt_of_mem_namedChildren ‹_›)

def exports (source : String) (root : Node) : List String :=
  (scopeNames source root).eraseDups

end Php

def php : Language where
  tag := "php"
  extensions := ["php"]
  targets := Php.typeDeclarations ++ ["function_definition", "method_declaration"]
  containers := Php.typeDeclarations
  declarations := ["expression_statement"]
  passThrough := ["program", "namespace_definition", "compound_statement"]
  functionValues :=
    ["anonymous_function", "anonymous_function_creation_expression", "arrow_function"]
  importKinds := ["namespace_use_declaration"]
  callKinds :=
    ["function_call_expression", "member_call_expression", "scoped_call_expression",
     "nullsafe_member_call_expression", "object_creation_expression"]
  rules := Php.rules
  symbol? := Php.kinds.symbol?
  importEntries := Php.importEntries
  exports := Php.exports

end SourceChunks.Language
