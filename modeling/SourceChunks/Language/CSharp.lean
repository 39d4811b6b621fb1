-- SUMMARY: C#: symbols, using directives, and public types of namespaces with their public members.
import SourceChunks.Language

/-!
# C#

Imports are read from the text of using directives: a directive brings a whole namespace or type
into scope, or binds an alias. A type is exported if it is public, in any namespace, and a member if
it is public and its type is exported; members of an interface are public.
-/

namespace SourceChunks.Language

namespace CSharp

/-- Types that can hold methods. -/
def typeDeclarations : List String :=
  ["class_declaration", "struct_declaration", "record_declaration", "interface_declaration"]

/-- Types that can be exported. -/
def exportableTypes : List String :=
  typeDeclarations ++ ["enum_declaration"]

def rules : Complexity.Rules where
  decisionPoints :=
    ["if_statement", "for_statement", "foreach_statement", "while_statement", "do_statement",
     "catch_clause", "conditional_expression", "switch_section", "switch_expression_arm", "&&",
     "||", "??"]
  nesting :=
    ["if_statement", "for_statement", "foreach_statement", "while_statement", "do_statement",
     "catch_clause", "switch_statement", "switch_expression"]
  flat :=
    ["else", "conditional_expression", "switch_section", "switch_expression_arm"]
  operatorSymbols := Complexity.braceOperators
  operatorKeywords :=
    ["if", "else", "for", "foreach", "in", "while", "do", "switch", "case", "default", "break",
     "continue", "return", "throw", "try", "catch", "finally", "new", "is", "as", "typeof",
     "await", "async", "class", "struct", "record", "interface", "enum", "static", "public",
     "private", "protected", "internal", "var", "void", "using", "yield"]
  atomicOperands :=
    ["string_literal", "verbatim_string_literal", "raw_string_literal",
     "interpolated_string_expression", "character_literal"]

def kinds : Definitions where
  classes := ["class_declaration", "struct_declaration", "record_declaration"]
  interfaces := ["interface_declaration"]
  functions := ["method_declaration", "constructor_declaration", "local_function_statement"]
  typed := ["method_declaration", "local_function_statement"]
  typeFields := ["returns", "type"]

/-! ## Imports -/

def textImports (text : String) : List Import :=
  let text := Text.trim (Text.dropEndWhile (· == ';') (Text.trim text))
  let text := ((Text.after? "global" text).map Text.trimStart).getD text
  match Text.after? "using" text with
  | none => []
  | some body =>
    let body := Text.trim body
    let body := ((Text.after? "static" body).map Text.trimStart).getD body
    let (path, name) := match Text.splitFirst? "=" body with
      | some (other, target) => (Text.squeeze target, Text.trim other)
      | none => (Text.squeeze body, "*")
    if path.isEmpty then [] else [⟨path, [name]⟩]

def importEntries (source : String) (place : Place) : List Import :=
  textImports (place.node.text source)

/-- Namespaces of the standard library. -/
def isStandardPath (path : String) : Bool :=
  Text.beginsWith "System" path || Text.beginsWith "Microsoft" path

/-! ## Exports -/

def fieldNames (source : String) (field : Node) : List String :=
  ((field.namedChildren.filter (·.kind == "variable_declaration")).flatMap fun declaration =>
    declaration.namedChildren.filter (·.kind == "variable_declarator")).filterMap
      (·.declaredName? source)

/-- The names that an exported type exports: its own and those of its public members. -/
def typeNames (source : String) (declaration : Node) : List String :=
  (declaration.declaredName? source).toList ++
    match _h : declaration.field? "body" with
    | none => []
    | some body =>
      body.namedChildren.attach.flatMap fun ⟨member, _⟩ =>
        if !(declaration.kind == "interface_declaration" || member.hasModifier source "public") then
          []
        else if member.isOneOf
            ["method_declaration", "constructor_declaration", "property_declaration",
             "event_declaration"] then
          (member.declaredName? source).toList
        else if member.kind == "field_declaration" then fieldNames source member
        else if member.isOneOf exportableTypes then typeNames source member
        else []
termination_by sizeOf declaration
decreasing_by exact Node.sizeOf_lt_of_mem_field? ‹_› ‹_›

/-- The names that a scope exports: those of its public types and of its namespaces. -/
def scopeNames (source : String) (scope : Node) : List String :=
  scope.namedChildren.attach.flatMap fun ⟨item, _⟩ =>
    if item.kind == "namespace_declaration" then
      match _h : item.field? "body" with
      | some body => scopeNames source body
      | none => []
    else if item.kind == "file_scoped_namespace_declaration" then scopeNames source item
    else if item.isOneOf exportableTypes && item.hasModifier source "public" then
      typeNames source item
    else []
termination_by sizeOf scope
decreasing_by
  · exact Nat.lt_trans (Node.sizeOf_lt_of_field? ‹_›) (Node.sizeOf_lt_of_mem_namedChildren ‹_›)
  · exact Node.sizeOf_lt_of_mem_namedChildren ‹_›

def exports (source : String) (root : Node) : List String :=
  (scopeNames source root).eraseDups

end CSharp

def cSharp : Language where
  tag := "csharp"
  extensions := ["cs"]
  targets :=
    CSharp.typeDeclarations
      ++ ["method_declaration", "constructor_declaration", "local_function_statement"]
  containers := CSharp.typeDeclarations
  declarations := ["field_declaration"]
  passThrough :=
    ["compilation_unit", "namespace_declaration", "file_scoped_namespace_declaration",
     "declaration_list", "global_statement"]
  functionValues := ["lambda_expression", "anonymous_method_expression"]
  importKinds := ["using_directive"]
  callKinds := ["invocation_expression", "object_creation_expression"]
  rules := CSharp.rules
  symbol? := CSharp.kinds.symbol?
  importEntries := CSharp.importEntries
  isStandardPath := CSharp.isStandardPath
  exports := CSharp.exports

end SourceChunks.Language
