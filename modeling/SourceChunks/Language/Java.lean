-- SUMMARY: Java: symbols, import declarations, and public types with their public members.
import SourceChunks.Language

/-!
# Java

Imports are read from the text of import declarations. A type is exported if it is public, and a
member if it is public and its type is exported; members of an interface are public.
-/

namespace SourceChunks.Language

namespace Java

def typeDeclarations : List String :=
  ["class_declaration", "interface_declaration", "enum_declaration", "record_declaration"]

def rules : Complexity.Rules where
  decisionPoints :=
    ["if_statement", "for_statement", "enhanced_for_statement", "while_statement", "do_statement",
     "catch_clause", "ternary_expression", "switch_label", "&&", "||"]
  nesting :=
    ["if_statement", "for_statement", "enhanced_for_statement", "while_statement", "do_statement",
     "catch_clause", "switch_expression"]
  flat :=
    ["else", "ternary_expression", "switch_label"]
  operatorSymbols := Complexity.braceOperators
  operatorKeywords :=
    ["if", "else", "for", "while", "do", "switch", "case", "default", "break", "continue",
     "return", "throw", "try", "catch", "finally", "new", "instanceof", "class", "interface",
     "enum", "extends", "implements", "static", "final", "public", "private", "protected",
     "synchronized", "void"]
  atomicOperands :=
    ["string_literal", "character_literal", "text_block"]

def kinds : Definitions where
  classes := ["class_declaration", "enum_declaration", "record_declaration"]
  interfaces := ["interface_declaration"]
  functions := ["method_declaration", "constructor_declaration"]
  typed := ["method_declaration"]
  typeFields := ["type"]

/-! ## Imports -/

/-- The import in the text of a declaration: the last part of the qualified name is imported from
the path in front of it. -/
def textImports (text : String) : List Import :=
  let body := Text.trim (Text.dropEndWhile (· == ';') (Text.dropAll "import" (Text.trim text)))
  let body := ((Text.after? "static" body).map Text.trim).getD body
  let qualified := Text.squeeze body
  match (Text.splitLast? "." qualified).filter fun (path, item) => !path.isEmpty && !item.isEmpty with
  | some (path, item) => [⟨path, [item]⟩]
  | none => if qualified.isEmpty then [] else [⟨qualified, [qualified]⟩]

def importEntries (source : String) (place : Place) : List Import :=
  textImports (place.node.text source)

/-- Packages of the standard library. -/
def isStandardPath (path : String) : Bool :=
  Text.beginsWith "java." path || Text.beginsWith "javax." path || path == "java" || path == "javax"

/-! ## Exports -/

/-- The members of a type body. The members of an enum stand together after its constants, and
count as members of the body, after the others. -/
def bodyMembers (body : Node) : List Node :=
  let members := body.namedChildren
  match members.find? (·.kind == "enum_body_declarations") with
  | some declarations =>
    members.eraseP (·.kind == "enum_body_declarations") ++ declarations.namedChildren
  | none => members

theorem sizeOf_lt_of_mem_bodyMembers {body member : Node} (h : member ∈ bodyMembers body) :
    sizeOf member < sizeOf body := by
  simp only [bodyMembers] at h
  split at h
  · next declarations hfind =>
    rcases List.mem_append.1 h with h | h
    · exact Node.sizeOf_lt_of_mem_namedChildren (List.mem_of_mem_eraseP h)
    · exact Nat.lt_trans (Node.sizeOf_lt_of_mem_namedChildren h)
        (Node.sizeOf_lt_of_mem_namedChildren (List.mem_of_find?_eq_some hfind))
  · exact Node.sizeOf_lt_of_mem_namedChildren h

def fieldNames (source : String) (field : Node) : List String :=
  (field.namedChildren.filter (·.kind == "variable_declarator")).filterMap (·.declaredName? source)

/-- The names that an exported type exports: its own and those of its public members. -/
def typeNames (source : String) (declaration : Node) : List String :=
  (declaration.declaredName? source).toList ++
    match _h : declaration.field? "body" with
    | none => []
    | some body =>
      (bodyMembers body).attach.flatMap fun ⟨member, _⟩ =>
        if !(declaration.kind == "interface_declaration" || member.hasModifier source "public") then
          []
        else if member.isOneOf ["method_declaration", "constructor_declaration"] then
          (member.declaredName? source).toList
        else if member.isOneOf ["field_declaration", "constant_declaration"] then
          fieldNames source member
        else if member.isOneOf typeDeclarations then typeNames source member
        else []
termination_by sizeOf declaration
decreasing_by
  exact Nat.lt_trans (sizeOf_lt_of_mem_bodyMembers ‹_›) (Node.sizeOf_lt_of_field? ‹_›)

/-- The names that the public top-level types of a file export. -/
def exports (source : String) (root : Node) : List String :=
  ((root.namedChildren.filter fun item =>
    item.isOneOf typeDeclarations && item.hasModifier source "public").flatMap
      (typeNames source)).eraseDups

end Java

def java : Language where
  tag := "java"
  extensions := ["java"]
  targets := Java.typeDeclarations ++ ["method_declaration", "constructor_declaration"]
  containers := Java.typeDeclarations
  declarations := ["field_declaration"]
  passThrough := ["program", "enum_body_declarations"]
  functionValues := ["lambda_expression"]
  importKinds := ["import_declaration"]
  callKinds := ["method_invocation", "object_creation_expression"]
  rules := Java.rules
  symbol? := Java.kinds.symbol?
  importEntries := Java.importEntries
  isStandardPath := Java.isStandardPath
  exports := Java.exports

end SourceChunks.Language
