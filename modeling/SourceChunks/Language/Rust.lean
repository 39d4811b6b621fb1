-- SUMMARY: Rust: symbols, use trees, and public items with the methods of exported types.
import SourceChunks.Language

/-!
# Rust

Use declarations are trees: a path, an alias, a wildcard, `self`, or a list below a common path.
Flattening one gives an import for each leaf. Items are exported if they are `pub` without a
restriction; public methods are exported if the type they are implemented for is.
-/

namespace SourceChunks.Language

namespace Rust

def rules : Complexity.Rules where
  decisionPoints :=
    ["if_expression", "while_expression", "for_expression", "match_arm", "&&", "||"]
  nesting :=
    ["if_expression", "while_expression", "for_expression", "loop_expression", "match_expression"]
  flat :=
    ["else_clause", "match_arm"]
  operatorSymbols :=
    ["=", "+=", "-=", "*=", "/=", "%=", "&=", "|=", "^=", "<<=", ">>=", "+", "-", "*", "/", "%",
     "==", "!=", "<", ">", "<=", ">=", "&&", "||", "!", "&", "|", "^", "<<", ">>", "?", ".", "..",
     "..=", "::", "->", "=>", ",", ";", ":", "(", "[", "\x7b"]
  operatorKeywords :=
    ["if", "else", "match", "for", "while", "loop", "in", "return", "break", "continue", "let",
     "mut", "fn", "impl", "struct", "enum", "trait", "pub", "use", "mod", "as", "move", "ref",
     "unsafe", "async", "await", "where", "dyn", "const", "static", "type"]
  atomicOperands :=
    ["string_literal", "raw_string_literal", "char_literal"]

/-! ## Symbols -/

/-- The name that members carry: the type of an implementation, or the name of a trait. -/
def containerName? (source : String) (n : Node) : Option String :=
  if n.kind == "impl_item" then (n.field? "type").bind (·.simpleName? source)
  else n.declaredName? source

def kinds : Definitions where
  classes := ["struct_item", "enum_item", "union_item"]
  interfaces := ["trait_item"]
  functions := ["function_item", "function_signature_item"]

/-! ## Imports -/

/-- A path below a base path; white space inside the path does not count. -/
def joinPath (base path : String) : String :=
  let path := Text.squeeze path
  if base.isEmpty then path
  else if path.isEmpty then base
  else base ++ "::" ++ path

/-- The module and the item of a path; a path of one segment is both. -/
def moduleAndItem (path : String) : String × String :=
  (Text.splitLast? "::" path).getD (path, path)

/-- The imports of a use tree below a base path, one for each leaf, in source order. -/
def useImports (source : String) (base : String) (tree : Node) : List Import :=
  match tree.kind with
  | "use_list" =>
    tree.namedChildren.attach.flatMap fun ⟨child, _⟩ => useImports source base child
  | "scoped_use_list" =>
    let base := ((tree.field? "path").map fun path => joinPath base (path.text source)).getD base
    match _h : tree.field? "list" with
    | some list => useImports source base list
    | none => []
  | "use_as_clause" =>
    ((tree.field? "path").bind fun path =>
      (tree.fieldText? source "alias").map fun other =>
        ⟨(moduleAndItem (joinPath base (path.text source))).1, [other]⟩).toList
  | "use_wildcard" =>
    let path := (tree.namedChildren.head?.map fun path => joinPath base (path.text source)).getD base
    [⟨path, ["*"]⟩]
  | kind =>
    if kind == "self" && !base.isEmpty then [⟨base, [(moduleAndItem base).2]⟩]
    else
      let path := joinPath base (tree.text source)
      if path.isEmpty then [] else [⟨(moduleAndItem path).1, [(moduleAndItem path).2]⟩]
termination_by sizeOf tree
decreasing_by
  · exact Node.sizeOf_lt_of_mem_namedChildren ‹_›
  · exact Node.sizeOf_lt_of_field? ‹_›

def declarationImports (source : String) (n : Node) : List Import :=
  ((n.field? "argument").map (useImports source "")).getD []

def importEntries (source : String) (place : Place) : List Import :=
  declarationImports source place.node

/-- Paths of the standard library begin with one of its crates. -/
def isStandardPath (path : String) : Bool :=
  ["std", "core", "alloc"].contains (((Text.splitFirst? "::" path).map (·.1)).getD path)

/-! ## Exports -/

/-- Whether an item is `pub` without a restriction. -/
def isPublic (source : String) (n : Node) : Bool :=
  n.namedChildren.any fun child =>
    child.kind == "visibility_modifier" && Text.trim (child.text source) == "pub"

/-- What a scope offers for export: the names of public items, and implementations whose methods
depend on the type they are for. -/
inductive Offer where
  | name (name : String)
  | methods (implementation : Node)
  deriving Inhabited

/-- The names that a body offers. -/
def bodyNames (source : String) (item : Node) (kinds : List String) : List String :=
  match item.field? "body" with
  | some body => (body.namedChildren.filter (·.isOneOf kinds)).filterMap (·.declaredName? source)
  | none => []

/-- The names of a public item, those of its own scope apart. -/
def itemNames (source : String) (item : Node) : List String :=
  match item.kind with
  | "function_item" | "struct_item" | "enum_item" | "union_item" | "type_item" | "const_item"
  | "static_item" | "macro_definition" | "mod_item" => (item.declaredName? source).toList
  | "trait_item" =>
    (item.declaredName? source).toList
      ++ bodyNames source item ["function_item", "function_signature_item"]
  | "use_declaration" => ((declarationImports source item).flatMap (·.names)).filter (· != "*")
  | _ => []

/-- What the items of a scope and of its public modules offer, in source order. -/
def offers (source : String) (scope : Node) : List Offer :=
  scope.namedChildren.attach.flatMap fun ⟨item, _⟩ =>
    if item.kind == "impl_item" then [.methods item]
    else if !isPublic source item then []
    else
      (itemNames source item).map .name ++
        if item.kind == "mod_item" then
          match _h : item.field? "body" with
          | some body => offers source body
          | none => []
        else []
termination_by sizeOf scope
decreasing_by
  exact Nat.lt_trans (Node.sizeOf_lt_of_field? ‹_›) (Node.sizeOf_lt_of_mem_namedChildren ‹_›)

/-- The name of a public item. -/
def Offer.name? : Offer → Option String
  | .name item => some item
  | .methods _ => none

def Offer.methods? : Offer → Option Node
  | .name _ => none
  | .methods implementation => some implementation

/-- The names of the public methods of an implementation. -/
def methodNames (source : String) (implementation : Node) : List String :=
  match implementation.field? "body" with
  | some body =>
    (body.namedChildren.filter fun member =>
      member.kind == "function_item" && isPublic source member).filterMap (·.declaredName? source)
  | none => []

/-- Adds the public methods of an implementation to the exported names, if its type is one of
them. -/
def addMethods (source : String) (exports : List String) (implementation : Node) : List String :=
  if ((implementation.field? "type").bind (·.simpleName? source)).any exports.contains then
    (methodNames source implementation).foldl pushNew exports
  else exports

/-- The names that a file exports: public items first, then the methods of the types that are
exported when their implementation is reached. -/
def exports (source : String) (root : Node) : List String :=
  let offered := offers source root
  (offered.filterMap (·.methods?)).foldl (addMethods source)
    (offered.filterMap (·.name?)).eraseDups

end Rust

def rust : Language where
  tag := "rust"
  extensions := ["rs"]
  targets :=
    ["function_item", "function_signature_item", "struct_item", "enum_item", "union_item",
     "trait_item"]
  containers := ["impl_item", "trait_item"]
  declarations := ["const_item", "static_item"]
  passThrough := ["source_file", "mod_item", "declaration_list"]
  functionValues := ["closure_expression"]
  importKinds := ["use_declaration"]
  callKinds := ["call_expression", "macro_invocation"]
  rules := Rust.rules
  containerName? := Rust.containerName?
  symbol? := Rust.kinds.symbol?
  importEntries := Rust.importEntries
  isStandardPath := Rust.isStandardPath
  exports := Rust.exports

end SourceChunks.Language
