-- SUMMARY: The identifier that names a construct: plain names, and the last name of an access path.
import SourceChunks.Tree

/-!
# Names

How a node stands for a name. An identifier stands for itself; an access path such as `a.b.c` or
`a::b::c`, a generic instance and a pointer type stand for the name they lead to.
-/

namespace SourceChunks.Node

/-- The kinds of nodes that are identifiers, in the grammars of all languages. -/
def identifierKinds : List String :=
  ["identifier", "property_identifier", "private_property_identifier",
   "shorthand_property_identifier", "field_identifier", "type_identifier", "package_identifier",
   "name", "constant", "self"]

def isIdentifier (n : Node) : Bool :=
  n.isOneOf identifierKinds

/-- The part of a compound node that carries its name. -/
def nameStep? (n : Node) : Option Node :=
  match n.kind with
  | "member_expression" => n.field? "property"
  | "attribute" => n.field? "attribute"
  | "field_expression" | "selector_expression" => n.field? "field"
  | "scoped_identifier" | "scoped_type_identifier" | "member_access_expression"
  | "qualified_name" | "generic_name" => n.field? "name" <|> n.namedChildren.getLast?
  | "generic_type" | "generic_function" =>
    n.field? "type" <|> n.field? "function" <|> n.namedChildren.head?
  | "variable_name" | "parenthesized_expression" => n.namedChildren.head?
  | "pointer_type" | "reference_type" => n.field? "type" <|> n.namedChildren.getLast?
  | _ => none

/-- The identifier that a node leads to, if it is found among the next `steps` nodes, the node
itself included. -/
def nameWithin? : (steps : Nat) → Node → Option Node
  | 0, _ => none
  | steps + 1, n =>
    if n.isIdentifier then some n else n.nameStep?.bind (nameWithin? steps)

/-- The longest way, in nodes, from a construct to the identifier that names it. -/
def maxNameSteps : Nat := 8

/-- The identifier that a node leads to. -/
def nameNode? (n : Node) : Option Node :=
  n.nameWithin? maxNameSteps

/-- The name that a node stands for. -/
def simpleName? (source : String) (n : Node) : Option String :=
  n.nameNode?.bind fun identifier =>
    let name := Text.trim (identifier.text source)
    if name.isEmpty then none else some name

/-- The name that a declaration gives in its field `name`. -/
def declaredName? (source : String) (n : Node) : Option String :=
  (n.field? "name").bind (·.simpleName? source)

/-- Whether a declaration carries a modifier, as a word of a list of modifiers or as a token. -/
def hasModifier (source : String) (n : Node) (word : String) : Bool :=
  n.children.any fun child =>
    if child.isOneOf ["modifiers", "modifier"] then
      (Text.words (child.text source)).contains word
    else child.kind == word

end SourceChunks.Node
