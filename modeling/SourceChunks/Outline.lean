-- SUMMARY: The outline of a file: its symbols in source order, with the nodes they come from.
import SourceChunks.Language

/-!
# Outlines

The symbols of a syntax tree. Each node plays one role, tried in a fixed order: a target becomes a
symbol, a container is searched for members, a declaration may bind a function value that becomes a
symbol, and a pass-through node is searched like a container without a name. Anything else is
ordinary text.
-/

namespace SourceChunks

/-! ## Bound functions -/

/-- A function value with the name that a declaration binds it to. -/
structure BoundFunction where
  place : Place
  name : String
  deriving Inhabited

namespace BoundFunction

/-- The largest distance between a declaration and the function value it binds. -/
def maxDepth : Nat := 3

/-- The fields under which a construct holds the name that it binds. -/
def bindingFields : List String := ["name", "left", "property"]

/-- The name that one construct binds `value` to. -/
def nameAt? (source : String) (value ancestor : Node) : Option String :=
  bindingFields.findSome? fun field =>
    (ancestor.field? field).bind fun target =>
      if target.id = value.id then none else target.simpleName? source

/-- The name that the nearest of several constructs around `value` binds it to. -/
def name? (source : String) (value : Node) (ancestors : List Node) : Option String :=
  ancestors.findSome? (nameAt? source value)

/-- The first bound function value at most `levels` named nodes below `n`, whose ancestors up to
the declaration are given from the nearest on. Nothing is looked for inside function values. -/
def below? (kinds : List String) (source : String) :
    (levels : Nat) → (ancestors : List Node) → Node → Option BoundFunction
  | 0, _, _ => none
  | levels + 1, ancestors, n =>
    n.namedChildren.findSome? fun child =>
      if child.isOneOf kinds then
        (name? source child (n :: ancestors)).map fun name => ⟨⟨child, some n⟩, name⟩
      else below? kinds source levels (n :: ancestors) child

/-- The function value of one of the given kinds that a declaration binds to a name. -/
def find? (kinds : List String) (source : String) (declaration : Node) : Option BoundFunction :=
  below? kinds source maxDepth [] declaration

/-- The symbol of a bound function: lines and header from the declaration, parameters and return
type from the function value. -/
def symbol (source : String) (declaration : Node) (bound : BoundFunction)
    (container : Option String) : Symbol :=
  let value := bound.place.node
  { name := bound.name
    kind := .ofFunction container
    startLine := declaration.startLine source
    endLine := declaration.endLine source
    parentClass := container
    signature := declaration.signature source value
    parameters :=
      value.parameters source
        (if (value.field? "parameters").isSome then "parameters" else "parameter")
    returnType := value.returnType? source ["return_type", "result"] }

end BoundFunction

/-! ## Boundaries -/

/-- A symbol with the place that is measured for it. -/
structure Boundary where
  body : Place
  symbol : Symbol
  deriving Inhabited

/-- A place to search, with the name of the container it is in. -/
structure Scope where
  place : Place
  container : Option String
  deriving Inhabited

namespace Language

/-- Fills in the complexity of a symbol. -/
def measure (lang : Language) (body : Place) (symbol : Symbol) : Boundary where
  body := body
  symbol :=
    { symbol with
      complexity := Complexity.cyclomatic lang.rules body.node
      cognitiveComplexity := Complexity.cognitive lang.rules body.node }

/-- The function value that a node of the language binds to a name. -/
def boundFunction? (lang : Language) (source : String) (n : Node) : Option BoundFunction :=
  if lang.isDeclaration n then BoundFunction.find? lang.functionValues source n else none

/-- The symbol that a node becomes, its members apart. -/
def boundary? (lang : Language) (source : String) (scope : Scope) : Option Boundary :=
  let n := scope.place.node
  if lang.isTarget n then
    (lang.symbol? source scope.place scope.container).map (lang.measure scope.place)
  else if lang.isContainer n then none
  else (lang.boundFunction? source n).map fun bound =>
    lang.measure bound.place (bound.symbol source n scope.container)

/-- The members of a container, which carry its name or, if it has none, the one around it. -/
def containerMembers (lang : Language) (source : String) (scope : Scope) : List Scope :=
  match containerBody? scope.place.node with
  | none => []
  | some body =>
    let name := lang.containerName? source scope.place.node <|> scope.container
    body.namedChildren.map fun child => ⟨⟨child, some body⟩, name⟩

/-- The places to search below a node. -/
def members (lang : Language) (source : String) (scope : Scope) : List Scope :=
  let n := scope.place.node
  if lang.isContainer n then lang.containerMembers source scope
  else if lang.isTarget n || (lang.boundFunction? source n).isSome then []
  else if lang.isPassThrough n then
    n.namedChildren.map fun child => ⟨⟨child, some n⟩, scope.container⟩
  else []

theorem sizeOf_lt_of_mem_members {lang : Language} {source : String} {scope member : Scope}
    (h : member ∈ lang.members source scope) :
    sizeOf member.place.node < sizeOf scope.place.node := by
  simp only [members, containerMembers, containerBody?] at h
  split at h
  · split at h
    · simp at h
    · next body hbody =>
      obtain ⟨child, hchild, rfl⟩ := List.mem_map.1 h
      exact Node.sizeOf_lt_of_mem_field? hbody hchild
  · split at h
    · simp at h
    · split at h
      · obtain ⟨child, hchild, rfl⟩ := List.mem_map.1 h
        exact Node.sizeOf_lt_of_mem_namedChildren hchild
      · simp at h

/-- The symbols of a place and below it, in source order; containers come before their members. -/
def outlineFrom (lang : Language) (source : String) (scope : Scope) : List Boundary :=
  (lang.boundary? source scope).toList
    ++ (lang.members source scope).attach.flatMap fun ⟨member, _⟩ => lang.outlineFrom source member
termination_by sizeOf scope.place.node
decreasing_by exact sizeOf_lt_of_mem_members ‹_›

/-- The symbols of a file, each with the place that is measured for it. -/
def outline (lang : Language) (source : String) (root : Node) : List Boundary :=
  lang.outlineFrom source ⟨⟨root, none⟩, none⟩

/-- The symbols of a file, in source order, with their complexity. -/
def symbols (lang : Language) (source : String) (root : Node) : List Symbol :=
  (lang.outline source root).map (·.symbol)

end Language

end SourceChunks
