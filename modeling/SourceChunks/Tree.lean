-- SUMMARY: Concrete syntax trees: nodes, fields, walks in preorder, and trees read from preorder lists.
import SourceChunks.Text.Lines
import SourceChunks.Text.Split

/-!
# Syntax trees

A concrete syntax tree as a parser hands it over: named nodes for the constructs of a language,
anonymous nodes for its tokens, byte ranges into the source, and fields that name the role of a
child. This module holds the tree itself, how fields are looked up, and the three walks that the
analyses use: all nodes, all nodes with branches cut off, and named nodes with branches cut off.
-/

namespace SourceChunks

/-! ## Nodes -/

/-- What a node says about itself, its children apart. -/
structure Label where
  /-- The position of the node in the preorder of its tree: its identity. -/
  id : Nat
  kind : String
  /-- Constructs are named; punctuation and keywords are anonymous. -/
  named : Bool
  /-- The field under which the parent holds this node. -/
  field : Option String
  /-- The first byte of the node's text. -/
  start : Nat
  /-- The byte after the node's text. -/
  stop : Nat
  /-- Fields that a parser resolves otherwise than by the first child with that field, each with
  the identity of the node it answers with. Such fields occur around syntax errors. -/
  resolved : List (String × Option Nat) := []
  deriving Repr, DecidableEq, Inhabited

/-- A node of a concrete syntax tree. -/
inductive Node where
  | mk (label : Label) (children : List Node)
  deriving Repr, Inhabited

namespace Node

def label : Node → Label
  | mk label _ => label

/-- The children of a node, named and anonymous, in source order. -/
def children : Node → List Node
  | mk _ children => children

def id (n : Node) : Nat := n.label.id

def kind (n : Node) : String := n.label.kind

def isNamed (n : Node) : Bool := n.label.named

def start (n : Node) : Nat := n.label.start

def stop (n : Node) : Nat := n.label.stop

/-- The named children of a node, in source order. -/
def namedChildren (n : Node) : List Node :=
  n.children.filter (·.isNamed)

/-- Whether the kind of a node is in a list of kinds. -/
def isOneOf (n : Node) (kinds : List String) : Bool :=
  kinds.contains n.kind

/-- Comments are the nodes whose kind has the word in it. -/
def isComment (n : Node) : Bool :=
  Text.holds "comment" n.kind

/-! ## Walks -/

mutual

/-- A node and everything below it, in preorder. -/
def preorder : Node → List Node
  | mk label children => mk label children :: preorderAll children

/-- The nodes of several trees, one tree after the other. -/
def preorderAll : List Node → List Node
  | [] => []
  | n :: ns => n.preorder ++ preorderAll ns

end

/-- Everything below a node, in preorder. -/
def descendants (n : Node) : List Node :=
  preorderAll n.children

mutual

/-- A node and what is below it, in preorder, without what is below a node at which `descend`
fails. -/
def visited (descend : Node → Bool) : Node → List Node
  | mk label children =>
    mk label children ::
      if descend (mk label children) then visitedAll descend children else []

/-- The nodes visited in several trees, one tree after the other. -/
def visitedAll (descend : Node → Bool) : List Node → List Node
  | [] => []
  | n :: ns => n.visited descend ++ visitedAll descend ns

end

end Node

/-- A node together with the node it is a child of. -/
structure Place where
  node : Node
  parent : Option Node
  deriving Inhabited

namespace Node

mutual

/-- The places reached from a node through named children, in preorder, without what is below a
place at which `descend` fails. -/
def namedPlaces (descend : Place → Bool) (parent : Option Node) : Node → List Place
  | mk label children =>
    let here : Place := ⟨mk label children, parent⟩
    here :: if descend here then namedPlacesAll descend (mk label children) children else []

/-- The places reached from the named ones among the children of `parent`. -/
def namedPlacesAll (descend : Place → Bool) (parent : Node) : List Node → List Place
  | [] => []
  | n :: ns =>
    (if n.isNamed then n.namedPlaces descend (some parent) else [])
      ++ namedPlacesAll descend parent ns

end

mutual

/-- The place of the node with identity `id` in a tree. -/
def place? (id : Nat) (parent : Option Node) : Node → Option Place
  | mk label children =>
    if label.id = id then some ⟨mk label children, parent⟩
    else placeIn? id (mk label children) children

/-- The place of the node with identity `id` among the children of `parent` and below them. -/
def placeIn? (id : Nat) (parent : Node) : List Node → Option Place
  | [] => none
  | n :: ns => n.place? id (some parent) <|> placeIn? id parent ns

end

/-! ## Fields -/

/-- The node that a field answers with: the first child held under it, unless the parser resolved
the field otherwise. -/
def field? (n : Node) (name : String) : Option Node :=
  match n.label.resolved.lookup name with
  | some answer => answer.bind fun id => n.descendants.find? (·.id == id)
  | none => n.children.find? (·.label.field == some name)

def fieldChildren (n : Node) (name : String) : List Node :=
  n.children.filter (·.label.field == some name)

/-! ## Text and lines -/

def text (source : String) (n : Node) : String :=
  Text.slice source n.start n.stop

/-- The text of a field without the white space around it, unless nothing is left of it. -/
def fieldText? (source : String) (n : Node) (name : String) : Option String :=
  (n.field? name).bind fun child =>
    let text := Text.trim (child.text source)
    if text.isEmpty then none else some text

/-- The line on which a node begins, counted from one. -/
def startLine (source : String) (n : Node) : Nat :=
  Text.lineAt source n.start

/-- The last line that holds text of a node: a node that ends at the start of a line below its
first does not reach into that line. -/
def endLine (source : String) (n : Node) : Nat :=
  let startRow := Text.rowAt source n.start
  let endRow := Text.rowAt source n.stop
  if Text.columnAt source n.stop = 0 ∧ startRow < endRow then endRow else endRow + 1

/-! ## Trees from preorder lists -/

/-- The trees of a preorder list that gives each label with its number of children. -/
def ofPreorder (items : List (Label × Nat)) : List Node :=
  items.foldr (fun (label, count) trees => mk label (trees.take count) :: trees.drop count) []

/-! ## Sizes -/

theorem sizeOf_lt_of_mem_children {n c : Node} (h : c ∈ n.children) : sizeOf c < sizeOf n := by
  cases n with
  | mk label cs =>
    have := List.sizeOf_lt_of_mem (show c ∈ cs from h)
    simp only [mk.sizeOf_spec]
    omega

theorem mem_children_of_mem_namedChildren {n c : Node} (h : c ∈ n.namedChildren) :
    c ∈ n.children :=
  (List.mem_filter.1 h).1

mutual

theorem sizeOf_le_of_mem_preorder {d : Node} :
    ∀ {n : Node}, d ∈ n.preorder → sizeOf d ≤ sizeOf n
  | mk label cs, h => by
    simp only [preorder, List.mem_cons] at h
    rcases h with rfl | h
    · exact Nat.le_refl _
    · have := sizeOf_lt_of_mem_preorderAll h
      simp only [mk.sizeOf_spec]
      omega

theorem sizeOf_lt_of_mem_preorderAll {d : Node} :
    ∀ {ns : List Node}, d ∈ preorderAll ns → sizeOf d < sizeOf ns
  | [], h => by simp [preorderAll] at h
  | n :: ns, h => by
    simp only [preorderAll, List.mem_append] at h
    simp only [List.cons.sizeOf_spec]
    rcases h with h | h
    · have := sizeOf_le_of_mem_preorder h
      omega
    · have := sizeOf_lt_of_mem_preorderAll h
      omega

end

theorem sizeOf_lt_of_mem_descendants {n d : Node} (h : d ∈ n.descendants) :
    sizeOf d < sizeOf n := by
  cases n with
  | mk label cs =>
    have := sizeOf_lt_of_mem_preorderAll (show d ∈ preorderAll cs from h)
    simp only [mk.sizeOf_spec]
    omega

/-- A field answers with a node below the one it is looked up in. -/
theorem sizeOf_lt_of_field? {n c : Node} {name : String} (h : n.field? name = some c) :
    sizeOf c < sizeOf n := by
  unfold field? at h
  split at h
  · obtain ⟨id, _, hc⟩ := Option.bind_eq_some_iff.1 h
    exact sizeOf_lt_of_mem_descendants (List.mem_of_find?_eq_some hc)
  · exact sizeOf_lt_of_mem_children (List.mem_of_find?_eq_some h)

theorem sizeOf_lt_of_mem_namedChildren {n c : Node} (h : c ∈ n.namedChildren) :
    sizeOf c < sizeOf n :=
  sizeOf_lt_of_mem_children (mem_children_of_mem_namedChildren h)

/-- What a field's node holds lies below the node the field is looked up in. -/
theorem sizeOf_lt_of_mem_field? {n b c : Node} {name : String} (h : n.field? name = some b)
    (hc : c ∈ b.namedChildren) : sizeOf c < sizeOf n :=
  Nat.lt_trans (sizeOf_lt_of_mem_namedChildren hc) (sizeOf_lt_of_field? h)

end Node

end SourceChunks
