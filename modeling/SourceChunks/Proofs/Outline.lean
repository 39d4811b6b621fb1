-- SUMMARY: Where symbols come from: the places that the search for symbols reaches, and the nodes whose lines symbols have.
import SourceChunks.Language.Registry
import SourceChunks.Outline
import SourceChunks.Proofs.Tree

/-!
# Symbols and their nodes

An outline is what the places reached from the root become. Every such place is in the tree, and
in every language the lines of a symbol are those of one node, its owner, which holds both the node
that became the symbol and the node that is measured for it.
-/

namespace SourceChunks

/-! ## Places reached -/

namespace Language

/-- The search for symbols that starts at one place comes to another. -/
inductive Reaches (lang : Language) (source : String) : Scope → Scope → Prop where
  | refl (scope : Scope) : Reaches lang source scope scope
  | step {scope member last : Scope} (hmember : member ∈ lang.members source scope)
      (hrest : Reaches lang source member last) : Reaches lang source scope last

/-- The search for the symbols of a file comes to a place. -/
def Visits (lang : Language) (source : String) (root : Node) (scope : Scope) : Prop :=
  lang.Reaches source ⟨⟨root, none⟩, none⟩ scope

variable {lang : Language} {source : String} {root : Node}

theorem outlineFrom_eq (lang : Language) (source : String) (scope : Scope) :
    lang.outlineFrom source scope =
      (lang.boundary? source scope).toList
        ++ (lang.members source scope).flatMap (lang.outlineFrom source) := by
  rw [outlineFrom]
  congr 1
  simp

theorem mem_outlineFrom {scope : Scope} {boundary : Boundary} :
    boundary ∈ lang.outlineFrom source scope ↔
      lang.boundary? source scope = some boundary ∨
        ∃ member ∈ lang.members source scope, boundary ∈ lang.outlineFrom source member := by
  rw [outlineFrom_eq, List.mem_append, Option.mem_toList, List.mem_flatMap]

/-- The symbols of an outline are what the places reached become. -/
theorem mem_outlineFrom_iff {scope : Scope} {boundary : Boundary} :
    boundary ∈ lang.outlineFrom source scope ↔
      ∃ last, lang.Reaches source scope last ∧ lang.boundary? source last = some boundary := by
  constructor
  · intro h
    induction scope using outlineFrom.induct lang source with
    | case1 scope ih =>
        rcases mem_outlineFrom.1 h with h | ⟨member, hmember, h⟩
        · exact ⟨scope, .refl scope, h⟩
        · obtain ⟨last, hreach, hlast⟩ := ih member hmember h
          exact ⟨last, .step hmember hreach, hlast⟩
  · rintro ⟨last, hreach, hlast⟩
    induction hreach with
    | refl scope => exact mem_outlineFrom.2 (.inl hlast)
    | step hmember _ ih => exact mem_outlineFrom.2 (.inr ⟨_, hmember, ih hlast⟩)

theorem mem_outline_iff {boundary : Boundary} :
    boundary ∈ lang.outline source root ↔
      ∃ scope, lang.Visits source root scope ∧ lang.boundary? source scope = some boundary :=
  mem_outlineFrom_iff

/-- One step of the search goes to the named children of the node itself or of one below it, if to
any place at all. -/
theorem members_eq_map {scope : Scope} (h : lang.members source scope ≠ []) :
    ∃ holder ∈ scope.place.node.preorder, ∃ container,
      lang.members source scope =
        holder.namedChildren.map fun child => ⟨⟨child, some holder⟩, container⟩ := by
  simp only [members, containerMembers, containerBody?] at h ⊢
  split at h
  · next hcontainer =>
    rw [if_pos hcontainer]
    split at h
    · exact absurd rfl h
    · next body hbody => exact ⟨body, Node.mem_preorder_of_field? hbody, _, rfl⟩
  · next hcontainer =>
    rw [if_neg hcontainer]
    split at h
    · exact absurd rfl h
    · next hsymbol =>
      rw [if_neg hsymbol]
      split at h
      · next hthrough =>
        rw [if_pos hthrough]
        exact ⟨_, Node.self_mem_preorder _, _, rfl⟩
      · exact absurd rfl h

theorem members_cases {scope member : Scope} (h : member ∈ lang.members source scope) :
    ∃ holder ∈ scope.place.node.preorder, member.place.parent = some holder ∧
      member.place.node ∈ holder.namedChildren := by
  obtain ⟨holder, hholder, container, hmembers⟩ := members_eq_map (List.ne_nil_of_mem h)
  rw [hmembers] at h
  obtain ⟨child, hchild, rfl⟩ := List.mem_map.1 h
  exact ⟨holder, hholder, rfl, hchild⟩

end Language

/-- A place of a tree: its node is in the tree, below the node given as its parent. -/
structure Scope.InTree (root : Node) (scope : Scope) : Prop where
  node_mem : scope.place.node ∈ root.preorder
  parent_mem : ∀ parent, scope.place.parent = some parent →
    parent ∈ root.preorder ∧ scope.place.node ∈ parent.children

namespace Language

variable {lang : Language} {source : String} {root : Node}

theorem inTree_of_mem_members {scope member : Scope} (hscope : scope.InTree root)
    (h : member ∈ lang.members source scope) : member.InTree root := by
  obtain ⟨holder, hholder, hparent, hchild⟩ := members_cases h
  have hmem : holder ∈ root.preorder := Node.mem_preorder_trans hholder hscope.node_mem
  refine ⟨Node.mem_preorder_trans (Node.mem_preorder_of_mem_namedChildren hchild) hmem, ?_⟩
  intro parent hparent'
  obtain rfl : holder = parent := by simpa [hparent] using hparent'
  exact ⟨hmem, Node.mem_children_of_mem_namedChildren hchild⟩

theorem Reaches.inTree {scope last : Scope} (h : lang.Reaches source scope last)
    (hscope : scope.InTree root) : last.InTree root := by
  induction h with
  | refl scope => exact hscope
  | step hmember _ ih => exact ih (inTree_of_mem_members hscope hmember)

theorem Visits.inTree {scope : Scope} (h : lang.Visits source root scope) : scope.InTree root :=
  Reaches.inTree h ⟨Node.self_mem_preorder root, by simp⟩

end Language

/-! ## Bound functions -/

theorem BoundFunction.mem_preorder_of_below? {kinds : List String} {source : String} {levels : Nat}
    {ancestors : List Node} {n : Node} {bound : BoundFunction}
    (h : below? kinds source levels ancestors n = some bound) :
    bound.place.node ∈ n.preorder := by
  induction levels generalizing ancestors n with
  | zero => simp [below?] at h
  | succ levels ih =>
      obtain ⟨child, hchild, h⟩ := List.exists_of_findSome?_eq_some h
      have hmem := Node.mem_preorder_of_mem_namedChildren hchild
      split at h
      · obtain ⟨name, -, rfl⟩ := Option.map_eq_some_iff.1 h
        exact hmem
      · exact Node.mem_preorder_trans (ih h) hmem

theorem Language.mem_preorder_of_boundFunction? {lang : Language} {source : String} {n : Node}
    {bound : BoundFunction} (h : lang.boundFunction? source n = some bound) :
    bound.place.node ∈ n.preorder := by
  unfold boundFunction? at h
  split at h
  · exact BoundFunction.mem_preorder_of_below? h
  · simp at h

/-! ## Lines of symbols -/

/-- A symbol has the lines of a node. -/
def Symbol.Spans (source : String) (symbol : Symbol) (n : Node) : Prop :=
  symbol.startLine = n.startLine source ∧ symbol.endLine = n.endLine source

theorem Definitions.spans_of_symbol? {definitions : Definitions} {source : String} {place : Place}
    {container : Option String} {symbol : Symbol}
    (h : definitions.symbol? source place container = some symbol) :
    symbol.Spans source place.node := by
  obtain ⟨kind, -, h⟩ := Option.bind_eq_some_iff.1 h
  obtain ⟨name, -, rfl⟩ := Option.map_eq_some_iff.1 h
  dsimp only
  split <;> exact ⟨rfl, rfl⟩

namespace Language

/-- The symbols that a language reads off places have the lines of the nodes that `owner` gives. -/
def ReadsLines (lang : Language) (owner : Place → Node) : Prop :=
  ∀ source place container symbol, lang.symbol? source place container = some symbol →
    symbol.Spans source (owner place)

theorem javaScript_readsLines : javaScript.ReadsLines Place.node := by
  intro source place container symbol h
  obtain ⟨⟨name, kind⟩, -, rfl⟩ := Option.map_eq_some_iff.1 h
  dsimp only
  split <;> exact ⟨rfl, rfl⟩

theorem typeScript_readsLines : typeScript.ReadsLines Place.node := by
  intro source place container symbol h
  change TypeScript.symbol? source place container = some symbol at h
  unfold TypeScript.symbol? at h
  split at h
  · obtain ⟨name, -, rfl⟩ := Option.map_eq_some_iff.1 h
    exact ⟨rfl, rfl⟩
  · exact javaScript_readsLines source place container symbol h

theorem python_readsLines : python.ReadsLines Place.node := by
  intro source place container symbol h
  change Python.symbol? source place container = some symbol at h
  unfold Python.symbol? at h
  dsimp only at h
  split at h
  · obtain ⟨name, -, rfl⟩ := Option.map_eq_some_iff.1 h
    exact ⟨rfl, rfl⟩
  · obtain ⟨name, -, rfl⟩ := Option.map_eq_some_iff.1 h
    exact ⟨rfl, rfl⟩
  · simp at h

theorem readsLines_of_definitions {lang : Language} {definitions : Definitions}
    (h : lang.symbol? = definitions.symbol?) : lang.ReadsLines Place.node := by
  intro source place container symbol hread
  rw [h] at hread
  exact Definitions.spans_of_symbol? hread

/-- A type that a declaration introduces alone has the lines of the whole declaration. -/
theorem Go.typeOwner_cases (place : Place) :
    Go.typeOwner place = place.node ∨ place.parent = some (Go.typeOwner place) := by
  unfold Go.typeOwner
  cases h : place.parent.filter _ with
  | none => exact .inl rfl
  | some declaration => exact .inr (Option.filter_eq_some_iff.1 h).1

/-- The node that a symbol of Go has its lines from. -/
def Go.owner (place : Place) : Node :=
  if place.node.kind = "type_spec" then Go.typeOwner place else place.node

theorem go_readsLines : go.ReadsLines Go.owner := by
  intro source place container symbol h
  change Go.symbol? source place container = some symbol at h
  unfold Go.symbol? at h
  dsimp only at h
  split at h
  · next hkind =>
    obtain ⟨name, -, rfl⟩ := Option.map_eq_some_iff.1 h
    rw [Go.owner, if_neg (by rw [hkind]; decide)]
    exact ⟨rfl, rfl⟩
  · next hkind =>
    obtain ⟨name, -, rfl⟩ := Option.map_eq_some_iff.1 h
    rw [Go.owner, if_neg (by rw [hkind]; decide)]
    exact ⟨rfl, rfl⟩
  · next hkind =>
    obtain ⟨kind, -, h⟩ := Option.bind_eq_some_iff.1 h
    obtain ⟨name, -, rfl⟩ := Option.map_eq_some_iff.1 h
    rw [Go.owner, if_pos hkind]
    exact ⟨rfl, rfl⟩
  · simp at h

/-- What is known of the nodes that the symbols of a language have their lines from: such a node is
the one that became the symbol or, for some targets, its parent. -/
structure Owns (lang : Language) (owner : Place → Node) : Prop where
  readsLines : lang.ReadsLines owner
  cases : ∀ place, owner place = place.node ∨ place.parent = some (owner place)
  eq_node : ∀ place, lang.isTarget place.node = false → owner place = place.node

theorem owns_node {lang : Language} (h : lang.ReadsLines Place.node) : lang.Owns Place.node where
  readsLines := h
  cases _ := .inl rfl
  eq_node _ _ := rfl

theorem go_owns : go.Owns Go.owner where
  readsLines := go_readsLines
  cases place := by
    unfold Go.owner
    split
    · exact Go.typeOwner_cases place
    · exact .inl rfl
  eq_node place htarget := by
    refine if_neg fun hkind => ?_
    simp [isTarget, Node.isOneOf, hkind, go] at htarget

/-- Only Go has symbols with the lines of another node than their own. -/
theorem owns_of_mem_all {lang : Language} (h : lang ∈ all) :
    lang.Owns Place.node ∨ (lang = go ∧ lang.Owns Go.owner) := by
  simp only [all, List.mem_cons, List.not_mem_nil, or_false] at h
  rcases h with rfl | rfl | rfl | rfl | rfl | rfl | rfl | rfl | rfl
  · exact .inl (owns_node javaScript_readsLines)
  · exact .inl (owns_node typeScript_readsLines)
  · exact .inl (owns_node typeScript_readsLines)
  · exact .inl (owns_node python_readsLines)
  · exact .inl (owns_node (readsLines_of_definitions rfl))
  · exact .inl (owns_node (readsLines_of_definitions rfl))
  · exact .inr ⟨rfl, go_owns⟩
  · exact .inl (owns_node (readsLines_of_definitions rfl))
  · exact .inl (owns_node (readsLines_of_definitions rfl))

end Language

/-! ## Owners -/

/-- The node that a symbol has its lines from, which holds the node that became the symbol and the
node that is measured for it. -/
structure Boundary.Owner (source : String) (root : Node) (scope : Scope) (boundary : Boundary)
    (owner : Node) : Prop where
  mem : owner ∈ root.preorder
  node_mem : scope.place.node ∈ owner.preorder
  body_mem : boundary.body.node ∈ owner.preorder
  spans : boundary.symbol.Spans source owner

namespace Language

variable {lang : Language} {source : String} {root : Node} {owner : Place → Node}

/-- The owner of a place is in the tree and holds the node of the place. -/
theorem Owns.mem_preorder (howns : lang.Owns owner) {scope : Scope} (hscope : scope.InTree root) :
    owner scope.place ∈ root.preorder ∧ scope.place.node ∈ (owner scope.place).preorder := by
  rcases howns.cases scope.place with hnode | hparent
  · rw [hnode]
    exact ⟨hscope.node_mem, Node.self_mem_preorder _⟩
  · obtain ⟨hmem, hchild⟩ := hscope.parent_mem _ hparent
    exact ⟨hmem, Node.mem_preorder_of_mem_children hchild⟩

/-- A symbol has the lines of the owner of its place. -/
theorem Owns.spans (howns : lang.Owns owner) {scope : Scope} {boundary : Boundary}
    (h : lang.boundary? source scope = some boundary) :
    boundary.symbol.Spans source (owner scope.place) := by
  unfold boundary? at h
  dsimp only at h
  split at h
  · obtain ⟨symbol, hsymbol, rfl⟩ := Option.map_eq_some_iff.1 h
    exact howns.readsLines _ _ _ symbol hsymbol
  · next htarget =>
    split at h
    · simp at h
    · -- a bound function has the lines of the declaration
      obtain ⟨bound, -, rfl⟩ := Option.map_eq_some_iff.1 h
      rw [howns.eq_node _ (by simpa using htarget)]
      exact ⟨rfl, rfl⟩

/-- What is measured for a symbol is its node or a node below it. -/
theorem mem_preorder_of_boundary? {scope : Scope} {boundary : Boundary}
    (h : lang.boundary? source scope = some boundary) :
    boundary.body.node ∈ scope.place.node.preorder := by
  unfold boundary? at h
  dsimp only at h
  split at h
  · obtain ⟨symbol, -, rfl⟩ := Option.map_eq_some_iff.1 h
    exact Node.self_mem_preorder _
  · split at h
    · simp at h
    · obtain ⟨bound, hbound, rfl⟩ := Option.map_eq_some_iff.1 h
      exact mem_preorder_of_boundFunction? hbound

/-- Every symbol has an owner. -/
theorem exists_owner {scope : Scope} {boundary : Boundary} (hlang : lang ∈ all)
    (hscope : scope.InTree root) (h : lang.boundary? source scope = some boundary) :
    ∃ owner, boundary.Owner source root scope owner := by
  obtain ⟨owner, howns⟩ : ∃ owner, lang.Owns owner := by
    rcases owns_of_mem_all hlang with howns | ⟨-, howns⟩
    · exact ⟨_, howns⟩
    · exact ⟨_, howns⟩
  obtain ⟨hmem, hnode⟩ := howns.mem_preorder hscope
  exact ⟨_, hmem, hnode, Node.mem_preorder_trans (mem_preorder_of_boundary? h) hnode,
    howns.spans h⟩

end Language

end SourceChunks
