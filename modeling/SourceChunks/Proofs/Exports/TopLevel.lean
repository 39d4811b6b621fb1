-- SUMMARY: Python and PHP files export the names of their top-level definitions, PHP blocks apart.
import SourceChunks.Proofs.Comments
import SourceChunks.Proofs.Complexity.Members
import SourceChunks.Proofs.Outline.Binding

/-!
# Top-level definitions

Two walks see the definitions at the top level of a file: the search for symbols, which looks
through pass-through nodes, and the search for exports, which knows the few places where definitions
stand. In Python they see the same ones. In PHP the search for symbols also looks into blocks of
statements, which the search for exports leaves out.
-/

namespace SourceChunks

/-! ## Lists with elements left out -/

/-- A list is another one less some of the elements that have a property. -/
inductive LeavesOut {α : Type} (p : α → Prop) : (kept all : List α) → Prop where
  | nil : LeavesOut p [] []
  | keep {kept all : List α} (a : α) (rest : LeavesOut p kept all) :
      LeavesOut p (a :: kept) (a :: all)
  | skip {kept all : List α} {a : α} (ha : p a) (rest : LeavesOut p kept all) :
      LeavesOut p kept (a :: all)

namespace LeavesOut

variable {α : Type} {p : α → Prop} {kept all : List α}

theorem refl (all : List α) : LeavesOut p all all := by
  induction all with
  | nil => exact .nil
  | cons a all ih => exact .keep a ih

theorem of_forall (h : ∀ a ∈ all, p a) : LeavesOut p [] all := by
  induction all with
  | nil => exact .nil
  | cons a all ih =>
      obtain ⟨ha, hrest⟩ := List.forall_mem_cons.1 h
      exact .skip ha (ih hrest)

theorem append {kept' all' : List α} (h : LeavesOut p kept all) (h' : LeavesOut p kept' all') :
    LeavesOut p (kept ++ kept') (all ++ all') := by
  induction h with
  | nil => exact h'
  | keep a _ ih => exact .keep a ih
  | skip ha _ ih => exact .skip ha ih

theorem eq_of_forall_not (h : LeavesOut p kept all) (hnone : ∀ a, ¬ p a) : kept = all := by
  induction h with
  | nil => rfl
  | keep a _ ih => rw [ih]
  | skip ha => exact absurd ha (hnone _)

/-- Lists that are kept item by item are kept together. -/
theorem exists_flatMap {β γ : Type} {items : List β} {allOf : β → List α} {value : α → γ}
    {valuesOf : β → List γ}
    (h : ∀ item ∈ items, ∃ kept, LeavesOut p kept (allOf item) ∧ kept.map value = valuesOf item) :
    ∃ kept, LeavesOut p kept (items.flatMap allOf) ∧ kept.map value = items.flatMap valuesOf := by
  induction items with
  | nil => exact ⟨[], .nil, rfl⟩
  | cons item items ih =>
      obtain ⟨hitem, hitems⟩ := List.forall_mem_cons.1 h
      obtain ⟨kept, hkept, hvalues⟩ := hitem
      obtain ⟨rest, hrest, hvalues'⟩ := ih hitems
      refine ⟨kept ++ rest, hkept.append hrest, ?_⟩
      rw [List.map_append, hvalues, hvalues', List.flatMap_cons]

end LeavesOut

/-! ## Definitions among symbols -/

/-- Whether a symbol is a top-level definition: it is in no container, and what is measured for it
is a node of one of the given kinds, not a function value. -/
def Boundary.isTopLevel (kinds : List String) (boundary : Boundary) : Bool :=
  boundary.symbol.parentClass.isNone && boundary.body.node.isOneOf kinds

namespace Language

/-- The top-level definitions among the symbols of a place. -/
def topLevelFrom (lang : Language) (kinds : List String) (source : String) (scope : Scope) :
    List Boundary :=
  (lang.outlineFrom source scope).filter (·.isTopLevel kinds)

/-- The top-level definitions among the symbols of a file. -/
def topLevel (lang : Language) (kinds : List String) (source : String) (root : Node) :
    List Boundary :=
  (lang.outline source root).filter (·.isTopLevel kinds)

variable {lang : Language} {kinds : List String} {source : String} {scope : Scope}

theorem topLevelFrom_eq (lang : Language) (kinds : List String) (source : String) (scope : Scope) :
    lang.topLevelFrom kinds source scope =
      (lang.boundary? source scope).toList.filter (·.isTopLevel kinds) ++
        (lang.members source scope).flatMap (lang.topLevelFrom kinds source) := by
  rw [topLevelFrom, outlineFrom_eq, List.filter_append, List.filter_flatMap]
  rfl

/-- The members of a place are in a container if the place is in one or is one with a name. -/
theorem isSome_container_of_mem_members {member : Scope} (hmem : member ∈ lang.members source scope)
    (hscope : scope.container.isSome = true ∨ (lang.isContainer scope.place.node = true ∧
      (lang.containerName? source scope.place.node).isSome = true)) :
    member.container.isSome = true := by
  simp only [members, containerMembers] at hmem
  split at hmem
  · split at hmem
    · cases hmem
    · obtain ⟨child, -, rfl⟩ := List.mem_map.1 hmem
      rcases hscope with hscope | ⟨-, hname⟩
      · simp [hscope]
      · simp [hname]
  · next hcontainer =>
    rcases hscope with hscope | ⟨hnode, -⟩
    · split at hmem
      · cases hmem
      · split at hmem
        · obtain ⟨child, -, rfl⟩ := List.mem_map.1 hmem
          exact hscope
        · cases hmem
    · exact absurd hnode hcontainer

/-- A language reads the nodes of the given kinds as definitions: they become symbols with the name
that they declare, in the container they are in, and no other role of a node gets in the way. -/
structure ReadsDefinitions (lang : Language) (kinds : List String) : Prop where
  targets : kinds ⊆ lang.targets
  containers : lang.containers ⊆ kinds
  functionValues : ∀ kind ∈ lang.functionValues, kind ∉ kinds
  passThrough : ∀ kind ∈ lang.passThrough, kind ∉ lang.targets ∧ kind ∉ lang.declarations
  containerName source n : lang.containerName? source n = n.fieldText? source "name"
  symbol source (place : Place) container : place.node.kind ∈ kinds →
    (lang.symbol? source place container).map (fun symbol => (symbol.name, symbol.parentClass)) =
      (place.node.declaredName? source).map fun name => (name, container)

namespace ReadsDefinitions

theorem isTarget (h : lang.ReadsDefinitions kinds) {n : Node} (hn : n.isOneOf kinds = true) :
    lang.isTarget n = true :=
  Node.isOneOf_iff.2 (h.targets (Node.isOneOf_iff.1 hn))

theorem isContainer (h : lang.ReadsDefinitions kinds) {n : Node} (hn : n.isOneOf kinds = false) :
    lang.isContainer n = false := by
  cases hcontainer : lang.isContainer n with
  | false => rfl
  | true =>
      have hkind := Node.isOneOf_iff.2 (h.containers (Node.isOneOf_iff.1 hcontainer))
      rw [hn] at hkind
      cases hkind

/-- A node of the given kinds becomes a top-level definition if it is in no container and has a
name. -/
theorem boundary?_of_isOneOf (h : lang.ReadsDefinitions kinds)
    (hkind : scope.place.node.isOneOf kinds = true) :
    ((lang.boundary? source scope).toList.filter (·.isTopLevel kinds)).map (·.symbol.name) =
      if scope.container.isNone then (scope.place.node.declaredName? source).toList else [] := by
  have hsymbol := h.symbol source scope.place scope.container (Node.isOneOf_iff.1 hkind)
  rw [boundary?, if_pos (h.isTarget hkind)]
  cases hread : lang.symbol? source scope.place scope.container with
  | none =>
      rw [hread] at hsymbol
      rw [Option.map_eq_none_iff.1 hsymbol.symm]
      simp
  | some symbol =>
      rw [hread] at hsymbol
      obtain ⟨name, hname, heq⟩ := Option.map_eq_some_iff.1 hsymbol.symm
      obtain ⟨rfl, hparent⟩ := Prod.mk.inj heq
      cases hcontainer : scope.container <;>
        simp [Boundary.isTopLevel, measure, hname, ← hparent, hcontainer, hkind]

/-- A node of another kind becomes no top-level definition. -/
theorem boundary?_of_not_isOneOf (h : lang.ReadsDefinitions kinds)
    (hkind : scope.place.node.isOneOf kinds = false) :
    (lang.boundary? source scope).toList.filter (·.isTopLevel kinds) = [] := by
  have hbody : ∀ boundary, lang.boundary? source scope = some boundary →
      boundary.body.node.isOneOf kinds = false := by
    intro boundary hboundary
    unfold boundary? at hboundary
    dsimp only at hboundary
    split at hboundary
    · obtain ⟨symbol, -, rfl⟩ := Option.map_eq_some_iff.1 hboundary
      exact hkind
    · split at hboundary
      · cases hboundary
      · -- a bound function is measured at the function value
        obtain ⟨bound, hbound, rfl⟩ := Option.map_eq_some_iff.1 hboundary
        unfold boundFunction? at hbound
        split at hbound
        · obtain ⟨_, _, value, hvalue, -, hplace, -⟩ := BoundFunction.below?_eq_some_iff.1 hbound
          have hfree := h.functionValues _ hvalue.kind_mem
          rw [← Bool.not_eq_true, Node.isOneOf_iff]
          simpa [measure, hplace] using hfree
        · cases hbound
  rw [List.filter_eq_nil_iff]
  intro boundary hmem
  simp [Boundary.isTopLevel, hbody boundary (Option.mem_toList.1 hmem)]

/-- Inside a container there are no top-level definitions. -/
theorem topLevelFrom_of_container (h : lang.ReadsDefinitions kinds)
    (hscope : scope.container.isSome = true) : lang.topLevelFrom kinds source scope = [] := by
  induction scope using outlineFrom.induct lang source with
  | case1 scope ih =>
      have hmembers :
          (lang.members source scope).flatMap (lang.topLevelFrom kinds source) = [] := by
        rw [List.flatMap_eq_nil_iff]
        intro member hmem
        exact ih member hmem (isSome_container_of_mem_members hmem (.inl hscope))
      rw [topLevelFrom_eq, hmembers, List.append_nil]
      cases hkind : scope.place.node.isOneOf kinds with
      | false => exact h.boundary?_of_not_isOneOf hkind
      | true =>
          refine List.map_eq_nil_iff.1 ((h.boundary?_of_isOneOf hkind).trans ?_)
          exact if_neg (by simpa using Option.isSome_iff_ne_none.1 hscope)

/-- A node of the given kinds outside all containers has one top-level definition, its own. -/
theorem topLevelFrom_of_isOneOf (h : lang.ReadsDefinitions kinds) {n : Node} {parent : Option Node}
    (hkind : n.isOneOf kinds = true) (hname : (n.fieldText? source "name").isSome = true) :
    (lang.topLevelFrom kinds source ⟨⟨n, parent⟩, none⟩).map (·.symbol.name) =
      (n.declaredName? source).toList := by
  have hmembers : (lang.members source ⟨⟨n, parent⟩, none⟩).flatMap
      (lang.topLevelFrom kinds source) = [] := by
    rw [List.flatMap_eq_nil_iff]
    intro member hmem
    cases hcontainer : lang.isContainer n with
    | true =>
        rw [← h.containerName source n] at hname
        exact h.topLevelFrom_of_container
          (isSome_container_of_mem_members hmem (.inr ⟨hcontainer, hname⟩))
    | false => simp [members, hcontainer, h.isTarget hkind] at hmem
  rw [topLevelFrom_eq, hmembers, List.append_nil, h.boundary?_of_isOneOf hkind]
  rfl

/-- A node that is neither a definition nor looked through has no top-level definitions. -/
theorem topLevelFrom_of_other (h : lang.ReadsDefinitions kinds)
    (hkind : scope.place.node.isOneOf kinds = false)
    (hthrough : lang.isPassThrough scope.place.node = false) :
    lang.topLevelFrom kinds source scope = [] := by
  rw [topLevelFrom_eq, h.boundary?_of_not_isOneOf hkind]
  simp [members, h.isContainer hkind, hthrough]

/-- A node that is looked through has the top-level definitions of its named children. -/
theorem topLevelFrom_of_passThrough (h : lang.ReadsDefinitions kinds) {n : Node}
    {parent : Option Node} (hthrough : lang.isPassThrough n = true) :
    lang.topLevelFrom kinds source ⟨⟨n, parent⟩, none⟩ =
      n.namedChildren.flatMap fun child =>
        lang.topLevelFrom kinds source ⟨⟨child, some n⟩, none⟩ := by
  obtain ⟨htarget, hdeclaration⟩ := h.passThrough _ (Node.isOneOf_iff.1 hthrough)
  have htarget : lang.isTarget n = false := by
    simpa [Language.isTarget, Node.isOneOf] using htarget
  have hdeclaration : lang.isDeclaration n = false := by
    simpa [isDeclaration, Node.isOneOf] using hdeclaration
  have hkind : n.isOneOf kinds = false := by
    cases hkind : n.isOneOf kinds with
    | false => rfl
    | true => rw [h.isTarget hkind] at htarget; cases htarget
  rw [topLevelFrom_eq, h.boundary?_of_not_isOneOf hkind, List.nil_append]
  simp [members, boundFunction?, h.isContainer hkind, htarget, hdeclaration, hthrough,
    List.flatMap_map]

/-- Of the named children of a node that is looked through, only definitions and nodes that are
looked through count. -/
theorem topLevelFrom_of_searched (h : lang.ReadsDefinitions kinds) {n : Node}
    {parent : Option Node} (hthrough : lang.isPassThrough n = true) :
    lang.topLevelFrom kinds source ⟨⟨n, parent⟩, none⟩ =
      (n.namedChildren.filter (·.isOneOf (kinds ++ lang.passThrough))).flatMap fun child =>
        lang.topLevelFrom kinds source ⟨⟨child, some n⟩, none⟩ := by
  rw [h.topLevelFrom_of_passThrough hthrough, flatMap_filter_of_eq_nil]
  intro child _ hother
  have hkind : child.isOneOf kinds = false ∧ lang.isPassThrough child = false := by
    simpa [isPassThrough, Node.isOneOf, not_or] using hother
  exact h.topLevelFrom_of_other hkind.1 hkind.2

end ReadsDefinitions

/-! ## Python -/

namespace Python

/-- The kinds of nodes that define functions and classes. -/
def definitions : List String := ["function_definition", "class_definition"]

theorem readsDefinitions : python.ReadsDefinitions definitions where
  targets := by decide
  containers := by decide
  functionValues := by decide
  passThrough := by decide
  containerName _ _ := rfl
  symbol source place container hkind := by
    change (Python.symbol? source place container).map _ = _
    simp only [definitions, List.mem_cons, List.not_mem_nil, or_false] at hkind
    rcases hkind with hkind | hkind <;>
      simp [Python.symbol?, hkind, Option.map_map, Function.comp_def, Symbol.ofNode]

/-- A tree as the grammar gives it for a file without syntax errors: a module, with no other inside,
in which definitions have names and a decorated definition holds the one that it decorates. -/
structure IsModule (source : String) (root : Node) : Prop where
  kind : root.kind = "module"
  inner : ∀ n ∈ root.descendants, n.kind ≠ "module"
  named : ∀ n ∈ root.preorder, n.isOneOf definitions = true →
    (n.fieldText? source "name").isSome = true
  decorated : ∀ n ∈ root.preorder, n.kind = "decorated_definition" →
    ∃ definition, n.field? "definition" = some definition ∧
      definition.isOneOf definitions = true ∧
      n.namedChildren.filter (·.isOneOf (definitions ++ python.passThrough)) = [definition]

variable {source : String} {root : Node}

/-- The name that a top-level statement exports. -/
def statementName? (source : String) (statement : Node) : Option String :=
  (definition? statement).bind fun definition =>
    if definition.isOneOf definitions then definition.declaredName? source else none

theorem exports_eq (source : String) (root : Node) :
    exports source root =
      (root.namedChildren.flatMap fun statement =>
        (statementName? source statement).toList).eraseDups := by
  rw [exports, List.filterMap_filter, List.filterMap_filterMap, List.filterMap_eq_flatMap_toList]
  rfl

/-- The search for symbols sees the definition of a top-level statement, under its decorators. -/
theorem IsModule.topLevelFrom_statement (h : IsModule source root) {statement : Node}
    (hmem : statement ∈ root.namedChildren) (parent : Option Node) :
    (python.topLevelFrom definitions source ⟨⟨statement, parent⟩, none⟩).map (·.symbol.name) =
      (statementName? source statement).toList := by
  have hstatement := Node.mem_preorder_of_mem_namedChildren hmem
  unfold statementName? definition?
  by_cases hdecorated : statement.kind = "decorated_definition"
  · obtain ⟨d, hfield, hkind, hchildren⟩ := h.decorated statement hstatement hdecorated
    have hthrough : python.isPassThrough statement = true := by
      simp [isPassThrough, Node.isOneOf, hdecorated, python]
    have hd : d ∈ root.preorder :=
      Node.mem_preorder_trans (Node.mem_preorder_of_field? hfield) hstatement
    rw [readsDefinitions.topLevelFrom_of_searched hthrough, hchildren, List.flatMap_singleton,
      readsDefinitions.topLevelFrom_of_isOneOf hkind (h.named d hd hkind)]
    simp [hdecorated, hfield, hkind]
  · cases hkind : statement.isOneOf definitions with
    | true =>
        rw [readsDefinitions.topLevelFrom_of_isOneOf hkind (h.named statement hstatement hkind)]
        simp [hdecorated, hkind]
    | false =>
        have hmodule : statement.kind ≠ "module" :=
          h.inner statement (Node.mem_descendants_of_mem_children
            (Node.mem_children_of_mem_namedChildren hmem))
        have hthrough : python.isPassThrough statement = false := by
          simp [isPassThrough, Node.isOneOf, hdecorated, hmodule, python]
        rw [readsDefinitions.topLevelFrom_of_other hkind hthrough]
        simp [hdecorated, hkind]

/-- A module exports its top-level definitions. -/
theorem IsModule.exports_eq (h : IsModule source root) :
    python.exports source root =
      ((python.topLevel definitions source root).map (·.symbol.name)).eraseDups := by
  have hthrough : python.isPassThrough root = true := by
    simp [isPassThrough, Node.isOneOf, h.kind, python]
  change exports source root = ((python.topLevelFrom definitions source _).map _).eraseDups
  rw [readsDefinitions.topLevelFrom_of_passThrough hthrough, List.map_flatMap, Python.exports_eq]
  rw [List.flatMap_congr fun statement hmem => h.topLevelFrom_statement hmem (some root)]

end Python

/-! ## PHP -/

namespace Php

/-- The kinds of nodes that define functions and types. -/
def definitions : List String := "function_definition" :: typeDeclarations

theorem readsDefinitions : php.ReadsDefinitions definitions where
  targets := by decide
  containers := by decide
  functionValues := by decide
  passThrough := by decide
  containerName _ _ := rfl
  symbol source place container hkind := by
    change (Php.kinds.symbol? source place container).map _ = _
    simp only [definitions, typeDeclarations, List.mem_cons, List.not_mem_nil, or_false] at hkind
    rcases hkind with hkind | hkind | hkind | hkind | hkind <;>
      simp [Php.kinds, Definitions.symbol?, Definitions.kind?, Node.isOneOf, hkind, Option.map_map,
        Function.comp_def, Symbol.ofNode]

/-- A tree as the grammar gives it for a file without syntax errors: a program, with no other
inside, in which definitions have names and a namespace with a body holds its items there. -/
structure IsProgram (source : String) (root : Node) : Prop where
  kind : root.kind = "program"
  inner : ∀ n ∈ root.descendants, n.kind ≠ "program"
  named : ∀ n ∈ root.preorder, n.isOneOf definitions = true →
    (n.fieldText? source "name").isSome = true
  namespaces : ∀ n ∈ root.preorder, n.kind = "namespace_definition" →
    n.namedChildren.filter (·.isOneOf (definitions ++ php.passThrough)) =
        (n.field? "body").toList ∧
      ∀ body, n.field? "body" = some body → body.kind = "compound_statement"

/-- The nodes that hold the items of a file: the root, and the bodies of namespaces among the
items. -/
inductive IsScope (root : Node) : Node → Prop where
  | root : IsScope root root
  | body {scope item body : Node} (around : IsScope root scope)
      (item_mem : item ∈ scope.namedChildren) (kind : item.kind = "namespace_definition")
      (field : item.field? "body" = some body) : IsScope root body

/-- A block of statements among the items of a file. -/
def IsBlock (root block : Node) : Prop :=
  ∃ scope, IsScope root scope ∧ block ∈ scope.namedChildren ∧ block.kind = "compound_statement"

/-- A symbol is defined in a block of statements. -/
def InBlock (root : Node) (boundary : Boundary) : Prop :=
  ∃ block, IsBlock root block ∧ boundary.body.node ∈ block.preorder

variable {source : String} {root : Node}

theorem IsProgram.scope_mem (h : IsProgram source root) {scope : Node}
    (hscope : IsScope root scope) : scope ∈ root.preorder ∧ php.isPassThrough scope = true := by
  induction hscope with
  | root => exact ⟨Node.self_mem_preorder root, by simp [isPassThrough, Node.isOneOf, h.kind, php]⟩
  | body _ hitem hkind hbody ih =>
      have hmem := Node.mem_preorder_trans (Node.mem_preorder_of_mem_namedChildren hitem) ih.1
      have hcompound := (h.namespaces _ hmem hkind).2 _ hbody
      exact ⟨Node.mem_preorder_trans (Node.mem_preorder_of_field? hbody) hmem,
        by simp [isPassThrough, Node.isOneOf, hcompound, php]⟩

/-- The names that one item exports. -/
def itemNames (source : String) (item : Node) : List String :=
  if item.kind == "namespace_definition" then
    ((item.field? "body").map (scopeNames source)).getD []
  else if item.kind == "function_definition" || item.isOneOf typeDeclarations then
    (item.declaredName? source).toList
  else []

theorem scopeNames_eq (source : String) (scope : Node) :
    scopeNames source scope = scope.namedChildren.flatMap (itemNames source) := by
  rw [scopeNames]
  simp only [List.flatMap_subtype, List.unattach_attach]
  congr 1
  funext item
  unfold itemNames
  congr 1
  split
  · next hbody => rw [hbody]; rfl
  · next hbody => rw [hbody]; rfl

theorem itemNames_of_ne {item : Node} (h : item.kind ≠ "namespace_definition") :
    itemNames source item =
      if item.isOneOf definitions then (item.declaredName? source).toList else [] := by
  simp [itemNames, h, definitions, Node.isOneOf]

/-- The search for exports keeps the top-level definitions of a scope, in order, but for some that
are in blocks. -/
theorem IsProgram.exists_kept (h : IsProgram source root) {scope : Node}
    (hscope : IsScope root scope) (parent : Option Node) :
    ∃ kept, LeavesOut (InBlock root) kept
        (php.topLevelFrom definitions source ⟨⟨scope, parent⟩, none⟩) ∧
      kept.map (·.symbol.name) = scopeNames source scope := by
  -- by recursion on the nesting of namespaces, item by item
  obtain ⟨hmem, hthrough⟩ := h.scope_mem hscope
  rw [readsDefinitions.topLevelFrom_of_passThrough hthrough, scopeNames_eq]
  refine LeavesOut.exists_flatMap fun item hitem => ?_
  have hitem' := Node.mem_preorder_trans (Node.mem_preorder_of_mem_namedChildren hitem) hmem
  by_cases hnamespace : item.kind = "namespace_definition"
  · -- a namespace is looked through, and only its body counts
    have hthrough' : php.isPassThrough item = true := by
      simp [isPassThrough, Node.isOneOf, hnamespace, php]
    rw [readsDefinitions.topLevelFrom_of_searched hthrough',
      (h.namespaces item hitem' hnamespace).1]
    cases hbody : item.field? "body" with
    | none => exact ⟨[], .nil, by simp [itemNames, hnamespace, hbody]⟩
    | some body =>
        have hinner := h.exists_kept (.body hscope hitem hnamespace hbody) (some item)
        simpa [itemNames, hnamespace, hbody] using hinner
  · cases hkind : item.isOneOf definitions with
    | true =>
        refine ⟨_, .refl _, ?_⟩
        rw [readsDefinitions.topLevelFrom_of_isOneOf hkind (h.named item hitem' hkind),
          itemNames_of_ne hnamespace, if_pos hkind]
    | false =>
        have hnames : itemNames source item = [] := by
          rw [itemNames_of_ne hnamespace, hkind]
          rfl
        by_cases hblock : item.kind = "compound_statement"
        · -- the search for exports stops here, the search for symbols goes on
          refine ⟨[], .of_forall fun boundary hboundary => ?_, hnames.symm⟩
          refine ⟨item, ⟨scope, hscope, hitem, hblock⟩, ?_⟩
          exact mem_preorder_of_mem_outlineFrom (List.mem_filter.1 hboundary).1
        · have hprogram : item.kind ≠ "program" := by
            apply h.inner item
            exact Node.mem_descendants_of_descendants (Node.mem_descendants_of_mem_children
              (Node.mem_children_of_mem_namedChildren hitem)) hmem
          have hother : php.isPassThrough item = false := by
            simp [isPassThrough, Node.isOneOf, hnamespace, hblock, hprogram, php]
          rw [readsDefinitions.topLevelFrom_of_other hkind hother]
          exact ⟨[], .nil, hnames.symm⟩
termination_by sizeOf scope
decreasing_by
  exact Nat.lt_trans (Node.sizeOf_lt_of_field? hbody) (Node.sizeOf_lt_of_mem_namedChildren hitem)

end Php

/-! ## Both languages -/

/-- Python and PHP export the names of the top-level definitions among their symbols, each name once
and in source order. PHP leaves out definitions in blocks of statements, and only such ones: a file
without blocks exports all. -/
theorem exports_eq_topLevel (source : String) (root : Node) :
    (Python.IsModule source root → python.exports source root =
      ((python.topLevel Python.definitions source root).map (·.symbol.name)).eraseDups) ∧
    (Php.IsProgram source root →
      (∃ kept, LeavesOut (Php.InBlock root) kept (php.topLevel Php.definitions source root) ∧
        php.exports source root = (kept.map (·.symbol.name)).eraseDups) ∧
      ((∀ block, ¬ Php.IsBlock root block) → php.exports source root =
        ((php.topLevel Php.definitions source root).map (·.symbol.name)).eraseDups)) := by
  refine ⟨Python.IsModule.exports_eq, fun h => ?_⟩
  obtain ⟨kept, hkept, hnames⟩ := h.exists_kept .root none
  have hexports : php.exports source root = (kept.map (·.symbol.name)).eraseDups :=
    congrArg List.eraseDups hnames.symm
  refine ⟨⟨kept, hkept, hexports⟩, fun hfree => ?_⟩
  have hall : kept = php.topLevel Php.definitions source root := by
    apply hkept.eq_of_forall_not
    rintro boundary ⟨block, hblock, -⟩
    exact hfree block hblock
  rw [hexports, hall]

/-- A class with a decorator and a method. -/
private def decoratedText : String := "@d\nclass C:\n def m(): 1\n"

private def decoratedClass : Node :=
  Sample.construct 5 "class_definition" 3 23
    [Sample.token 6 "class" 3, Sample.construct 7 "identifier" 9 10 [] (some "name"),
     Sample.token 8 ":" 10,
     Sample.construct 9 "block" 13 23
       [Sample.construct 10 "function_definition" 13 23
         [Sample.token 11 "def" 13, Sample.construct 12 "identifier" 17 18 [] (some "name"),
          Sample.construct 13 "parameters" 18 20 [Sample.token 14 "(" 18, Sample.token 15 ")" 19]
            (some "parameters"),
          Sample.token 16 ":" 20,
          Sample.construct 17 "block" 22 23
            [Sample.construct 18 "expression_statement" 22 23
              [Sample.construct 19 "integer" 22 23 []]]
            (some "body")]]
       (some "body")]
    (some "definition")

private def decoratedStatement : Node :=
  Sample.construct 1 "decorated_definition" 0 23
    [Sample.construct 2 "decorator" 0 2
       [Sample.token 3 "@" 0, Sample.construct 4 "identifier" 1 2 []],
     decoratedClass]

private def decoratedModule : Node :=
  Sample.construct 0 "module" 0 24 [decoratedStatement]

/-- A function without statements, in PHP. -/
private def emptyFunction (id start : Nat) : Node :=
  Sample.construct id "function_definition" start (start + 15)
    [Sample.token (id + 1) "function" start,
     Sample.construct (id + 2) "name" (start + 9) (start + 10) [] (some "name"),
     Sample.construct (id + 3) "formal_parameters" (start + 10) (start + 12)
       [Sample.token (id + 4) "(" (start + 10), Sample.token (id + 5) ")" (start + 11)]
       (some "parameters"),
     Sample.construct (id + 6) "compound_statement" (start + 13) (start + 15)
       [Sample.token (id + 7) "\x7b" (start + 13), Sample.token (id + 8) "\x7d" (start + 14)]
       (some "body")]

/-- A function in a namespace. -/
private def namespacedText : String := "<?php\nnamespace A \x7b function f() \x7b\x7d \x7d\n"

private def namespaceBody : Node :=
  Sample.construct 6 "compound_statement" 18 37
    [Sample.token 7 "\x7b" 18, emptyFunction 8 20, Sample.token 17 "\x7d" 36] (some "body")

private def namespaceItem : Node :=
  Sample.construct 2 "namespace_definition" 6 37
    [Sample.token 3 "namespace" 6,
     Sample.construct 4 "namespace_name" 16 17 [Sample.construct 5 "name" 16 17 []] (some "name"),
     namespaceBody]

private def namespacedProgram : Node :=
  Sample.construct 0 "program" 0 38 [Sample.construct 1 "php_tag" 0 5 [], namespaceItem]

/-- A function in a block. -/
private def blockText : String := "<?php\n\x7b function f() \x7b\x7d \x7d\n"

private def blockItem : Node :=
  Sample.construct 2 "compound_statement" 6 25
    [Sample.token 3 "\x7b" 6, emptyFunction 4 8, Sample.token 13 "\x7d" 24]

private def blockProgram : Node :=
  Sample.construct 0 "program" 0 26 [Sample.construct 1 "php_tag" 0 5 [], blockItem]

/-- The only node of a kind. -/
private theorem eq_of_kind {nodes : List Node} {n only : Node} {kind : String} (hmem : n ∈ nodes)
    (hkind : n.kind = kind) (honly : nodes.filter (·.kind == kind) = [only]) : n = only := by
  have hfound : n ∈ nodes.filter (·.kind == kind) := List.mem_filter.2 ⟨hmem, by simp [hkind]⟩
  rwa [honly, List.mem_singleton] at hfound

private theorem isModule_decorated : Python.IsModule decoratedText decoratedModule where
  kind := rfl
  inner := by decide
  named := by decide +kernel
  decorated n hmem hkind := by
    obtain rfl : n = decoratedStatement := eq_of_kind hmem hkind rfl
    exact ⟨decoratedClass, rfl, rfl, rfl⟩

private theorem isProgram_namespaced : Php.IsProgram namespacedText namespacedProgram where
  kind := rfl
  inner := by decide
  named := by decide +kernel
  namespaces n hmem hkind := by
    obtain rfl : n = namespaceItem := eq_of_kind hmem hkind rfl
    refine ⟨rfl, ?_⟩
    rintro _ ⟨⟩
    rfl

private theorem isProgram_block : Php.IsProgram blockText blockProgram where
  kind := rfl
  inner := by decide
  named := by decide +kernel
  namespaces n hmem hkind := by
    have hnone : ∀ n ∈ blockProgram.preorder, n.kind ≠ "namespace_definition" := by decide
    exact absurd hkind (hnone n hmem)

private theorem not_isBlock_namespaced (block : Node) :
    ¬ Php.IsBlock namespacedProgram block := by
  let scopes := [namespacedProgram, namespaceBody]
  have hscopes : ∀ scope, Php.IsScope namespacedProgram scope → scope ∈ scopes := by
    intro scope hscope
    induction hscope with
    | root => exact List.mem_cons_self
    | body _ hitem hkind hfield ih =>
        have hmem := List.mem_flatMap.2 ⟨_, ih, hitem⟩
        obtain rfl : _ = namespaceItem := eq_of_kind hmem hkind rfl
        obtain rfl := Option.some.inj hfield
        exact List.mem_cons_of_mem _ List.mem_cons_self
  have hnone : ∀ n ∈ scopes.flatMap Node.namedChildren, n.kind ≠ "compound_statement" := by decide
  rintro ⟨scope, hscope, hmem, hkind⟩
  exact hnone block (List.mem_flatMap.2 ⟨scope, hscopes scope hscope, hmem⟩) hkind

/-- The decorated class is exported, its method is not, and so is the function of the namespace. -/
theorem exports_eq_topLevel_samples :
    Python.IsModule decoratedText decoratedModule ∧
    Php.IsProgram namespacedText namespacedProgram ∧
    python.exports decoratedText decoratedModule = ["C"] ∧
    php.exports namespacedText namespacedProgram = ["f"] := by
  refine ⟨isModule_decorated, isProgram_namespaced, ?_, ?_⟩
  · rw [(exports_eq_topLevel _ _).1 isModule_decorated]
    decide +kernel
  · rw [((exports_eq_topLevel _ _).2 isProgram_namespaced).2 not_isBlock_namespaced]
    decide +kernel

/-- A PHP function in a block is a symbol outside all containers, but it is not exported. -/
theorem php_block_not_exported :
    Php.IsProgram blockText blockProgram ∧
    (php.topLevel Php.definitions blockText blockProgram).map (·.symbol.name) = ["f"] ∧
    php.exports blockText blockProgram = [] := by
  exact ⟨isProgram_block, by decide +kernel, by decide +kernel⟩

end Language

end SourceChunks
