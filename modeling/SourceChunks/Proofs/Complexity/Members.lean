-- SUMMARY: The complexity of a container is at least that of its members together.
import Mathlib.Algebra.Order.BigOperators.Group.List
import Mathlib.Algebra.Order.Group.Nat
import SourceChunks.Proofs.Complexity.Cognitive
import SourceChunks.Proofs.Outline

/-!
# Complexity of containers

Both scores of a symbol are sums over the nodes of one tree, the one that is measured for it. The
symbols found among the members of a container have trees below that of the container, and two of
them that do not hold one another have no node in common. So what they score together is part of
what the container scores.
-/

namespace SourceChunks

/-! ## Measures of trees -/

namespace Node

/-- A measure of trees that gives a tree at least what it gives its children together. -/
def Superadditive (m : Node → Nat) : Prop :=
  ∀ n : Node, (n.children.map m).sum ≤ m n

variable {m : Node → Nat} {n : Node}

theorem Superadditive.le_of_mem_children (hm : Superadditive m) {c : Node} (h : c ∈ n.children) :
    m c ≤ m n :=
  Nat.le_trans (List.single_le_sum (by simp) _ (List.mem_map_of_mem h)) (hm n)

theorem Superadditive.le_of_mem_preorder (hm : Superadditive m) {d : Node} (h : d ∈ n.preorder) :
    m d ≤ m n := by
  induction n using induction_children with
  | step n ih =>
      rcases mem_preorder.1 h with rfl | h
      · exact Nat.le_refl _
      · obtain ⟨c, hc, h⟩ := mem_descendants.1 h
        exact Nat.le_trans (ih c hc h) (hm.le_of_mem_children hc)

theorem mem_descendants_of_descendants {a b c : Node} (hab : a ∈ b.descendants)
    (hbc : b ∈ c.preorder) : a ∈ c.descendants := by
  rcases mem_preorder.1 hbc with rfl | hbc
  · exact hab
  · obtain ⟨child, hchild, hbc⟩ := mem_descendants.1 hbc
    exact mem_descendants.2
      ⟨child, hchild, mem_preorder_trans (mem_preorder_of_mem_descendants hab) hbc⟩

theorem mem_descendants_of_preorder {a b c : Node} (hab : a ∈ b.preorder)
    (hbc : b ∈ c.descendants) : a ∈ c.descendants := by
  obtain ⟨child, hchild, hbc⟩ := mem_descendants.1 hbc
  exact mem_descendants.2 ⟨child, hchild, mem_preorder_trans hab hbc⟩

theorem Superadditive.sum_namedChildren_le (hm : Superadditive m) (n : Node) :
    (n.namedChildren.map m).sum ≤ m n := by
  have hsublist : (n.namedChildren.map m).Sublist (n.children.map m) := List.filter_sublist.map m
  exact Nat.le_trans (hsublist.sum_le_sum (by simp)) (hm n)

end Node

namespace Complexity

/-- The number of decision points in a tree. -/
def decisionCount (rules : Rules) (n : Node) : Nat :=
  n.preorder.countP (·.isOneOf rules.decisionPoints)

theorem cyclomatic_eq (rules : Rules) (n : Node) :
    cyclomatic rules n = min (1 + decisionCount rules n) maxScore := by
  rw [cyclomatic, Node.visited_true, decisionCount]

theorem superadditive_decisionCount (rules : Rules) :
    Node.Superadditive (decisionCount rules) := by
  intro n
  unfold decisionCount
  rw [Node.preorder_eq n, List.countP_cons, List.countP_flatMap]
  exact Nat.le_add_right _ _

theorem superadditive_cost (rules : Rules) : Node.Superadditive (cost rules 0) := by
  intro n
  by_cases h : n.isOneOf rules.nesting = true
  · rw [(composes_cost rules).nesting n h, List.sum_map_add]
    omega
  · rw [(composes_cost rules).other n (by simpa using h)]
    exact Nat.le_add_left _ _

end Complexity

/-! ## Symbols that do not hold one another -/

/-- Neither of two symbols is nested in the other: the tree that is measured for one is not below
the tree that is measured for the other. -/
def Boundary.Apart (a b : Boundary) : Prop :=
  a.body.node ∉ b.body.node.descendants ∧ b.body.node ∉ a.body.node.descendants

/-- A sum over some of the elements of several lists, bounded list by list. -/
theorem sum_le_of_sublist_flatMap {α β : Type} {R : β → β → Prop} {f : α → List β} {g : β → Nat}
    {m : α → Nat} {xs : List α} {ys : List β} (hsub : ys.Sublist (xs.flatMap f))
    (hys : ys.Pairwise R)
    (hle : ∀ x ∈ xs, ∀ zs : List β, zs.Sublist (f x) → zs.Pairwise R → (zs.map g).sum ≤ m x) :
    (ys.map g).sum ≤ (xs.map m).sum := by
  induction xs generalizing ys with
  | nil =>
      rw [List.flatMap_nil, List.sublist_nil] at hsub
      rw [hsub]
      exact Nat.le_refl _
  | cons x xs ih =>
      rw [List.flatMap_cons, List.sublist_append_iff] at hsub
      obtain ⟨first, rest, rfl, hfirst, hrest⟩ := hsub
      obtain ⟨hpfirst, hprest, -⟩ := List.pairwise_append.1 hys
      have hone := hle x (List.mem_cons_self ..) first hfirst hpfirst
      have hothers := ih hrest hprest fun y hy => hle y (List.mem_cons_of_mem _ hy)
      simp only [List.map_append, List.sum_append, List.map_cons, List.sum_cons]
      exact Nat.add_le_add hone hothers

namespace Language

variable {lang : Language} {source : String} {scope : Scope} {found : List Boundary}
  {m : Node → Nat}

/-- A symbol with members is measured by the whole node it comes from. -/
theorem body_eq_of_members_ne_nil {boundary : Boundary}
    (h : lang.boundary? source scope = some boundary) (hmembers : lang.members source scope ≠ []) :
    boundary.body = scope.place := by
  unfold boundary? at h
  dsimp only at h
  split at h
  · obtain ⟨symbol, -, rfl⟩ := Option.map_eq_some_iff.1 h
    rfl
  · next htarget =>
    split at h
    · simp at h
    · next hcontainer =>
      -- a declaration that binds a function is searched no further
      obtain ⟨bound, hbound, -⟩ := Option.map_eq_some_iff.1 h
      simp [members, hcontainer, hbound] at hmembers

theorem mem_descendants_of_mem_members {member : Scope}
    (h : member ∈ lang.members source scope) :
    member.place.node ∈ scope.place.node.descendants := by
  obtain ⟨holder, hholder, -, hchild⟩ := members_cases h
  have hbelow : member.place.node ∈ holder.descendants :=
    Node.mem_descendants_of_mem_children (Node.mem_children_of_mem_namedChildren hchild)
  exact Node.mem_descendants_of_descendants hbelow hholder

theorem Reaches.mem_preorder {last : Scope} (h : lang.Reaches source scope last) :
    last.place.node ∈ scope.place.node.preorder := by
  induction h with
  | refl scope => exact Node.self_mem_preorder _
  | step hmember _ ih =>
      apply Node.mem_preorder_trans ih
      exact Node.mem_preorder_of_mem_descendants (mem_descendants_of_mem_members hmember)

/-- What the symbols of a place are measured at is in the tree of the place. -/
theorem mem_preorder_of_mem_outlineFrom {boundary : Boundary}
    (h : boundary ∈ lang.outlineFrom source scope) :
    boundary.body.node ∈ scope.place.node.preorder := by
  obtain ⟨last, hreaches, hlast⟩ := mem_outlineFrom_iff.1 h
  exact Node.mem_preorder_trans (mem_preorder_of_boundary? hlast) hreaches.mem_preorder

/-- If a measure bounds what is found in each member of a place, it bounds what is found in all of
them by the node of the place. -/
theorem sum_members_le (hm : Node.Superadditive m)
    (hbound : ∀ member ∈ lang.members source scope, ∀ part : List Boundary,
      part.Sublist (lang.outlineFrom source member) → part.Pairwise Boundary.Apart →
      (part.map fun b => m b.body.node).sum ≤ m member.place.node)
    (hfound : found.Sublist ((lang.members source scope).flatMap (lang.outlineFrom source)))
    (hapart : found.Pairwise Boundary.Apart) :
    (found.map fun b => m b.body.node).sum ≤ m scope.place.node := by
  have hsum := sum_le_of_sublist_flatMap hfound hapart hbound
  by_cases hnil : lang.members source scope = []
  · rw [hnil] at hsum
    exact Nat.le_trans hsum (Nat.zero_le _)
  · obtain ⟨holder, hholder, container, hmembers⟩ := members_eq_map hnil
    rw [hmembers, List.map_map] at hsum
    calc (found.map fun b => m b.body.node).sum
        ≤ (holder.namedChildren.map m).sum := hsum
      _ ≤ m holder := hm.sum_namedChildren_le holder
      _ ≤ m scope.place.node := hm.le_of_mem_preorder hholder

/-- A symbol stands apart from no symbol of its members. -/
theorem eq_nil_of_apart {boundary : Boundary} (h : lang.boundary? source scope = some boundary)
    (hfound : found.Sublist ((lang.members source scope).flatMap (lang.outlineFrom source)))
    (hapart : ∀ b ∈ found, boundary.Apart b) : found = [] := by
  rw [List.eq_nil_iff_forall_not_mem]
  intro b hb
  obtain ⟨member, hmember, hb'⟩ := List.mem_flatMap.1 (hfound.subset hb)
  have hbody := body_eq_of_members_ne_nil h (List.ne_nil_of_mem hmember)
  have hbelow : b.body.node ∈ scope.place.node.descendants :=
    Node.mem_descendants_of_preorder (mem_preorder_of_mem_outlineFrom hb')
      (mem_descendants_of_mem_members hmember)
  exact (hapart b hb).2 (hbody ▸ hbelow)

/-- Symbols found at a place that do not hold one another measure no more than the place. -/
theorem sum_outlineFrom_le (hm : Node.Superadditive m)
    (hfound : found.Sublist (lang.outlineFrom source scope))
    (hapart : found.Pairwise Boundary.Apart) :
    (found.map fun b => m b.body.node).sum ≤ m scope.place.node := by
  induction scope using outlineFrom.induct lang source generalizing found with
  | case1 scope ih =>
      rw [outlineFrom_eq, List.sublist_append_iff] at hfound
      obtain ⟨own, below, rfl, hown, hbelow⟩ := hfound
      have hmembers : below.Pairwise Boundary.Apart →
          (below.map fun b => m b.body.node).sum ≤ m scope.place.node :=
        sum_members_le hm (fun member hmember part => ih member hmember) hbelow
      cases hboundary : lang.boundary? source scope with
      | none =>
          rw [hboundary, Option.toList_none, List.sublist_nil] at hown
          rw [hown] at hapart ⊢
          exact hmembers hapart
      | some boundary =>
          rw [hboundary, Option.toList_some, List.sublist_singleton] at hown
          rcases hown with rfl | rfl
          · exact hmembers hapart
          · -- a symbol that is taken leaves out those of its members
            rw [List.singleton_append, List.pairwise_cons] at hapart
            rw [eq_nil_of_apart hboundary hbelow hapart.1]
            exact hm.le_of_mem_preorder (mem_preorder_of_boundary? hboundary)

/-- The scores of a symbol are those of the tree that is measured for it. -/
theorem scores_of_boundary? {boundary : Boundary}
    (h : lang.boundary? source scope = some boundary) :
    boundary.symbol.complexity = Complexity.cyclomatic lang.rules boundary.body.node ∧
      boundary.symbol.cognitiveComplexity =
        Complexity.cognitive lang.rules boundary.body.node := by
  unfold boundary? at h
  dsimp only at h
  split at h
  · obtain ⟨symbol, -, rfl⟩ := Option.map_eq_some_iff.1 h
    exact ⟨rfl, rfl⟩
  · split at h
    · simp at h
    · obtain ⟨bound, -, rfl⟩ := Option.map_eq_some_iff.1 h
      exact ⟨rfl, rfl⟩

/-- Symbols of the members of a symbol measure no more than the symbol. -/
theorem sum_found_le {container : Boundary} (hm : Node.Superadditive m)
    (h : lang.boundary? source scope = some container)
    (hfound : found.Sublist ((lang.members source scope).flatMap (lang.outlineFrom source)))
    (hapart : found.Pairwise Boundary.Apart) :
    (found.map fun b => m b.body.node).sum ≤ m container.body.node := by
  by_cases hnil : lang.members source scope = []
  · rw [hnil, List.flatMap_nil, List.sublist_nil] at hfound
    rw [hfound]
    exact Nat.zero_le _
  · rw [body_eq_of_members_ne_nil h hnil]
    exact sum_members_le hm (fun _ _ _ => sum_outlineFrom_le hm) hfound hapart

theorem scores_of_mem_outlineFrom {boundary : Boundary}
    (h : boundary ∈ lang.outlineFrom source scope) :
    boundary.symbol.complexity = Complexity.cyclomatic lang.rules boundary.body.node ∧
      boundary.symbol.cognitiveComplexity =
        Complexity.cognitive lang.rules boundary.body.node := by
  obtain ⟨last, -, hlast⟩ := mem_outlineFrom_iff.1 h
  exact scores_of_boundary? hlast

/-- What a container scores dominates what its members score together. For symbols found among the
members of a container, none nested in another, the decisions of the container are at least theirs
together, and so is its cognitive complexity, unless the score of the container is cut off. -/
theorem container_dominates {container : Boundary}
    (hcontainer : lang.boundary? source scope = some container)
    (hfound : found.Sublist ((lang.members source scope).flatMap (lang.outlineFrom source)))
    (hapart : found.Pairwise Boundary.Apart) :
    (container.symbol.complexity < Complexity.maxScore →
      (found.map (·.symbol.complexity - 1)).sum ≤ container.symbol.complexity - 1) ∧
    (container.symbol.cognitiveComplexity < Complexity.maxScore →
      (found.map (·.symbol.cognitiveComplexity)).sum ≤ container.symbol.cognitiveComplexity) := by
  obtain ⟨hcyclomatic, hcognitive⟩ := scores_of_boundary? hcontainer
  have hscores : ∀ b ∈ found,
      b.symbol.complexity = Complexity.cyclomatic lang.rules b.body.node ∧
        b.symbol.cognitiveComplexity = Complexity.cognitive lang.rules b.body.node := by
    intro b hb
    obtain ⟨member, -, hmem⟩ := List.mem_flatMap.1 (hfound.subset hb)
    exact scores_of_mem_outlineFrom hmem
  constructor
  · intro hbelow
    rw [hcyclomatic, Complexity.cyclomatic_eq] at hbelow ⊢
    have hsum := sum_found_le (Complexity.superadditive_decisionCount lang.rules) hcontainer hfound
      hapart
    have hparts : (found.map (·.symbol.complexity - 1)).sum ≤
        (found.map fun b => Complexity.decisionCount lang.rules b.body.node).sum := by
      apply List.sum_le_sum
      intro b hb
      rw [(hscores b hb).1, Complexity.cyclomatic_eq]
      omega
    omega
  · intro hbelow
    rw [hcognitive, Complexity.cognitive] at hbelow ⊢
    have hsum := sum_found_le (Complexity.superadditive_cost lang.rules) hcontainer hfound hapart
    have hparts : (found.map (·.symbol.cognitiveComplexity)).sum ≤
        (found.map fun b => Complexity.cost lang.rules 0 b.body.node).sum := by
      apply List.sum_le_sum
      intro b hb
      rw [(hscores b hb).2, Complexity.cognitive]
      exact Nat.min_le_left _ _
    omega

/-! ### A class with two methods -/

/-- A method that chooses between two values. -/
private def choiceMethod (id start : Nat) : Node :=
  Sample.construct id "function_definition" start (start + 22)
    [Sample.token (id + 1) "def" start,
     Sample.construct (id + 2) "identifier" (start + 4) (start + 5) [] (some "name"),
     Sample.construct (id + 3) "parameters" (start + 5) (start + 7)
       [Sample.token (id + 4) "(" (start + 5), Sample.token (id + 5) ")" (start + 6)]
       (some "parameters"),
     Sample.token (id + 6) ":" (start + 7),
     Sample.construct (id + 7) "block" (start + 9) (start + 22)
       [Sample.construct (id + 8) "conditional_expression" (start + 9) (start + 22)
         [Sample.construct (id + 9) "identifier" (start + 9) (start + 10) [],
          Sample.token (id + 10) "if" (start + 11),
          Sample.construct (id + 11) "identifier" (start + 14) (start + 15) [],
          Sample.token (id + 12) "else" (start + 16),
          Sample.construct (id + 13) "identifier" (start + 21) (start + 22) []]] (some "body")]

private def choiceBody : Node :=
  Sample.construct 4 "block" 11 58 [choiceMethod 5 11, choiceMethod 19 36] (some "body")

private def choiceClass : Node :=
  Sample.construct 0 "class_definition" 0 58
    [Sample.token 1 "class" 0,
     Sample.construct 2 "identifier" 6 7 [] (some "name"),
     Sample.token 3 ":" 7,
     choiceBody]

private def choiceText : String :=
  "class A:\n  def f(): a if b else c\n  def g(): d if e else f\n"

private def choiceScope : Scope := ⟨⟨choiceClass, none⟩, none⟩

/-- A class that makes two choices, and its two methods that make one each. -/
theorem container_dominates_methods : ∃ container f g : Boundary,
    python.boundary? choiceText choiceScope = some container ∧
    [f, g].Sublist
      ((python.members choiceText choiceScope).flatMap (python.outlineFrom choiceText)) ∧
    [f, g].Pairwise Boundary.Apart ∧
    container.symbol.complexity = 3 ∧ container.symbol.cognitiveComplexity = 2 ∧
    f.symbol.complexity - 1 + (g.symbol.complexity - 1) ≤ container.symbol.complexity - 1 ∧
    f.symbol.cognitiveComplexity + g.symbol.cognitiveComplexity ≤
      container.symbol.cognitiveComplexity := by
  let first : Scope := ⟨⟨choiceMethod 5 11, some choiceBody⟩, some "A"⟩
  let second : Scope := ⟨⟨choiceMethod 19 36, some choiceBody⟩, some "A"⟩
  let container := (python.boundary? choiceText choiceScope).get (by decide)
  let f := (python.boundary? choiceText first).get (by decide)
  let g := (python.boundary? choiceText second).get (by decide)
  have hcontainer : python.boundary? choiceText choiceScope = some container := rfl
  have hmembers : python.members choiceText choiceScope = [first, second] := rfl
  have hfound : [f, g].Sublist
      ((python.members choiceText choiceScope).flatMap (python.outlineFrom choiceText)) := by
    have hf : [f].Sublist (python.outlineFrom choiceText first) :=
      List.singleton_sublist.2 (mem_outlineFrom.2 (.inl rfl))
    have hg : [g].Sublist (python.outlineFrom choiceText second) :=
      List.singleton_sublist.2 (mem_outlineFrom.2 (.inl rfl))
    rw [hmembers, List.flatMap_cons, List.flatMap_singleton]
    exact hf.append hg
  have hapart : [f, g].Pairwise Boundary.Apart := by
    refine List.pairwise_pair.2 ⟨?_, ?_⟩
    · intro h
      exact absurd (List.mem_map_of_mem (f := Node.id) h) (by decide)
    · intro h
      exact absurd (List.mem_map_of_mem (f := Node.id) h) (by decide)
  obtain ⟨hcyclomatic, hcognitive⟩ := container_dominates hcontainer hfound hapart
  refine ⟨container, f, g, hcontainer, hfound, hapart, by decide, by decide, ?_, ?_⟩
  · simpa using hcyclomatic (by decide)
  · simpa using hcognitive (by decide)

end Language

end SourceChunks
