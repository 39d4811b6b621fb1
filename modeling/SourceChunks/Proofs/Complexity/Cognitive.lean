-- SUMMARY: Cognitive complexity by composition: the cost of a tree from those of its children, in whatever order its nodes are scored.
import Mathlib.Algebra.BigOperators.Group.List.Basic
import Mathlib.Algebra.GroupWithZero.Nat
import SourceChunks.Complexity.Cognitive
import SourceChunks.Proofs.Tree

/-!
# Cognitive complexity by composition

The cost of a tree depends on the depth at which it stands, but only in one way: a level more costs
one more for each nesting structure in it. So the cost at depth zero can be said of each node from
the costs of its children, without any depth. The same cost comes out of a sweep that keeps a store
of trees to be scored with their depths and takes them from it in any order, with sums that stop at
the largest score.
-/

namespace SourceChunks.Complexity

variable {rules : Rules} {depth : Nat} {n : Node}

/-! ## One level of a tree -/

/-- The depth of a child of a nesting structure. -/
def branchDepth (rules : Rules) (depth : Nat) (child : Node) : Nat :=
  if child.isOneOf rules.flat then depth else depth + 1

theorem costAll_eq_sum (rules : Rules) (depth : Nat) (ns : List Node) :
    costAll rules depth ns = (ns.map (cost rules depth)).sum := by
  induction ns with
  | nil => rfl
  | cons n ns ih => rw [costAll, ih, List.map_cons, List.sum_cons]

theorem costBranches_eq_sum (rules : Rules) (depth : Nat) (ns : List Node) :
    costBranches rules depth ns =
      (ns.map fun c => cost rules (branchDepth rules depth c) c).sum := by
  induction ns with
  | nil => rfl
  | cons n ns ih =>
      rw [costBranches, ih, List.map_cons, List.sum_cons]
      rfl

theorem cost_of_nesting (h : n.isOneOf rules.nesting = true) :
    cost rules depth n =
      1 + depth + (n.children.map fun c => cost rules (branchDepth rules depth c) c).sum := by
  cases n with
  | mk label children =>
      have h : rules.nesting.contains label.kind = true := h
      rw [cost, if_pos h, costBranches_eq_sum]
      rfl

theorem cost_of_not_nesting (h : n.isOneOf rules.nesting = false) :
    cost rules depth n =
      (if n.isOneOf rules.flat then 1 else 0) + (n.children.map (cost rules depth)).sum := by
  cases n with
  | mk label children =>
      have h : ¬ rules.nesting.contains label.kind = true := Bool.eq_false_iff.1 h
      rw [cost, if_neg h, costAll_eq_sum]
      rfl

/-- The number of nesting structures in a tree. -/
def nestingCount (rules : Rules) (n : Node) : Nat :=
  n.preorder.countP (·.isOneOf rules.nesting)

theorem nestingCount_eq (rules : Rules) (n : Node) :
    nestingCount rules n =
      (if n.isOneOf rules.nesting then 1 else 0) + (n.children.map (nestingCount rules)).sum := by
  rw [nestingCount, Node.preorder_eq, List.countP_cons, List.countP_flatMap, Nat.add_comm]
  rfl

/-! ## Depth -/

/-- A tree that stands one level deeper costs one more for each nesting structure in it. -/
theorem cost_succ (rules : Rules) (depth : Nat) (n : Node) :
    cost rules (depth + 1) n = cost rules depth n + nestingCount rules n := by
  induction n using Node.induction_children generalizing depth with
  | step n ih =>
      rw [nestingCount_eq]
      by_cases h : n.isOneOf rules.nesting = true
      · -- whether or not a branch is flat, it moves down with the structure that holds it
        have hbranch : ∀ c ∈ n.children, cost rules (branchDepth rules (depth + 1) c) c =
            cost rules (branchDepth rules depth c) c + nestingCount rules c := by
          intro c hc
          unfold branchDepth
          split
          · exact ih c hc depth
          · exact ih c hc (depth + 1)
        rw [cost_of_nesting h, cost_of_nesting h, List.map_congr_left hbranch, List.sum_map_add,
          if_pos h]
        omega
      · have h : n.isOneOf rules.nesting = false := by simpa using h
        have hchild : ∀ c ∈ n.children, cost rules (depth + 1) c =
            cost rules depth c + nestingCount rules c :=
          fun c hc => ih c hc depth
        rw [cost_of_not_nesting h, cost_of_not_nesting h, List.map_congr_left hchild,
          List.sum_map_add, h]
        simp only [Bool.false_eq_true, if_false]
        omega

/-- What a score has to satisfy to be composed from the scores of the children: a nesting structure
adds what its branches pay for standing one level deeper, and those that are flat pay nothing. -/
structure Composes (rules : Rules) (S : Node → Nat) : Prop where
  nesting : ∀ n, n.isOneOf rules.nesting = true →
    S n = 1 + (n.children.map fun c =>
      S c + if c.isOneOf rules.flat then 0 else nestingCount rules c).sum
  other : ∀ n, n.isOneOf rules.nesting = false →
    S n = (if n.isOneOf rules.flat then 1 else 0) + (n.children.map S).sum

theorem composes_cost (rules : Rules) : Composes rules (cost rules 0) where
  nesting n h := by
    rw [cost_of_nesting h]
    congr 2
    apply List.map_congr_left
    intro c _
    unfold branchDepth
    split
    · rfl
    · exact cost_succ rules 0 c
  other n h := cost_of_not_nesting h

/-- No other score is composed in this way. -/
theorem Composes.eq_cost {S : Node → Nat} (hS : Composes rules S) (n : Node) :
    S n = cost rules 0 n := by
  induction n using Node.induction_children with
  | step n ih =>
      have hcost := composes_cost rules
      by_cases h : n.isOneOf rules.nesting = true
      · rw [hS.nesting n h, hcost.nesting n h]
        congr 2
        apply List.map_congr_left
        intro c hc
        rw [ih c hc]
      · have h : n.isOneOf rules.nesting = false := by simpa using h
        rw [hS.other n h, hcost.other n h, List.map_congr_left ih]

/-! ## Levels -/

mutual

/-- The largest number of nesting structures that stand one inside the other. -/
def levels (rules : Rules) : Node → Nat
  | .mk label children =>
    (if rules.nesting.contains label.kind then 1 else 0) + levelsAll rules children

/-- The levels of the deepest of several trees. -/
def levelsAll (rules : Rules) : List Node → Nat
  | [] => 0
  | n :: ns => max (levels rules n) (levelsAll rules ns)

end

theorem levels_le_levelsAll {ns : List Node} (h : n ∈ ns) : levels rules n ≤ levelsAll rules ns := by
  induction ns with
  | nil => simp at h
  | cons m ns ih =>
      rw [levelsAll]
      rcases List.mem_cons.1 h with rfl | h
      · exact Nat.le_max_left _ _
      · exact Nat.le_trans (ih h) (Nat.le_max_right _ _)

theorem levels_eq (rules : Rules) (n : Node) : levels rules n =
    (if n.isOneOf rules.nesting then 1 else 0) + levelsAll rules n.children := by
  cases n with
  | mk label children => rw [levels]; rfl

/-! ## Sweeps -/

/-- A tree that is yet to be scored, with the depth at which it stands. -/
structure Pending where
  node : Node
  depth : Nat

namespace Pending

/-- What the root of a pending tree adds to the score. -/
def charge (rules : Rules) (p : Pending) : Nat :=
  if p.node.isOneOf rules.nesting then 1 + p.depth
  else if p.node.isOneOf rules.flat then 1 else 0

/-- The trees that are pending once the root is scored. -/
def parts (rules : Rules) (p : Pending) : List Pending :=
  p.node.children.map fun c =>
    ⟨c, if p.node.isOneOf rules.nesting then branchDepth rules p.depth c else p.depth⟩

def cost (rules : Rules) (p : Pending) : Nat :=
  Complexity.cost rules p.depth p.node

/-- The number of nodes that are yet to be scored in a pending tree. -/
def size (p : Pending) : Nat :=
  p.node.preorder.length

theorem cost_eq (rules : Rules) (p : Pending) :
    p.cost rules = p.charge rules + ((p.parts rules).map (cost rules)).sum := by
  unfold cost charge parts
  rw [List.map_map]
  by_cases h : p.node.isOneOf rules.nesting = true
  · rw [cost_of_nesting h, if_pos h]
    simp [Function.comp_def, h]
  · have h : p.node.isOneOf rules.nesting = false := by simpa using h
    rw [cost_of_not_nesting h]
    simp [Function.comp_def, h]

theorem size_eq (rules : Rules) (p : Pending) :
    p.size = 1 + ((p.parts rules).map size).sum := by
  unfold size parts
  rw [Node.preorder_eq, List.length_cons, List.length_flatMap, List.map_map, Nat.add_comm]
  rfl

theorem size_pos (p : Pending) : 0 < p.size := by
  rw [size, Node.preorder_eq, List.length_cons]
  omega

/-- A tree takes its levels with it: no part of it reaches deeper than the whole. -/
theorem depth_add_levels_le {p part : Pending} (h : part ∈ p.parts rules) :
    part.depth + levels rules part.node ≤ p.depth + levels rules p.node := by
  obtain ⟨c, hc, rfl⟩ := List.mem_map.1 h
  have hlevels : levels rules c ≤ levelsAll rules p.node.children := levels_le_levelsAll hc
  rw [levels_eq rules p.node]
  by_cases hnesting : p.node.isOneOf rules.nesting = true
  · simp only [hnesting, if_true, branchDepth]
    split <;> omega
  · simp only [hnesting, Bool.false_eq_true, if_false]
    omega

end Pending

/-- A score in the making: what has been added up and the trees that are pending. -/
structure Sweep where
  score : Nat
  pending : List Pending

namespace Sweep

/-- The sweep of a tree before its first step. -/
def start (n : Node) : Sweep :=
  ⟨0, [⟨n, 0⟩]⟩

/-- A step of a sweep: a pending tree, whichever it is, is replaced by its parts, and the charge of
its root is added up to the largest score. The depth of the parts has to be in the range of scores. -/
structure Scores (rules : Rules) (p : Pending) (before after : Sweep) : Prop where
  pending : ∃ rest, before.pending.Perm (p :: rest) ∧ after.pending.Perm (p.parts rules ++ rest)
  score : after.score = min (before.score + p.charge rules) maxScore
  fits : p.node.isOneOf rules.nesting = true → p.depth + 1 ≤ maxScore

/-- A number of steps leads from the start of a sweep to a state of it. -/
inductive Run (rules : Rules) (n : Node) : Nat → Sweep → Prop where
  | zero : Run rules n 0 (start n)
  | succ {steps : Nat} {before after : Sweep} {p : Pending} (hrun : Run rules n steps before)
      (hstep : before.Scores rules p after) : Run rules n (steps + 1) after

/-- The score that a sweep comes to if nothing else happens to what is pending. -/
def total (rules : Rules) (s : Sweep) : Nat :=
  min (s.score + (s.pending.map (Pending.cost rules)).sum) maxScore

/-- The number of nodes that are yet to be scored. -/
def remaining (s : Sweep) : Nat :=
  (s.pending.map Pending.size).sum

variable {before after s : Sweep} {p : Pending} {steps : Nat}

/-! ### One step -/

/-- What a measure of pending trees sums up to before and after a step. -/
theorem Scores.sum_eq (h : before.Scores rules p after) (m : Pending → Nat) :
    ∃ rest, (before.pending.map m).sum = m p + rest ∧
      (after.pending.map m).sum = ((p.parts rules).map m).sum + rest := by
  obtain ⟨rest, hbefore, hafter⟩ := h.pending
  refine ⟨(rest.map m).sum, ?_, ?_⟩
  · rw [(hbefore.map m).sum_eq, List.map_cons, List.sum_cons]
  · rw [(hafter.map m).sum_eq, List.map_append, List.sum_append]

theorem Scores.total_eq (h : before.Scores rules p after) :
    after.total rules = before.total rules := by
  obtain ⟨rest, hbefore, hafter⟩ := h.sum_eq (Pending.cost rules)
  have hcost := p.cost_eq rules
  -- it does not matter whether the sum stops here or at the end
  rw [total, total, hbefore, hafter, h.score]
  omega

theorem Scores.remaining_eq (h : before.Scores rules p after) :
    after.remaining + 1 = before.remaining := by
  obtain ⟨rest, hbefore, hafter⟩ := h.sum_eq Pending.size
  have hsize := p.size_eq rules
  rw [remaining, remaining, hbefore, hafter]
  omega

theorem Scores.depth_add_levels_le {bound : Nat} (h : before.Scores rules p after)
    (hbound : ∀ q ∈ before.pending, q.depth + levels rules q.node ≤ bound) :
    ∀ q ∈ after.pending, q.depth + levels rules q.node ≤ bound := by
  intro q hq
  obtain ⟨rest, hbefore, hafter⟩ := h.pending
  rcases List.mem_append.1 (hafter.mem_iff.1 hq) with hpart | hrest
  · exact Nat.le_trans (Pending.depth_add_levels_le hpart)
      (hbound p (hbefore.mem_iff.2 (List.mem_cons_self ..)))
  · exact hbound q (hbefore.mem_iff.2 (List.mem_cons_of_mem _ hrest))

/-- A pending tree can be scored next, if the depth of its parts is in range. -/
theorem exists_scores (hp : p ∈ s.pending)
    (hfits : p.node.isOneOf rules.nesting = true → p.depth + 1 ≤ maxScore) :
    ∃ next, s.Scores rules p next := by
  obtain ⟨before, after, hpending⟩ := List.append_of_mem hp
  refine ⟨⟨min (s.score + p.charge rules) maxScore, p.parts rules ++ (before ++ after)⟩,
    ⟨before ++ after, ?_, List.Perm.refl _⟩, rfl, hfits⟩
  rw [hpending]
  exact List.perm_middle

/-! ### Runs -/

theorem Run.total_eq (h : Run rules n steps s) : s.total rules = cognitive rules n := by
  induction h with
  | zero => simp [total, start, Pending.cost, cognitive]
  | succ _ hstep ih => exact hstep.total_eq.trans ih

theorem Run.steps_add_remaining (h : Run rules n steps s) :
    steps + s.remaining = n.preorder.length := by
  induction h with
  | zero => simp [remaining, start, Pending.size]
  | succ _ hstep ih =>
      have := hstep.remaining_eq
      omega

theorem Run.depth_add_levels_le (h : Run rules n steps s) :
    ∀ p ∈ s.pending, p.depth + levels rules p.node ≤ levels rules n := by
  induction h with
  | zero => simp [start]
  | succ _ hstep ih => exact hstep.depth_add_levels_le ih

/-- In a tree with few enough levels every pending tree can be scored next. -/
theorem Run.exists_scores (h : Run rules n steps s) (hlevels : levels rules n < maxScore)
    (hp : p ∈ s.pending) : ∃ next, s.Scores rules p next := by
  apply Sweep.exists_scores hp
  intro hnesting
  have hdepth := h.depth_add_levels_le p hp
  rw [levels_eq, if_pos hnesting] at hdepth
  omega

theorem remaining_eq_zero_iff : s.remaining = 0 ↔ s.pending = [] := by
  constructor
  · intro h
    cases hpending : s.pending with
    | nil => rfl
    | cons p rest =>
        have := p.size_pos
        simp only [remaining, hpending, List.map_cons, List.sum_cons] at h
        omega
  · intro h
    simp [remaining, h]

/-- A sweep is done after as many steps as there are nodes. -/
theorem Run.pending_eq_nil_iff (h : Run rules n steps s) :
    s.pending = [] ↔ steps = n.preorder.length := by
  have := h.steps_add_remaining
  rw [← remaining_eq_zero_iff]
  omega

theorem Run.score_le (h : Run rules n steps s) : s.score ≤ maxScore := by
  cases h with
  | zero => exact Nat.zero_le _
  | succ _ hstep =>
      rw [hstep.score]
      exact Nat.min_le_right _ _

/-- A sweep that is done has come to the complexity. -/
theorem Run.score_eq (h : Run rules n steps s) (hdone : s.pending = []) :
    s.score = cognitive rules n := by
  calc s.score = min s.score maxScore := (Nat.min_eq_left h.score_le).symm
    _ = s.total rules := by simp [total, hdone]
    _ = cognitive rules n := h.total_eq

/-- In a tree with few enough levels a sweep can go on until it is done. -/
theorem exists_run (hlevels : levels rules n < maxScore) (hsteps : steps ≤ n.preorder.length) :
    ∃ s, Run rules n steps s := by
  induction steps with
  | zero => exact ⟨_, .zero⟩
  | succ steps ih =>
      obtain ⟨s, hrun⟩ := ih (Nat.le_of_succ_le hsteps)
      have hpending : s.pending ≠ [] := fun hdone =>
        Nat.ne_of_lt hsteps (hrun.pending_eq_nil_iff.1 hdone)
      obtain ⟨p, hp⟩ := List.exists_mem_of_ne_nil _ hpending
      obtain ⟨next, hnext⟩ := hrun.exists_scores hlevels hp
      exact ⟨next, .succ hrun hnext⟩

end Sweep

/-! ## The law of composition -/

/-- The cognitive complexity of a tree is composed from what its children score, up to the largest
score, and there is one way to compose it. A tree that stands one level deeper costs one more for
each nesting structure in it. In a tree with few enough levels, every order in which the nodes are
scored can be carried on, takes as many steps as there are nodes, and comes to the same score. -/
theorem cognitive_composition (rules : Rules) :
    (∃! S, Composes rules S) ∧
    ∀ S, Composes rules S → ∀ n,
      cognitive rules n = min (S n) maxScore ∧
      (∀ depth, cost rules (depth + 1) n = cost rules depth n + nestingCount rules n) ∧
      (levels rules n < maxScore →
        (∃ s, Sweep.Run rules n n.preorder.length s) ∧
        ∀ steps s, Sweep.Run rules n steps s →
          (∀ p ∈ s.pending, ∃ next, s.Scores rules p next) ∧
          (s.pending = [] ↔ steps = n.preorder.length) ∧
          (s.pending = [] → s.score = min (S n) maxScore)) := by
  refine ⟨⟨cost rules 0, composes_cost rules, fun S hS => funext hS.eq_cost⟩, ?_⟩
  intro S hS n
  have hcognitive : cognitive rules n = min (S n) maxScore := by rw [hS.eq_cost n, cognitive]
  refine ⟨hcognitive, fun depth => cost_succ rules depth n, ?_⟩
  intro hlevels
  refine ⟨Sweep.exists_run hlevels (Nat.le_refl _), ?_⟩
  intro steps s hrun
  refine ⟨fun p hp => hrun.exists_scores hlevels hp, hrun.pending_eq_nil_iff, ?_⟩
  intro hdone
  exact (hrun.score_eq hdone).trans hcognitive

/-- Branches that hold one another, with an else branch that holds a branch again. -/
private def branchRules : Rules where
  decisionPoints := []
  nesting := ["if", "for"]
  flat := ["else"]
  operatorSymbols := []
  operatorKeywords := []
  atomicOperands := []

/-- A loop in a branch whose else branch is a branch with a loop. -/
private def branchTree : Node :=
  Sample.construct 0 "if" 0 9
    [Sample.construct 1 "for" 1 2 [],
     Sample.construct 2 "else" 3 8
       [Sample.construct 3 "if" 4 7 [Sample.construct 4 "for" 5 6 []]]]

/-- The else branch stays at the depth of its branch, so each loop costs two and each branch one.
Any sweep that is done has come to this score. -/
theorem cognitive_composition_elseBranch :
    levels branchRules branchTree < maxScore ∧ cognitive branchRules branchTree = 7 ∧
    ∃ s, Sweep.Run branchRules branchTree 5 s ∧ s.pending = [] ∧ s.score = 7 := by
  obtain ⟨-, hlaw⟩ := cognitive_composition branchRules
  obtain ⟨hscore, -, hsweeps⟩ := hlaw _ (composes_cost branchRules) branchTree
  have hlevels : levels branchRules branchTree < maxScore := by decide
  have hcost : min (cost branchRules 0 branchTree) maxScore = 7 := by decide
  obtain ⟨⟨s, hrun⟩, hruns⟩ := hsweeps hlevels
  obtain ⟨-, hdone, hend⟩ := hruns _ s hrun
  refine ⟨hlevels, hscore.trans hcost, s, hrun, hdone.2 rfl, ?_⟩
  exact (hend (hdone.2 rfl)).trans hcost

end SourceChunks.Complexity
