-- SUMMARY: Cognitive complexity: nested control structures cost more the deeper they stand.
import SourceChunks.Complexity.Rules

/-!
# Cognitive complexity

A nesting structure costs one more than the number of structures around it. A flat structure
costs one, and where it hangs directly off a nesting structure, as an else branch does, it and what
it holds stay at the depth of that structure.
-/

namespace SourceChunks.Complexity

mutual

/-- The cost of a tree that stands at a depth. -/
def cost (rules : Rules) (depth : Nat) : Node → Nat
  | .mk label children =>
    if rules.nesting.contains label.kind then
      1 + depth + costBranches rules depth children
    else
      (if rules.flat.contains label.kind then 1 else 0) + costAll rules depth children

/-- The cost of trees that stand at one depth. -/
def costAll (rules : Rules) (depth : Nat) : List Node → Nat
  | [] => 0
  | n :: ns => cost rules depth n + costAll rules depth ns

/-- The cost of the children of a nesting structure at a depth: flat ones stay at that depth, the
others are one deeper. -/
def costBranches (rules : Rules) (depth : Nat) : List Node → Nat
  | [] => 0
  | n :: ns =>
    cost rules (if rules.flat.contains n.kind then depth else depth + 1) n
      + costBranches rules depth ns

end

def cognitive (rules : Rules) (n : Node) : Nat :=
  min (cost rules 0 n) maxScore

end SourceChunks.Complexity
