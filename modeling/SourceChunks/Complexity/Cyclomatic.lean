-- SUMMARY: Cyclomatic complexity: one more than the number of decision points.
import SourceChunks.Complexity.Rules

/-!
# Cyclomatic complexity

The number of independent paths through a construct: one, and one more for each decision point,
named and anonymous nodes alike.
-/

namespace SourceChunks.Complexity

def cyclomatic (rules : Rules) (n : Node) : Nat :=
  min (1 + (n.visited fun _ => true).countP (·.isOneOf rules.decisionPoints)) maxScore

theorem one_le_cyclomatic (rules : Rules) (n : Node) : 1 ≤ cyclomatic rules n := by
  unfold cyclomatic maxScore
  omega

end SourceChunks.Complexity
