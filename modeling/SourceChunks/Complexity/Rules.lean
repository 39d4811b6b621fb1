-- SUMMARY: The vocabulary of node kinds that drives the complexity metrics of a language.
import SourceChunks.Tree

/-!
# Complexity rules

The metrics know nothing about any grammar: a language gives them lists of node kinds.
-/

namespace SourceChunks.Complexity

/-- The node kinds that the metrics count. -/
structure Rules where
  /-- Kinds that add one independent path: branches, loops, cases, boolean operators. -/
  decisionPoints : List String
  /-- Kinds that cost one more than their depth and deepen what they hold. -/
  nesting : List String
  /-- Kinds that cost one wherever they stand: else branches, conditional expressions, cases. -/
  flat : List String
  /-- Punctuation that counts as an operator. -/
  operatorSymbols : List String
  /-- Keywords that count as operators. -/
  operatorKeywords : List String
  /-- Kinds that count as one operand, whatever is below them: literals. -/
  atomicOperands : List String
  deriving Repr, DecidableEq, Inhabited

/-- The punctuation of languages with braces and semicolons. -/
def braceOperators : List String :=
  ["=", "+=", "-=", "*=", "/=", "%=", "&=", "|=", "^=", "<<=", ">>=", "+", "-", "*", "/", "%",
   "++", "--", "==", "!=", "<", ">", "<=", ">=", "&&", "||", "!", "&", "|", "^", "~", "<<", ">>",
   "?", ":", ".", ",", ";", "(", "[", "\x7b", "=>"]

/-- The largest score that is told apart: larger ones are reported as this one. -/
def maxScore : Nat := 0xFFFFFFFF

end SourceChunks.Complexity
