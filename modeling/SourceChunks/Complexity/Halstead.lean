-- SUMMARY: Halstead metrics: operators and operands of a construct, and the measures derived from them.
import SourceChunks.Complexity.Rules

/-!
# Halstead metrics

The leaves of a construct are its tokens. Listed punctuation and keywords are operators, told apart
by their kind; named leaves and literals are operands, told apart by their text; comments do not
count. The measures follow from four counts.
-/

namespace SourceChunks

/-- The metrics of a construct. -/
structure Halstead where
  distinctOperators : Nat
  distinctOperands : Nat
  totalOperators : Nat
  totalOperands : Nat
  volume : Float
  difficulty : Float
  effort : Float
  bugs : Float
  deriving Repr, Inhabited

namespace Complexity

/-- A token as the metrics see it. -/
inductive Token where
  | operator (kind : String)
  | operand (text : String)
  deriving Repr, DecidableEq, Inhabited

namespace Token

def operator? : Token → Option String
  | operator kind => some kind
  | operand _ => none

def operand? : Token → Option String
  | operator _ => none
  | operand text => some text

/-- Whether tokens are looked for below a node: not below comments and literals. -/
def descends (rules : Rules) (n : Node) : Bool :=
  !n.isComment && !n.isOneOf rules.atomicOperands

/-- The token that a node is, taken by itself. -/
def ofNode? (rules : Rules) (source : String) (n : Node) : Option Token :=
  if n.isComment then none
  else if n.isOneOf rules.atomicOperands then some (.operand (n.text source))
  else if !n.children.isEmpty then none
  else if n.isNamed then some (.operand (n.text source))
  else if n.isOneOf rules.operatorSymbols || n.isOneOf rules.operatorKeywords then
    some (.operator n.kind)
  else none

end Token

/-- The tokens of a construct, in source order. -/
def tokens (rules : Rules) (source : String) (n : Node) : List Token :=
  (n.visited (Token.descends rules)).filterMap (Token.ofNode? rules source)

end Complexity

namespace Halstead

/-- The measures that follow from the four counts; without operands they are all zero. -/
def ofCounts (distinctOperators distinctOperands totalOperators totalOperands : Nat) : Halstead :=
  if distinctOperands = 0 then
    { distinctOperators, distinctOperands, totalOperators, totalOperands,
      volume := 0, difficulty := 0, effort := 0, bugs := 0 }
  else
    let vocabulary := Float.ofNat (distinctOperators + distinctOperands)
    let length := Float.ofNat (totalOperators + totalOperands)
    let volume := length * vocabulary.log2
    let difficulty :=
      (Float.ofNat distinctOperators / 2) * (Float.ofNat totalOperands / Float.ofNat distinctOperands)
    { distinctOperators, distinctOperands, totalOperators, totalOperands,
      volume, difficulty, effort := difficulty * volume, bugs := volume / 3000 }

def ofTokens (tokens : List Complexity.Token) : Halstead :=
  let operators := tokens.filterMap (·.operator?)
  let operands := tokens.filterMap (·.operand?)
  ofCounts operators.eraseDups.length operands.eraseDups.length operators.length operands.length

/-- The metrics of the tree below a node. -/
def ofNode (rules : Complexity.Rules) (source : String) (n : Node) : Halstead :=
  ofTokens (Complexity.tokens rules source n)

end Halstead

end SourceChunks
