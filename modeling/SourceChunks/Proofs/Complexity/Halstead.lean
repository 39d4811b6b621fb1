-- SUMMARY: The tokens of a construct by recursion over its tree, and what follows for the four Halstead counts.
import Mathlib.Algebra.GroupWithZero.Nat
import Mathlib.Data.Finset.Card
import SourceChunks.Complexity.Halstead
import SourceChunks.Language.JavaScript
import SourceChunks.Proofs.Imports

/-!
# Halstead counts

The tokens of a construct are read off a walk that turns back at comments, literals and leaves. Said
by recursion, a comment has no token, a literal or a leaf has at most one, and any other node has
those of its children. The four counts are those of this list: its operators and operands, and the
different keys among them.
-/

namespace SourceChunks

namespace Complexity

variable {rules : Rules} {source : String} {n : Node}

/-! ## Tokens by recursion -/

/-- What a function from nodes to lists of tokens has to satisfy to list the tokens of each node. -/
structure ListsTokens (rules : Rules) (source : String) (T : Node → List Token) : Prop where
  comment : ∀ n, n.isComment = true → T n = []
  literal : ∀ n, n.isComment = false → n.isOneOf rules.atomicOperands = true →
    T n = [.operand (n.text source)]
  namedLeaf : ∀ n, n.isComment = false → n.isOneOf rules.atomicOperands = false →
    n.children = [] → n.isNamed = true → T n = [.operand (n.text source)]
  operatorLeaf : ∀ n, n.isComment = false → n.isOneOf rules.atomicOperands = false →
    n.children = [] → n.isNamed = false →
    n.kind ∈ rules.operatorSymbols ∨ n.kind ∈ rules.operatorKeywords → T n = [.operator n.kind]
  otherLeaf : ∀ n, n.isComment = false → n.isOneOf rules.atomicOperands = false →
    n.children = [] → n.isNamed = false →
    ¬ (n.kind ∈ rules.operatorSymbols ∨ n.kind ∈ rules.operatorKeywords) → T n = []
  inner : ∀ n, n.isComment = false → n.isOneOf rules.atomicOperands = false →
    n.children ≠ [] → T n = n.children.flatMap T

/-- The tokens of a node: its own and, where the walk goes on, those of its children. -/
theorem tokens_eq (rules : Rules) (source : String) (n : Node) : tokens rules source n =
    (Token.ofNode? rules source n).toList ++
      if Token.descends rules n then n.children.flatMap (tokens rules source) else [] := by
  have hbelow : (if Token.descends rules n then
        n.children.flatMap (Node.visited (Token.descends rules)) else []).filterMap
          (Token.ofNode? rules source) =
      if Token.descends rules n then n.children.flatMap (tokens rules source) else [] := by
    split
    · exact List.filterMap_flatMap ..
    · rfl
  rw [← hbelow, tokens, Node.visited_eq]
  cases hown : Token.ofNode? rules source n with
  | none => exact List.filterMap_cons_none hown
  | some token => exact List.filterMap_cons_some hown

theorem listsTokens_tokens (rules : Rules) (source : String) :
    ListsTokens rules source (tokens rules source) where
  comment n hcomment := by
    simp [tokens_eq, Token.ofNode?, Token.descends, hcomment]
  literal n hcomment hliteral := by
    simp [tokens_eq, Token.ofNode?, Token.descends, hcomment, hliteral]
  namedLeaf n hcomment hliteral hleaf hnamed := by
    simp [tokens_eq, Token.ofNode?, hcomment, hliteral, hleaf, hnamed]
  operatorLeaf n hcomment hliteral hleaf hnamed hkind := by
    have hoperator :
        (n.isOneOf rules.operatorSymbols || n.isOneOf rules.operatorKeywords) = true := by
      simpa [Node.isOneOf] using hkind
    simp [tokens_eq, Token.ofNode?, hcomment, hliteral, hleaf, hnamed, hoperator]
  otherLeaf n hcomment hliteral hleaf hnamed hkind := by
    have hoperator :
        (n.isOneOf rules.operatorSymbols || n.isOneOf rules.operatorKeywords) = false := by
      simpa [Node.isOneOf] using hkind
    simp [tokens_eq, Token.ofNode?, hcomment, hliteral, hleaf, hnamed, hoperator]
  inner n hcomment hliteral hchildren := by
    simp [tokens_eq rules source n, Token.ofNode?, Token.descends, hcomment, hliteral, hchildren]

/-- No other function lists the tokens of each node. -/
theorem ListsTokens.eq_tokens {T : Node → List Token} (hT : ListsTokens rules source T)
    (n : Node) : T n = tokens rules source n := by
  have htokens := listsTokens_tokens rules source
  induction n using Node.induction_children with
  | step n ih =>
      cases hcomment : n.isComment with
      | true => rw [hT.comment n hcomment, htokens.comment n hcomment]
      | false =>
      cases hliteral : n.isOneOf rules.atomicOperands with
      | true => rw [hT.literal n hcomment hliteral, htokens.literal n hcomment hliteral]
      | false =>
      by_cases hleaf : n.children = []
      · cases hnamed : n.isNamed with
        | true =>
            rw [hT.namedLeaf n hcomment hliteral hleaf hnamed,
              htokens.namedLeaf n hcomment hliteral hleaf hnamed]
        | false =>
            by_cases hkind : n.kind ∈ rules.operatorSymbols ∨ n.kind ∈ rules.operatorKeywords
            · rw [hT.operatorLeaf n hcomment hliteral hleaf hnamed hkind,
                htokens.operatorLeaf n hcomment hliteral hleaf hnamed hkind]
            · rw [hT.otherLeaf n hcomment hliteral hleaf hnamed hkind,
                htokens.otherLeaf n hcomment hliteral hleaf hnamed hkind]
      · rw [hT.inner n hcomment hliteral hleaf, htokens.inner n hcomment hliteral hleaf,
          List.flatMap_def, List.map_congr_left ih, List.flatMap_def]

/-- The tokens of an inner node are told by its label and the tokens of its children. -/
theorem tokens_mk_congr {label : Label} {cs ds : List Node} (hcs : cs ≠ []) (hds : ds ≠ [])
    (heq : cs.flatMap (tokens rules source) = ds.flatMap (tokens rules source)) :
    tokens rules source (.mk label cs) = tokens rules source (.mk label ds) := by
  have htokens := listsTokens_tokens rules source
  -- Whether a node is a comment or a literal, and the text of a literal, is in the label.
  cases hcomment : (Node.mk label cs).isComment with
  | true => rw [htokens.comment _ hcomment, htokens.comment (.mk label ds) hcomment]
  | false =>
  cases hliteral : (Node.mk label cs).isOneOf rules.atomicOperands with
  | true =>
      rw [htokens.literal _ hcomment hliteral, htokens.literal (.mk label ds) hcomment hliteral]
      rfl
  | false =>
      rw [htokens.inner _ hcomment hliteral hcs, htokens.inner (.mk label ds) hcomment hliteral hds]
      exact heq

end Complexity

/-! ## Trees without one of their comments -/

/-- The second tree is the first one without a comment somewhere below the root. The comment is not
the only child of its parent, which would become a leaf. -/
inductive Node.DropsComment : Node → Node → Prop where
  | among {label : Label} {before after : List Node} {comment : Node} :
      comment.isComment = true → before ++ after ≠ [] →
      DropsComment (.mk label (before ++ comment :: after)) (.mk label (before ++ after))
  | inside {label : Label} {before after : List Node} {c c' : Node} :
      DropsComment c c' →
      DropsComment (.mk label (before ++ c :: after)) (.mk label (before ++ c' :: after))

theorem Complexity.tokens_eq_of_dropsComment {rules : Complexity.Rules} {source : String}
    {n n' : Node} (h : n.DropsComment n') :
    Complexity.tokens rules source n' = Complexity.tokens rules source n := by
  induction h with
  | among hcomment hsibling =>
      apply tokens_mk_congr hsibling (by simp)
      have hnone := (listsTokens_tokens rules source).comment _ hcomment
      rw [List.flatMap_append, List.flatMap_append, List.flatMap_cons, hnone, List.nil_append]
  | inside _ ih =>
      apply tokens_mk_congr (by simp) (by simp)
      rw [List.flatMap_append, List.flatMap_append, List.flatMap_cons, List.flatMap_cons, ih]

namespace Halstead

open Complexity

variable {rules : Rules} {source : String} {n : Node} {h : Halstead} {ts : List Token}

/-! ## The four counts -/

theorem length_eraseDups (xs : List String) : xs.eraseDups.length = xs.toFinset.card := by
  rw [← List.toFinset_card_of_nodup (nodup_eraseDups xs)]
  congr 1
  ext x
  rw [List.mem_toFinset, List.mem_toFinset, List.mem_eraseDups]

/-- The four counts are those of a list of tokens: how many operators and operands it has, and how
many different kinds and texts they are. -/
structure CountsOf (h : Halstead) (ts : List Token) : Prop where
  totalOperators : h.totalOperators = (ts.filterMap Token.operator?).length
  totalOperands : h.totalOperands = (ts.filterMap Token.operand?).length
  distinctOperators : h.distinctOperators = (ts.filterMap Token.operator?).toFinset.card
  distinctOperands : h.distinctOperands = (ts.filterMap Token.operand?).toFinset.card

theorem CountsOf.distinctOperators_le (hcounts : h.CountsOf ts) :
    h.distinctOperators ≤ h.totalOperators := by
  rw [hcounts.distinctOperators, hcounts.totalOperators]
  exact List.toFinset_card_le _

theorem CountsOf.distinctOperands_le (hcounts : h.CountsOf ts) :
    h.distinctOperands ≤ h.totalOperands := by
  rw [hcounts.distinctOperands, hcounts.totalOperands]
  exact List.toFinset_card_le _

theorem CountsOf.distinctOperands_eq_zero_iff (hcounts : h.CountsOf ts) :
    h.distinctOperands = 0 ↔ h.totalOperands = 0 := by
  rw [hcounts.distinctOperands, hcounts.totalOperands, Finset.card_eq_zero,
    List.toFinset_eq_empty_iff, List.length_eq_zero_iff]

/-- Whether or not there are operands, the counts are kept as they are. -/
theorem counts_ofCounts (n₁ n₂ total₁ total₂ : Nat) :
    (ofCounts n₁ n₂ total₁ total₂).distinctOperators = n₁ ∧
    (ofCounts n₁ n₂ total₁ total₂).distinctOperands = n₂ ∧
    (ofCounts n₁ n₂ total₁ total₂).totalOperators = total₁ ∧
    (ofCounts n₁ n₂ total₁ total₂).totalOperands = total₂ := by
  unfold ofCounts
  split
  · exact ⟨rfl, rfl, rfl, rfl⟩
  · exact ⟨rfl, rfl, rfl, rfl⟩

theorem countsOf_ofTokens (ts : List Token) : (ofTokens ts).CountsOf ts := by
  obtain ⟨hn₁, hn₂, htotal₁, htotal₂⟩ := counts_ofCounts
    (ts.filterMap Token.operator?).eraseDups.length (ts.filterMap Token.operand?).eraseDups.length
    (ts.filterMap Token.operator?).length (ts.filterMap Token.operand?).length
  exact ⟨htotal₁, htotal₂, hn₁.trans (length_eraseDups _), hn₂.trans (length_eraseDups _)⟩

/-- The tokens of one sort in an inner node are those in its children. -/
theorem length_filterMap_tokens (select : Token → Option String) (hcomment : n.isComment = false)
    (hliteral : n.isOneOf rules.atomicOperands = false) (hchildren : n.children ≠ []) :
    ((tokens rules source n).filterMap select).length =
      (n.children.map fun c => ((tokens rules source c).filterMap select).length).sum := by
  rw [(listsTokens_tokens rules source).inner n hcomment hliteral hchildren,
    List.filterMap_flatMap, List.length_flatMap]

/-- Without operands nothing is divided by their number. -/
theorem measures_ofNode_of_totalOperands (hnone : (ofNode rules source n).totalOperands = 0) :
    (ofNode rules source n).volume = 0 ∧ (ofNode rules source n).difficulty = 0 ∧
    (ofNode rules source n).effort = 0 ∧ (ofNode rules source n).bugs = 0 := by
  have hcounts := countsOf_ofTokens (tokens rules source n)
  have hzero : ((tokens rules source n).filterMap Token.operand?).eraseDups.length = 0 := by
    rw [length_eraseDups, ← hcounts.distinctOperands, hcounts.distinctOperands_eq_zero_iff]
    exact hnone
  rw [ofNode, ofTokens, ofCounts, if_pos hzero]
  exact ⟨rfl, rfl, rfl, rfl⟩

/-- The Halstead counts of a tree are those of its tokens, and there is one way to list these by
recursion. So there are at most as many different operators and operands as there are in all, some
operand is counted if and only if some text is, the totals add up over the children of an inner
node, and a comment beside other nodes does not matter. -/
theorem ofNode_counts (rules : Rules) (source : String) :
    (∃! T, ListsTokens rules source T) ∧
    ∀ T, ListsTokens rules source T → ∀ n,
      (ofNode rules source n).CountsOf (T n) ∧
      (ofNode rules source n).distinctOperators ≤ (ofNode rules source n).totalOperators ∧
      (ofNode rules source n).distinctOperands ≤ (ofNode rules source n).totalOperands ∧
      ((ofNode rules source n).distinctOperands = 0 ↔ (ofNode rules source n).totalOperands = 0) ∧
      ((ofNode rules source n).totalOperands = 0 →
        (ofNode rules source n).volume = 0 ∧ (ofNode rules source n).difficulty = 0 ∧
        (ofNode rules source n).effort = 0 ∧ (ofNode rules source n).bugs = 0) ∧
      (n.isComment = false → n.isOneOf rules.atomicOperands = false → n.children ≠ [] →
        (ofNode rules source n).totalOperators =
          (n.children.map fun c => (ofNode rules source c).totalOperators).sum ∧
        (ofNode rules source n).totalOperands =
          (n.children.map fun c => (ofNode rules source c).totalOperands).sum) ∧
      ∀ n', n.DropsComment n' → ofNode rules source n' = ofNode rules source n := by
  have hcounts (n : Node) : (ofNode rules source n).CountsOf (tokens rules source n) :=
    countsOf_ofTokens _
  refine ⟨⟨tokens rules source, listsTokens_tokens rules source, fun T hT => funext hT.eq_tokens⟩,
    ?_⟩
  intro T hT n
  refine ⟨?_, (hcounts n).distinctOperators_le, (hcounts n).distinctOperands_le,
    (hcounts n).distinctOperands_eq_zero_iff, measures_ofNode_of_totalOperands, ?_, ?_⟩
  · rw [hT.eq_tokens n]
    exact hcounts n
  · intro hcomment hliteral hchildren
    simp only [(hcounts _).totalOperators, (hcounts _).totalOperands]
    exact ⟨length_filterMap_tokens _ hcomment hliteral hchildren,
      length_filterMap_tokens _ hcomment hliteral hchildren⟩
  · intro n' hdrop
    rw [ofNode, tokens_eq_of_dropsComment hdrop, ofNode]

/-- An assignment to a variable that occurs in its own value, with the nodes before its end. -/
private def assignment (remarks : List Node) : Node :=
  Sample.construct 0 "expression_statement" 0 13
    (Sample.construct 1 "assignment_expression" 0 7
      [Sample.construct 2 "identifier" 0 1 [], Sample.token 3 "=" 1,
       Sample.construct 4 "binary_expression" 2 7
         [Sample.construct 5 "identifier" 2 3 [], Sample.token 6 "+" 3,
          Sample.construct 7 "string" 4 7
            [Sample.token 8 "'" 4, Sample.construct 9 "string_fragment" 5 6 [],
             Sample.token 10 "'" 6]]]
      :: (remarks ++ [Sample.token 12 ";" 12]))

private def remark : Node :=
  Sample.construct 11 "comment" 7 12 []

private def assignmentText : String :=
  "x=x+'a'/*b*/;"

/-- The variable is two operands with one text, the literal is one operand, and the comment is
none. -/
theorem ofNode_counts_assignment :
    (assignment [remark]).DropsComment (assignment []) ∧
    (ofNode Language.JavaScript.rules assignmentText (assignment [])).totalOperands = 3 ∧
    (ofNode Language.JavaScript.rules assignmentText (assignment [])).distinctOperands = 2 ∧
    (ofNode Language.JavaScript.rules assignmentText (assignment [])).totalOperators = 3 ∧
    ofNode Language.JavaScript.rules assignmentText (assignment []) =
      ofNode Language.JavaScript.rules assignmentText (assignment [remark]) := by
  obtain ⟨-, hlaw⟩ := ofNode_counts Language.JavaScript.rules assignmentText
  have htokens := listsTokens_tokens Language.JavaScript.rules assignmentText
  obtain ⟨hcounts, -⟩ := hlaw _ htokens (assignment [])
  obtain ⟨-, -, -, -, -, -, hdrops⟩ := hlaw _ htokens (assignment [remark])
  have hdrop : (assignment [remark]).DropsComment (assignment []) :=
    @Node.DropsComment.among _ [_] [_] _ rfl (by simp)
  exact ⟨hdrop, hcounts.totalOperands.trans (by decide), hcounts.distinctOperands.trans (by decide),
    hcounts.totalOperators.trans (by decide), hdrops _ hdrop⟩

end Halstead

end SourceChunks
