-- SUMMARY: What another condition adds to the cognitive complexity of an else-if chain, by the way in which a grammar nests such chains.
import SourceChunks.Language.Registry
import SourceChunks.Proofs.Complexity.Cognitive

/-!
# Else-if chains

Grammars nest else-if chains in three ways: an else clause holds the next conditional, or the
conditional holds one clause for each further condition, or the next conditional stands in the
conditional itself, behind the word *else*. In the first two ways each further condition adds the
same amount to the cognitive complexity. In the third it adds more the longer the chain is: only the
word stays at the depth of its conditional, and what follows it is one level deeper.
-/

namespace SourceChunks.Complexity

variable {rules : Rules} {depth : Nat} {n : Node}

/-! ## Plain trees -/

/-- Whether a tree is free of nesting and flat structures. -/
def isPlain (rules : Rules) (n : Node) : Bool :=
  n.preorder.all fun d => !d.isOneOf rules.nesting && !d.isOneOf rules.flat

/-- The children of a node that are not plain. -/
def structures (rules : Rules) (n : Node) : List Node :=
  n.children.filter (!isPlain rules ·)

theorem isPlain_iff : isPlain rules n = true ↔
    (n.isOneOf rules.nesting = false ∧ n.isOneOf rules.flat = false) ∧
      ∀ c ∈ n.children, isPlain rules c = true := by
  unfold isPlain
  rw [Node.preorder_eq, List.all_cons, List.all_flatMap]
  simp

theorem cost_of_isPlain (h : isPlain rules n = true) : cost rules depth n = 0 := by
  induction n using Node.induction_children with
  | step n ih =>
      obtain ⟨⟨hnesting, hflat⟩, hchildren⟩ := isPlain_iff.1 h
      have hzero : ∀ c ∈ n.children, cost rules depth c = 0 := fun c hc => ih c hc (hchildren c hc)
      rw [cost_of_not_nesting hnesting, hflat, List.map_congr_left hzero]
      simp

theorem nestingCount_of_isPlain (h : isPlain rules n = true) : nestingCount rules n = 0 := by
  have hshift := cost_succ rules 0 n
  rw [cost_of_isPlain h, cost_of_isPlain h] at hshift
  omega

/-- A sum over the children of a node is one over its structures, if plain trees add nothing. -/
theorem sum_children_eq {f : Node → Nat} (hf : ∀ c, isPlain rules c = true → f c = 0) (n : Node) :
    (n.children.map f).sum = ((structures rules n).map f).sum := by
  unfold structures
  induction n.children with
  | nil => rfl
  | cons c cs ih =>
      cases hc : isPlain rules c with
      | true => simp [hc, hf c hc, ih]
      | false => simp [hc, ih]

theorem cost_nesting_eq (h : n.isOneOf rules.nesting = true) : cost rules depth n =
    1 + depth + ((structures rules n).map fun c => cost rules (branchDepth rules depth c) c).sum := by
  rw [cost_of_nesting h, sum_children_eq (fun c hc => cost_of_isPlain hc)]

theorem cost_flat_eq (h : n.isOneOf rules.nesting = false) (hflat : n.isOneOf rules.flat = true) :
    cost rules depth n = 1 + ((structures rules n).map (cost rules depth)).sum := by
  rw [cost_of_not_nesting h, if_pos hflat, sum_children_eq (fun c hc => cost_of_isPlain hc)]

theorem nestingCount_eq_sum (rules : Rules) (n : Node) : nestingCount rules n =
    (if n.isOneOf rules.nesting then 1 else 0)
      + ((structures rules n).map (nestingCount rules)).sum := by
  rw [nestingCount_eq, sum_children_eq (fun c hc => nestingCount_of_isPlain hc)]

/-! ## Chains -/

/-- A way to nest else-if chains, with the kinds of nodes that make it up. -/
inductive ElseIf where
  /-- The clause behind a conditional holds the next conditional. -/
  | inClause (branch clause : String)
  /-- A conditional holds an arm for each further condition, and a clause for what is left. -/
  | inArms (branch arm clause : String)
  /-- A conditional holds a word and, behind it, the next conditional. -/
  | behindWord (branch word : String)
  deriving Repr, DecidableEq

namespace ElseIf

/-- The kind of the conditionals. -/
def branch : ElseIf → String
  | inClause branch _ => branch
  | inArms branch _ _ => branch
  | behindWord branch _ => branch

/-- The kind of what begins the last part of a chain, the one without a condition. -/
def last : ElseIf → String
  | inClause _ clause => clause
  | inArms _ _ clause => clause
  | behindWord _ word => word

/-- The kinds that hang off a conditional. -/
def hanging : ElseIf → List String
  | inClause _ clause => [clause]
  | inArms _ arm clause => [arm, clause]
  | behindWord _ word => [word]

/-- What one more condition adds to the score of a chain with `count` conditions. -/
def surcharge (count : Nat) : ElseIf → Nat
  | inClause .. => 2
  | inArms .. => 1
  | behindWord .. => count + 2

/-- The score of a chain: one for the first condition, what each further one adds, and one for a
last part without a condition. -/
def score (form : ElseIf) (closed : Bool) : Nat → Nat
  | 0 => 0
  | 1 => 1 + closed.toNat
  | count + 2 => score form closed (count + 1) + form.surcharge (count + 1)

/-- What a chain ends in: nothing, or a last part without a condition. -/
def Ends (rules : Rules) (closed : Bool) (form : ElseIf) (parts : List Node) : Prop :=
  if closed then ∃ part, parts = [part] ∧ part.kind = form.last ∧ structures rules part = []
  else parts = []

/-- `Chain rules closed form count n`: the node is an else-if chain with a number of conditions, in
which conditions and bodies are plain. It is closed by a last part without a condition, or open. -/
inductive Chain (rules : Rules) (closed : Bool) : ElseIf → Nat → Node → Prop where
  | single {form : ElseIf} {n : Node} (hkind : n.kind = form.branch)
      (hend : form.Ends rules closed (structures rules n)) : Chain rules closed form 1 n
  | inClause {branch clause : String} {count : Nat} {n part next : Node} (hkind : n.kind = branch)
      (hn : structures rules n = [part]) (hpart : part.kind = clause)
      (hnext : structures rules part = [next])
      (hrest : Chain rules closed (.inClause branch clause) count next) :
      Chain rules closed (.inClause branch clause) (count + 1) n
  | inArms {branch arm clause : String} {n : Node} {further ending : List Node}
      (hkind : n.kind = branch) (hn : structures rules n = further ++ ending)
      (hfurther : ∀ part ∈ further, part.kind = arm ∧ structures rules part = [])
      (hend : (ElseIf.inArms branch arm clause).Ends rules closed ending) :
      Chain rules closed (.inArms branch arm clause) (further.length + 1) n
  | behindWord {branch word : String} {count : Nat} {n part next : Node} (hkind : n.kind = branch)
      (hn : structures rules n = [part, next]) (hpart : part.kind = word)
      (hleaf : structures rules part = [])
      (hrest : Chain rules closed (.behindWord branch word) count next) :
      Chain rules closed (.behindWord branch word) (count + 1) n

/-- How rules have to know the kinds of a chain: conditionals nest, and what hangs off them is
flat. -/
structure Suits (form : ElseIf) (rules : Rules) : Prop where
  nesting : rules.nesting.contains form.branch = true
  not_flat : rules.flat.contains form.branch = false
  hanging : ∀ kind ∈ form.hanging,
    rules.nesting.contains kind = false ∧ rules.flat.contains kind = true

variable {closed : Bool} {form : ElseIf} {count : Nat}

theorem last_mem_hanging (form : ElseIf) : form.last ∈ form.hanging := by
  cases form <;> simp [last, hanging]

/-- A sum over what a chain ends in, if each part that holds nothing adds the same. -/
theorem Ends.sum_map {parts : List Node} (hend : form.Ends rules closed parts) {f : Node → Nat}
    (amount : Nat)
    (hf : ∀ part, part.kind ∈ form.hanging → structures rules part = [] → f part = amount) :
    (parts.map f).sum = closed.toNat * amount := by
  cases closed with
  | false =>
      have hparts : parts = [] := hend
      rw [hparts, List.map_nil, List.sum_nil, Bool.toNat_false, Nat.zero_mul]
  | true =>
      obtain ⟨part, hparts, hkind, hempty⟩ := hend
      have hmem : part.kind ∈ form.hanging := hkind ▸ form.last_mem_hanging
      rw [hparts, List.map_singleton, List.sum_singleton, hf part hmem hempty, Bool.toNat_true,
        Nat.one_mul]

namespace Suits

variable (hsuits : form.Suits rules)
include hsuits

theorem isOneOf_nesting (hkind : n.kind = form.branch) : n.isOneOf rules.nesting = true := by
  rw [Node.isOneOf, hkind]
  exact hsuits.nesting

theorem branchDepth_branch (hkind : n.kind = form.branch) :
    branchDepth rules depth n = depth + 1 := by
  apply if_neg
  rw [Node.isOneOf, hkind, hsuits.not_flat]
  exact Bool.false_ne_true

/-- What hangs off a conditional stays at its depth and costs one and what is in it. -/
theorem cost_hanging (hkind : n.kind ∈ form.hanging) :
    cost rules (branchDepth rules depth n) n =
      1 + ((structures rules n).map (cost rules depth)).sum := by
  obtain ⟨hnesting, hflat⟩ := hsuits.hanging n.kind hkind
  have hdepth : branchDepth rules depth n = depth := if_pos hflat
  rw [hdepth, cost_flat_eq hnesting hflat]

theorem nestingCount_hanging (hkind : n.kind ∈ form.hanging) :
    nestingCount rules n = ((structures rules n).map (nestingCount rules)).sum := by
  have hnesting : n.isOneOf rules.nesting = false := (hsuits.hanging n.kind hkind).1
  rw [nestingCount_eq_sum, hnesting]
  exact Nat.zero_add _

/-- The branches that a chain ends in cost one, if there are any. -/
theorem sum_ends {parts : List Node} (hend : form.Ends rules closed parts) :
    (parts.map fun c => cost rules (branchDepth rules depth c) c).sum = closed.toNat := by
  rw [hend.sum_map 1, Nat.mul_one]
  intro part hkind hempty
  rw [hsuits.cost_hanging hkind, hempty]
  rfl

theorem nestingCount_ends {parts : List Node} (hend : form.Ends rules closed parts) :
    (parts.map (nestingCount rules)).sum = 0 := by
  apply hend.sum_map 0
  intro part hkind hempty
  rw [hsuits.nestingCount_hanging hkind, hempty]
  rfl

end Suits

/-! ## Scores -/

theorem score_succ (hcount : 1 ≤ count) :
    form.score closed (count + 1) = form.score closed count + form.surcharge count := by
  obtain ⟨count, rfl⟩ := Nat.exists_eq_add_of_le' hcount
  rfl

theorem score_inArms (branch arm clause : String) (closed : Bool) (count : Nat) :
    (inArms branch arm clause).score closed (count + 1) = 1 + count + closed.toNat := by
  induction count with
  | zero => rfl
  | succ count ih =>
      rw [score_succ (Nat.le_add_left 1 count), ih, surcharge]
      omega

theorem Chain.one_le_count (h : Chain rules closed form count n) : 1 ≤ count := by
  cases h <;> omega

/-- Where the next conditional stands behind a word, each condition nests. -/
theorem nestingCount_of_chain {branch word : String} (hsuits : (behindWord branch word).Suits rules)
    (h : Chain rules closed (.behindWord branch word) count n) :
    nestingCount rules n = count := by
  -- chains of other forms drop out, but the induction has to speak of them
  generalize hform : behindWord branch word = form at h hsuits
  induction h with
  | single hkind hend =>
      rw [nestingCount_eq_sum, if_pos (hsuits.isOneOf_nesting hkind), hsuits.nestingCount_ends hend]
  | inClause => cases hform
  | inArms => cases hform
  | @behindWord branch word count n part next hkind hn hpart hleaf _ ih =>
      have hmem : part.kind ∈ (behindWord branch word).hanging := by simp [hanging, hpart]
      rw [nestingCount_eq_sum, if_pos (hsuits.isOneOf_nesting hkind), hn]
      simp only [List.map_cons, List.map_nil, List.sum_cons, List.sum_nil,
        hsuits.nestingCount_hanging hmem, hleaf, ih hform hsuits]
      omega

/-- The cost of a chain at depth zero. -/
theorem cost_of_chain (hsuits : form.Suits rules) (h : Chain rules closed form count n) :
    cost rules 0 n = form.score closed count := by
  induction h with
  | single hkind hend =>
      rw [cost_nesting_eq (hsuits.isOneOf_nesting hkind), hsuits.sum_ends hend]
      rfl
  | @inClause branch clause count n part next hkind hn hpart hnext hrest ih =>
      have hmem : part.kind ∈ (inClause branch clause).hanging := by simp [hanging, hpart]
      rw [cost_nesting_eq (hsuits.isOneOf_nesting hkind), hn, List.map_singleton,
        List.sum_singleton, hsuits.cost_hanging hmem, hnext, List.map_singleton,
        List.sum_singleton, ih hsuits, score_succ hrest.one_le_count, surcharge]
      omega
  | @inArms branch arm clause n further ending hkind hn hfurther hend =>
      have harm : ∀ part ∈ further, cost rules (branchDepth rules 0 part) part = 1 := by
        intro part hpart
        obtain ⟨hkind, hempty⟩ := hfurther part hpart
        have hmem : part.kind ∈ (inArms branch arm clause).hanging := by simp [hanging, hkind]
        rw [hsuits.cost_hanging hmem, hempty]
        rfl
      rw [cost_nesting_eq (hsuits.isOneOf_nesting hkind), hn, List.map_append, List.sum_append,
        hsuits.sum_ends hend, List.map_congr_left harm, score_inArms]
      simp
      omega
  | @behindWord branch word count n part next hkind hn hpart hleaf hrest ih =>
      have hmem : part.kind ∈ (behindWord branch word).hanging := by simp [hanging, hpart]
      have hnext : next.kind = (behindWord branch word).branch := by
        cases hrest with
        | single hkind _ => exact hkind
        | behindWord hkind _ _ _ _ => exact hkind
      -- the next conditional is one level deeper, and so is each one after it
      have hdeeper : cost rules (branchDepth rules 0 next) next =
          (behindWord branch word).score closed count + count := by
        rw [hsuits.branchDepth_branch hnext, cost_succ, ih hsuits, nestingCount_of_chain hsuits hrest]
      rw [cost_nesting_eq (hsuits.isOneOf_nesting hkind), hn]
      simp only [List.map_cons, List.map_nil, List.sum_cons, List.sum_nil,
        hsuits.cost_hanging hmem, hleaf, hdeeper]
      rw [score_succ hrest.one_le_count, surcharge]
      omega

end ElseIf

/-! ## Languages -/

/-- The ways in which the languages nest else-if chains. PHP has two: `else if` and `elseif`. -/
def elseIfForms : List (Language × ElseIf) :=
  [(.javaScript, .inClause "if_statement" "else_clause"),
   (.typeScript, .inClause "if_statement" "else_clause"),
   (.tsx, .inClause "if_statement" "else_clause"),
   (.rust, .inClause "if_expression" "else_clause"),
   (.php, .inClause "if_statement" "else_clause"),
   (.php, .inArms "if_statement" "else_if_clause" "else_clause"),
   (.python, .inArms "if_statement" "elif_clause" "else_clause"),
   (.go, .behindWord "if_statement" "else"),
   (.java, .behindWord "if_statement" "else"),
   (.cSharp, .behindWord "if_statement" "else")]

instance (form : ElseIf) (rules : Rules) : Decidable (form.Suits rules) :=
  decidable_of_iff
    (rules.nesting.contains form.branch = true ∧ rules.flat.contains form.branch = false ∧
      ∀ kind ∈ form.hanging,
        rules.nesting.contains kind = false ∧ rules.flat.contains kind = true)
    ⟨fun ⟨h₁, h₂, h₃⟩ => ⟨h₁, h₂, h₃⟩, fun ⟨h₁, h₂, h₃⟩ => ⟨h₁, h₂, h₃⟩⟩

theorem suits_of_mem_elseIfForms {lang : Language} {form : ElseIf}
    (h : (lang, form) ∈ elseIfForms) : form.Suits lang.rules := by
  have hall : ∀ entry ∈ elseIfForms, entry.2.Suits entry.1.rules := by decide
  exact hall (lang, form) h

/-- What a further condition adds to an else-if chain, up to the largest score. Where the next
conditional stands in an else clause it adds two, and where it has a clause of its own it adds one,
however long the chain is. In Go, Java and C#, where it stands behind the word *else*, it adds two
and one more for each condition before it. -/
theorem cognitive_elseIf {lang : Language} {form : ElseIf} (hform : (lang, form) ∈ elseIfForms)
    {closed : Bool} {count : Nat} {n : Node} (hn : form.Chain lang.rules closed count n) :
    cognitive lang.rules n = min (form.score closed count) maxScore ∧
    ∀ m, form.Chain lang.rules closed (count + 1) m → cognitive lang.rules m < maxScore →
      cognitive lang.rules m = cognitive lang.rules n + form.surcharge count := by
  have hsuits := suits_of_mem_elseIfForms hform
  have hscore : cognitive lang.rules n = min (form.score closed count) maxScore := by
    rw [cognitive, ElseIf.cost_of_chain hsuits hn]
  refine ⟨hscore, ?_⟩
  intro m hm hbelow
  rw [cognitive, ElseIf.cost_of_chain hsuits hm, ElseIf.score_succ hn.one_le_count] at hbelow ⊢
  rw [hscore]
  omega

/-! ### A chain of Go -/

/-- A conditional of Go with an empty body, and what follows the body. -/
private def goBranch (id start stop : Nat) (field : Option String) (rest : List Node) : Node :=
  Sample.construct id "if_statement" start stop
    ([Sample.token (id + 1) "if" start,
      Sample.construct (id + 2) "identifier" (start + 3) (start + 4) [] (some "condition"),
      Sample.construct (id + 3) "block" (start + 5) (start + 7)
        [Sample.token (id + 4) "\x7b" (start + 5), Sample.token (id + 5) "\x7d" (start + 6)]
        (some "consequence")] ++ rest) field

/-- A chain with one condition and a number of further ones, each `if a \x7b\x7d`. -/
private def goChain (id start : Nat) (field : Option String) : Nat → Node
  | 0 => goBranch id start (start + 7) field []
  | count + 1 => goBranch id start (start + 7 + 13 * (count + 1)) field
      [Sample.token (id + 6) "else" (start + 8),
       goChain (id + 7) (start + 13) (some "alternative") count]

private def goForm : ElseIf := .behindWord "if_statement" "else"

private theorem chain_goChain_zero (id start : Nat) (field : Option String) :
    goForm.Chain Language.go.rules false 1 (goChain id start field 0) :=
  .single rfl rfl

private theorem chain_goChain_one (id start : Nat) (field : Option String) :
    goForm.Chain Language.go.rules false 2 (goChain id start field 1) :=
  .behindWord rfl rfl rfl rfl (chain_goChain_zero _ _ _)

private theorem chain_goChain_two (id start : Nat) (field : Option String) :
    goForm.Chain Language.go.rules false 3 (goChain id start field 2) :=
  .behindWord rfl rfl rfl rfl (chain_goChain_one _ _ _)

/-- The third condition of a chain of Go adds four. -/
theorem cognitive_elseIf_third :
    goForm.Chain Language.go.rules false 3 (goChain 0 0 none 2) ∧
    cognitive Language.go.rules (goChain 0 0 none 2) =
      cognitive Language.go.rules (goChain 0 0 none 1) + 4 := by
  have hform : (Language.go, goForm) ∈ elseIfForms := by simp [elseIfForms, goForm]
  obtain ⟨-, hmore⟩ := cognitive_elseIf hform (chain_goChain_one 0 0 none)
  refine ⟨chain_goChain_two 0 0 none, ?_⟩
  exact hmore _ (chain_goChain_two 0 0 none) (by decide)

/-- The conditions of a chain of Go do not all add the same: the second adds three, the third
four. -/
theorem elseIf_surcharge_not_constant :
    ¬ ∃ amount, ∀ count n m, 1 ≤ count → goForm.Chain Language.go.rules false count n →
      goForm.Chain Language.go.rules false (count + 1) m →
      cognitive Language.go.rules m = cognitive Language.go.rules n + amount := by
  rintro ⟨amount, hamount⟩
  have hsecond := hamount 1 _ _ (by decide) (chain_goChain_zero 0 0 none)
    (chain_goChain_one 0 0 none)
  have hthird := hamount 2 _ _ (by decide) (chain_goChain_one 0 0 none)
    (chain_goChain_two 0 0 none)
  have hone : cognitive Language.go.rules (goChain 0 0 none 0) = 1 := by decide
  have htwo : cognitive Language.go.rules (goChain 0 0 none 1) = 4 := by decide
  have hthree : cognitive Language.go.rules (goChain 0 0 none 2) = 8 := by decide
  omega

end SourceChunks.Complexity
