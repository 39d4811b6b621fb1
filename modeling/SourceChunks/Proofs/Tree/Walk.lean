-- SUMMARY: Walks with a cursor: what they visit and in which order, whatever the visitor answers.
import Mathlib.Data.Set.Card
import SourceChunks.Complexity.Cyclomatic
import SourceChunks.Proofs.Tree.Address

/-!
# Walks with a cursor

A cursor stands on a node of a tree and can be moved to its first child, to its next sibling and to
its parent, but not out of the tree. A walk visits the node under the cursor, goes down if the
visitor says so, and otherwise goes on to the next node that is not below this one, climbing as far
as it must. The visitor may keep a state, so that its answer at a node depends on all visits before.

One move of a walk leaves the addresses that are still to come, without that of the node visited and
those below it if the visitor refused. There are fewer of them after each move, so the walk ends,
and what it visits follows by induction on it.
-/

namespace SourceChunks

/-! ## Cursors -/

/-- A node of a tree, with its address. -/
structure Spot (root : Node) where
  address : List Nat
  node : Node
  at_address : root.at? address = some node

/-- Cursors on the tree of a node, however they keep track of where they are. A cursor begins at
that node and is always at a node of its tree. A move answers nothing if it cannot be made. -/
structure Cursors (root : Node) where
  State : Type
  /-- The node that a cursor is at. -/
  spot : State → Spot root
  start : State
  firstChild? : State → Option State
  nextSibling? : State → Option State
  parent? : State → Option State
  -- where the moves lead, and when they cannot be made
  address_start : (spot start).address = []
  address_of_firstChild? : ∀ {c d}, firstChild? c = some d →
    (spot d).address = (spot c).address ++ [0]
  children_of_firstChild? : ∀ {c}, firstChild? c = none → (spot c).node.children = []
  address_of_nextSibling? : ∀ {c d}, nextSibling? c = some d →
    ∃ parent i, (spot c).address = parent ++ [i] ∧ (spot d).address = parent ++ [i + 1]
  /-- Only behind the last child is there no sibling to move to. The node of the tree itself, whose
  siblings are not in the tree, is no child. -/
  at?_of_nextSibling? : ∀ {c parent i}, nextSibling? c = none → (spot c).address = parent ++ [i] →
    root.at? (parent ++ [i + 1]) = none
  address_of_parent? : ∀ {c d}, parent? c = some d → ∃ i, (spot c).address = (spot d).address ++ [i]
  address_of_parent?_eq_none : ∀ {c}, parent? c = none → (spot c).address = []

namespace Spot

/-- The node at an address, if the tree has one there. -/
def of? (root : Node) (address : List Nat) : Option (Spot root) :=
  match h : root.at? address with
  | some node => some ⟨address, node, h⟩
  | none => none

variable {root : Node} {address : List Nat} {spot : Spot root}

theorem isSome_at? (spot : Spot root) : (root.at? spot.address).isSome := by
  rw [spot.at_address, Option.isSome_some]

theorem at?_child (spot : Spot root) (i : Nat) :
    root.at? (spot.address ++ [i]) = spot.node.children[i]? := by
  rw [Node.at?_concat, spot.at_address, Option.bind_some]

theorem address_of_of? (h : of? root address = some spot) : spot.address = address := by
  unfold of? at h
  split at h
  · exact (Option.some.inj h) ▸ rfl
  · simp at h

theorem at?_of_of? (h : of? root address = none) : root.at? address = none := by
  unfold of? at h
  split at h
  · simp at h
  · assumption

end Spot

/-- Cursors that keep the address they are at. -/
def Cursors.onSpots (root : Node) : Cursors root where
  State := Spot root
  spot c := c
  start := ⟨[], root, rfl⟩
  firstChild? c := Spot.of? root (c.address ++ [0])
  nextSibling? c := c.address.getLast?.bind fun i => Spot.of? root (c.address.dropLast ++ [i + 1])
  parent? c := if c.address = [] then none else Spot.of? root c.address.dropLast
  address_start := rfl
  address_of_firstChild? := Spot.address_of_of?
  children_of_firstChild? {c} h := by
    have hnone := Spot.at?_of_of? h
    rw [c.at?_child] at hnone
    simpa using hnone
  address_of_nextSibling? {c d} h := by
    obtain ⟨i, hi, h⟩ := Option.bind_eq_some_iff.1 h
    exact ⟨_, i, (List.dropLast_append_getLast? i hi).symm, Spot.address_of_of? h⟩
  at?_of_nextSibling? {c parent i} h hc := by
    rw [hc, List.getLast?_concat, Option.bind_some, List.dropLast_concat] at h
    exact Spot.at?_of_of? h
  address_of_parent? {c d} h := by
    split at h
    · simp at h
    · next hne =>
      refine ⟨c.address.getLast hne, ?_⟩
      rw [Spot.address_of_of? h, List.dropLast_append_getLast hne]
  address_of_parent?_eq_none {c} h := by
    split at h
    · assumption
    · have habove : c.address.dropLast <+: c.address := List.dropLast_prefix _
      have hparent := Node.isSome_at?_of_above habove c.isSome_at?
      simp [Spot.at?_of_of? h] at hparent

namespace Cursors

open Address

variable {root : Node} (cursors : Cursors root) {c d : cursors.State} {b : List Nat}

/-- The next sibling, or that of the nearest node above which has one. -/
def advance (c : cursors.State) : Option cursors.State :=
  match cursors.nextSibling? c with
  | some d => some d
  | none =>
    match _h : cursors.parent? c with
    | some parent => advance parent
    | none => none
termination_by (cursors.spot c).address.length
decreasing_by
  obtain ⟨i, hi⟩ := cursors.address_of_parent? ‹_›
  simp [hi]

/-- Where a walk goes after a visit: down if the visitor says so, else on. -/
def next? (answer : Bool) (c : cursors.State) : Option cursors.State :=
  (if answer then cursors.firstChild? c else none).or (cursors.advance c)

/-- Behind a child comes its next sibling or, if it is the last, what is behind the parent. -/
theorem advance_child {parent : List Nat} {i : Nat} (h : (cursors.spot c).address = parent ++ [i]) :
    (∃ d, cursors.advance c = some d ∧ (cursors.spot d).address = parent ++ [i + 1]) ∨
      root.at? (parent ++ [i + 1]) = none ∧
        ∃ d, (cursors.spot d).address = parent ∧ cursors.advance c = cursors.advance d := by
  rw [advance]
  split
  · next d hsibling =>
    obtain ⟨above, j, hj, hd⟩ := cursors.address_of_nextSibling? hsibling
    obtain ⟨rfl, rfl⟩ : parent = above ∧ i = j := by simpa using h.symm.trans hj
    exact .inl ⟨d, rfl, hd⟩
  · next hsibling =>
    refine .inr ⟨cursors.at?_of_nextSibling? hsibling h, ?_⟩
    split
    · next d hparent =>
      obtain ⟨j, hj⟩ := cursors.address_of_parent? hparent
      obtain ⟨rfl, -⟩ : parent = (cursors.spot d).address ∧ i = j := by
        simpa using h.symm.trans hj
      exact ⟨d, rfl, rfl⟩
    · next hparent => simp [cursors.address_of_parent?_eq_none hparent] at h

/-- The nodes that follow after an advance are those that branch off after the node left. -/
theorem follows_advance_iff (c : cursors.State) (hb : (root.at? b).isSome) :
    (∃ d, cursors.advance c = some d ∧ Follows (cursors.spot d).address b) ↔
      Branches (cursors.spot c).address b := by
  fun_induction advance cursors c with
  | case1 c d hsibling =>
      obtain ⟨parent, i, hc, hd⟩ := cursors.address_of_nextSibling? hsibling
      simp only [Option.some.injEq, exists_eq_left', hc, hd]
      rw [follows_concat_iff, branches_concat_iff]
      rfl
  | case2 c hsibling parent hparent ih =>
      obtain ⟨i, hc⟩ := cursors.address_of_parent? hparent
      rw [ih, hc, branches_concat_iff, or_iff_left]
      -- were there a node below a later sibling, the next sibling would be in the tree
      rintro ⟨j, hij, hj⟩
      have hnone := cursors.at?_of_nextSibling? hsibling hc
      have hsome := Node.isSome_at?_of_le hij (Node.isSome_at?_of_above hj hb)
      simp [hnone] at hsome
  | case3 c hsibling hparent =>
      simp [cursors.address_of_parent?_eq_none hparent, not_branches_nil]

theorem advance_eq_none (h : (cursors.spot c).address = []) : cursors.advance c = none := by
  rw [Option.eq_none_iff_forall_ne_some]
  intro d hd
  have hbranches := (cursors.follows_advance_iff c (cursors.spot d).isSome_at?).1
    ⟨d, hd, .refl _⟩
  rw [h] at hbranches
  exact not_branches_nil hbranches

theorem not_concat_prefix_of_firstChild? (h : cursors.firstChild? c = none)
    (hb : (root.at? b).isSome) (i : Nat) : ¬ (cursors.spot c).address ++ [i] <+: b := by
  intro hi
  have hsome := Node.isSome_at?_of_above hi hb
  rw [(cursors.spot c).at?_child, cursors.children_of_firstChild? h] at hsome
  simp at hsome

/-- The nodes that follow after a move of a walk: all but the node just visited, and but those below
it if the visitor refused. -/
theorem follows_next?_iff (answer : Bool) (c : cursors.State) (hb : (root.at? b).isSome) :
    (∃ d, cursors.next? answer c = some d ∧ Follows (cursors.spot d).address b) ↔
      Follows (cursors.spot c).address b ∧ b ≠ (cursors.spot c).address ∧
        (answer = false → ¬ (cursors.spot c).address <+: b) := by
  have hadvance := cursors.follows_advance_iff c hb
  cases answer with
  | false =>
      rw [next?, if_neg (by simp), Option.none_or, hadvance]
      constructor
      · intro h
        exact ⟨.inr h, h.ne, fun _ habove => h.not_above habove List.prefix_rfl⟩
      · rintro ⟨h, -, hrefused⟩
        exact h.resolve_left (hrefused rfl)
  | true =>
      simp only [next?, if_true, Bool.true_eq_false, false_implies, and_true, follows_and_ne_iff]
      cases hchild : cursors.firstChild? c with
      | some child =>
          simp only [Option.some_or, Option.some.injEq, exists_eq_left']
          rw [cursors.address_of_firstChild? hchild, follows_concat_iff, or_comm]
          simp
      | none =>
          rw [Option.none_or, hadvance, or_iff_right]
          rintro ⟨i, hi⟩
          exact cursors.not_concat_prefix_of_firstChild? hchild hb i hi

/-! ## Walks -/

/-- The addresses that a walk may still come to. -/
def toCome (c : cursors.State) : Set (List Nat) :=
  {b | (root.at? b).isSome ∧ Follows (cursors.spot c).address b}

theorem mem_toCome_iff_of_next? {answer : Bool} (h : cursors.next? answer c = some d) :
    b ∈ cursors.toCome d ↔ b ∈ cursors.toCome c ∧ b ≠ (cursors.spot c).address ∧
      (answer = false → ¬ (cursors.spot c).address <+: b) := by
  constructor
  · rintro ⟨hb, hd⟩
    obtain ⟨hc, hrest⟩ := (cursors.follows_next?_iff answer c hb).1 ⟨d, h, hd⟩
    exact ⟨⟨hb, hc⟩, hrest⟩
  · rintro ⟨⟨hb, hc⟩, hrest⟩
    obtain ⟨e, he, hfollows⟩ := (cursors.follows_next?_iff answer c hb).2 ⟨hc, hrest⟩
    obtain rfl : e = d := Option.some.inj (he.symm.trans h)
    exact ⟨hb, hfollows⟩

theorem address_mem_toCome (c : cursors.State) : (cursors.spot c).address ∈ cursors.toCome c :=
  ⟨(cursors.spot c).isSome_at?, .refl _⟩

theorem ncard_toCome_lt {answer : Bool} (h : cursors.next? answer c = some d) :
    (cursors.toCome d).ncard < (cursors.toCome c).ncard := by
  have hfinite : (cursors.toCome c).Finite := root.finite_addresses.subset fun _ hb => hb.1
  refine Set.ncard_lt_ncard ?_ hfinite
  rw [Set.ssubset_iff_exists]
  refine ⟨fun b hb => ((cursors.mem_toCome_iff_of_next? h).1 hb).1, (cursors.spot c).address,
    cursors.address_mem_toCome c, ?_⟩
  intro hmem
  exact ((cursors.mem_toCome_iff_of_next? h).1 hmem).2.1 rfl

end Cursors

/-- A call of a visitor: the node it was called on and its answer, whether to go down. -/
structure Call (root : Node) where
  spot : Spot root
  answer : Bool

variable {root : Node} {σ : Type}

/-- The calls of a walk from where a cursor is, and the state they leave the visitor in. -/
def Cursors.walkFrom (cursors : Cursors root) (visit : σ → Spot root → Bool × σ)
    (c : cursors.State) (s : σ) : List (Call root) × σ :=
  let reply := visit s (cursors.spot c)
  match _h : cursors.next? reply.1 c with
  | none => ([⟨cursors.spot c, reply.1⟩], reply.2)
  | some d =>
    let rest := cursors.walkFrom visit d reply.2
    (⟨cursors.spot c, reply.1⟩ :: rest.1, rest.2)
termination_by (cursors.toCome c).ncard
decreasing_by exact cursors.ncard_toCome_lt ‹_›

/-- The calls of a walk through the whole tree. -/
def Cursors.walk (cursors : Cursors root) (visit : σ → Spot root → Bool × σ) (s : σ) :
    List (Call root) × σ :=
  cursors.walkFrom visit cursors.start s

namespace Call

open Address

/-- The answers are those of the visitor, which keeps its state from one call to the next. -/
def Threaded (visit : σ → Spot root → Bool × σ) : σ → List (Call root) → σ → Prop
  | s, [], t => s = t
  | s, call :: calls, t =>
    call.answer = (visit s call.spot).1 ∧ Threaded visit (visit s call.spot).2 calls t

/-- The visitor refuses to go down at a node above an address. -/
def Bars (call : Call root) (address : List Nat) : Prop :=
  call.answer = false ∧ call.spot.address <+: address ∧ address ≠ call.spot.address

/-- Among some calls is one on the node at an address. -/
def Reached (calls : List (Call root)) (address : List Nat) : Prop :=
  ∃ call ∈ calls, call.spot.address = address

variable {call : Call root} {calls : List (Call root)} {b : List Nat}

theorem reached_cons_iff :
    Reached (call :: calls) b ↔ b = call.spot.address ∨ Reached calls b := by
  simp [Reached, eq_comm]

/-- One call adds to what is known of the calls after it: which addresses they do not come to. -/
theorem reached_cons_iff_not_bars (hb : Follows call.spot.address b)
    (hcalls : ∀ later ∈ calls, Follows call.spot.address later.spot.address ∧
      ¬ call.Bars later.spot.address)
    (hlater : b ≠ call.spot.address → ¬ call.Bars b →
      (Reached calls b ↔ ∀ later ∈ calls, ¬ later.Bars b)) :
    Reached (call :: calls) b ↔ ∀ other ∈ call :: calls, ¬ other.Bars b := by
  rw [reached_cons_iff, List.forall_mem_cons]
  by_cases heq : b = call.spot.address
  · refine iff_of_true (.inl heq) ⟨fun hbars => hbars.2.2 heq, ?_⟩
    rintro later hmem ⟨-, habove, hne⟩
    subst heq
    exact hne ((hcalls later hmem).1.eq_of_above habove).symm
  · by_cases hbars : call.Bars b
    · refine iff_of_false ?_ fun h => h.1 hbars
      rintro (h | ⟨later, hmem, rfl⟩)
      · exact heq h
      · exact (hcalls later hmem).2 hbars
    · rw [or_iff_right heq, and_iff_right hbars]
      exact hlater heq hbars

end Call

namespace Cursors

open Address Call

variable (cursors : Cursors root) (visit : σ → Spot root → Bool × σ) {b : List Nat}

theorem threaded_walkFrom (c : cursors.State) (s : σ) :
    Threaded visit s (cursors.walkFrom visit c s).1 (cursors.walkFrom visit c s).2 := by
  fun_induction walkFrom cursors visit c s with
  | case1 c s reply hnext => exact ⟨rfl, rfl⟩
  | case2 c s reply d hnext rest ih => exact ⟨rfl, ih⟩

theorem mem_toCome_of_mem_walkFrom {c : cursors.State} {s : σ} :
    ∀ call ∈ (cursors.walkFrom visit c s).1, call.spot.address ∈ cursors.toCome c := by
  fun_induction walkFrom cursors visit c s with
  | case1 c s reply hnext => simpa using cursors.address_mem_toCome c
  | case2 c s reply d hnext rest ih =>
      rw [List.forall_mem_cons]
      refine ⟨cursors.address_mem_toCome c, fun call hcall => ?_⟩
      exact ((cursors.mem_toCome_iff_of_next? hnext).1 (ih call hcall)).1

/-- The calls of a walk are in preorder, and no two are on the same node. -/
theorem pairwise_walkFrom (c : cursors.State) (s : σ) :
    (cursors.walkFrom visit c s).1.Pairwise (·.spot.address < ·.spot.address) := by
  fun_induction walkFrom cursors visit c s with
  | case1 c s reply hnext => exact List.pairwise_singleton _ _
  | case2 c s reply d hnext rest ih =>
      refine List.pairwise_cons.2 ⟨fun call hcall => ?_, ih⟩
      have hmem := cursors.mem_toCome_of_mem_walkFrom visit call hcall
      obtain ⟨⟨-, hfollows⟩, hne, -⟩ := (cursors.mem_toCome_iff_of_next? hnext).1 hmem
      exact hfollows.lt hne

/-- A walk comes to every node that is still to come, except below those where the visitor
refuses. -/
theorem reached_walkFrom_iff {c : cursors.State} {s : σ} (hb : b ∈ cursors.toCome c) :
    Reached (cursors.walkFrom visit c s).1 b ↔
      ∀ call ∈ (cursors.walkFrom visit c s).1, ¬ call.Bars b := by
  fun_induction walkFrom cursors visit c s with
  | case1 c s reply hnext =>
      refine reached_cons_iff_not_bars hb.2 (by simp) fun hne hbars => ?_
      have hmore := (cursors.follows_next?_iff reply.1 c hb.1).2
        ⟨hb.2, hne, fun hrefused habove => hbars ⟨hrefused, habove, hne⟩⟩
      simp [hnext] at hmore
  | case2 c s reply d hnext rest ih =>
      refine reached_cons_iff_not_bars hb.2 (fun later hlater => ?_) fun hne hbars => ih ?_
      · have hmem := cursors.mem_toCome_of_mem_walkFrom visit later hlater
        obtain ⟨⟨-, hfollows⟩, -, hbelow⟩ := (cursors.mem_toCome_iff_of_next? hnext).1 hmem
        exact ⟨hfollows, fun hbars => hbelow hbars.1 hbars.2.1⟩
      · exact (cursors.mem_toCome_iff_of_next? hnext).2
          ⟨hb, hne, fun hrefused habove => hbars ⟨hrefused, habove, hne⟩⟩

theorem mem_toCome_start : b ∈ cursors.toCome cursors.start ↔ (root.at? b).isSome := by
  simp [toCome, cursors.address_start, Follows]

/-! ## Walks with a visitor that keeps to a rule -/

/-- The nodes that a walk visits from where a cursor is. -/
def walkedFrom (c : cursors.State) (s : σ) : List Node :=
  (cursors.walkFrom visit c s).1.map (·.spot.node)

theorem walkedFrom_eq (c : cursors.State) (s : σ) :
    cursors.walkedFrom visit c s = (cursors.spot c).node ::
      (cursors.next? (visit s (cursors.spot c)).1 c).elim []
        (cursors.walkedFrom visit · (visit s (cursors.spot c)).2) := by
  rw [walkedFrom, walkFrom]
  dsimp only
  split
  · next hnext => simp [hnext]
  · next d hnext => simp [hnext, walkedFrom]

/-- A walk visits some nodes and then goes on behind the node at an address. -/
def Continues (c : cursors.State) (s : σ) (nodes : List Node) (address : List Nat) : Prop :=
  ∃ d t, (cursors.spot d).address = address ∧
    cursors.walkedFrom visit c s =
      nodes ++ (cursors.advance d).elim [] (cursors.walkedFrom visit · t)

variable {visit} {descend : Node → Bool}

/-- A walk that comes to a child goes through it and its later siblings, and on behind their
parent. -/
theorem continues_of_children {c d : cursors.State} {s : σ} {i : Nat} {later : List Node}
    (hchildren : ∀ d s, (cursors.spot d).node ∈ (cursors.spot c).node.children →
      cursors.Continues visit d s ((cursors.spot d).node.visited descend) (cursors.spot d).address)
    (hd : (cursors.spot d).address = (cursors.spot c).address ++ [i])
    (hlater : (cursors.spot c).node.children.drop i = later) :
    cursors.Continues visit d s (later.flatMap (Node.visited descend))
      (cursors.spot c).address := by
  induction later generalizing d s i with
  | nil =>
      have hnone : root.at? (cursors.spot d).address = none := by
        rw [hd, Spot.at?_child, List.getElem?_eq_none_iff, ← List.drop_eq_nil_iff, hlater]
      simp [(cursors.spot d).at_address] at hnone
  | cons first later ih =>
      have hnode : (cursors.spot c).node.children[i]? = some (cursors.spot d).node := by
        rw [← Spot.at?_child, ← hd, (cursors.spot d).at_address]
      obtain ⟨hi, hfirst⟩ := List.getElem?_eq_some_iff.1 hnode
      rw [List.drop_eq_getElem_cons hi, List.cons.injEq, hfirst] at hlater
      obtain ⟨rfl, hlater⟩ := hlater
      -- the walk goes on behind this child from a cursor `e`, which need not be `d` itself
      obtain ⟨e, t, he, hwalk⟩ := hchildren d s (List.mem_of_getElem? hnode)
      obtain ⟨sibling, hsibling, hnext⟩ | ⟨hlast, parent, hparent, hclimb⟩ :=
        cursors.advance_child (he.trans hd)
      · obtain ⟨f, u, hf, hrest⟩ := ih hnext hlater
        refine ⟨f, u, hf, ?_⟩
        rw [hwalk, hsibling, Option.elim_some, hrest, List.flatMap_cons, List.append_assoc]
      · rw [Spot.at?_child, List.getElem?_eq_none_iff, ← List.drop_eq_nil_iff, hlater] at hlast
        subst hlast
        refine ⟨parent, t, hparent, ?_⟩
        rw [hwalk, hclimb, List.flatMap_singleton]

theorem continues_visited (hvisit : ∀ s spot, (visit s spot).1 = descend spot.node)
    (c : cursors.State) (s : σ) :
    cursors.Continues visit c s ((cursors.spot c).node.visited descend)
      (cursors.spot c).address := by
  obtain ⟨n, hn⟩ : ∃ n, (cursors.spot c).node = n := ⟨_, rfl⟩
  induction n using Node.induction_children generalizing c s with
  | step n ih =>
      subst hn
      have hwalk := cursors.walkedFrom_eq visit c s
      rw [hvisit] at hwalk
      cases hdescend : descend (cursors.spot c).node with
      | false =>
          refine ⟨c, (visit s (cursors.spot c)).2, rfl, hwalk.trans ?_⟩
          rw [Node.visited_eq, hdescend, next?, if_neg (by simp), if_neg (by simp), Option.none_or,
            List.singleton_append]
      | true =>
          rw [Node.visited_eq, hdescend, if_pos rfl]
          rw [hdescend, next?, if_pos rfl] at hwalk
          cases hchild : cursors.firstChild? c with
          | none =>
              refine ⟨c, (visit s (cursors.spot c)).2, rfl, hwalk.trans ?_⟩
              rw [hchild, Option.none_or, cursors.children_of_firstChild? hchild, List.flatMap_nil,
                List.singleton_append]
          | some child =>
              obtain ⟨d, t, hd, hrest⟩ := cursors.continues_of_children
                (fun d s hd => ih _ hd d s rfl) (cursors.address_of_firstChild? hchild) rfl
              refine ⟨d, t, hd, hwalk.trans ?_⟩
              rw [hchild, Option.some_or, Option.elim_some, hrest, List.drop_zero, List.cons_append]

/-- If whether to go down is decided by the node alone, a walk visits the nodes in preorder,
without those below a node at which the decision is against it. -/
theorem map_node_walk (visit : σ → Spot root → Bool × σ) (descend : Node → Bool)
    (hvisit : ∀ s spot, (visit s spot).1 = descend spot.node) (s : σ) :
    (cursors.walk visit s).1.map (·.spot.node) = root.visited descend := by
  obtain ⟨d, t, hd, hwalk⟩ := cursors.continues_visited hvisit cursors.start s
  have hroot : (cursors.spot cursors.start).node = root := by
    have := (cursors.spot cursors.start).at_address
    rw [cursors.address_start] at this
    exact (Option.some.inj this).symm
  rw [cursors.advance_eq_none (hd.trans cursors.address_start), hroot, Option.elim_none,
    List.append_nil] at hwalk
  exact hwalk

end Cursors

/-! ## Counting on a walk -/

/-- A visitor that goes on in the same way at every node leaves the sum of what it does there. -/
theorem Call.Threaded.eq_foldl {visit : σ → Spot root → Bool × σ} (step : σ → Node → σ)
    (hvisit : ∀ s spot, (visit s spot).2 = step s spot.node) {s t : σ} {calls : List (Call root)}
    (h : Threaded visit s calls t) : t = (calls.map (·.spot.node)).foldl step s := by
  induction calls generalizing s with
  | nil => exact h.symm
  | cons call calls ih => rw [ih h.2, hvisit, List.map_cons, List.foldl_cons]

theorem Call.Threaded.answer_eq_true {visit : σ → Spot root → Bool × σ}
    (hvisit : ∀ s spot, (visit s spot).1 = true) {s t : σ} {calls : List (Call root)}
    (h : Threaded visit s calls t) : ∀ call ∈ calls, call.answer = true := by
  induction calls generalizing s with
  | nil => simp
  | cons call calls ih => exact List.forall_mem_cons.2 ⟨h.1.trans (hvisit _ _), ih h.2⟩

/-- A walk that is never refused comes to every node once. -/
theorem Cursors.reached_walk_of_true (cursors : Cursors root) (visit : σ → Spot root → Bool × σ)
    (hvisit : ∀ s spot, (visit s spot).1 = true) (s : σ) {b : List Nat}
    (hb : (root.at? b).isSome) : Call.Reached (cursors.walk visit s).1 b := by
  rw [walk, cursors.reached_walkFrom_iff visit (cursors.mem_toCome_start.2 hb)]
  intro call hcall hbars
  have htrue := (cursors.threaded_walkFrom visit cursors.start s).answer_eq_true hvisit call hcall
  simp [hbars.1] at htrue

/-- The nodes of a tree that have some property, counted by their addresses. -/
theorem Node.ncard_addresses (root : Node) (p : Node → Bool) :
    {address | ∃ d, root.at? address = some d ∧ p d}.ncard = root.preorder.countP p := by
  -- a walk that goes down everywhere calls once on each address, in step with the preorder
  let visit : Unit → Spot root → Bool × Unit := fun _ _ => (true, ())
  obtain ⟨calls, hcalls⟩ : ∃ calls, ((Cursors.onSpots root).walk visit ()).1 = calls := ⟨_, rfl⟩
  have hnodes : calls.map (·.spot.node) = root.preorder := by
    rw [← hcalls, (Cursors.onSpots root).map_node_walk visit (fun _ => true) fun _ _ => rfl,
      visited_true]
  have hnodup : (calls.map (·.spot.address)).Nodup := by
    rw [← hcalls, List.nodup_iff_pairwise_ne, List.pairwise_map]
    exact ((Cursors.onSpots root).pairwise_walkFrom visit _ _).imp fun h => ne_of_lt h
  have hset : {address | ∃ d, root.at? address = some d ∧ p d} =
      ((calls.filter (p ·.spot.node)).map (·.spot.address)).toFinset := by
    ext address
    simp only [List.coe_toFinset, List.mem_map, List.mem_filter, Set.mem_ofPred_eq]
    constructor
    · rintro ⟨d, hd, hp⟩
      obtain ⟨call, hcall, rfl⟩ := (Cursors.onSpots root).reached_walk_of_true visit
        (fun _ _ => rfl) () (b := address) (by simp [hd])
      obtain rfl : call.spot.node = d := Option.some.inj (call.spot.at_address.symm.trans hd)
      exact ⟨call, ⟨hcalls ▸ hcall, hp⟩, rfl⟩
    · rintro ⟨call, ⟨-, hp⟩, rfl⟩
      exact ⟨call.spot.node, call.spot.at_address, hp⟩
  rw [hset, Set.ncard_coe_finset, List.toFinset_card_of_nodup, List.length_map,
    ← List.countP_eq_length_filter, ← hnodes, List.countP_map]
  · rfl
  · exact hnodup.sublist (List.filter_sublist.map _)

namespace Complexity

/-- The count after a node: one more at a decision point, up to the largest score there is. -/
def tally (rules : Rules) (count : Nat) (n : Node) : Nat :=
  if n.isOneOf rules.decisionPoints then min (count + 1) maxScore else count

/-- Counts decision points and goes down at every node. -/
def countDecision (rules : Rules) (count : Nat) (spot : Spot root) : Bool × Nat :=
  (true, tally rules count spot.node)

theorem foldl_tally (rules : Rules) (ns : List Node) {count : Nat} (hcount : count ≤ maxScore) :
    ns.foldl (tally rules) count =
      min (count + ns.countP (·.isOneOf rules.decisionPoints)) maxScore := by
  induction ns generalizing count with
  | nil => simp [hcount]
  | cons n ns ih =>
      rw [List.foldl_cons, List.countP_cons, tally]
      split
      · rw [ih (Nat.min_le_right _ _)]
        omega
      · rw [ih hcount, Nat.add_zero]

/-- The cyclomatic complexity is what a walk counts. -/
theorem walk_countDecision (cursors : Cursors root) (rules : Rules) :
    (cursors.walk (countDecision rules) 1).2 = cyclomatic rules root := by
  have hthreaded := cursors.threaded_walkFrom (countDecision rules) cursors.start 1
  have hnodes := cursors.map_node_walk (countDecision rules) (fun _ => true) (fun _ _ => rfl) 1
  rw [Cursors.walk] at hnodes ⊢
  rw [hthreaded.eq_foldl (tally rules) fun _ _ => rfl, hnodes, foldl_tally rules _ (by decide),
    cyclomatic]

theorem cyclomatic_eq_ncard (rules : Rules) (root : Node) :
    cyclomatic rules root =
      min (1 + {address | ∃ d, root.at? address = some d ∧ d.kind ∈ rules.decisionPoints}.ncard)
        (2 ^ 32 - 1) := by
  rw [cyclomatic, Node.visited_true, ← Node.ncard_addresses]
  simp only [Node.isOneOf_iff]
  rfl

end Complexity

/-! ## What a walk visits -/

/-- A walk from a node of a tree ends. It calls the visitor on exactly the nodes at and below the
node it starts at that are not below another one at which the visitor refused, in preorder and on
each only once. So it visits what the walk along a rule does if the visitor keeps to that rule, and
counts the decision points of the tree, for the cyclomatic complexity, each once. -/
theorem Cursors.walk_preorder {tree root : Node} {start : List Nat}
    (hroot : tree.at? start = some root) (cursors : Cursors root)
    (visit : σ → Spot root → Bool × σ) (s : σ) (rules : Complexity.Rules) :
    (∃ calls t, cursors.walk visit s = (calls, t) ∧ Call.Threaded visit s calls t ∧
      (∀ call ∈ calls, tree.at? (start ++ call.spot.address) = some call.spot.node) ∧
      (∀ address, Call.Reached calls address ↔
        (tree.at? (start ++ address)).isSome ∧ ∀ call ∈ calls, ¬ call.Bars address) ∧
      calls.Pairwise (·.spot.address < ·.spot.address) ∧
      ∀ descend : Node → Bool, (∀ s spot, (visit s spot).1 = descend spot.node) →
        calls.map (·.spot.node) = root.visited descend) ∧
    (cursors.walk (Complexity.countDecision rules) 1).2 = Complexity.cyclomatic rules root ∧
    Complexity.cyclomatic rules root =
      min (1 + {address | ∃ d, tree.at? (start ++ address) = some d ∧
        d.kind ∈ rules.decisionPoints}.ncard) (2 ^ 32 - 1) := by
  have hat (address : List Nat) : tree.at? (start ++ address) = root.at? address := by
    rw [Node.at?_append, hroot, Option.bind_some]
  simp only [hat]
  refine ⟨⟨_, _, rfl, cursors.threaded_walkFrom visit cursors.start s, ?_, ?_,
    cursors.pairwise_walkFrom visit cursors.start s,
    fun descend hvisit => cursors.map_node_walk visit descend hvisit s⟩,
    Complexity.walk_countDecision cursors rules, Complexity.cyclomatic_eq_ncard rules root⟩
  · intro call hcall
    exact call.spot.at_address
  · intro address
    constructor
    · intro h
      have ⟨call, hcall, haddress⟩ := h
      subst haddress
      have hmem := cursors.mem_toCome_of_mem_walkFrom visit call hcall
      exact ⟨hmem.1, (cursors.reached_walkFrom_iff visit hmem).1 h⟩
    · rintro ⟨hsome, hbars⟩
      exact (cursors.reached_walkFrom_iff visit (cursors.mem_toCome_start.2 hsome)).2 hbars

/-- The visitor of the sample, which stays out of blocks and counts its calls. -/
def Sample.outsideBlocks (count : Nat) (spot : Spot root) : Bool × Nat :=
  (spot.node.kind != "block", count + 1)

/-- The rules of the sample, which count calls. -/
def Sample.callRules : Complexity.Rules :=
  ⟨["call_expression"], [], [], [], [], []⟩

theorem Cursors.walk_preorder_function : ∃ root, Sample.tree.at? [0] = some root ∧
    (((onSpots root).walk Sample.outsideBlocks 0).1.map (·.spot.node)).map Node.id =
      [1, 2, 3, 4, 5, 6, 7] ∧
    ((onSpots root).walk (Complexity.countDecision Sample.callRules) 1).2 = 3 := by
  refine ⟨_, rfl, ?_⟩
  obtain ⟨⟨calls, t, hwalk, -, -, -, -, hvisited⟩, hcount, -⟩ :=
    walk_preorder (show Sample.tree.at? [0] = some _ from rfl) (onSpots _) Sample.outsideBlocks 0
      Sample.callRules
  have hnodes := hvisited (·.kind != "block") fun _ _ => rfl
  rw [hwalk, hcount, hnodes]
  decide

end SourceChunks
