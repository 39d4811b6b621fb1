-- SUMMARY: Addresses of nodes: the children taken on the way down, and their order.
import Mathlib.Data.Finite.Prod
import Mathlib.Data.Set.Finite.Lattice
import SourceChunks.Proofs.Tree

/-!
# Addresses

A node of a tree is told apart from all others by its address, the numbers of the children on the
way down to it. The nodes above it have the shorter addresses that its own begins with, and
preorder is the lexicographic order: first what is above, then what branches off earlier.
-/

namespace SourceChunks

/-! ## Nodes at addresses -/

namespace Node

/-- The node at an address, which has the numbers of the children on the way down to it. -/
def at? : List Nat → Node → Option Node
  | [], n => some n
  | i :: address, n => n.children[i]?.bind (at? address)

variable {n : Node} {a b : List Nat} {i j : Nat}

theorem at?_append (n : Node) (a b : List Nat) : n.at? (a ++ b) = (n.at? a).bind (at? b) := by
  induction a generalizing n with
  | nil => rfl
  | cons i a ih =>
      rw [List.cons_append, at?, at?, Option.bind_assoc]
      congr 1
      funext child
      exact ih child

theorem at?_concat (n : Node) (a : List Nat) (i : Nat) :
    n.at? (a ++ [i]) = (n.at? a).bind (·.children[i]?) := by
  rw [at?_append]
  congr 1
  funext d
  simp [at?]

/-- What is above a node of the tree is in the tree. -/
theorem isSome_at?_of_above (h : a <+: b) (hb : (n.at? b).isSome) : (n.at? a).isSome := by
  obtain ⟨rest, rfl⟩ := h
  rw [at?_append] at hb
  exact Option.isSome_of_isSome_bind hb

/-- Children are numbered without gaps. -/
theorem isSome_at?_of_le (hij : i ≤ j) (hj : (n.at? (a ++ [j])).isSome) :
    (n.at? (a ++ [i])).isSome := by
  rw [at?_concat, Option.isSome_bind, Option.any_eq_true] at hj ⊢
  obtain ⟨d, hd, hj⟩ := hj
  refine ⟨d, hd, ?_⟩
  rw [isSome_getElem?] at hj ⊢
  omega

/-- A tree has finitely many nodes. -/
theorem finite_addresses (n : Node) : {a | (n.at? a).isSome}.Finite := by
  induction n using induction_children with
  | step n ih =>
      have hchildren : (⋃ c ∈ n.children, {a | (c.at? a).isSome}).Finite :=
        Set.Finite.biUnion (List.finite_toSet n.children) ih
      have hbelow := (Set.finite_lt_nat n.children.length).image2 List.cons hchildren
      refine (hbelow.insert []).subset ?_
      rintro (_ | ⟨i, a⟩) ha
      · exact Set.mem_insert _ _
      · rw [Set.mem_ofPred_eq, at?, Option.isSome_bind, Option.any_eq_true] at ha
        obtain ⟨c, hc, ha⟩ := ha
        have hi := (List.getElem?_eq_some_iff.1 hc).1
        have hmem : c ∈ n.children := List.mem_of_getElem? hc
        exact .inr ⟨i, hi, a, Set.mem_biUnion hmem ha, rfl⟩

end Node

/-! ## The order of addresses -/

namespace Address

/-- On the way down, the first address takes an earlier child than the second. -/
def Branches (a b : List Nat) : Prop :=
  ∃ r i j, i < j ∧ r ++ [i] <+: a ∧ r ++ [j] <+: b

/-- The second address is the first one or comes later in preorder. -/
def Follows (a b : List Nat) : Prop :=
  a <+: b ∨ Branches a b

variable {a b : List Nat}

theorem not_branches_nil : ¬ Branches [] b := by
  rintro ⟨r, i, j, -, hr, -⟩
  simp at hr

theorem branches_concat_iff {i : Nat} :
    Branches (a ++ [i]) b ↔ Branches a b ∨ ∃ j, i < j ∧ a ++ [j] <+: b := by
  constructor
  · rintro ⟨r, k, j, hkj, hk, hj⟩
    rcases List.prefix_concat_iff.1 hk with heq | hk
    · obtain ⟨rfl, rfl⟩ : r = a ∧ k = i := by simpa using heq
      exact .inr ⟨j, hkj, hj⟩
    · exact .inl ⟨r, k, j, hkj, hk, hj⟩
  · rintro (⟨r, k, j, hkj, hk, hj⟩ | ⟨j, hij, hj⟩)
    · exact ⟨r, k, j, hkj, hk.trans (List.prefix_append _ _), hj⟩
    · exact ⟨a, i, j, hij, List.prefix_rfl, hj⟩

theorem follows_concat_iff {i : Nat} :
    Follows (a ++ [i]) b ↔ Branches a b ∨ ∃ j, i ≤ j ∧ a ++ [j] <+: b := by
  rw [Follows, branches_concat_iff]
  constructor
  · rintro (h | h | ⟨j, hij, h⟩)
    · exact .inr ⟨i, Nat.le_refl i, h⟩
    · exact .inl h
    · exact .inr ⟨j, Nat.le_of_lt hij, h⟩
  · rintro (h | ⟨j, hij, h⟩)
    · exact .inr (.inl h)
    · rcases Nat.eq_or_lt_of_le hij with rfl | hij
      · exact .inl h
      · exact .inr (.inr ⟨j, hij, h⟩)

theorem exists_concat_prefix_iff : (∃ j, a ++ [j] <+: b) ↔ a <+: b ∧ b ≠ a := by
  constructor
  · rintro ⟨j, rest, rfl⟩
    exact ⟨by simp, by simp⟩
  · rintro ⟨⟨rest, rfl⟩, hne⟩
    cases rest with
    | nil => simp at hne
    | cons j rest => exact ⟨j, rest, by simp⟩

/-- The numbers at the place where two addresses branch off tell them apart. -/
theorem Branches.not_above (h : Branches a b) {c : List Nat} (ha : a <+: c) : ¬ b <+: c := by
  obtain ⟨r, i, j, hij, hi, hj⟩ := h
  intro hb
  have hsame : r ++ [i] = r ++ [j] :=
    (List.prefix_of_prefix_length_le (hi.trans ha) (hj.trans hb) (by simp)).eq_of_length (by simp)
  simp at hsame
  omega

theorem Branches.ne (h : Branches a b) : b ≠ a := by
  rintro rfl
  exact h.not_above List.prefix_rfl List.prefix_rfl

theorem follows_and_ne_iff : Follows a b ∧ b ≠ a ↔ (∃ i, a ++ [i] <+: b) ∨ Branches a b := by
  rw [exists_concat_prefix_iff, Follows]
  constructor
  · rintro ⟨h | h, hne⟩
    · exact .inl ⟨h, hne⟩
    · exact .inr h
  · rintro (h | h)
    · exact ⟨.inl h.1, h.2⟩
    · exact ⟨.inr h, h.ne⟩

theorem Branches.lt (h : Branches a b) : a < b := by
  obtain ⟨r, i, j, hij, ⟨x, rfl⟩, ⟨y, rfl⟩⟩ := h
  rw [List.append_assoc, List.append_assoc]
  exact List.append_left_lt (List.cons_lt_cons_iff.2 (.inl hij))

theorem lt_of_above (h : a <+: b) (hne : b ≠ a) : a < b := by
  obtain ⟨rest, rfl⟩ := h
  cases rest with
  | nil => simp at hne
  | cons j rest =>
      have hlt : a ++ [] < a ++ j :: rest := List.append_left_lt (List.nil_lt_cons j rest)
      rwa [List.append_nil] at hlt

theorem Follows.lt (h : Follows a b) (hne : b ≠ a) : a < b :=
  h.elim (fun habove => lt_of_above habove hne) Branches.lt

theorem Follows.refl (a : List Nat) : Follows a a :=
  .inl List.prefix_rfl

/-- An address does not follow those below it. -/
theorem Follows.eq_of_above (h : Follows a b) (hb : b <+: a) : b = a := by
  rcases h with ha | h
  · exact hb.eq_of_length (Nat.le_antisymm hb.length_le ha.length_le)
  · exact absurd hb (h.not_above List.prefix_rfl)

end Address

end SourceChunks
