-- SUMMARY: Where call sites come from: an identifier with text, below the node that is searched for calls.
import SourceChunks.Calls
import SourceChunks.Proofs.Tree

/-!
# Call sites and their nodes

Every site of a call has the line of an identifier. The way to it goes down: from the node that is
searched to a call, from the call to what it calls, and from there through access paths to a name.
So on a tree that is nested by byte range, a site never leaves the lines of the node it was found
in.
-/

namespace SourceChunks

namespace Node

/-! ## Answers below a node -/

/-- A node is answered with itself or with a node below it, if at all. -/
def AnswersBelow (n : Node) (answer : Option Node) : Prop :=
  ∀ m, answer = some m → m ∈ n.preorder

namespace AnswersBelow

theorem none (n : Node) : n.AnswersBelow none := by
  intro m h
  cases h

theorem field? (n : Node) (name : String) : n.AnswersBelow (n.field? name) := by
  intro m h
  exact mem_preorder_of_field? h

theorem head? (n : Node) : n.AnswersBelow n.namedChildren.head? := by
  intro m h
  exact mem_preorder_of_mem_namedChildren (List.mem_of_head? h)

theorem getLast? (n : Node) : n.AnswersBelow n.namedChildren.getLast? := by
  intro m h
  exact mem_preorder_of_mem_namedChildren (List.mem_of_getLast? h)

theorem find? (n : Node) (p : Node → Bool) : n.AnswersBelow (n.namedChildren.find? p) := by
  intro m h
  exact mem_preorder_of_mem_namedChildren (List.mem_of_find?_eq_some h)

theorem orElse {n : Node} {first second : Option Node} (hfirst : n.AnswersBelow first)
    (hsecond : n.AnswersBelow second) : n.AnswersBelow (first <|> second) := by
  intro m h
  cases first with
  | none => exact hsecond m h
  | some answer => exact hfirst m h

end AnswersBelow

/-- One step towards a name goes down. -/
theorem answersBelow_nameStep? (n : Node) : n.AnswersBelow n.nameStep? := by
  unfold nameStep?
  split
  · exact .field? n _
  · exact .field? n _
  · exact .field? n _
  · exact .field? n _
  · exact .orElse (.field? n _) (.getLast? n)
  · exact .orElse (.field? n _) (.getLast? n)
  · exact .orElse (.field? n _) (.getLast? n)
  · exact .orElse (.field? n _) (.getLast? n)
  · exact .orElse (.field? n _) (.getLast? n)
  · exact .orElse (.field? n _) (.orElse (.field? n _) (.head? n))
  · exact .orElse (.field? n _) (.orElse (.field? n _) (.head? n))
  · exact .head? n
  · exact .head? n
  · exact .orElse (.field? n _) (.getLast? n)
  · exact .orElse (.field? n _) (.getLast? n)
  · exact .none n

theorem answersBelow_nameWithin? (steps : Nat) (n : Node) :
    n.AnswersBelow (n.nameWithin? steps) := by
  induction steps generalizing n with
  | zero => exact .none n
  | succ steps ih =>
      intro m h
      unfold nameWithin? at h
      split at h
      · cases h
        exact self_mem_preorder n
      · obtain ⟨next, hnext, hm⟩ := Option.bind_eq_some_iff.1 h
        exact mem_preorder_trans (ih next m hm) (answersBelow_nameStep? n next hnext)

/-- What a call calls stands below the call. -/
theorem answersBelow_callee? (call : Node) : call.AnswersBelow call.callee? := by
  unfold callee?
  split
  · exact .field? call _
  · exact .field? call _
  · exact .orElse (.field? call _) (.find? call _)
  · exact .field? call _
  · exact .field? call _
  · exact .field? call _
  · exact .field? call _
  · exact .field? call _

/-! ## Places -/

theorem mem_namedPlacesAll {descend : Place → Bool} {parent : Node} {ns : List Node}
    {place : Place} (h : place ∈ namedPlacesAll descend parent ns) :
    ∃ n ∈ ns, place ∈ n.namedPlaces descend (some parent) := by
  induction ns with
  | nil => simp [namedPlacesAll] at h
  | cons n ns ih =>
      rw [namedPlacesAll, List.mem_append] at h
      rcases h with h | h
      · split at h
        · exact ⟨n, List.mem_cons_self, h⟩
        · simp at h
      · obtain ⟨m, hm, h⟩ := ih h
        exact ⟨m, List.mem_cons_of_mem n hm, h⟩

theorem mem_preorder_of_mem_namedPlaces {descend : Place → Bool} {parent : Option Node} {n : Node}
    {place : Place} (h : place ∈ n.namedPlaces descend parent) : place.node ∈ n.preorder := by
  induction n using induction_children generalizing parent with
  | step n ih =>
      cases n with
      | mk label children =>
          rw [namedPlaces, List.mem_cons] at h
          rcases h with rfl | h
          · exact self_mem_preorder _
          · split at h
            · obtain ⟨child, hchild, h⟩ := mem_namedPlacesAll h
              exact mem_preorder_trans (ih child hchild h) (mem_preorder_of_mem_children hchild)
            · simp at h

/-! ## Sites -/

/-- A node with text is not empty. -/
theorem start_lt_stop_of_text {source : String} {n : Node}
    (h : (Text.trim (n.text source)).isEmpty = false) : n.start < n.stop := by
  refine Nat.lt_of_not_le fun hle => ?_
  have htext : n.text source = "" := by
    rw [text, Text.slice, Nat.sub_eq_zero_of_le hle, Text.takeBytes_zero]
  rw [htext] at h
  exact absurd h (by decide)

end Node

/-- A call site stands on the line of an identifier with text, below the node it was found in. -/
theorem CallSite.exists_name_of_mem_ofNode {kinds : List String} {source : String} {n : Node}
    {site : CallSite} (h : site ∈ ofNode kinds source n) :
    ∃ name ∈ n.preorder, name.start < name.stop ∧ site.line = name.startLine source := by
  rw [ofNode, List.mem_eraseDups] at h
  obtain ⟨place, hplace, h⟩ := List.mem_filterMap.1 h
  split at h
  · obtain ⟨name, hname, h⟩ := Option.bind_eq_some_iff.1 h
    obtain ⟨callee, hcallee, hname⟩ := Option.bind_eq_some_iff.1 hname
    have hbelow : name ∈ n.preorder := by
      have h₁ := Node.mem_preorder_of_mem_namedPlaces hplace
      have h₂ := Node.answersBelow_callee? place.node callee hcallee
      have h₃ := Node.answersBelow_nameWithin? _ callee name hname
      exact Node.mem_preorder_trans h₃ (Node.mem_preorder_trans h₂ h₁)
    dsimp only at h
    split at h
    · simp at h
    · next htext =>
      have hline : site.line = name.startLine source := by rw [← Option.some.inj h]
      exact ⟨name, hbelow, Node.start_lt_stop_of_text (by simpa using htext), hline⟩
  · simp at h

end SourceChunks
