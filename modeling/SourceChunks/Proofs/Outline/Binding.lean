-- SUMMARY: Which function value a declaration binds: the first one in preorder that a construct around it gives a name.
import SourceChunks.Outline
import SourceChunks.Proofs.Symbol

/-!
# Bound functions

The search for the function value of a declaration goes down a few levels, stops at function values
and looks for a name on the way back up, all in one recursion. Said in two parts, a candidate is a
function value near enough to the declaration with no other one in between, and its name is the
first that the constructs around it hold. The search gives the first candidate in preorder that has
a name. Nodes are told apart by their addresses, and preorder is the lexicographic order of these.
-/

namespace SourceChunks

/-! ## Addresses -/

/-- `n.Leads address above v`: from `n`, the named children with the numbers of `address` lead to
`v`, and `above` are the nodes that are left on the way, the last one first. -/
inductive Node.Leads : Node → List Nat → List Node → Node → Prop where
  | here (n : Node) : Leads n [] [] n
  | down {n child v : Node} {i : Nat} {address : List Nat} {above : List Node}
      (hchild : n.namedChildren[i]? = some child) (hrest : Leads child address above v) :
      Leads n (i :: address) (above ++ [n]) v

namespace BoundFunction

/-! ## Names -/

/-- A construct holds a name under a field, other than the function value itself. -/
def HoldsName (source : String) (value ancestor : Node) (field name : String) : Prop :=
  ∃ target, ancestor.field? field = some target ∧ target.id ≠ value.id ∧
    target.simpleName? source = some name ∧ name ≠ ""

/-- A construct gives a function value the name that the first of its binding fields holds. -/
def GivesName (source : String) (value ancestor : Node) (name : String) : Prop :=
  ∃ before field after, ["name", "left", "property"] = before ++ field :: after ∧
    HoldsName source value ancestor field name ∧
    ∀ other ∈ before, ∀ name, ¬ HoldsName source value ancestor other name

/-- The name of a function value: the first that is given on the way up through `above`. -/
def HasName (source : String) (value : Node) (above : List Node) (name : String) : Prop :=
  ∃ nearer ancestor farther, above = nearer ++ ancestor :: farther ∧
    GivesName source value ancestor name ∧
    ∀ near ∈ nearer, ∀ name, ¬ GivesName source value near name

section Names

variable {source : String} {value ancestor : Node} {above : List Node} {field name : String}

theorem holdsName_iff : HoldsName source value ancestor field name ↔
    ((ancestor.field? field).bind fun target =>
      if target.id = value.id then none else target.simpleName? source) = some name := by
  rw [Option.bind_eq_some_iff]
  refine exists_congr fun target => and_congr_right fun _ => ?_
  have hname : target.simpleName? source = some name → name ≠ "" :=
    fun h => (Node.isName_of_simpleName? h).1
  split
  · next heq => simp [heq]
  · next hne => simpa [hne] using hname

theorem nameAt?_eq_some_iff : nameAt? source value ancestor = some name ↔
    GivesName source value ancestor name := by
  rw [nameAt?, List.findSome?_eq_some_iff]
  simp only [Option.eq_none_iff_forall_ne_some, ne_eq, ← holdsName_iff]
  rfl

theorem name?_eq_some_iff : name? source value above = some name ↔
    HasName source value above name := by
  rw [name?, List.findSome?_eq_some_iff]
  simp only [Option.eq_none_iff_forall_ne_some, ne_eq, nameAt?_eq_some_iff]
  rfl

theorem name?_eq_none_iff : name? source value above = none ↔
    ¬ ∃ name, HasName source value above name := by
  simp only [← name?_eq_some_iff, not_exists, Option.eq_none_iff_forall_ne_some, ne_eq]

end Names

/-! ## Candidates -/

/-- A function value that a declaration may bind: one of the given kinds, from one to `levels`
steps below the declaration, with none of these kinds strictly in between. -/
structure Candidate (kinds : List String) (levels : Nat) (declaration : Node)
    (address : List Nat) (above : List Node) (value : Node) : Prop where
  leads : declaration.Leads address above value
  below : 1 ≤ address.length
  near : address.length ≤ levels
  kind_mem : value.kind ∈ kinds
  between : ∀ n ∈ above.dropLast, n.kind ∉ kinds

/-- A candidate of `n` that is reached through one of its children: the child itself if it is of the
kinds, and otherwise a candidate of the child. -/
def CandidateVia (kinds : List String) (levels : Nat) (n child : Node) (address : List Nat)
    (above : List Node) (value : Node) : Prop :=
  if child.isOneOf kinds then address = [] ∧ above = [n] ∧ value = child
  else ∃ inner, above = inner ++ [n] ∧ Candidate kinds levels child address inner value

section Candidates

variable {kinds : List String} {levels i : Nat} {n child value : Node} {address : List Nat}
  {above : List Node}

theorem candidate_cons_iff :
    Candidate kinds (levels + 1) n (i :: address) above value ↔
      ∃ child, n.namedChildren[i]? = some child ∧
        CandidateVia kinds levels n child address above value := by
  simp only [CandidateVia, Node.isOneOf, List.contains_iff_mem]
  constructor
  · intro h
    obtain ⟨hleads, -, hnear, hkind, hbetween⟩ := h
    cases hleads with
    | @down _ child _ _ _ above hchild hrest =>
        rw [List.dropLast_concat] at hbetween
        refine ⟨child, hchild, ?_⟩
        cases hrest with
        | here => exact (if_pos hkind).mpr ⟨rfl, rfl, rfl⟩
        | @down _ _ _ j address inner hnext hlast =>
            -- the child stands between, so it is of another kind
            have hother : child.kind ∉ kinds := hbetween child (by simp)
            refine (if_neg hother).mpr ⟨_, rfl, .down hnext hlast, by simp, ?_, hkind, ?_⟩
            · simpa using hnear
            · rw [List.dropLast_concat]
              intro m hm
              exact hbetween m (List.mem_append_left _ hm)
  · rintro ⟨child, hchild, h⟩
    split at h
    · next hkind =>
      obtain ⟨rfl, rfl, rfl⟩ := h
      exact ⟨.down hchild (.here _), by simp, by simp, hkind, by simp⟩
    · next hother =>
      obtain ⟨inner, rfl, hleads, hbelow, hnear, hkind, hbetween⟩ := h
      refine ⟨.down hchild hleads, by simp, by simpa using hnear, hkind, ?_⟩
      rw [List.dropLast_concat]
      intro m hm
      cases hleads with
      | here => simp at hbelow
      | down hnext hlast =>
          rw [List.dropLast_concat] at hbetween
          rcases List.mem_append.1 hm with hm | hm
          · exact hbetween m hm
          · rw [List.mem_singleton.1 hm]
            exact hother

theorem not_candidate_zero : ¬ Candidate kinds 0 n address above value := by
  intro h
  have := h.below
  have := h.near
  omega

theorem not_candidate_nil : ¬ Candidate kinds levels n [] above value := by
  intro h
  simpa using h.below

theorem Candidate.head?_concat (h : Candidate kinds levels n address above value) (m : Node) :
    (above ++ [m]).head? = above.head? := by
  have hbelow := h.below
  cases h.leads with
  | here => simp at hbelow
  | down => simp [List.head?_append]

end Candidates

/-! ## The search -/

/-- A bound function is the first candidate in preorder that has a name, with that name; `outer` are
the constructs around `n` up to the declaration. -/
def IsFirstNamed (source : String) (outer : List Node)
    (candidate : List Nat → List Node → Node → Prop) (bound : BoundFunction) : Prop :=
  ∃ address above value, candidate address above value ∧
    name? source value (above ++ outer) = some bound.name ∧ bound.place = ⟨value, above.head?⟩ ∧
    ∀ earlier above' value', candidate earlier above' value' → earlier < address →
      name? source value' (above' ++ outer) = none

/-- No candidate has a name. -/
def NoneNamed (source : String) (outer : List Node)
    (candidate : List Nat → List Node → Node → Prop) : Prop :=
  ∀ address above value, candidate address above value →
    name? source value (above ++ outer) = none

section Search

variable {kinds : List String} {source : String} {levels : Nat} {outer : List Node}
  {n child : Node} {bound : BoundFunction}

/-- The bound function that is found at a child of `n`. -/
def viaChild? (kinds : List String) (source : String) (levels : Nat) (outer : List Node)
    (n child : Node) : Option BoundFunction :=
  if child.isOneOf kinds then
    (name? source child (n :: outer)).map fun name => ⟨⟨child, some n⟩, name⟩
  else below? kinds source levels (n :: outer) child

theorem below?_succ : below? kinds source (levels + 1) outer n =
    n.namedChildren.findSome? (viaChild? kinds source levels outer n) := rfl

theorem viaChild?_eq_some_iff
    (ih : ∀ bound, below? kinds source levels (n :: outer) child = some bound ↔
      IsFirstNamed source (n :: outer) (Candidate kinds levels child) bound) :
    viaChild? kinds source levels outer n child = some bound ↔
      IsFirstNamed source outer (CandidateVia kinds levels n child) bound := by
  unfold viaChild? IsFirstNamed CandidateVia
  split
  · next hkind =>
    rw [Option.map_eq_some_iff]
    constructor
    · rintro ⟨name, hname, rfl⟩
      refine ⟨[], [n], child, ⟨rfl, rfl, rfl⟩, hname, rfl, ?_⟩
      rintro earlier above' value' ⟨rfl, -, -⟩ hlt
      simp at hlt
    · rintro ⟨address, above, value, ⟨rfl, rfl, rfl⟩, hname, hplace, -⟩
      exact ⟨bound.name, hname, congrArg (mk · bound.name) hplace.symm⟩
  · rw [ih]
    constructor
    · rintro ⟨address, inner, value, hcandidate, hname, hplace, hfirst⟩
      refine ⟨address, inner ++ [n], value, ⟨inner, rfl, hcandidate⟩, ?_, ?_, ?_⟩
      · simpa using hname
      · rw [hplace, hcandidate.head?_concat]
      · rintro earlier above' value' ⟨inner', rfl, hcandidate'⟩ hlt
        simpa using hfirst earlier inner' value' hcandidate' hlt
    · rintro ⟨address, above, value, ⟨inner, rfl, hcandidate⟩, hname, hplace, hfirst⟩
      refine ⟨address, inner, value, hcandidate, ?_, ?_, ?_⟩
      · simpa using hname
      · rw [hplace, hcandidate.head?_concat]
      · intro earlier inner' value' hcandidate' hlt
        simpa using hfirst earlier (inner' ++ [n]) value' ⟨inner', rfl, hcandidate'⟩ hlt

theorem viaChild?_eq_none_iff
    (ih : below? kinds source levels (n :: outer) child = none ↔
      NoneNamed source (n :: outer) (Candidate kinds levels child)) :
    viaChild? kinds source levels outer n child = none ↔
      NoneNamed source outer (CandidateVia kinds levels n child) := by
  unfold viaChild? NoneNamed CandidateVia
  split
  · rw [Option.map_eq_none_iff]
    constructor
    · rintro hname address above value ⟨rfl, rfl, rfl⟩
      exact hname
    · intro h
      exact h [] [n] child ⟨rfl, rfl, rfl⟩
  · rw [ih]
    constructor
    · rintro h address above value ⟨inner, rfl, hcandidate⟩
      simpa using h address inner value hcandidate
    · intro h address inner value hcandidate
      simpa using h address (inner ++ [n]) value ⟨inner, rfl, hcandidate⟩

theorem below?_eq_none_iff : below? kinds source levels outer n = none ↔
    NoneNamed source outer (Candidate kinds levels n) := by
  induction levels generalizing outer n with
  | zero => exact iff_of_true rfl fun _ _ _ h => absurd h not_candidate_zero
  | succ levels ih =>
      rw [below?_succ, List.findSome?_eq_none_iff]
      constructor
      · intro h address above value hcandidate
        cases address with
        | nil => exact absurd hcandidate not_candidate_nil
        | cons i address =>
            obtain ⟨child, hchild, hvia⟩ := candidate_cons_iff.1 hcandidate
            exact (viaChild?_eq_none_iff ih).1 (h child (List.mem_of_getElem? hchild))
              address above value hvia
      · intro h child hchild
        obtain ⟨i, hi⟩ := List.getElem?_of_mem hchild
        refine (viaChild?_eq_none_iff ih).2 fun address above value hvia => ?_
        exact h (i :: address) above value (candidate_cons_iff.2 ⟨child, hi, hvia⟩)

/-- The search finds the first candidate in preorder that has a name. -/
theorem below?_eq_some_iff : below? kinds source levels outer n = some bound ↔
    IsFirstNamed source outer (Candidate kinds levels n) bound := by
  induction levels generalizing outer n bound with
  | zero =>
      refine iff_of_false (by simp [below?]) ?_
      rintro ⟨address, above, value, hcandidate, -⟩
      exact not_candidate_zero hcandidate
  | succ levels ih =>
      rw [below?_succ, List.findSome?_eq_some_iff]
      constructor
      · rintro ⟨before, child, after, hchildren, hvia, hbefore⟩
        have hchild : n.namedChildren[before.length]? = some child := by simp [hchildren]
        obtain ⟨address, above, value, hcandidate, hname, hplace, hfirst⟩ :=
          (viaChild?_eq_some_iff fun _ => ih).1 hvia
        refine ⟨before.length :: address, above, value,
          candidate_cons_iff.2 ⟨child, hchild, hcandidate⟩, hname, hplace, ?_⟩
        intro earlier above' value' hearlier hlt
        cases earlier with
        | nil => exact absurd hearlier not_candidate_nil
        | cons j earlier =>
            obtain ⟨other, hother, hvia'⟩ := candidate_cons_iff.1 hearlier
            rcases List.cons_lt_cons_iff.1 hlt with hj | ⟨rfl, hinner⟩
            · have hmem : other ∈ before := by
                rw [hchildren, List.getElem?_append_left hj] at hother
                exact List.mem_of_getElem? hother
              exact (viaChild?_eq_none_iff below?_eq_none_iff).1 (hbefore other hmem)
                earlier above' value' hvia'
            · obtain rfl := Option.some.inj (hchild.symm.trans hother)
              exact hfirst earlier above' value' hvia' hinner
      · rintro ⟨address, above, value, hcandidate, hname, hplace, hfirst⟩
        cases address with
        | nil => exact absurd hcandidate not_candidate_nil
        | cons i address =>
            obtain ⟨child, hchild, hvia⟩ := candidate_cons_iff.1 hcandidate
            obtain ⟨hi, hget⟩ := List.getElem?_eq_some_iff.1 hchild
            refine ⟨n.namedChildren.take i, child, n.namedChildren.drop (i + 1), ?_, ?_, ?_⟩
            · rw [← hget, List.getElem_cons_drop, List.take_append_drop]
            · refine (viaChild?_eq_some_iff fun _ => ih).2
                ⟨address, above, value, hvia, hname, hplace, ?_⟩
              intro earlier above' value' hvia' hlt
              exact hfirst (i :: earlier) above' value'
                (candidate_cons_iff.2 ⟨child, hchild, hvia'⟩)
                (List.cons_lt_cons_iff.2 (.inr ⟨rfl, hlt⟩))
            · intro other hother
              obtain ⟨j, hj, rfl⟩ := List.mem_take_iff_getElem.1 hother
              refine (viaChild?_eq_none_iff below?_eq_none_iff).2 ?_
              intro earlier above' value' hvia'
              exact hfirst (j :: earlier) above' value'
                (candidate_cons_iff.2 ⟨_, List.getElem?_eq_getElem (by omega), hvia'⟩)
                (List.cons_lt_cons_iff.2 (.inl (by omega)))

end Search

/-- What a declaration binds. A candidate is a function value one to three levels below it, with no
other one strictly in between, and its name is the first one held on the way up to the declaration.
The search gives the first candidate in preorder that has a name, with that name and its parent,
and gives nothing exactly if no candidate has a name. -/
theorem find?_firstNamed (kinds : List String) (source : String) (declaration : Node) :
    (∀ bound, find? kinds source declaration = some bound ↔
      ∃ address above value, Candidate kinds 3 declaration address above value ∧
        HasName source value above bound.name ∧ bound.place = ⟨value, above.head?⟩ ∧
        ∀ earlier above' value', Candidate kinds 3 declaration earlier above' value' →
          earlier < address → ¬ ∃ name, HasName source value' above' name) ∧
    (find? kinds source declaration = none ↔
      ∀ address above value, Candidate kinds 3 declaration address above value →
        ¬ ∃ name, HasName source value above name) := by
  constructor
  · intro bound
    rw [find?, below?_eq_some_iff, IsFirstNamed]
    simp only [List.append_nil, name?_eq_some_iff, name?_eq_none_iff]
    rfl
  · rw [find?, below?_eq_none_iff, NoneNamed]
    simp only [List.append_nil, name?_eq_none_iff]
    rfl

/-- Two function values in a row, of which the second is assigned to a name. -/
private def statement : Node :=
  Sample.construct 0 "sequence_expression" 0 11
    [Sample.construct 1 "arrow_function" 0 4 [],
     Sample.token 2 "," 4,
     Sample.construct 3 "assignment_expression" 5 11
      [Sample.construct 4 "identifier" 5 6 [] (some "left"),
       Sample.token 5 "=" 6,
       Sample.construct 6 "arrow_function" 7 11 [] (some "right")]]

/-- The first function value has no name, the second one is bound. -/
theorem find?_firstNamed_assignment :
    Candidate ["arrow_function"] 3 statement [0] [statement]
      (Sample.construct 1 "arrow_function" 0 4 []) ∧
    ∃ bound, find? ["arrow_function"] "a=>0,f=b=>1" statement = some bound ∧
      bound.place.node.id = 6 ∧ bound.name = "f" ∧
      ∃ address above, Candidate ["arrow_function"] 3 statement address above bound.place.node ∧
        HasName "a=>0,f=b=>1" bound.place.node above "f" := by
  refine ⟨⟨.down rfl (.here _), by decide, by decide, by decide, by decide⟩, ?_⟩
  obtain ⟨bound, hfind, hid, hname⟩ : ∃ bound, find? ["arrow_function"] "a=>0,f=b=>1" statement =
      some bound ∧ bound.place.node.id = 6 ∧ bound.name = "f" := ⟨_, rfl, rfl, rfl⟩
  obtain ⟨address, above, value, hcandidate, hheld, hplace, -⟩ :=
    ((find?_firstNamed ["arrow_function"] "a=>0,f=b=>1" statement).1 bound).1 hfind
  refine ⟨bound, hfind, hid, hname, address, above, ?_, ?_⟩
  · rw [hplace]
    exact hcandidate
  · rw [hplace, ← hname]
    exact hheld

end BoundFunction

end SourceChunks
