-- SUMMARY: Well-formed syntax trees: nodes nested by byte range, and the lines that nested nodes are on.
import SourceChunks.Tree
import SourceChunks.Proofs.Text.Lines

/-!
# Well-formed trees

What a parser promises of its trees: the text of a node lies inside the source and inside the text
of its parent, and siblings stand one after the other. From this follows where the lines of a node
are: inside those of the nodes around it and, for a node that has text, inside the file.
-/

namespace SourceChunks

/-! ## Boundaries of characters -/

/-- Whether a character begins at byte `n`, or the text ends there. -/
def Text.isBoundary : Nat → List Char → Bool
  | 0, _ => true
  | _ + 1, [] => false
  | n + 1, c :: cs => c.utf8Size ≤ n + 1 && isBoundary (n + 1 - c.utf8Size) cs

theorem Text.le_byteLength_of_isBoundary {n : Nat} {cs : List Char} (h : isBoundary n cs = true) :
    n ≤ byteLength cs := by
  fun_induction isBoundary n cs with
  | case1 => exact Nat.zero_le _
  | case2 => simp at h
  | case3 n c cs ih =>
      simp only [Bool.and_eq_true, decide_eq_true_eq] at h
      have := ih h.2
      rw [byteLength_cons]
      omega

namespace Node

theorem isOneOf_iff {n : Node} {kinds : List String} : n.isOneOf kinds = true ↔ n.kind ∈ kinds :=
  List.contains_iff_mem

/-! ## What is below a node -/

/-- What holds of a node if it holds of its children holds of every node. -/
theorem induction_children {P : Node → Prop}
    (step : ∀ n : Node, (∀ c ∈ n.children, P c) → P n) (n : Node) : P n :=
  step n fun c _ => induction_children step c
termination_by sizeOf n
decreasing_by exact sizeOf_lt_of_mem_children ‹_›

theorem preorderAll_eq_flatMap (ns : List Node) : preorderAll ns = ns.flatMap preorder := by
  induction ns with
  | nil => rfl
  | cons n ns ih => rw [preorderAll, ih, List.flatMap_cons]

theorem preorder_eq (n : Node) : n.preorder = n :: n.children.flatMap preorder := by
  cases n with
  | mk label children => rw [preorder, preorderAll_eq_flatMap, Node.children]

theorem visitedAll_eq_flatMap (descend : Node → Bool) (ns : List Node) :
    visitedAll descend ns = ns.flatMap (visited descend) := by
  induction ns with
  | nil => rfl
  | cons n ns ih => rw [visitedAll, ih, List.flatMap_cons]

theorem visited_eq (descend : Node → Bool) (n : Node) : n.visited descend =
    n :: if descend n then n.children.flatMap (visited descend) else [] := by
  cases n with
  | mk label children => rw [visited, visitedAll_eq_flatMap, Node.children]

/-- A walk that stops nowhere comes to every node. -/
theorem visited_true (n : Node) : n.visited (fun _ => true) = n.preorder := by
  induction n using induction_children with
  | step n ih =>
      rw [visited_eq, preorder_eq, if_pos rfl, List.flatMap_def, List.map_congr_left ih,
        List.flatMap_def]

theorem mem_preorderAll {d : Node} {ns : List Node} :
    d ∈ preorderAll ns ↔ ∃ n ∈ ns, d ∈ n.preorder := by
  induction ns with
  | nil => simp [preorderAll]
  | cons n ns ih => simp [preorderAll, ih]

theorem mem_descendants {n d : Node} :
    d ∈ n.descendants ↔ ∃ c ∈ n.children, d ∈ c.preorder :=
  mem_preorderAll

theorem mem_preorder {n d : Node} : d ∈ n.preorder ↔ d = n ∨ d ∈ n.descendants := by
  cases n with
  | mk label children => simp [preorder, descendants, Node.children]

theorem self_mem_preorder (n : Node) : n ∈ n.preorder :=
  mem_preorder.2 (.inl rfl)

theorem mem_preorder_of_mem_descendants {n d : Node} (h : d ∈ n.descendants) : d ∈ n.preorder :=
  mem_preorder.2 (.inr h)

theorem mem_descendants_of_mem_children {n c : Node} (h : c ∈ n.children) : c ∈ n.descendants :=
  mem_descendants.2 ⟨c, h, self_mem_preorder c⟩

theorem mem_preorder_of_mem_children {n c : Node} (h : c ∈ n.children) : c ∈ n.preorder :=
  mem_preorder_of_mem_descendants (mem_descendants_of_mem_children h)

theorem mem_preorder_of_mem_namedChildren {n c : Node} (h : c ∈ n.namedChildren) :
    c ∈ n.preorder :=
  mem_preorder_of_mem_children (mem_children_of_mem_namedChildren h)

theorem mem_preorder_trans {a b c : Node} (hab : a ∈ b.preorder) (hbc : b ∈ c.preorder) :
    a ∈ c.preorder := by
  induction c using induction_children with
  | step c ih =>
      rcases mem_preorder.1 hbc with rfl | hbc
      · exact hab
      · obtain ⟨child, hchild, hbc⟩ := mem_descendants.1 hbc
        exact mem_preorder_of_mem_descendants
          (mem_descendants.2 ⟨child, hchild, ih child hchild hbc⟩)

/-- A field answers with a node below the one it is looked up in. -/
theorem mem_descendants_of_field? {n c : Node} {name : String} (h : n.field? name = some c) :
    c ∈ n.descendants := by
  unfold field? at h
  split at h
  · obtain ⟨id, -, hc⟩ := Option.bind_eq_some_iff.1 h
    exact List.mem_of_find?_eq_some hc
  · exact mem_descendants_of_mem_children (List.mem_of_find?_eq_some h)

theorem mem_preorder_of_field? {n c : Node} {name : String} (h : n.field? name = some c) :
    c ∈ n.preorder :=
  mem_preorder_of_mem_descendants (mem_descendants_of_field? h)

/-! ## Nesting -/

/-- The text of a node lies inside the text of another. -/
def Inside (d n : Node) : Prop :=
  n.start ≤ d.start ∧ d.stop ≤ n.stop

/-- The nodes of a tree are nested by byte range inside the source. -/
def Nested (source : String) (root : Node) : Prop :=
  root.stop ≤ Text.byteLength source.toList ∧
    ∀ n ∈ root.preorder, ∀ c ∈ n.children, c.Inside n

/-- A tree as a parser hands it over: offsets on the boundaries of characters of the source,
children in order, disjoint and inside their parent. -/
def WellFormed (source : String) (root : Node) : Prop :=
  ∀ n ∈ root.preorder,
    Text.isBoundary n.start source.toList ∧ Text.isBoundary n.stop source.toList ∧
    n.start ≤ n.stop ∧ (∀ c ∈ n.children, c.Inside n) ∧ n.children.Pairwise (·.stop ≤ ·.start)

instance (d n : Node) : Decidable (d.Inside n) :=
  inferInstanceAs (Decidable (_ ∧ _))

instance (source : String) (root : Node) : Decidable (Nested source root) :=
  inferInstanceAs (Decidable (_ ∧ _))

instance (source : String) (root : Node) : Decidable (WellFormed source root) :=
  inferInstanceAs (Decidable (∀ _ ∈ _, _))

theorem WellFormed.nested {source : String} {root : Node} (h : WellFormed source root) :
    Nested source root := by
  constructor
  · exact Text.le_byteLength_of_isBoundary (h root (self_mem_preorder root)).2.1
  · intro n hn
    exact (h n hn).2.2.2.1

theorem inside_of_mem_preorder {source : String} {root n d : Node} (h : Nested source root)
    (hn : n ∈ root.preorder) (hd : d ∈ n.preorder) : d.Inside n := by
  induction n using induction_children with
  | step n ih =>
      rcases mem_preorder.1 hd with rfl | hd
      · exact ⟨Nat.le_refl _, Nat.le_refl _⟩
      · obtain ⟨child, hchild, hd⟩ := mem_descendants.1 hd
        have hbelow : child ∈ n.preorder :=
          mem_preorder_of_mem_descendants (mem_descendants_of_mem_children hchild)
        obtain ⟨h₁, h₂⟩ := h.2 n hn child hchild
        obtain ⟨h₃, h₄⟩ := ih child hchild (mem_preorder_trans hbelow hn) hd
        exact ⟨Nat.le_trans h₁ h₃, Nat.le_trans h₄ h₂⟩

theorem stop_le_of_mem_preorder {source : String} {root n : Node} (h : Nested source root)
    (hn : n ∈ root.preorder) : n.stop ≤ Text.byteLength source.toList :=
  Nat.le_trans (inside_of_mem_preorder h (self_mem_preorder root) hn).2 h.1

/-! ## Lines of nodes -/

variable {source : String} {n : Node}

/-- An offset inside a node is on one of its lines: the end of the node at column zero, which does
not count, lies behind a line feed that belongs to the node. -/
theorem lineAt_le_endLine {offset : Nat} (hlt : offset < n.stop)
    (hstop : n.stop ≤ Text.byteLength source.toList) :
    Text.lineAt source offset ≤ n.endLine source := by
  have hmono := Text.rowAt_mono source (Nat.le_sub_one_of_lt hlt)
  have hlast := Text.rowAt_mono source (Nat.sub_le n.stop 1)
  simp only [endLine, Text.lineAt]
  split
  · next h =>
    have hbreak := (Text.columnAt_eq_zero_iff source (Nat.zero_lt_of_lt hlt) hstop).1 h.1
    omega
  · omega

theorem startLine_le_endLine (hle : n.start ≤ n.stop) :
    n.startLine source ≤ n.endLine source := by
  have hmono := Text.rowAt_mono source hle
  simp only [startLine, endLine, Text.lineAt]
  split <;> omega

/-- A node that has text ends on a line of the file. -/
theorem endLine_le_length_lines (hlt : n.start < n.stop)
    (hstop : n.stop ≤ Text.byteLength source.toList) :
    n.endLine source ≤ (Text.lines source).length := by
  have hpos : 0 < n.stop := Nat.zero_lt_of_lt hlt
  have hstart : Text.rowAt source n.start < (Text.lines source).length :=
    Text.rowAt_lt_length_lines (by omega)
  have hlast : Text.rowAt source (n.stop - 1) < (Text.lines source).length :=
    Text.rowAt_lt_length_lines (by omega)
  have hrow := Text.rowAt_le_length_lines source n.stop
  have hcolumn := Text.columnAt_eq_zero_iff source hpos hstop
  simp only [endLine]
  split
  · exact hrow
  · next h =>
    by_cases hzero : Text.columnAt source n.stop = 0
    · have : ¬ Text.rowAt source n.start < Text.rowAt source n.stop := fun hlt => h ⟨hzero, hlt⟩
      omega
    · have : ¬ Text.rowAt source (n.stop - 1) < Text.rowAt source n.stop :=
        fun hlt => hzero (hcolumn.2 hlt)
      omega

end Node

/-! ## A sample -/

namespace Sample

/-- A construct of a sample tree. -/
def construct (id : Nat) (kind : String) (start stop : Nat) (children : List Node)
    (field : Option String := none) : Node :=
  .mk { id, kind, named := true, field, start, stop } children

/-- A token of a sample tree. -/
def token (id : Nat) (text : String) (start : Nat) : Node :=
  .mk { id, kind := text, named := false, field := none, start,
        stop := start + Text.byteLength text.toList } []

/-- The statement that calls a function with a name of one letter, without arguments. -/
def call (id start : Nat) : Node :=
  construct id "expression_statement" start (start + 4)
    [construct (id + 1) "call_expression" start (start + 3)
      [construct (id + 2) "identifier" start (start + 1) [] (some "function"),
       construct (id + 3) "arguments" (start + 1) (start + 3)
         [token (id + 4) "(" (start + 1), token (id + 5) ")" (start + 2)] (some "arguments")],
     token (id + 6) ";" (start + 3)]

/-- The import of a name of one letter. -/
def useDeclaration (id start : Nat) : Node :=
  construct id "use_declaration" start (start + 6)
    [token (id + 1) "use" start,
     construct (id + 2) "identifier" (start + 4) (start + 5) [] (some "argument"),
     token (id + 3) ";" (start + 5)]

/-- A function that makes a call on each of its two inner lines, and an import. -/
def text : String := "fn f() \x7b\n  g();\n  h();\n\x7d\nuse a;\n"

/-- The syntax tree of the sample. -/
def tree : Node :=
  construct 0 "source_file" 0 32
    [construct 1 "function_item" 0 24
      [token 2 "fn" 0,
       construct 3 "identifier" 3 4 [] (some "name"),
       construct 4 "parameters" 4 6 [token 5 "(" 4, token 6 ")" 5] (some "parameters"),
       construct 7 "block" 7 24 [token 8 "\x7b" 7, call 9 11, call 16 18, token 23 "\x7d" 23]
         (some "body")],
     useDeclaration 24 25]

end Sample

end SourceChunks
