-- SUMMARY: Symbols stand in source order and never cross; a container stands before its members, also among the chunks.
import Mathlib.Data.List.Flatten
import SourceChunks.Proofs.Chunk.Lines

/-!
# The order of symbols

Of two symbols of an outline, the later one begins no earlier, and it ends inside the first or
begins where the first has ended. This follows from the byte ranges of their owners: what is found
below a place has owners inside the owner of the place, and the owners of two siblings stand one
behind the other. Only a type of Go that is alone in its declaration has a larger owner than its own
node; there the order depends on what stands in front of the type.
-/

namespace SourceChunks

/-! ## Lines of nodes that do not cross -/

namespace Node

variable {source : String} {a b : Node}

theorem endLine_le_lineAt_stop (source : String) (n : Node) :
    n.endLine source ≤ Text.lineAt source n.stop := by
  simp only [endLine, Text.lineAt]
  split <;> omega

/-- A node that begins before the end of a node around it ends on a line of that node. -/
theorem endLine_le_of_inside (hlt : b.start < a.stop) (hinside : b.Inside a)
    (hstop : a.stop ≤ Text.byteLength source.toList) : b.endLine source ≤ a.endLine source := by
  rcases Nat.lt_or_eq_of_le hinside.2 with hend | hend
  · exact Nat.le_trans (endLine_le_lineAt_stop source b) (lineAt_le_endLine hend hstop)
  · -- where the outer node leaves out a line that it only touches, so does the inner one
    have hmono := Text.rowAt_mono source (Nat.le_sub_one_of_lt hlt)
    have hcolumn := Text.columnAt_eq_zero_iff source (Nat.zero_lt_of_lt hlt) hstop
    simp only [endLine, hend]
    by_cases hzero : Text.columnAt source a.stop = 0
    · have hbreak := hcolumn.1 hzero
      rw [if_pos ⟨hzero, by omega⟩]
      split <;> omega
    · refine Nat.le_of_eq ?_
      rw [if_neg fun h => hzero h.1, if_neg fun h => hzero h.1]

/-- The named children of a node stand one behind the other. -/
theorem WellFormed.pairwise_namedChildren {root n : Node} (h : root.WellFormed source)
    (hn : n ∈ root.preorder) : n.namedChildren.Pairwise (·.stop ≤ ·.start) :=
  (h n hn).2.2.2.2.filter _

end Node

namespace Symbol

/-- Two symbols in source order that do not cross: the second begins no earlier than the first, and
it ends inside the first or begins where the first has ended. -/
def Precedes (a b : Symbol) : Prop :=
  a.startLine ≤ b.startLine ∧ (b.endLine ≤ a.endLine ∨ a.endLine ≤ b.startLine)

variable {source : String} {a b : Symbol} {m n : Node}

/-- The symbol of a node precedes those of the nodes behind it. -/
theorem precedes_of_behind (ha : a.Spans source m) (hb : b.Spans source n)
    (hm : m.start ≤ m.stop) (h : m.stop ≤ n.start) : a.Precedes b := by
  have hstart := Text.lineAt_mono source (Nat.le_trans hm h)
  have hstop := Text.rowAt_mono source h
  rw [Precedes, ha.1, ha.2, hb.1, Node.startLine, Node.startLine]
  refine ⟨hstart, .inr ?_⟩
  simp only [Node.endLine, Text.lineAt]
  split <;> omega

/-- The symbol of a node precedes those of the nodes inside it. An empty node at its very end may
be on the line below its last one, but such a node is behind it. -/
theorem precedes_of_inside (ha : a.Spans source m) (hb : b.Spans source n)
    (hm : m.start ≤ m.stop) (h : n.Inside m) (hstop : m.stop ≤ Text.byteLength source.toList) :
    a.Precedes b := by
  rcases Nat.lt_or_ge n.start m.stop with hlt | hbehind
  · rw [Precedes, ha.1, ha.2, hb.1, hb.2]
    exact ⟨Text.lineAt_mono source h.1, .inl (Node.endLine_le_of_inside hlt h hstop)⟩
  · exact precedes_of_behind ha hb hm hbehind

end Symbol

/-! ## Owners of what is found below a place -/

namespace Language

variable {lang : Language} {source : String} {root : Node} {owner : Place → Node} {scope : Scope}

/-- The owner of a member is the node of the place or below it. -/
theorem Owns.mem_preorder_of_mem_members (howns : lang.Owns owner) {member : Scope}
    (h : member ∈ lang.members source scope) : owner member.place ∈ scope.place.node.preorder := by
  obtain ⟨holder, hholder, hparent, hchild⟩ := members_cases h
  rcases howns.cases member.place with hnode | hparent'
  · rw [hnode]
    exact Node.mem_preorder_trans (Node.mem_preorder_of_mem_namedChildren hchild) hholder
  · obtain rfl : holder = owner member.place := by simpa [hparent] using hparent'
    exact hholder

/-- The owner of a place that the search comes to is the owner of the place it started at or below
it. -/
theorem Reaches.owner_mem_preorder (howns : lang.Owns owner) {last : Scope}
    (h : lang.Reaches source scope last) (hscope : scope.InTree root) :
    owner last.place ∈ (owner scope.place).preorder := by
  induction h with
  | refl scope => exact Node.self_mem_preorder _
  | @step scope member last hmember _ ih =>
      have hmem : owner member.place ∈ (owner scope.place).preorder :=
        Node.mem_preorder_trans (howns.mem_preorder_of_mem_members hmember)
          (howns.mem_preorder hscope).2
      exact Node.mem_preorder_trans (ih (inTree_of_mem_members hscope hmember)) hmem

/-- What is found below a place has its lines from a node of the owner of the place. -/
theorem exists_spans_of_mem_outlineFrom (howns : lang.Owns owner) (hscope : scope.InTree root)
    {boundary : Boundary} (h : boundary ∈ lang.outlineFrom source scope) :
    ∃ n ∈ (owner scope.place).preorder, boundary.symbol.Spans source n := by
  obtain ⟨last, hreaches, hlast⟩ := mem_outlineFrom_iff.1 h
  exact ⟨owner last.place, hreaches.owner_mem_preorder howns hscope, howns.spans hlast⟩

/-! ## Order -/

/-- The symbols of the members of a place are in order, member by member. -/
def OrdersMembers (lang : Language) (source : String) (root : Node) : Prop :=
  ∀ scope : Scope, scope.InTree root →
    (lang.members source scope).Pairwise fun first second =>
      ∀ a ∈ lang.outlineFrom source first, ∀ b ∈ lang.outlineFrom source second,
        a.symbol.Precedes b.symbol

/-- The symbols of a place and below it are in order if those of siblings are. -/
theorem pairwise_outlineFrom (howns : lang.Owns owner) (hform : root.WellFormed source)
    (horders : lang.OrdersMembers source root) (hscope : scope.InTree root) :
    (lang.outlineFrom source scope).Pairwise fun a b => a.symbol.Precedes b.symbol := by
  induction scope using outlineFrom.induct lang source with
  | case1 scope ih =>
      have howner := (howns.mem_preorder hscope).1
      rw [outlineFrom_eq, List.pairwise_append, List.pairwise_flatMap]
      refine ⟨?_, ⟨?_, horders scope hscope⟩, ?_⟩
      · cases lang.boundary? source scope <;> simp
      · intro member hmember
        exact ih member hmember (inTree_of_mem_members hscope hmember)
      · intro a ha b hb
        obtain ⟨member, hmember, hb⟩ := List.mem_flatMap.1 hb
        obtain ⟨n, hn, hbn⟩ := exists_spans_of_mem_outlineFrom howns hscope
          (mem_outlineFrom.2 (.inr ⟨member, hmember, hb⟩))
        exact Symbol.precedes_of_inside (howns.spans (Option.mem_toList.1 ha)) hbn
          (hform _ howner).2.2.1 (Node.inside_of_mem_preorder hform.nested howner hn)
          (Node.stop_le_of_mem_preorder hform.nested howner)

/-- The symbols of a place precede those of a place whose owner is behind its own. -/
theorem precedes_of_owner_behind (howns : lang.Owns owner) (hform : root.WellFormed source)
    {first second : Scope} (hfirst : first.InTree root) (hsecond : second.InTree root)
    (hbehind : (owner first.place).stop ≤ (owner second.place).start) :
    ∀ a ∈ lang.outlineFrom source first, ∀ b ∈ lang.outlineFrom source second,
      a.symbol.Precedes b.symbol := by
  intro a ha b hb
  obtain ⟨m, hm, ham⟩ := exists_spans_of_mem_outlineFrom howns hfirst ha
  obtain ⟨n, hn, hbn⟩ := exists_spans_of_mem_outlineFrom howns hsecond hb
  have howner := (howns.mem_preorder hfirst).1
  have hm' := Node.inside_of_mem_preorder hform.nested howner hm
  have hn' := Node.inside_of_mem_preorder hform.nested (howns.mem_preorder hsecond).1 hn
  refine Symbol.precedes_of_behind ham hbn ?_ ?_
  · exact (hform m (Node.mem_preorder_trans hm howner)).2.2.1
  · exact Nat.le_trans hm'.2 (Nat.le_trans hbehind hn'.1)

/-- It is enough to order the named children of a node as places. -/
theorem ordersMembers_of_children
    (h : ∀ holder ∈ root.preorder, ∀ container : Option String,
      holder.namedChildren.Pairwise fun first second =>
        ∀ a ∈ lang.outlineFrom source ⟨⟨first, some holder⟩, container⟩,
        ∀ b ∈ lang.outlineFrom source ⟨⟨second, some holder⟩, container⟩,
          a.symbol.Precedes b.symbol) :
    lang.OrdersMembers source root := by
  intro scope hscope
  by_cases hnil : lang.members source scope = []
  · rw [hnil]
    exact .nil
  · obtain ⟨holder, hholder, container, hmembers⟩ := members_eq_map hnil
    rw [hmembers, List.pairwise_map]
    exact h holder (Node.mem_preorder_trans hholder hscope.node_mem) container

theorem inTree_child {holder child : Node} (hholder : holder ∈ root.preorder)
    (hchild : child ∈ holder.namedChildren) (container : Option String) :
    Scope.InTree root ⟨⟨child, some holder⟩, container⟩ where
  node_mem := Node.mem_preorder_trans (Node.mem_preorder_of_mem_namedChildren hchild) hholder
  parent_mem parent hparent := by
    obtain rfl := Option.some.inj hparent
    exact ⟨hholder, Node.mem_children_of_mem_namedChildren hchild⟩

/-- Members that are their own owners are in order. -/
theorem Owns.ordersMembers (howns : lang.Owns Place.node) (hform : root.WellFormed source) :
    lang.OrdersMembers source root := by
  refine ordersMembers_of_children fun holder hholder container => ?_
  refine (hform.pairwise_namedChildren hholder).imp_of_mem ?_
  intro first second hfirst hsecond hbehind
  exact precedes_of_owner_behind howns hform (inTree_child hholder hfirst container)
    (inTree_child hholder hsecond container) hbehind

/-- Whether a node plays no role in the search for symbols. -/
def ignores (lang : Language) (n : Node) : Bool :=
  !(lang.isTarget n || lang.isContainer n || lang.isDeclaration n || lang.isPassThrough n)

theorem outlineFrom_eq_nil (h : lang.ignores scope.place.node = true) :
    lang.outlineFrom source scope = [] := by
  simp only [ignores, Bool.not_eq_true', Bool.or_eq_false_iff] at h
  obtain ⟨⟨⟨htarget, hcontainer⟩, hdeclaration⟩, hthrough⟩ := h
  rw [outlineFrom_eq]
  simp [boundary?, members, boundFunction?, htarget, hcontainer, hdeclaration, hthrough]

/-! ### Types of Go -/

/-- In a declaration of one type, nothing in front of the type plays a role. The grammar lets such a
declaration hold the type and comments. -/
def Go.LoneTypesLead (root : Node) : Prop :=
  ∀ n ∈ root.preorder, n.kind = "type_declaration" → (typeSpecs n).length = 1 →
    n.namedChildren.Pairwise fun a b => b.kind = "type_spec" → go.ignores a = true

instance (root : Node) : Decidable (Go.LoneTypesLead root) :=
  inferInstanceAs (Decidable (∀ _ ∈ _, _))

/-- A place below a node that is not the declaration of one type is its own owner. -/
theorem Go.owner_eq_node {place : Place} {holder : Node} (hparent : place.parent = some holder)
    (h : ¬ (holder.kind = "type_declaration" ∧ (typeSpecs holder).length = 1)) :
    Go.owner place = place.node := by
  have howner : typeOwner place = place.node := by simp [typeOwner, hparent, Option.filter, h]
  rw [Go.owner, howner, ite_self]

/-- A type that is alone in its declaration has the lines of the declaration. -/
theorem Go.spans_of_loneType {holder type : Node} {container : Option String} {boundary : Boundary}
    (hkind : holder.kind = "type_declaration") (hlone : (typeSpecs holder).length = 1)
    (htype : type.kind = "type_spec")
    (h : boundary ∈ go.outlineFrom source ⟨⟨type, some holder⟩, container⟩) :
    boundary.symbol.Spans source holder := by
  have hmembers : go.members source ⟨⟨type, some holder⟩, container⟩ = [] := by
    simp [members, isContainer, Node.isOneOf, go, htype, isTarget]
  have howner : Go.owner ⟨type, some holder⟩ = holder := by
    simp [Go.owner, typeOwner, Option.filter, htype, hkind, hlone]
  rcases mem_outlineFrom.1 h with h | ⟨member, hmember, -⟩
  · rw [← howner]
    exact go_owns.spans h
  · simp [hmembers] at hmember

/-- The members of a place of a Go file are in order. A type that is alone in its declaration has
the lines of the declaration: it precedes what is behind it there, and nothing is in front. -/
theorem Go.ordersMembers (hform : root.WellFormed source) (hlead : LoneTypesLead root) :
    go.OrdersMembers source root := by
  refine ordersMembers_of_children fun holder hholder container => ?_
  have hin {child : Node} (hchild : child ∈ holder.namedChildren) :=
    inTree_child hholder hchild container
  by_cases hlone : holder.kind = "type_declaration" ∧ (typeSpecs holder).length = 1
  · refine ((hlead holder hholder hlone.1 hlone.2).and
      (hform.pairwise_namedChildren hholder)).imp_of_mem ?_
    rintro first second hfirst hsecond ⟨hignored, hbehind⟩
    by_cases hsecondType : second.kind = "type_spec"
    · have hnone : go.outlineFrom source ⟨⟨first, some holder⟩, container⟩ = [] :=
        outlineFrom_eq_nil (hignored hsecondType)
      simp [hnone]
    · have hown : Go.owner ⟨second, some holder⟩ = second := if_neg hsecondType
      by_cases hfirstType : first.kind = "type_spec"
      · intro a ha b hb
        obtain ⟨n, hn, hbn⟩ := exists_spans_of_mem_outlineFrom go_owns (hin hsecond) hb
        rw [hown] at hn
        have hmem := Node.mem_preorder_trans hn (Node.mem_preorder_of_mem_namedChildren hsecond)
        exact Symbol.precedes_of_inside (spans_of_loneType hlone.1 hlone.2 hfirstType ha) hbn
          (hform holder hholder).2.2.1 (Node.inside_of_mem_preorder hform.nested hholder hmem)
          (Node.stop_le_of_mem_preorder hform.nested hholder)
      · have hown' : Go.owner ⟨first, some holder⟩ = first := if_neg hfirstType
        refine precedes_of_owner_behind go_owns hform (hin hfirst) (hin hsecond) ?_
        rwa [hown, hown']
  · refine (hform.pairwise_namedChildren hholder).imp_of_mem ?_
    intro first second hfirst hsecond hbehind
    refine precedes_of_owner_behind go_owns hform (hin hfirst) (hin hsecond) ?_
    rwa [owner_eq_node rfl hlone, owner_eq_node rfl hlone]

/-! ### All languages -/

/-- The symbols of a file are in order and do not cross. -/
theorem pairwise_outline (hlang : lang ∈ all) (hform : root.WellFormed source)
    (hlead : lang = go → Go.LoneTypesLead root) :
    (lang.outline source root).Pairwise fun a b => a.symbol.Precedes b.symbol := by
  have hvisits : lang.Visits source root ⟨⟨root, none⟩, none⟩ := .refl _
  rcases owns_of_mem_all hlang with howns | ⟨rfl, howns⟩
  · exact pairwise_outlineFrom howns hform (howns.ordersMembers hform) hvisits.inTree
  · exact pairwise_outlineFrom howns hform (Go.ordersMembers hform (hlead rfl)) hvisits.inTree

/-- What is found below a place the search comes to stands together in the outline. -/
theorem Reaches.exists_append {last : Scope} (h : lang.Reaches source scope last) :
    ∃ before after, lang.outlineFrom source scope =
      before ++ (lang.outlineFrom source last ++ after) := by
  induction h with
  | refl scope => exact ⟨[], [], by simp⟩
  | @step scope member last hmember _ ih =>
      obtain ⟨before, after, hmiddle⟩ := ih
      obtain ⟨earlier, later, hmembers⟩ := List.append_of_mem hmember
      refine ⟨(lang.boundary? source scope).toList
        ++ earlier.flatMap (lang.outlineFrom source) ++ before,
        after ++ later.flatMap (lang.outlineFrom source), ?_⟩
      rw [outlineFrom_eq, hmembers, List.flatMap_append, List.flatMap_cons, hmiddle]
      simp

/-- The symbols of two members of a place stand in the order of the members. -/
theorem pair_sublist_outline {first second : Scope} {a b : Boundary}
    (hvisits : lang.Visits source root scope)
    (hmembers : [first, second].Sublist (lang.members source scope))
    (ha : a ∈ lang.outlineFrom source first) (hb : b ∈ lang.outlineFrom source second) :
    [a, b].Sublist (lang.outline source root) := by
  obtain ⟨before, after, houtline⟩ := Reaches.exists_append hvisits
  rw [outline, houtline, outlineFrom_eq lang source scope]
  have hboth : [a, b].Sublist ([first, second].flatMap (lang.outlineFrom source)) := by
    rw [List.flatMap_cons, List.flatMap_cons, List.flatMap_nil, List.append_nil]
    exact (List.singleton_sublist.2 ha).append (List.singleton_sublist.2 hb)
  refine (hboth.trans (hmembers.flatMap _)).trans ?_
  refine (List.sublist_append_right (lang.boundary? source scope).toList _).trans ?_
  exact (List.sublist_append_left _ after).trans (List.sublist_append_right before _)

/-- A symbol stands right before the symbols of its members. -/
theorem exists_outline_eq {container : Boundary} (hvisits : lang.Visits source root scope)
    (h : lang.boundary? source scope = some container) :
    ∃ before after, lang.outline source root = before ++ container ::
      ((lang.members source scope).flatMap (lang.outlineFrom source) ++ after) := by
  obtain ⟨before, after, houtline⟩ := Reaches.exists_append hvisits
  refine ⟨before, after, ?_⟩
  rw [outline, houtline, outlineFrom_eq lang source scope, h]
  simp

end Language

/-! ## Order of chunks -/

namespace Chunk

variable {lang : Language} {root : Node} {source : String}

/-- Two symbols that are not split have their chunks in the order of the symbols. -/
theorem sublist_ofTree {file : String} {options : Options} {a b : Boundary} {c d : Chunk}
    (hsource : Text.isBlankText source = false)
    (hab : [a, b].Sublist (lang.outline source root)) (horder : a.symbol.Precedes b.symbol)
    (hc : (FileContext.ofTree lang root source file options).symbolChunks a = [c])
    (hd : (FileContext.ofTree lang root source file options).symbolChunks b = [d]) :
    [c, d].Sublist (ofTree lang root source file options) := by
  have hchunks := hab.flatMap (FileContext.ofTree lang root source file options).symbolChunks
  rw [List.flatMap_cons, List.flatMap_cons, List.flatMap_nil, hc, hd] at hchunks
  have hfirst : c.startLine = a.symbol.startLine := by
    have hhead := (FileContext.ofTree lang root source file options).startLine_head?_symbolChunks a
    rw [hc] at hhead
    exact Option.some.inj hhead
  have hsecond : b.symbol.startLine ≤ d.startLine :=
    (FileContext.bounds_of_mem_symbolChunks _ (hd ▸ List.mem_singleton_self d)).1
  rw [ofTree_eq lang root file options hsource]
  refine sublist_sorted (hchunks.trans (List.sublist_append_left ..)) ?_
  rw [hfirst]
  exact Nat.le_trans horder.1 hsecond

/-- The symbols of a file are in source order and do not cross, and a symbol stands right before
those of its members. Where neither is split, the chunk of a container stands before those of its
members, also where they begin on one line. -/
theorem ofTree_order (hlang : lang ∈ Language.all) (hform : root.WellFormed source)
    (hlead : lang = .go → Language.Go.LoneTypesLead root) :
    (lang.symbols source root).Pairwise Symbol.Precedes ∧
    ∀ scope container, lang.Visits source root scope →
      lang.boundary? source scope = some container →
      let members := (lang.members source scope).flatMap (lang.outlineFrom source)
      (∃ before after,
        lang.outline source root = before ++ container :: (members ++ after)) ∧
      ∀ member ∈ members, Text.isBlankText source = false → ∀ file options c d,
        (FileContext.ofTree lang root source file options).symbolChunks container = [c] →
        (FileContext.ofTree lang root source file options).symbolChunks member = [d] →
        [c, d].Sublist (ofTree lang root source file options) := by
  have horder := Language.pairwise_outline hlang hform hlead
  refine ⟨List.pairwise_map.2 horder, ?_⟩
  intro scope container hvisits hcontainer members
  obtain ⟨before, after, houtline⟩ := Language.exists_outline_eq hvisits hcontainer
  refine ⟨⟨before, after, houtline⟩, ?_⟩
  intro member hmember hsource file options c d hc hd
  have hpair : [container, member].Sublist (lang.outline source root) := by
    rw [houtline]
    refine (List.Sublist.cons_cons _ ?_).trans (List.sublist_append_right ..)
    exact List.singleton_sublist.2 (List.mem_append_left _ hmember)
  have hprecedes : container.symbol.Precedes member.symbol := by
    simpa using horder.sublist hpair
  exact sublist_ofTree hsource hpair hprecedes hc hd

/-- A type of Go with a name of one letter, a struct without fields. -/
private def structSpec (id start : Nat) : Node :=
  Sample.construct id "type_spec" start (start + 10)
    [Sample.construct (id + 1) "type_identifier" start (start + 1) [] (some "name"),
     Sample.construct (id + 2) "struct_type" (start + 2) (start + 10)
       [Sample.token (id + 3) "struct" (start + 2),
        Sample.construct (id + 4) "field_declaration_list" (start + 8) (start + 10)
          [Sample.token (id + 5) "\x7b" (start + 8), Sample.token (id + 6) "\x7d" (start + 9)]]
       (some "type")]

/-- The parameters and the body of a function of Go that takes and does nothing. -/
private def emptyFunction (id start : Nat) : List Node :=
  [Sample.construct id "parameter_list" start (start + 2)
     [Sample.token (id + 1) "(" start, Sample.token (id + 2) ")" (start + 1)] (some "parameters"),
   Sample.construct (id + 3) "block" (start + 3) (start + 5)
     [Sample.token (id + 4) "\x7b" (start + 3), Sample.token (id + 5) "\x7d" (start + 4)]
     (some "body")]

/-- A method of Go, with a pointer as its receiver. -/
private def receiverMethod : Node :=
  Sample.construct 4 "method_declaration" 10 30
    ([Sample.token 5 "func" 10,
      Sample.construct 6 "parameter_list" 15 21
        [Sample.token 7 "(" 15,
         Sample.construct 8 "parameter_declaration" 16 20
           [Sample.construct 9 "identifier" 16 17 [] (some "name"),
            Sample.construct 10 "pointer_type" 18 20
              [Sample.token 11 "*" 18, Sample.construct 12 "type_identifier" 19 20 []]
              (some "type")],
         Sample.token 13 ")" 20] (some "receiver"),
      Sample.construct 14 "field_identifier" 22 25 [] (some "name")] ++ emptyFunction 15 25)

/-- The declaration of the type that the method belongs to. -/
private def receiverDeclaration : Node :=
  Sample.construct 22 "type_declaration" 32 52
    [Sample.token 23 "type" 32, Sample.token 24 "(" 37, structSpec 25 40, Sample.token 32 ")" 51]

/-- A file of Go with a type that is alone in its declaration, and a method in front of it. -/
private def receiverTree : Node :=
  Sample.construct 0 "source_file" 0 53
    [Sample.construct 1 "package_clause" 0 9
       [Sample.token 2 "package" 0, Sample.construct 3 "package_identifier" 8 9 []],
     receiverMethod, Sample.token 21 ";" 30, receiverDeclaration]

private def receiverText : String :=
  "package p\nfunc (s *S) Run() \x7b\x7d; type (\n\tS struct\x7b\x7d\n)\n"

/-- A method in a class. -/
private def methodTree : Node :=
  Sample.construct 6 "function_definition" 11 21
    [Sample.token 7 "def" 11,
     Sample.construct 8 "identifier" 15 16 [] (some "name"),
     Sample.construct 9 "parameters" 16 18 [Sample.token 10 "(" 16, Sample.token 11 ")" 17]
       (some "parameters"),
     Sample.token 12 ":" 18,
     Sample.construct 13 "block" 20 21
       [Sample.construct 14 "expression_statement" 20 21
         [Sample.construct 15 "integer" 20 21 []]] (some "body")]

/-- The body of a class. -/
private def bodyTree : Node :=
  Sample.construct 5 "block" 11 21 [methodTree] (some "body")

private def classTree : Node :=
  Sample.construct 1 "class_definition" 0 21
    [Sample.token 2 "class" 0,
     Sample.construct 3 "identifier" 6 7 [] (some "name"),
     Sample.token 4 ":" 7,
     bodyTree]

private def moduleTree : Node :=
  Sample.construct 0 "module" 0 22 [classTree]

private def classText : String := "class A:\n  def f(): 1\n"

/-- A type of Go has the lines of its declaration and still stands in order. A class of Python comes
before its method, as a symbol and as a chunk. -/
theorem ofTree_order_samples :
    (receiverTree.WellFormed receiverText ∧ Language.Go.LoneTypesLead receiverTree ∧
      (∃ type ∈ Language.go.symbols receiverText receiverTree,
        type.name = "S" ∧ type.startLine = 2 ∧ type.endLine = 4) ∧
      (Language.go.symbols receiverText receiverTree).Pairwise Symbol.Precedes) ∧
    moduleTree.WellFormed classText ∧
    ∃ container member, container.symbol.name = "A" ∧ member.symbol.name = "f" ∧
      (∃ before after, Language.python.outline classText moduleTree =
        before ++ container :: after ∧ member ∈ after) ∧
      ∃ c d, c.metadata.symbolName = some "A" ∧ d.metadata.symbolName = some "f" ∧
        [c, d].Sublist (ofTree .python moduleTree classText "a.py" {}) := by
  refine ⟨?_, ?_⟩
  · have hform : receiverTree.WellFormed receiverText := by decide
    have hlead : Language.Go.LoneTypesLead receiverTree := by decide
    have hlang : Language.go ∈ Language.all := by simp [Language.all]
    let spec : Scope := ⟨⟨structSpec 25 40, some receiverDeclaration⟩, none⟩
    have hvisits : Language.go.Visits receiverText receiverTree spec :=
      .step (List.mem_of_getLast? rfl) (.step (List.mem_of_mem_head? rfl) (.refl _))
    obtain ⟨boundary, hboundary, hname, hfirst, hlast⟩ : ∃ boundary,
        Language.go.boundary? receiverText spec = some boundary ∧ boundary.symbol.name = "S" ∧
          boundary.symbol.startLine = 2 ∧ boundary.symbol.endLine = 4 :=
      ⟨_, rfl, by decide, by decide, by decide⟩
    have hmem := Language.mem_outline_iff.2 ⟨spec, hvisits, hboundary⟩
    exact ⟨hform, hlead, ⟨boundary.symbol, List.mem_map_of_mem hmem, hname, hfirst, hlast⟩,
      (ofTree_order hlang hform fun _ => hlead).1⟩
  · have hform : moduleTree.WellFormed classText := by decide
    let scope : Scope := ⟨⟨classTree, some moduleTree⟩, none⟩
    let method : Scope := ⟨⟨methodTree, some bodyTree⟩, some "A"⟩
    have hvisits : Language.python.Visits classText moduleTree scope :=
      .step (List.mem_of_mem_head? rfl) (.refl _)
    have hmethod : method ∈ Language.python.members classText scope := List.mem_of_mem_head? rfl
    let container := (Language.python.boundary? classText scope).get (by decide)
    let member := (Language.python.boundary? classText method).get (by decide)
    have hmember : member ∈ (Language.python.members classText scope).flatMap
        (Language.python.outlineFrom classText) :=
      List.mem_flatMap.2 ⟨method, hmethod, Language.mem_outlineFrom.2 (.inl rfl)⟩
    have hlang : Language.python ∈ Language.all := by simp [Language.all]
    obtain ⟨-, hmembers⟩ :=
      ofTree_order hlang hform fun h => absurd (congrArg Language.tag h) (by decide)
    obtain ⟨⟨before, after, houtline⟩, hchunks⟩ := hmembers scope container hvisits rfl
    refine ⟨hform, container, member, by decide, by decide,
      ⟨before, _, houtline, List.mem_append_left _ hmember⟩, ?_⟩
    refine ⟨_, _, ?_, ?_, hchunks member hmember (by decide) "a.py" {} _ _ rfl rfl⟩
    · decide
    · decide

/-- A function in the declaration of a type, which is no Go. -/
private def crossedFunction : Node :=
  Sample.construct 4 "function_declaration" 8 19
    ([Sample.token 5 "func" 8, Sample.construct 6 "identifier" 13 14 [] (some "name")]
      ++ emptyFunction 7 14)

private def crossedDeclaration : Node :=
  Sample.construct 1 "type_declaration" 0 33
    [Sample.token 2 "type" 0, Sample.token 3 "(" 5, crossedFunction, structSpec 13 21,
     Sample.token 20 ")" 32]

private def crossedTree : Node :=
  Sample.construct 0 "source_file" 0 34 [crossedDeclaration]

private def crossedText : String :=
  "type (\n\tfunc f() \x7b\x7d\n\tT struct\x7b\x7d\n)\n"

/-- Byte ranges that are nested and in order are not enough for Go: a type that is alone in its
declaration begins with the declaration, in front of a function that stands before it there. And a
method of Go may come before the type that it belongs to. -/
theorem exists_unordered_symbols :
    (crossedTree.WellFormed crossedText ∧
      ∃ function type, [function, type].Sublist (Language.go.symbols crossedText crossedTree) ∧
        function.startLine = 2 ∧ type.startLine = 1 ∧
        ¬ (Language.go.symbols crossedText crossedTree).Pairwise Symbol.Precedes) ∧
    receiverTree.WellFormed receiverText ∧
    ∃ method type, [method, type].Sublist (Language.go.symbols receiverText receiverTree) ∧
      type.name = "S" ∧ type.kind = .classLike ∧ method.kind = .method ∧
      method.parentClass = some type.name ∧ method.startLine = type.startLine := by
  refine ⟨⟨by decide, ?_⟩, by decide, ?_⟩
  · let function : Scope := ⟨⟨crossedFunction, some crossedDeclaration⟩, none⟩
    let type : Scope := ⟨⟨structSpec 13 21, some crossedDeclaration⟩, none⟩
    let a := (Language.go.boundary? crossedText function).get (by decide)
    let b := (Language.go.boundary? crossedText type).get (by decide)
    have hvisits : Language.go.Visits crossedText crossedTree
        ⟨⟨crossedDeclaration, some crossedTree⟩, none⟩ :=
      .step (List.mem_of_mem_head? rfl) (.refl _)
    have hmembers : [function, type].Sublist (Language.go.members crossedText
        ⟨⟨crossedDeclaration, some crossedTree⟩, none⟩) := .refl _
    have hpair : [a.symbol, b.symbol].Sublist (Language.go.symbols crossedText crossedTree) :=
      (Language.pair_sublist_outline hvisits hmembers (Language.mem_outlineFrom.2 (.inl rfl))
        (Language.mem_outlineFrom.2 (.inl rfl))).map _
    refine ⟨a.symbol, b.symbol, hpair, by decide, by decide, fun horder => ?_⟩
    have hprecedes : a.symbol.Precedes b.symbol := by simpa using horder.sublist hpair
    exact absurd hprecedes.1 (by decide)
  · let method : Scope := ⟨⟨receiverMethod, some receiverTree⟩, none⟩
    let declaration : Scope := ⟨⟨receiverDeclaration, some receiverTree⟩, none⟩
    let type : Scope := ⟨⟨structSpec 25 40, some receiverDeclaration⟩, none⟩
    let a := (Language.go.boundary? receiverText method).get (by decide)
    let b := (Language.go.boundary? receiverText type).get (by decide)
    have hmembers : [method, declaration].Sublist
        (Language.go.members receiverText ⟨⟨receiverTree, none⟩, none⟩) := .cons _ (.refl _)
    have htype : type ∈ Language.go.members receiverText declaration := List.mem_of_mem_head? rfl
    have hb : b ∈ Language.go.outlineFrom receiverText declaration :=
      Language.mem_outlineFrom.2 (.inr ⟨type, htype, Language.mem_outlineFrom.2 (.inl rfl)⟩)
    have hpair : [a.symbol, b.symbol].Sublist (Language.go.symbols receiverText receiverTree) :=
      (Language.pair_sublist_outline (.refl _) hmembers (Language.mem_outlineFrom.2 (.inl rfl))
        hb).map _
    exact ⟨a.symbol, b.symbol, hpair, by decide, by decide, by decide, by decide, by decide⟩

end Chunk

end SourceChunks
