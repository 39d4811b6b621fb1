-- SUMMARY: Use trees in Rust: groups are transparent, each leaf is imported under its full path.
import SourceChunks.Language.Rust
import SourceChunks.Proofs.Text.Printed
import SourceChunks.Proofs.Tree

/-!
# Groups in use declarations

A use declaration names what it imports by a tree: groups share the beginning of their paths, and
groups may stand in groups. Apart from its layout a tree has leaves, each with a full path, and what
is imported is one entry for each leaf in source order. The entry of a leaf is the one that a
declaration without groups gives that spells the full path out, so how paths are grouped, and how
they are laid out, makes no difference.
-/

namespace SourceChunks.Language.Rust

open Text (AllIdentifiers moduleOf nameOf)

/-! ## Paths -/

/-- The text of a path, from its segments. -/
def pathText (segments : List String) : String :=
  "::".intercalate segments

theorem pathText_ne_empty {segments : List String} (h : AllIdentifiers segments)
    (hne : segments ≠ []) : pathText segments ≠ "" :=
  h.intercalate_ne_empty hne

theorem moduleAndItem_pathText {segments : List String} (h : AllIdentifiers segments)
    (hne : segments ≠ []) :
    moduleAndItem (pathText segments) = (pathText (moduleOf segments), nameOf segments) := by
  rw [moduleAndItem, pathText, Text.splitLast?_segments rfl rfl h hne, moduleOf]
  by_cases hparts : segments.dropLast = []
  · rw [if_pos hparts, if_pos hparts, pathText, Text.intercalate_eq_nameOf hne hparts]
    rfl
  · rw [if_neg hparts, if_neg hparts]
    rfl

/-- The standard library is recognised by the first segment. -/
theorem isStandardPath_pathText {first : String} (hfirst : Text.IsIdentifier first)
    (rest : List String) :
    isStandardPath (pathText (first :: rest)) = ["std", "core", "alloc"].contains first := by
  have hcolon : ':' ∉ first.toList := hfirst.not_mem rfl
  rw [isStandardPath, pathText]
  by_cases hrest : rest = []
  · rw [hrest, String.intercalate_singleton, Text.splitFirst?_of_not_mem rfl hcolon]
    rfl
  · rw [Text.splitFirst?_intercalate rfl hcolon hrest]
    rfl

/-! ## Use trees and their leaves -/

/-- A use tree, apart from its layout. -/
inductive UseTree where
  /-- A path, such as `a::b`. -/
  | path (segments : List String)
  /-- The word `self`. -/
  | self
  /-- A path with another name, such as `a::b as c`. -/
  | renamed (segments : List String) (other : String)
  /-- Everything behind a path, such as `a::b::*`. -/
  | wildcard (segments : List String)
  /-- Several trees, such as `{a, b::c}`. -/
  | list (items : List UseTree)
  /-- A tree behind a path, such as `a::b::{c, d}`. -/
  | under (segments : List String) (tree : UseTree)

/-- What a leaf of a use tree imports, by its path from the root of the tree. -/
inductive Leaf where
  /-- An item, perhaps under another name. -/
  | item (path : List String) (other : Option String)
  /-- Everything in a module. -/
  | everything (path : List String)
  /-- The module that the leaf's own group is about. -/
  | itself (path : List String)

namespace Leaf

/-- The full path of a leaf, the star of a wildcard and the word `self` apart. -/
def path : Leaf → List String
  | item path _ | everything path | itself path => path

/-- The import of a leaf. -/
def entry : Leaf → Import
  | item path other => ⟨pathText (moduleOf path), [other.getD (nameOf path)]⟩
  | everything path => ⟨pathText path, ["*"]⟩
  | itself path => ⟨pathText path, [nameOf path]⟩

/-- The declaration of a leaf alone, with its full path spelled out. Only `self` cannot stand
outside a group. -/
def ungrouped : Leaf → UseTree
  | item path none => .path path
  | item path (some other) => .renamed path other
  | everything path => .wildcard path
  | itself path => .under path (.list [.self])

end Leaf

namespace UseTree

mutual

/-- The leaves of a use tree below a base path, in source order. -/
def leaves (base : List String) : UseTree → List Leaf
  | path segments => [.item (base ++ segments) none]
  | self => if base = [] then [.item ["self"] none] else [.itself base]
  | renamed segments other => [.item (base ++ segments) (some other)]
  | wildcard segments => [.everything (base ++ segments)]
  | list items => leavesAll base items
  | under segments tree => leaves (base ++ segments) tree

/-- The leaves of several use trees, one tree after the other. -/
def leavesAll (base : List String) : List UseTree → List Leaf
  | [] => []
  | tree :: trees => leaves base tree ++ leavesAll base trees

end

end UseTree

/-! ## Nodes that spell use trees -/

/-- The kinds of nodes that are read by their parts; other nodes are read as paths. -/
def branchKinds : List String :=
  ["use_list", "scoped_use_list", "use_as_clause", "use_wildcard"]

/-- A node whose text is a path. White space may stand before and behind each segment. -/
structure IsPath (source : String) (n : Node) (segments : List String) : Prop where
  ne_nil : segments ≠ []
  identifiers : AllIdentifiers segments
  printed : Text.Printed (Text.joined "::" segments) (n.text source).toList

/-- A path that may be missing. -/
def IsPath? (source : String) : Option Node → List String → Prop
  | none, segments => segments = []
  | some n, segments => IsPath source n segments

/-- A node of a syntax tree that stands for a use tree, without comments in it. -/
inductive Spells (source : String) : Node → UseTree → Prop
  | path {n : Node} {segments : List String}
      (hkind : n.isOneOf branchKinds = false) (hself : n.kind ≠ "self")
      (hcomment : n.isComment = false) (hpath : IsPath source n segments) :
      Spells source n (.path segments)
  | self {n : Node} (hkind : n.kind = "self") (hpath : IsPath source n ["self"]) :
      Spells source n .self
  | renamed {n path name : Node} {segments : List String} {other : String}
      (hkind : n.kind = "use_as_clause") (hfield : n.field? "path" = some path)
      (hpath : IsPath source path segments) (hname : n.field? "alias" = some name)
      (hother : IsPath source name [other]) : Spells source n (.renamed segments other)
  | wildcard {n : Node} {segments : List String} (hkind : n.kind = "use_wildcard")
      (hpath : IsPath? source n.namedChildren.head? segments) :
      Spells source n (.wildcard segments)
  | list {n : Node} {items : List UseTree} (hkind : n.kind = "use_list")
      (hitems : List.Forall₂ (Spells source) n.namedChildren items) : Spells source n (.list items)
  | under {n list : Node} {segments : List String} {tree : UseTree}
      (hkind : n.kind = "scoped_use_list") (hpath : IsPath? source (n.field? "path") segments)
      (hlist : n.field? "list" = some list) (htree : Spells source list tree) :
      Spells source n (.under segments tree)

theorem IsPath?.identifiers {source : String} {n : Option Node} {segments : List String}
    (h : IsPath? source n segments) : AllIdentifiers segments := by
  cases n with
  | none =>
      rw [show segments = [] from h]
      exact fun _ hsegment => absurd hsegment List.not_mem_nil
  | some n => exact IsPath.identifiers h

/-- Paths are joined segment by segment. -/
theorem IsPath.joinPath_eq {source : String} {n : Node} {base segments : List String}
    (h : IsPath source n segments) (hbase : AllIdentifiers base) :
    joinPath (pathText base) (n.text source) = pathText (base ++ segments) := by
  have hne : (pathText segments).isEmpty = false := by
    simpa using pathText_ne_empty h.identifiers h.ne_nil
  have hsqueeze : Text.squeeze (n.text source) = pathText segments := h.printed.squeeze_joined
  rw [joinPath, hsqueeze]
  by_cases hnil : base = []
  · subst hnil
    rfl
  · have hbase' : (pathText base).isEmpty = false := by
      simpa using pathText_ne_empty hbase hnil
    rw [hbase', hne]
    exact (String.intercalate_append_of_ne_nil hnil h.ne_nil).symm

theorem IsPath?.joinPath_eq {source : String} {n : Option Node} {base segments : List String}
    (h : IsPath? source n segments) (hbase : AllIdentifiers base) :
    (n.map fun path => joinPath (pathText base) (path.text source)).getD (pathText base) =
      pathText (base ++ segments) := by
  cases n with
  | none => rw [show segments = [] from h, List.append_nil, Option.map_none, Option.getD_none]
  | some n => exact IsPath.joinPath_eq h hbase

/-! ## Reading use trees, kind by kind -/

section Kinds

variable {source : String} {n : Node} (base : String)

theorem useImports_list (hkind : n.kind = "use_list") :
    useImports source base n = n.namedChildren.flatMap (useImports source base) := by
  rw [useImports, hkind]
  simp only [List.flatMap_subtype, List.unattach_attach]

theorem useImports_scoped (hkind : n.kind = "scoped_use_list") {list : Node}
    (hlist : n.field? "list" = some list) :
    useImports source base n = useImports source
      (((n.field? "path").map fun path => joinPath base (path.text source)).getD base) list := by
  rw [useImports, hkind]
  simp only
  split
  · next other hother =>
    rw [hlist] at hother
    rw [Option.some.inj hother]
  · next hnone =>
    rw [hlist] at hnone
    cases hnone

theorem useImports_renamed (hkind : n.kind = "use_as_clause") {path : Node} {other : String}
    (hpath : n.field? "path" = some path) (hother : n.fieldText? source "alias" = some other) :
    useImports source base n =
      [⟨(moduleAndItem (joinPath base (path.text source))).1, [other]⟩] := by
  rw [useImports, hkind]
  simp only [hpath, hother]
  rfl

theorem useImports_wildcard (hkind : n.kind = "use_wildcard") :
    useImports source base n =
      [⟨(n.namedChildren.head?.map fun path => joinPath base (path.text source)).getD base,
        ["*"]⟩] := by
  rw [useImports, hkind]
  rfl

theorem useImports_self (hkind : n.kind = "self") (hbase : base ≠ "") :
    useImports source base n = [⟨base, [(moduleAndItem base).2]⟩] := by
  rw [useImports, hkind]
  simp [hbase]

/-- Every other node is read as a path, also `self` outside a group. -/
theorem useImports_path (hkind : n.isOneOf branchKinds = false)
    (hself : n.kind = "self" → base = "") (hpath : joinPath base (n.text source) ≠ "") :
    useImports source base n =
      [⟨(moduleAndItem (joinPath base (n.text source))).1,
        [(moduleAndItem (joinPath base (n.text source))).2]⟩] := by
  have hkinds : n.kind ≠ "use_list" ∧ n.kind ≠ "scoped_use_list" ∧ n.kind ≠ "use_as_clause" ∧
      n.kind ≠ "use_wildcard" := by
    simpa [Node.isOneOf, branchKinds] using hkind
  have hleaf : (n.kind == "self" && !base.isEmpty) = false := by
    simpa using hself
  rw [useImports]
  split
  · next h => exact absurd h hkinds.1
  · next h => exact absurd h hkinds.2.1
  · next h => exact absurd h hkinds.2.2.1
  · next h => exact absurd h hkinds.2.2.2
  · rw [hleaf]
    simp [hpath]

end Kinds

/-! ## Groups are transparent -/

theorem useImports_isPath {source : String} {n : Node} {base segments : List String}
    (hkind : n.isOneOf branchKinds = false) (hself : n.kind = "self" → base = [])
    (hpath : IsPath source n segments) (hbase : AllIdentifiers base) :
    useImports source (pathText base) n = [(Leaf.item (base ++ segments) none).entry] := by
  have hall : AllIdentifiers (base ++ segments) := hbase.append hpath.identifiers
  have hne : base ++ segments ≠ [] := by simp [hpath.ne_nil]
  have hjoin := hpath.joinPath_eq hbase
  rw [useImports_path _ hkind (fun h => by rw [hself h]; rfl)
    (by rw [hjoin]; exact pathText_ne_empty hall hne), hjoin, moduleAndItem_pathText hall hne]
  rfl

mutual

/-- A use tree gives the imports of its leaves. -/
theorem useImports_leaves {source : String} : ∀ (tree : UseTree) {n : Node} {base : List String},
    Spells source n tree → AllIdentifiers base →
    useImports source (pathText base) n = (tree.leaves base).map Leaf.entry
  | .path segments, n, base, h, hbase => by
    cases h with
    | path hkind hself _ hpath =>
      exact useImports_isPath hkind (fun h => absurd h hself) hpath hbase
  | .self, n, base, h, hbase => by
    cases h with
    | self hkind hpath =>
      rw [UseTree.leaves]
      split
      · next hnil =>
        have hleaf : n.isOneOf branchKinds = false := by
          rw [Node.isOneOf, hkind]
          decide
        subst hnil
        exact useImports_isPath hleaf (fun _ => rfl) hpath hbase
      · next hne =>
        rw [useImports_self _ hkind (pathText_ne_empty hbase hne), moduleAndItem_pathText hbase hne]
        rfl
  | .renamed segments other, n, base, h, hbase => by
    cases h with
    | @renamed _ path name _ _ hkind hfield hpath hname hother =>
      have hall : AllIdentifiers (base ++ segments) := hbase.append hpath.identifiers
      have hne : base ++ segments ≠ [] := by simp [hpath.ne_nil]
      have htext : Text.trim (name.text source) = other := hother.printed.trim_eq
      have hother' : n.fieldText? source "alias" = some other := by
        rw [Node.fieldText?, hname, Option.bind_some, htext, if_neg]
        simpa using (hother.identifiers other List.mem_cons_self).solid.1
      rw [useImports_renamed _ hkind hfield hother', hpath.joinPath_eq hbase,
        moduleAndItem_pathText hall hne]
      rfl
  | .wildcard segments, n, base, h, hbase => by
    cases h with
    | wildcard hkind hpath =>
      rw [useImports_wildcard _ hkind, hpath.joinPath_eq hbase]
      rfl
  | .list items, n, base, h, hbase => by
    cases h with
    | list hkind hitems =>
      rw [useImports_list _ hkind]
      exact flatMap_useImports_leaves items hitems hbase
  | .under segments tree, n, base, h, hbase => by
    cases h with
    | under hkind hpath hlist htree =>
      rw [useImports_scoped _ hkind hlist, hpath.joinPath_eq hbase]
      exact useImports_leaves tree htree (hbase.append hpath.identifiers)

theorem flatMap_useImports_leaves {source : String} :
    ∀ (items : List UseTree) {ns : List Node} {base : List String},
    List.Forall₂ (Spells source) ns items → AllIdentifiers base →
    ns.flatMap (useImports source (pathText base)) =
      (UseTree.leavesAll base items).map Leaf.entry
  | [], _, _, h, _ => by
    cases h
    rfl
  | tree :: items, _, _, h, hbase => by
    cases h with
    | cons htree hitems =>
      rw [List.flatMap_cons, useImports_leaves tree htree hbase,
        flatMap_useImports_leaves items hitems hbase, UseTree.leavesAll, List.map_append]

end

/-! ## Leaves alone -/

/-- The paths of leaves consist of identifiers, and a leaf that stands for its group has one. -/
def Leaf.Proper (leaf : Leaf) : Prop :=
  AllIdentifiers leaf.path ∧ ∀ path, leaf = .itself path → path ≠ []

mutual

theorem proper_of_mem_leaves {source : String} : ∀ (tree : UseTree) {n : Node} {base : List String},
    Spells source n tree → AllIdentifiers base → ∀ leaf ∈ tree.leaves base, leaf.Proper
  | .path segments, _, _, h, hbase => by
    cases h with
    | path _ _ _ hpath =>
      simpa [UseTree.leaves, Leaf.Proper, Leaf.path] using hbase.append hpath.identifiers
  | .self, _, base, h, hbase => by
    cases h with
    | self _ hpath =>
      rw [UseTree.leaves]
      split
      · simpa [Leaf.Proper, Leaf.path] using hpath.identifiers
      · next hne => simpa [Leaf.Proper, Leaf.path] using ⟨hbase, hne⟩
  | .renamed segments other, _, _, h, hbase => by
    cases h with
    | renamed _ _ hpath _ _ =>
      simpa [UseTree.leaves, Leaf.Proper, Leaf.path] using hbase.append hpath.identifiers
  | .wildcard segments, _, _, h, hbase => by
    cases h with
    | wildcard _ hpath =>
      simpa [UseTree.leaves, Leaf.Proper, Leaf.path] using hbase.append hpath.identifiers
  | .list items, _, _, h, hbase => by
    cases h with
    | list _ hitems => exact proper_of_mem_leavesAll items hitems hbase
  | .under segments tree, _, _, h, hbase => by
    cases h with
    | under _ hpath _ htree =>
      exact proper_of_mem_leaves tree htree (hbase.append hpath.identifiers)

theorem proper_of_mem_leavesAll {source : String} :
    ∀ (items : List UseTree) {ns : List Node} {base : List String},
    List.Forall₂ (Spells source) ns items → AllIdentifiers base →
    ∀ leaf ∈ UseTree.leavesAll base items, leaf.Proper
  | [], _, _, _, _, _, hleaf => absurd hleaf List.not_mem_nil
  | tree :: items, _, _, h, hbase, leaf, hleaf => by
    cases h with
    | cons htree hitems =>
      rw [UseTree.leavesAll, List.mem_append] at hleaf
      rcases hleaf with hleaf | hleaf
      · exact proper_of_mem_leaves tree htree hbase leaf hleaf
      · exact proper_of_mem_leavesAll items hitems hbase leaf hleaf

end

/-- Spelled out, a leaf is the only leaf of its declaration. -/
theorem leaves_ungrouped {leaf : Leaf} (h : leaf.Proper) : leaf.ungrouped.leaves [] = [leaf] := by
  cases leaf with
  | item path other => cases other <;> simp [Leaf.ungrouped, UseTree.leaves]
  | everything path => simp [Leaf.ungrouped, UseTree.leaves]
  | itself path => simp [Leaf.ungrouped, UseTree.leaves, UseTree.leavesAll, h.2 path rfl]

/-- The path of an import begins as the full path of its leaf does. -/
theorem exists_entry_path {leaf : Leaf} {first : String} (h : first ∈ leaf.path.head?) :
    ∃ rest, leaf.entry.path = pathText (first :: rest) := by
  obtain ⟨rest, hpath⟩ := List.head?_eq_some_iff.1 h
  cases leaf with
  | item path other =>
      obtain rfl : path = first :: rest := hpath
      rw [Leaf.entry, moduleOf]
      cases rest with
      | nil => exact ⟨[], rfl⟩
      | cons next rest => exact ⟨(next :: rest).dropLast, rfl⟩
  | everything path => exact ⟨rest, congrArg pathText hpath⟩
  | itself path => exact ⟨rest, congrArg pathText hpath⟩

theorem importEntries_of_spells {source : String} {place : Place} {argument : Node} {tree : UseTree}
    (hargument : place.node.field? "argument" = some argument) (h : Spells source argument tree) :
    rust.importEntries source place = (tree.leaves []).map Leaf.entry := by
  have hleaves := useImports_leaves tree h (fun _ hmem => absurd hmem List.not_mem_nil)
  change importEntries source place = _
  rw [importEntries, declarationImports, hargument]
  exact hleaves

/-- A use declaration imports its leaves, one after the other, and each leaf as the declaration that
spells its full path out does; `self` in a group stands for the path of the group. So it depends on
the first segment of the full path alone whether an import belongs to the standard library. -/
theorem importEntries_useTree {source : String} {place : Place} {argument : Node} {tree : UseTree}
    (hargument : place.node.field? "argument" = some argument) (h : Spells source argument tree) :
    rust.importEntries source place = (tree.leaves []).map Leaf.entry ∧
    (∀ leaf ∈ tree.leaves [],
      (∀ (source' : String) (place' : Place) (argument' : Node),
        place'.node.field? "argument" = some argument' → Spells source' argument' leaf.ungrouped →
        rust.importEntries source' place' = [leaf.entry]) ∧
      ∀ first ∈ leaf.path.head?,
        rust.isStandardPath leaf.entry.path = ["std", "core", "alloc"].contains first) ∧
    ∀ (base : List String) (other : String), base ≠ [] →
      (UseTree.self.leaves base).map Leaf.entry = [⟨pathText base, [nameOf base]⟩] ∧
      ((UseTree.renamed ["self"] other).leaves base).map Leaf.entry =
        [⟨pathText base, [other]⟩] := by
  refine ⟨importEntries_of_spells hargument h, ?_, ?_⟩
  · intro leaf hleaf
    have hproper : leaf.Proper :=
      proper_of_mem_leaves tree h (fun _ hmem => absurd hmem List.not_mem_nil) leaf hleaf
    constructor
    · intro source' place' argument' hargument' h'
      rw [importEntries_of_spells hargument' h', leaves_ungrouped hproper]
      rfl
    · intro first hfirst
      obtain ⟨rest, hpath⟩ := exists_entry_path hfirst
      rw [hpath]
      exact isStandardPath_pathText (hproper.1 first (List.mem_of_mem_head? hfirst)) rest
  · intro base other hbase
    simp [UseTree.leaves, Leaf.entry, moduleOf, hbase]

/-! ### A sample -/

private def groupText : String :=
  "use a::\x7bself, b :: c as d\x7d;"

private def renamedPath : Node :=
  Sample.construct 11 "scoped_identifier" 14 20
    [Sample.construct 12 "identifier" 14 15 [] (some "path"), Sample.token 13 "::" 16,
     Sample.construct 14 "identifier" 19 20 [] (some "name")] (some "path")

private def groupTree : Node :=
  Sample.construct 2 "scoped_use_list" 4 26
    [Sample.construct 3 "identifier" 4 5 [] (some "path"), Sample.token 4 "::" 5,
     Sample.construct 5 "use_list" 7 26
       [Sample.token 6 "\x7b" 7, Sample.construct 7 "self" 8 12 [], Sample.token 8 "," 12,
        Sample.construct 10 "use_as_clause" 14 25
          [renamedPath, Sample.token 15 "as" 21,
           Sample.construct 16 "identifier" 24 25 [] (some "alias")],
        Sample.token 17 "\x7d" 25] (some "list")] (some "argument")

private def groupDeclaration : Node :=
  Sample.construct 0 "use_declaration" 0 27
    [Sample.token 1 "use" 0, groupTree, Sample.token 18 ";" 26]

private theorem isPath_segment {source segment : String} {n : Node}
    (h : Text.IsIdentifier segment) (htext : n.text source = segment) :
    IsPath source n [segment] where
  ne_nil := List.cons_ne_nil _ _
  identifiers := by simpa [AllIdentifiers] using h
  printed := by
    have hlayout : Text.IsLayout "" [("", .word segment)] :=
      ⟨rfl, h.solid, by simp [Text.Token.ApartFrom], rfl⟩
    rw [htext]
    simpa [Text.layout, Text.joined, Text.Token.text] using Text.printed_layout hlayout

private theorem spells_groupTree : Spells groupText groupTree
    (.under ["a"] (.list [.self, .renamed ["b", "c"] "d"])) := by
  have hidentifiers : AllIdentifiers ["b", "c"] := by
    simpa [AllIdentifiers] using (by decide : Text.IsIdentifier "b" ∧ Text.IsIdentifier "c")
  have hlayout : Text.IsLayout "" [("", .word "b"), (" ", .mark "::"), (" ", .word "c")] := by
    decide
  have hpath : IsPath groupText renamedPath ["b", "c"] :=
    ⟨by simp, hidentifiers, Text.printed_layout hlayout⟩
  refine .under rfl (isPath_segment (by decide) rfl) rfl (.list rfl (.cons ?_ (.cons ?_ .nil)))
  · exact .self rfl (isPath_segment (by decide) rfl)
  · exact .renamed rfl rfl hpath rfl (isPath_segment (by decide) rfl)

/-- In the group, `self` is imported as the last segment of the group's path, and a renamed path has
the group's path in front of it. -/
theorem importEntries_useTree_sample :
    groupDeclaration.field? "argument" = some groupTree ∧
    rust.importEntries groupText ⟨groupDeclaration, none⟩ = [⟨"a", ["a"]⟩, ⟨"a::b", ["d"]⟩] ∧
    rust.isStandardPath "a::b" = false := by
  have hargument : (⟨groupDeclaration, none⟩ : Place).node.field? "argument" = some groupTree := rfl
  obtain ⟨hentries, hleaves, -⟩ := importEntries_useTree hargument spells_groupTree
  refine ⟨rfl, hentries.trans (by decide), ?_⟩
  have hitem := hleaves (.item ["a", "b", "c"] (some "d"))
    (by simp [UseTree.leaves, UseTree.leavesAll])
  exact (hitem.2 "a" rfl).trans (by decide)

end SourceChunks.Language.Rust
