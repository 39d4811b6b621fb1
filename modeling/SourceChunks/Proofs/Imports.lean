-- SUMMARY: The imports of a file are a normal form: each path once, with each of its names once, in the order of first occurrence.
import SourceChunks.Language.JavaScript
import SourceChunks.Proofs.Tree

/-!
# Imports in normal form

Imports are merged one after the other: the names of a path that is known go to its entry, a new
path gets an entry at the end. What results depends on the whole list in a simple way: the paths in
the order of first occurrence, each with the names of all imports from it, again in that order. For
a syntax tree, the list is what the import statements give that are not below another one with
imports.
-/

namespace SourceChunks

/-! ## Values in the order of first occurrence -/

section FirstOccurrences

variable {α : Type} [BEq α] [LawfulBEq α]

/-- First occurrences do not repeat. -/
theorem nodup_eraseDups (xs : List α) : xs.eraseDups.Nodup := by
  match xs with
  | [] => simp
  | x :: xs =>
    have hlength := List.length_filter_le (fun y => !y == x) xs
    rw [List.eraseDups_cons, List.nodup_cons]
    exact ⟨by simp [List.mem_eraseDups], nodup_eraseDups _⟩
termination_by xs.length
decreasing_by simpa using Nat.lt_succ_of_le hlength

theorem eraseDups_concat (xs : List α) (x : α) :
    (xs ++ [x]).eraseDups = if xs.contains x then xs.eraseDups else xs.eraseDups ++ [x] := by
  rw [List.eraseDups_append]
  by_cases h : x ∈ xs
  · simp [h, List.removeAll]
  · simp [h, List.removeAll, List.eraseDups_cons]

omit [LawfulBEq α] in
/-- A step that appends new values only, repeated, keeps first occurrences. -/
theorem foldl_eraseDups {push : List α → α → List α}
    (hpush : ∀ xs x, push xs.eraseDups x = (xs ++ [x]).eraseDups) (xs ys : List α) :
    ys.foldl push xs.eraseDups = (xs ++ ys).eraseDups := by
  induction ys generalizing xs with
  | nil => simp
  | cons y ys ih =>
      rw [List.foldl_cons, hpush, ih, List.append_assoc, List.singleton_append]

end FirstOccurrences

theorem pushNew_eraseDups (xs : List String) (x : String) :
    pushNew xs.eraseDups x = (xs ++ [x]).eraseDups := by
  rw [eraseDups_concat, pushNew]
  simp

/-- Appending new values one by one keeps first occurrences. -/
theorem foldl_pushNew (xs ys : List String) :
    ys.foldl pushNew xs.eraseDups = (xs ++ ys).eraseDups :=
  foldl_eraseDups pushNew_eraseDups xs ys

theorem nodup_pushNew {values : List String} (h : values.Nodup) (value : String) :
    (pushNew values value).Nodup := by
  unfold pushNew
  split
  · exact h
  · next hnew =>
    rw [List.nodup_append]
    refine ⟨h, by simp, ?_⟩
    intro a ha b hb heq
    rw [List.mem_singleton.1 hb] at heq
    exact hnew (by simpa [heq] using ha)

theorem nodup_foldl_pushNew {values : List String} (h : values.Nodup) (new : List String) :
    (new.foldl pushNew values).Nodup := by
  induction new generalizing values with
  | nil => exact h
  | cons value new ih => exact ih (nodup_pushNew h value)

/-- Values that are there already occur first elsewhere. -/
theorem eraseDups_append_of_subset {xs ys : List String} (h : ys ⊆ xs) :
    (xs ++ ys).eraseDups = xs.eraseDups := by
  have hnone : ys.removeAll xs = [] := by
    rw [List.removeAll, List.filter_eq_nil_iff]
    intro y hy
    simp [h hy]
  rw [List.eraseDups_append, hnone, List.eraseDups_nil, List.append_nil]

theorem head?_eraseDups (xs : List String) : xs.eraseDups.head? = xs.head? := by
  cases xs with
  | nil => rfl
  | cons x xs => rw [List.eraseDups_cons, List.head?_cons, List.head?_cons]

/-! ## Merging by path -/

namespace Import

/-- The names of all imports from a path, in their order. -/
def namesFrom (entries : List Import) (path : String) : List String :=
  (entries.filter (·.path == path)).flatMap (·.names)

/-- Imports merged by path: the paths in the order of first occurrence, each with the names imported
from it in the order of first occurrence. -/
def merged (entries : List Import) : List Import :=
  (entries.map (·.path)).eraseDups.map fun path => ⟨path, (namesFrom entries path).eraseDups⟩

theorem namesFrom_concat (entries : List Import) (new : Import) (path : String) :
    namesFrom (entries ++ [new]) path =
      namesFrom entries path ++ if new.path = path then new.names else [] := by
  by_cases h : new.path = path <;> simp [namesFrom, List.filter_append, h]

theorem addTo_of_mem {paths : List String} (hpaths : paths.Nodup) (namesOf : String → List String)
    {new : Import} (h : new.path ∈ paths) :
    new.addTo (paths.map fun path => ⟨path, namesOf path⟩) = paths.map fun path =>
      ⟨path, if new.path = path then new.names.foldl pushNew (namesOf path) else namesOf path⟩ := by
  induction paths with
  | nil => simp at h
  | cons path paths ih =>
      rw [List.nodup_cons] at hpaths
      rw [List.map_cons, List.map_cons, addTo]
      by_cases hpath : path = new.path
      · -- no other entry has the path
        have hrest : ∀ other ∈ paths, new.path ≠ other := by
          intro other hother heq
          exact hpaths.1 (by rwa [hpath, heq])
        rw [if_pos hpath, if_pos hpath.symm]
        refine congrArg _ (List.map_congr_left fun other hother => ?_)
        rw [if_neg (hrest other hother)]
      · have hmem : new.path ∈ paths := by
          simpa [Ne.symm hpath] using h
        rw [if_neg hpath, if_neg (Ne.symm hpath), ih hpaths.2 hmem]

theorem addTo_of_not_mem {entries : List Import} {new : Import}
    (h : new.path ∉ entries.map (·.path)) :
    new.addTo entries = entries ++ [⟨new.path, new.names.eraseDups⟩] := by
  induction entries with
  | nil =>
      have hnames := foldl_pushNew [] new.names
      rw [List.eraseDups_nil, List.nil_append] at hnames
      rw [addTo, hnames, List.nil_append]
  | cons old entries ih =>
      rw [List.map_cons, List.mem_cons, not_or] at h
      rw [addTo, if_neg (Ne.symm h.1), ih h.2, List.cons_append]

theorem paths_merged (entries : List Import) :
    (merged entries).map (·.path) = (entries.map (·.path)).eraseDups := by
  rw [merged, List.map_map]
  exact List.map_id _

theorem namesFrom_of_not_mem {entries : List Import} {path : String}
    (h : path ∉ entries.map (·.path)) : namesFrom entries path = [] := by
  have hnone : entries.filter (·.path == path) = [] := by
    rw [List.filter_eq_nil_iff]
    intro entry hentry hpath
    exact h (List.mem_map.2 ⟨entry, hentry, beq_iff_eq.1 hpath⟩)
  rw [namesFrom, hnone, List.flatMap_nil]

theorem merged_concat_of_mem {entries : List Import} {new : Import}
    (h : new.path ∈ entries.map (·.path)) :
    merged (entries ++ [new]) = (entries.map (·.path)).eraseDups.map fun path =>
      ⟨path, (namesFrom entries path ++ if new.path = path then new.names else []).eraseDups⟩ := by
  have hpaths : ((entries ++ [new]).map (·.path)).eraseDups = (entries.map (·.path)).eraseDups := by
    rw [List.map_append]
    exact eraseDups_append_of_subset (by simpa using h)
  rw [merged, hpaths]
  simp only [namesFrom_concat]

/-- Adding an import to a merged list gives the merged list of all. -/
theorem addTo_merged (entries : List Import) (new : Import) :
    new.addTo (merged entries) = merged (entries ++ [new]) := by
  by_cases h : new.path ∈ entries.map (·.path)
  · rw [merged, addTo_of_mem (nodup_eraseDups _) _ (List.mem_eraseDups.2 h),
      merged_concat_of_mem h]
    refine List.map_congr_left fun path _ => ?_
    split
    · rw [foldl_pushNew]
    · rw [List.append_nil]
  · have hmerged : new.path ∉ (merged entries).map (·.path) := by
      rwa [paths_merged, List.mem_eraseDups]
    have hpaths : ((entries ++ [new]).map (·.path)).eraseDups =
        (entries.map (·.path)).eraseDups ++ [new.path] := by
      rw [List.map_append, List.map_singleton, ← pushNew_eraseDups, pushNew,
        if_neg (by simpa using h)]
    have hnames : ∀ path ∈ (entries.map (·.path)).eraseDups,
        namesFrom (entries ++ [new]) path = namesFrom entries path := by
      intro path hpath
      have hne : new.path ≠ path := fun heq => h (heq ▸ List.mem_eraseDups.1 hpath)
      rw [namesFrom_concat, if_neg hne, List.append_nil]
    have hnew : namesFrom (entries ++ [new]) new.path = new.names := by
      rw [namesFrom_concat, if_pos rfl, namesFrom_of_not_mem h, List.nil_append]
    rw [addTo_of_not_mem hmerged, merged, merged, hpaths, List.map_append, List.map_singleton, hnew]
    refine congrArg (· ++ _) (List.map_congr_left fun path hpath => ?_)
    rw [hnames path hpath]

/-- An import that is there already adds nothing. -/
theorem merged_concat_of_mem_entries {entries : List Import} {old : Import} (h : old ∈ entries) :
    merged (entries ++ [old]) = merged entries := by
  rw [merged_concat_of_mem (List.mem_map_of_mem h), merged]
  refine List.map_congr_left fun path _ => ?_
  split
  · next hpath =>
    have hnames : old.names ⊆ namesFrom entries path := by
      intro name hname
      exact List.mem_flatMap.2 ⟨old, List.mem_filter.2 ⟨h, by simpa using hpath⟩, hname⟩
    rw [eraseDups_append_of_subset hnames]
  · rw [List.append_nil]

end Import

namespace FileImports

/-- Inserting one after the other merges by path. -/
theorem foldl_insert_merged (before entries : List Import) :
    entries.foldl insert ⟨Import.merged before⟩ = ⟨Import.merged (before ++ entries)⟩ := by
  induction entries generalizing before with
  | nil => rw [List.foldl_nil, List.append_nil]
  | cons new entries ih =>
      rw [List.foldl_cons, insert, Import.addTo_merged, ih, List.append_assoc,
        List.singleton_append]

theorem entries_ofList (entries : List Import) : (ofList entries).entries = Import.merged entries :=
  congrArg FileImports.entries (foldl_insert_merged [] entries)

theorem paths_ofList (entries : List Import) :
    (ofList entries).paths = (entries.map (·.path)).eraseDups := by
  rw [paths, entries_ofList, Import.paths_merged]

theorem insert_of_mem {entries : List Import} {old : Import} (h : old ∈ entries) :
    (ofList entries).insert old = ofList entries := by
  rw [insert, entries_ofList, Import.addTo_merged, Import.merged_concat_of_mem_entries h,
    ← entries_ofList]

theorem namesByPath_perm (imports : FileImports) :
    imports.namesByPath.Perm (imports.entries.map fun entry => (entry.path, entry.names)) :=
  List.mergeSort_perm _ _

theorem mem_namesByPath {imports : FileImports} {path : String} {names : List String} :
    (path, names) ∈ imports.namesByPath ↔ ⟨path, names⟩ ∈ imports.entries := by
  rw [(namesByPath_perm imports).mem_iff, List.mem_map]
  constructor
  · rintro ⟨entry, hentry, heq⟩
    obtain ⟨rfl, rfl⟩ := Prod.mk.inj heq
    exact hentry
  · intro hentry
    exact ⟨_, hentry, rfl⟩

/-- The keys of the names by path are the paths. -/
theorem keys_namesByPath_perm (imports : FileImports) :
    (imports.namesByPath.map (·.1)).Perm imports.paths := by
  refine ((namesByPath_perm imports).map _).trans (.of_eq ?_)
  rw [List.map_map]
  rfl

/-- Where no path repeats, the keys ascend. -/
theorem pairwise_namesByPath {imports : FileImports} (h : imports.paths.Nodup) :
    imports.namesByPath.Pairwise (·.1 < ·.1) := by
  have hdistinct : imports.namesByPath.Pairwise (·.1 ≠ ·.1) :=
    List.pairwise_map.1 ((keys_namesByPath_perm imports).nodup_iff.2 h)
  have hordered : imports.namesByPath.Pairwise fun a b => decide (a.1 ≤ b.1) = true := by
    refine List.pairwise_mergeSort ?_ ?_ _
    · intro a b c hab hbc
      exact decide_eq_true (String.le_trans (of_decide_eq_true hab) (of_decide_eq_true hbc))
    · intro a b
      simpa using String.le_total a.1 b.1
  refine (hordered.and hdistinct).imp ?_
  rintro a b ⟨hle, hne⟩
  exact Std.lt_of_le_of_ne (of_decide_eq_true hle) hne

end FileImports

/-! ## Statements below statements -/

/-- A place of a tree with the places above it, the nearest first. -/
structure Trail where
  place : Place
  above : List Place

namespace Node

mutual

/-- All places reached from a node through named children, in preorder, each with the places above
it. -/
def trails (above : List Place) (parent : Option Node) : Node → List Trail
  | mk label children =>
    let here : Place := ⟨mk label children, parent⟩
    ⟨here, above⟩ :: trailsAll (here :: above) (mk label children) children

/-- The trails that lead to and below the named ones among the children of `parent`. -/
def trailsAll (above : List Place) (parent : Node) : List Node → List Trail
  | [] => []
  | n :: ns =>
    (if n.isNamed then n.trails above (some parent) else []) ++ trailsAll above parent ns

end

mutual

theorem suffix_of_mem_trails {trail : Trail} {above : List Place} {parent : Option Node} :
    ∀ {n : Node}, trail ∈ n.trails above parent → above <:+ trail.above
  | mk label children, h => by
    rw [trails, List.mem_cons] at h
    rcases h with rfl | h
    · exact List.suffix_refl _
    · exact (List.suffix_cons _ _).trans (suffix_of_mem_trailsAll h)

theorem suffix_of_mem_trailsAll {trail : Trail} {above : List Place} {parent : Node} :
    ∀ {ns : List Node}, trail ∈ trailsAll above parent ns → above <:+ trail.above
  | [], h => by simp [trailsAll] at h
  | n :: ns, h => by
    rw [trailsAll, List.mem_append] at h
    rcases h with h | h
    · split at h
      · exact suffix_of_mem_trails h
      · simp at h
    · exact suffix_of_mem_trailsAll h

end

/-- What is below a place at which the search stops has that place above it. -/
theorem filter_trailsAll_of_stop {descend : Place → Bool} {here : Place}
    (h : descend here = false) (above : List Place) (parent : Node) (ns : List Node) :
    (trailsAll (here :: above) parent ns).filter (·.above.all descend) = [] := by
  rw [List.filter_eq_nil_iff]
  intro trail htrail hall
  have hmem : here ∈ trail.above := (suffix_of_mem_trailsAll htrail).subset List.mem_cons_self
  rw [List.all_eq_true.1 hall here hmem] at h
  cases h

mutual

/-- A search that stops at some places reaches those places that have none of them above. -/
theorem namedPlaces_eq_trails (descend : Place → Bool) {above : List Place}
    (habove : above.all descend = true) (parent : Option Node) : ∀ n : Node,
    n.namedPlaces descend parent =
      ((n.trails above parent).filter (·.above.all descend)).map (·.place)
  | mk label children => by
    rw [namedPlaces, trails, List.filter_cons, if_pos habove, List.map_cons]
    refine congrArg _ ?_
    split
    · next hhere =>
      exact namedPlacesAll_eq_trailsAll descend (by simp [hhere, habove]) _ children
    · next hhere =>
      rw [filter_trailsAll_of_stop (by simpa using hhere), List.map_nil]

theorem namedPlacesAll_eq_trailsAll (descend : Place → Bool) {above : List Place}
    (habove : above.all descend = true) (parent : Node) : ∀ ns : List Node,
    namedPlacesAll descend parent ns =
      ((trailsAll above parent ns).filter (·.above.all descend)).map (·.place)
  | [] => rfl
  | n :: ns => by
    rw [namedPlacesAll, trailsAll, List.filter_append, List.map_append,
      ← namedPlacesAll_eq_trailsAll descend habove parent ns]
    refine congrArg (· ++ _) ?_
    split
    · exact namedPlaces_eq_trails descend habove (some parent) n
    · rfl

end

theorem namedPlacesAll_eq (descend : Place → Bool) (parent : Node) (ns : List Node) :
    namedPlacesAll descend parent ns =
      (ns.filter (·.isNamed)).flatMap (namedPlaces descend (some parent)) := by
  induction ns with
  | nil => rfl
  | cons n ns ih =>
      rw [namedPlacesAll, List.filter_cons, ih]
      split
      · rw [List.flatMap_cons]
      · rw [List.nil_append]

/-- Trails lead to all places reached through named children, in preorder. -/
theorem map_place_trails (parent : Option Node) (n : Node) :
    (n.trails [] parent).map (·.place) = n.namedPlaces (fun _ => true) parent := by
  rw [namedPlaces_eq_trails _ (List.all_nil) parent n, List.filter_eq_self.2]
  intro trail _
  simp

end Node

namespace Language

variable (lang : Language) (source : String)

/-- The imports of the statements at and below a place that are not below another statement with
imports, in preorder. -/
def outermostEntries (place : Place) : List Import :=
  ((place.node.trails [] place.parent).filter fun trail =>
    trail.above.all fun above => (lang.statementEntries source above).isEmpty).flatMap
      fun trail => lang.statementEntries source trail.place

theorem importsFrom_eq (place : Place) :
    lang.importsFrom source place =
      .ofList ((lang.outermostEntries source place).filter
        fun entry => !lang.isStandardPath entry.path) := by
  rw [importsFrom, Node.namedPlaces_eq_trails _ (List.all_nil), outermostEntries,
    List.flatMap_map]

/-- Nothing is looked for below a statement with imports. -/
theorem outermostEntries_of_ne_nil {place : Place} (hkind : place.node.isOneOf lang.importKinds)
    (hentries : lang.importEntries source place ≠ []) :
    lang.outermostEntries source place = lang.importEntries source place := by
  obtain ⟨⟨label, children⟩, parent⟩ := place
  have hhere : lang.statementEntries source ⟨.mk label children, parent⟩ =
      lang.importEntries source ⟨.mk label children, parent⟩ := if_pos hkind
  have hstop : (lang.statementEntries source ⟨.mk label children, parent⟩).isEmpty = false := by
    rw [hhere]
    simpa using hentries
  rw [outermostEntries, Node.trails, List.filter_cons, if_pos List.all_nil,
    Node.filter_trailsAll_of_stop hstop, List.flatMap_singleton, hhere]

/-- The path of a statement that has imports is the first of the paths found in it. -/
theorem importPath?_eq {place : Place} (hkind : place.node.isOneOf lang.importKinds)
    (hentries : lang.importEntries source place ≠ []) :
    lang.importPath? source place = (lang.importsFrom source place).paths.head? := by
  rw [importsFrom_eq, outermostEntries_of_ne_nil lang source hkind hentries,
    FileImports.paths_ofList, head?_eraseDups, List.head?_map, List.head?_filter, importPath?,
    List.find?_map]
  rfl

/-- The imports of a file are the normal form of what its statements give. Inserting imports one
after the other keeps each path once, in the order of first occurrence, with each of its names once,
in that order; an import that is there already changes nothing, and the names by path have all
entries, each under its path. A tree contributes the imports of the statements that are not below
another statement with imports, those of the standard library apart, and the path of a statement is
the first one found in it. -/
theorem imports_normalForm :
    (∀ entries : List Import,
      let imports := FileImports.ofList entries
      imports.paths = (entries.map (·.path)).eraseDups ∧ imports.paths.Nodup ∧
      (∀ entry ∈ imports.entries,
        entry.names = ((entries.filter (·.path == entry.path)).flatMap (·.names)).eraseDups ∧
        entry.names.Nodup) ∧
      (∀ path names, (path, names) ∈ imports.namesByPath ↔ ⟨path, names⟩ ∈ imports.entries) ∧
      (imports.namesByPath.map (·.1)).Perm imports.paths ∧
      imports.namesByPath.Pairwise (·.1 < ·.1) ∧
      ∀ entry ∈ entries, imports.insert entry = imports) ∧
    (∀ (lang : Language) (source : String) (root : Node),
      lang.imports source root = lang.importsFrom source ⟨root, none⟩) ∧
    (∀ (lang : Language) (source : String) (place : Place),
      (place.node.trails [] place.parent).map (·.place) =
        place.node.namedPlaces (fun _ => true) place.parent ∧
      lang.importsFrom source place =
        .ofList ((lang.outermostEntries source place).filter
          fun entry => !lang.isStandardPath entry.path)) ∧
    ∀ (lang : Language) (source : String) (place : Place),
      place.node.isOneOf lang.importKinds = true → lang.importEntries source place ≠ [] →
      lang.importPath? source place = (lang.importsFrom source place).paths.head? := by
  refine ⟨?_, fun _ _ _ => rfl, ?_, ?_⟩
  · intro entries imports
    have hpaths : imports.paths = (entries.map (·.path)).eraseDups :=
      FileImports.paths_ofList entries
    have hnodup : imports.paths.Nodup := by
      rw [hpaths]
      exact nodup_eraseDups _
    refine ⟨hpaths, hnodup, ?_, fun _ _ => FileImports.mem_namesByPath,
      FileImports.keys_namesByPath_perm imports, FileImports.pairwise_namesByPath hnodup, ?_⟩
    · intro entry hentry
      rw [show imports.entries = _ from FileImports.entries_ofList entries] at hentry
      obtain ⟨path, -, rfl⟩ := List.mem_map.1 hentry
      exact ⟨rfl, nodup_eraseDups _⟩
    · intro entry hentry
      exact FileImports.insert_of_mem hentry
  · intro lang source place
    exact ⟨Node.map_place_trails place.parent place.node, importsFrom_eq lang source place⟩
  · intro lang source place hkind hentries
    exact importPath?_eq lang source hkind hentries

/-- The statement `import 'x'`. -/
private def importStatement : Node :=
  Sample.construct 0 "import_statement" 0 10
    [Sample.token 1 "import" 0, Sample.construct 2 "string" 7 10 [] (some "source")]

/-- Importing a name again changes nothing, and the path of a statement is the first one found in
it. -/
theorem imports_normalForm_sample :
    (FileImports.ofList [⟨"a", ["x", "y"]⟩, ⟨"b", []⟩]).insert ⟨"a", ["x", "y"]⟩ =
      .ofList [⟨"a", ["x", "y"]⟩, ⟨"b", []⟩] ∧
    importStatement.isOneOf javaScript.importKinds = true ∧
    javaScript.importEntries "import 'x'" ⟨importStatement, none⟩ = [⟨"x", []⟩] ∧
    (javaScript.importsFrom "import 'x'" ⟨importStatement, none⟩).paths.head? = some "x" := by
  have hkind : importStatement.isOneOf javaScript.importKinds = true := by decide
  have hentries : javaScript.importEntries "import 'x'" ⟨importStatement, none⟩ = [⟨"x", []⟩] := by
    decide
  obtain ⟨hmerged, -, -, hpath⟩ := imports_normalForm
  refine ⟨?_, hkind, hentries, ?_⟩
  · obtain ⟨-, -, -, -, -, -, hinsert⟩ := hmerged [⟨"a", ["x", "y"]⟩, ⟨"b", []⟩]
    exact hinsert ⟨"a", ["x", "y"]⟩ List.mem_cons_self
  · rw [← hpath javaScript "import 'x'" ⟨importStatement, none⟩ hkind (by simp [hentries]),
      importPath?, hentries]
    rfl

end Language

end SourceChunks
