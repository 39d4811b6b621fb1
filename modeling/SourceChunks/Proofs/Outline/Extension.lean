-- SUMMARY: Languages that extend others: the symbols of the base are found again, unchanged and in order, and TypeScript so extends JavaScript.
import Mathlib.Data.List.Basic
import SourceChunks.Proofs.Chunk.Coverage
import SourceChunks.Proofs.Outline

/-!
# Extensions of languages

A language extends another if it gives new kinds of nodes a role and leaves the old roles alone.
The search for symbols then goes at least where it went before: each step becomes the same symbol
and comes to the same members, or to members where there were none. So the outline of the base is a
sublist of the outline of the extension.
-/

namespace SourceChunks

namespace Language

/-! ## Extensions -/

/-- `lang` gives some more kinds of nodes a role. Kinds that become targets or containers had no
role before, so nothing that `base` finds below them can be lost. -/
structure Extends (lang base : Language) : Prop where
  targets : base.targets ⊆ lang.targets
  containers : base.containers ⊆ lang.containers
  passThrough : base.passThrough ⊆ lang.passThrough
  fresh : ∀ kind ∈ lang.targets ++ lang.containers,
    kind ∈ base.targets ++ base.containers ∨ kind ∉ base.declarations ++ base.passThrough
  declarations : lang.declarations = base.declarations
  functionValues : lang.functionValues = base.functionValues
  rules : lang.rules = base.rules
  containerName : lang.containerName? = base.containerName?
  symbol : ∀ source place container, base.isTarget place.node = true →
    lang.symbol? source place container = base.symbol? source place container

namespace Extends

variable {lang base : Language} {source : String} {scope : Scope} {n : Node}

theorem isTarget (h : lang.Extends base) (hn : base.isTarget n = true) :
    lang.isTarget n = true := by
  simp only [Language.isTarget, Node.isOneOf, List.contains_iff_mem] at hn ⊢
  exact h.targets hn

theorem isContainer (h : lang.Extends base) (hn : base.isContainer n = true) :
    lang.isContainer n = true := by
  simp only [Language.isContainer, Node.isOneOf, List.contains_iff_mem] at hn ⊢
  exact h.containers hn

theorem isPassThrough (h : lang.Extends base) (hn : base.isPassThrough n = true) :
    lang.isPassThrough n = true := by
  simp only [Language.isPassThrough, Node.isOneOf, List.contains_iff_mem] at hn ⊢
  exact h.passThrough hn

theorem boundFunction?_eq (h : lang.Extends base) :
    lang.boundFunction? source n = base.boundFunction? source n := by
  rw [boundFunction?, boundFunction?, isDeclaration, isDeclaration, h.declarations,
    h.functionValues]

theorem measure_eq (h : lang.Extends base) : lang.measure = base.measure := by
  funext body symbol
  simp only [measure, h.rules]

/-- A node that is a target or a container of the extension only is ordinary text to the base. -/
theorem ignored (h : lang.Extends base) (source : String)
    (hlang : lang.isTarget n = true ∨ lang.isContainer n = true)
    (htarget : base.isTarget n = false) (hcontainer : base.isContainer n = false) :
    base.boundFunction? source n = none ∧ base.isPassThrough n = false := by
  simp only [Language.isTarget, Language.isContainer, Node.isOneOf, List.contains_iff_mem] at hlang
  have hnew : n.kind ∉ base.targets ++ base.containers := by
    simp only [Language.isTarget, Language.isContainer, Node.isOneOf, List.contains_eq_mem,
      decide_eq_false_iff_not] at htarget hcontainer
    simp [htarget, hcontainer]
  have hfree : n.kind ∉ base.declarations ++ base.passThrough :=
    (h.fresh n.kind (List.mem_append.2 hlang)).resolve_left hnew
  rw [List.mem_append, not_or] at hfree
  constructor
  · simp [boundFunction?, isDeclaration, Node.isOneOf, hfree.1]
  · simp [Language.isPassThrough, Node.isOneOf, hfree.2]

/-! ## Steps of the search -/

/-- What a place becomes in the base, it becomes in the extension. -/
theorem boundary?_eq_some (h : lang.Extends base) {boundary : Boundary}
    (hboundary : base.boundary? source scope = some boundary) :
    lang.boundary? source scope = some boundary := by
  unfold boundary? at hboundary ⊢
  dsimp only at hboundary ⊢
  split at hboundary
  · next htarget =>
    rw [if_pos (h.isTarget htarget), h.symbol _ _ _ htarget, h.measure_eq]
    exact hboundary
  · next htarget =>
    split at hboundary
    · simp at hboundary
    · next hcontainer =>
      obtain ⟨bound, hbound, rfl⟩ := Option.map_eq_some_iff.1 hboundary
      -- a node that binds a function is neither a target nor a container of the extension
      have hordinary : ¬ (lang.isTarget scope.place.node = true ∨
          lang.isContainer scope.place.node = true) := by
        intro hlang
        have hnone := (h.ignored source hlang (by simpa using htarget)
          (by simpa using hcontainer)).1
        rw [hnone] at hbound
        cases hbound
      rw [not_or] at hordinary
      rw [if_neg hordinary.1, if_neg hordinary.2, h.boundFunction?_eq, hbound, h.measure_eq]
      rfl

/-- Where the base searches on, the extension comes to the same places. -/
theorem members_eq (h : lang.Extends base) (hne : base.members source scope ≠ []) :
    base.members source scope = lang.members source scope := by
  unfold members at hne ⊢
  dsimp only at hne ⊢
  split at hne
  · next hcontainer =>
    rw [if_pos hcontainer, if_pos (h.isContainer hcontainer)]
    simp only [containerMembers, h.containerName]
  · next hcontainer =>
    rw [if_neg hcontainer]
    split at hne
    · exact absurd rfl hne
    · next hsymbol =>
      rw [if_neg hsymbol]
      split at hne
      · next hthrough =>
        rw [Bool.or_eq_true, not_or, Bool.not_eq_true] at hsymbol
        -- a node that is looked through is neither a target nor a container of the extension
        have hordinary : ¬ (lang.isTarget scope.place.node = true ∨
            lang.isContainer scope.place.node = true) := by
          intro hlang
          have hnone := (h.ignored source hlang hsymbol.1 (by simpa using hcontainer)).2
          rw [hnone] at hthrough
          cases hthrough
        rw [not_or] at hordinary
        rw [if_pos hthrough, if_neg hordinary.2, h.boundFunction?_eq,
          if_neg (by simpa [hordinary.1] using hsymbol.2), if_pos (h.isPassThrough hthrough)]
      · exact absurd rfl hne

/-! ## Whole outlines -/

private theorem flatMap_sublist {α β : Type} {items : List α} {f g : α → List β}
    (h : ∀ item ∈ items, (f item).Sublist (g item)) :
    (items.flatMap f).Sublist (items.flatMap g) := by
  induction items with
  | nil => exact .slnil
  | cons item items ih =>
      rw [List.flatMap_cons, List.flatMap_cons]
      exact (h item List.mem_cons_self).append
        (ih fun other hother => h other (List.mem_cons_of_mem _ hother))

theorem outlineFrom_sublist (h : lang.Extends base) (source : String) (scope : Scope) :
    (base.outlineFrom source scope).Sublist (lang.outlineFrom source scope) := by
  induction scope using outlineFrom.induct base source with
  | case1 scope ih =>
      rw [outlineFrom_eq base, outlineFrom_eq lang]
      apply List.Sublist.append
      · cases hboundary : base.boundary? source scope with
        | none => exact List.nil_sublist _
        | some boundary => rw [h.boundary?_eq_some hboundary]
      · by_cases hmembers : base.members source scope = []
        · rw [hmembers]
          exact List.nil_sublist _
        · rw [← h.members_eq hmembers]
          exact flatMap_sublist ih

theorem symbols_sublist (h : lang.Extends base) (source : String) (root : Node) :
    (base.symbols source root).Sublist (lang.symbols source root) :=
  (h.outlineFrom_sublist source _).map _

end Extends

/-- All that `base` finds in a file `lang` finds too: the symbols, unchanged and in order, among its
own, and the same imports, exports, calls and measures. -/
structure Preserves (lang base : Language) (source : String) (root : Node) : Prop where
  symbols : (base.symbols source root).Sublist (lang.symbols source root)
  imports : lang.imports source root = base.imports source root
  exports : lang.exports source root = base.exports source root
  calls : CallSite.ofNode lang.callKinds source root = CallSite.ofNode base.callKinds source root
  cyclomatic : Complexity.cyclomatic lang.rules root = Complexity.cyclomatic base.rules root
  cognitive : Complexity.cognitive lang.rules root = Complexity.cognitive base.rules root
  halstead : Halstead.ofNode lang.rules source root = Halstead.ofNode base.rules source root

/-! ## Other names for a language -/

/-- A language under another tag and with other file extensions. -/
def renamed (lang : Language) (tag : String) (extensions : List String) : Language :=
  { lang with tag, extensions }

variable (lang : Language) (tag : String) (extensions : List String)

theorem outlineFrom_renamed (source : String) (scope : Scope) :
    (lang.renamed tag extensions).outlineFrom source scope = lang.outlineFrom source scope := by
  induction scope using outlineFrom.induct lang source with
  | case1 scope ih =>
      rw [outlineFrom_eq lang, outlineFrom_eq]
      refine congrArg (_ ++ ·) ?_
      exact List.flatMap_congr ih

theorem outline_renamed (source : String) (root : Node) :
    (lang.renamed tag extensions).outline source root = lang.outline source root :=
  lang.outlineFrom_renamed tag extensions source _

theorem textRuns_renamed (source : String) (root : Node) :
    (lang.renamed tag extensions).textRuns source root = lang.textRuns source root := by
  simp only [textRuns, symbols, outline_renamed]

end Language

/-! ## Chunks of a renamed language -/

/-- A chunk of a file whose language has another tag. -/
def Chunk.tagged (tag : String) (chunk : Chunk) : Chunk :=
  { chunk with metadata := { chunk.metadata with language := tag } }

theorem Chunk.map_tagged_sorted (tag : String) (chunks : List Chunk) :
    (sorted chunks).map (tagged tag) = sorted (chunks.map (tagged tag)) :=
  List.map_mergeSort fun _ _ _ _ => rfl

namespace FileContext

variable (lang : Language) (tag : String) (extensions : List String) (root : Node)
  (source file : String) (options : Options)

theorem chunk_renamed (kind : ChunkKind) (range : LineRange) :
    (ofTree (lang.renamed tag extensions) root source file options).chunk kind range =
      ((ofTree lang root source file options).chunk kind range).tagged tag := by
  have himports : (ofTree (lang.renamed tag extensions) root source file options).imports =
      (ofTree lang root source file options).imports := rfl
  unfold FileContext.chunk Metadata.withImports
  rw [himports]
  split <;> rfl

theorem symbolChunks_renamed (boundary : Boundary) :
    (ofTree (lang.renamed tag extensions) root source file options).symbolChunks boundary =
      ((ofTree lang root source file options).symbolChunks boundary).map (Chunk.tagged tag) := by
  simp only [symbolChunks, List.map_map]
  refine List.map_congr_left fun window _ => ?_
  rw [chunk_renamed]
  rfl

theorem templateChunks_renamed (run : LineRange) :
    (ofTree (lang.renamed tag extensions) root source file options).templateChunks run =
      ((ofTree lang root source file options).templateChunks run).map (Chunk.tagged tag) := by
  simp only [templateChunks, List.map_map]
  refine List.map_congr_left fun window _ => ?_
  rw [chunk_renamed]
  rfl

end FileContext

/-- The chunks of a file differ in the tag only if the language does. -/
theorem Chunk.ofTree_renamed (lang : Language) (tag : String) (extensions : List String)
    (root : Node) (source file : String) (options : Options) :
    ofTree (lang.renamed tag extensions) root source file options =
      (ofTree lang root source file options).map (tagged tag) := by
  cases hsource : Text.isBlankText source with
  | true => simp [ofTree, hsource]
  | false =>
      rw [ofTree_eq _ root file options hsource, ofTree_eq lang root file options hsource]
      dsimp only
      rw [map_tagged_sorted, List.map_append, List.map_flatMap, List.map_flatMap,
        Language.outline_renamed, Language.textRuns_renamed]
      refine congrArg sorted (congrArg₂ (· ++ ·) ?_ ?_)
      · exact List.flatMap_congr fun boundary _ => FileContext.symbolChunks_renamed ..
      · exact List.flatMap_congr fun run _ => FileContext.templateChunks_renamed ..

/-! ## JavaScript and TypeScript -/

namespace Language

theorem TypeScript.addedKind?_eq_none {n : Node} (h : javaScript.isTarget n = true) :
    addedKind? n = none := by
  simp only [isTarget, Node.isOneOf, List.contains_iff_mem] at h
  unfold addedKind?
  split
  · next hkind => rw [hkind] at h; revert h; decide
  · next hkind => rw [hkind] at h; revert h; decide
  · next hkind => rw [hkind] at h; revert h; decide
  · next hkind => rw [hkind] at h; revert h; decide
  · rfl

theorem typeScript_extends : typeScript.Extends javaScript where
  targets := by decide
  containers := by decide
  passThrough := by decide
  fresh := by decide
  declarations := rfl
  functionValues := rfl
  rules := rfl
  containerName := rfl
  symbol source place container h := by
    change TypeScript.symbol? source place container = _
    rw [TypeScript.symbol?, TypeScript.addedKind?_eq_none h]

theorem typeScript_preserves (source : String) (root : Node) :
    typeScript.Preserves javaScript source root where
  symbols := typeScript_extends.symbols_sublist source root
  imports := rfl
  exports := rfl
  calls := rfl
  cyclomatic := rfl
  cognitive := rfl
  halstead := rfl

theorem tsx_eq : tsx = typeScript.renamed "tsx" ["tsx"] := rfl

/-- TypeScript extends JavaScript conservatively, with and without JSX: what JavaScript finds in a
tree is found again. The two forms of TypeScript differ in name only, down to the chunks. -/
theorem typeScript_conservative (source : String) (root : Node) :
    typeScript.Preserves javaScript source root ∧ tsx.Preserves javaScript source root ∧
    tsx = { typeScript with tag := tsx.tag, extensions := tsx.extensions } ∧
    tsx.outline source root = typeScript.outline source root ∧
    ∀ file options, Chunk.ofTree tsx root source file options =
      (Chunk.ofTree typeScript root source file options).map (Chunk.tagged tsx.tag) := by
  have houtline : tsx.outline source root = typeScript.outline source root := by
    rw [tsx_eq, outline_renamed]
  have hpreserves := typeScript_preserves source root
  refine ⟨hpreserves, { hpreserves with symbols := ?_ }, rfl, houtline, ?_⟩
  · rw [show tsx.symbols source root = typeScript.symbols source root from
      congrArg (List.map _) houtline]
    exact hpreserves.symbols
  · intro file options
    rw [tsx_eq, Chunk.ofTree_renamed]
    rfl

end Language

end SourceChunks
