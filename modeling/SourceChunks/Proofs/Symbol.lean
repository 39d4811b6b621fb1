-- SUMMARY: Symbols are well formed in every language: proper names and lines, short headers on one line, functions outside containers.
import SourceChunks.Proofs.Outline
import SourceChunks.Proofs.Text.Blank

/-!
# Well-formed symbols

Every language reads symbols in its own way, and functions that declarations bind are read in yet
another. On all these ways the name is the trimmed text of an identifier or a fixed word, the header
is normalised, and what is called a function has no container. The lines come from a node of the
tree and the complexity from measuring, whatever the language.
-/

namespace SourceChunks

/-! ## Signatures -/

namespace Signature

theorem fitting_isPrefix (room : Nat) (pieces : List (List Char)) :
    fitting room pieces <+: pieces := by
  induction pieces generalizing room with
  | nil => exact List.prefix_refl _
  | cons piece rest ih =>
      unfold fitting
      split
      · exact (List.prefix_cons_inj piece).2 (ih _)
      · exact ⟨_, rfl⟩

theorem length_flatten_fitting_le (room : Nat) (pieces : List (List Char)) :
    (fitting room pieces).flatten.length ≤ room := by
  induction pieces generalizing room with
  | nil => exact Nat.zero_le _
  | cons piece rest ih =>
      unfold fitting
      split
      · have := ih (room - piece.length)
        rw [List.flatten_cons, List.length_append]
        omega
      · exact Nat.zero_le _

/-- A normalised header is the beginning of the collapsed one. -/
theorem normalize_isPrefix (s : String) : (normalize s).toList <+: (Text.collapse s).toList := by
  unfold normalize normalizeBy
  dsimp only
  split
  · exact List.prefix_refl _
  · obtain ⟨rest, hrest⟩ :=
      fitting_isPrefix maxLength (Text.Grapheme.clusters (Text.collapse s).toList)
    refine ⟨rest.flatten, ?_⟩
    rw [String.toList_ofList, ← List.flatten_append, hrest, Text.Grapheme.flatten_clusters]

theorem length_normalize_le (s : String) : (normalize s).length ≤ maxLength := by
  unfold normalize normalizeBy
  dsimp only
  split
  · assumption
  · rw [String.length_ofList]
    exact length_flatten_fitting_le _ _

theorem singlySpaced_normalize (s : String) : Text.SinglySpaced (normalize s).toList :=
  (Text.singlySpaced_collapse s).of_isPrefix (normalize_isPrefix s)

end Signature

theorem Node.exists_signature_eq (source : String) (n owner : Node) :
    ∃ header, n.signature source owner = Signature.normalize header := by
  unfold signature
  exact ⟨_, rfl⟩

/-! ## Names -/

namespace Node

variable {source name : String} {n : Node}

theorem isName_of_simpleName? (h : n.simpleName? source = some name) : Text.IsName name := by
  obtain ⟨identifier, -, h⟩ := Option.bind_eq_some_iff.1 h
  dsimp only at h
  split at h
  · cases h
  · next hne =>
    rw [← Option.some.inj h]
    exact ⟨by simpa using hne, Text.trimmed_trim _⟩

theorem isName_of_declaredName? (h : n.declaredName? source = some name) : Text.IsName name := by
  obtain ⟨field, -, h⟩ := Option.bind_eq_some_iff.1 h
  exact isName_of_simpleName? h

end Node

theorem BoundFunction.isName_of_below? {kinds : List String} {source : String} {levels : Nat}
    {ancestors : List Node} {n : Node} {bound : BoundFunction}
    (h : below? kinds source levels ancestors n = some bound) : Text.IsName bound.name := by
  induction levels generalizing ancestors n with
  | zero => cases h
  | succ levels ih =>
      obtain ⟨child, -, h⟩ := List.exists_of_findSome?_eq_some h
      split at h
      · obtain ⟨name, hname, rfl⟩ := Option.map_eq_some_iff.1 h
        obtain ⟨ancestor, -, hname⟩ := List.exists_of_findSome?_eq_some hname
        obtain ⟨field, -, hname⟩ := List.exists_of_findSome?_eq_some hname
        obtain ⟨target, -, hname⟩ := Option.bind_eq_some_iff.1 hname
        split at hname
        · cases hname
        · exact Node.isName_of_simpleName? hname
      · exact ih h

/-! ## Symbols as languages read them -/

/-- A function is called so only outside of containers. -/
theorem SymbolKind.eq_none_of_ofFunction {container : Option String}
    (h : ofFunction container = .function) : container = none := by
  cases container with
  | none => rfl
  | some name => cases h

namespace Symbol

/-- What holds of a symbol before it is measured, whatever tree it was read from. -/
structure Proper (symbol : Symbol) : Prop where
  isName : Text.IsName symbol.name
  signature : ∃ header, symbol.signature = Signature.normalize header
  parentClass : symbol.kind = .function → symbol.parentClass = none

/-- Parameters and return type do not matter. -/
theorem Proper.setParameters {symbol : Symbol} (h : symbol.Proper) (parameters : List String) :
    { symbol with parameters }.Proper :=
  ⟨h.isName, h.signature, h.parentClass⟩

theorem Proper.setReturnType {symbol : Symbol} (h : symbol.Proper) (returnType : Option String) :
    { symbol with returnType }.Proper :=
  ⟨h.isName, h.signature, h.parentClass⟩

variable {source name : String} {n : Node} {kind : SymbolKind} {container : Option String}

theorem proper_ofNode (hname : Text.IsName name) (hkind : kind = .function → container = none) :
    (ofNode source n name kind container).Proper where
  isName := hname
  signature := by
    simp only [ofNode]
    exact n.exists_signature_eq source n
  parentClass := hkind

end Symbol

/-- Only outside of containers is a definition called a function. -/
theorem Definitions.eq_none_of_kind? {definitions : Definitions} {n : Node}
    {container : Option String} (h : definitions.kind? n container = some .function) :
    container = none := by
  unfold kind? at h
  split at h
  · cases h
  · split at h
    · cases h
    · split at h
      · exact SymbolKind.eq_none_of_ofFunction (Option.some.inj h)
      · cases h

theorem Definitions.proper_of_symbol? {definitions : Definitions} {source : String} {place : Place}
    {container : Option String} {symbol : Symbol}
    (h : definitions.symbol? source place container = some symbol) : symbol.Proper := by
  obtain ⟨kind, hkind, h⟩ := Option.bind_eq_some_iff.1 h
  obtain ⟨name, hname, rfl⟩ := Option.map_eq_some_iff.1 h
  have hproper : (Symbol.ofNode source place.node name kind container).Proper := by
    refine Symbol.proper_ofNode (Node.isName_of_declaredName? hname) ?_
    rintro rfl
    exact eq_none_of_kind? hkind
  dsimp only
  split
  · exact hproper.setReturnType _
  · exact hproper

theorem BoundFunction.proper_symbol {bound : BoundFunction} (hname : Text.IsName bound.name)
    (source : String) (declaration : Node) (container : Option String) :
    (bound.symbol source declaration container).Proper where
  isName := hname
  signature := by
    simp only [symbol]
    exact declaration.exists_signature_eq source bound.place.node
  parentClass := SymbolKind.eq_none_of_ofFunction

namespace Language

/-- All symbols that a language reads off places are proper. -/
def ReadsProperly (lang : Language) : Prop :=
  ∀ source place container symbol, lang.symbol? source place container = some symbol →
    symbol.Proper

theorem JavaScript.isName_anonymous : Text.IsName anonymous := by
  refine ⟨by decide, ?_, ?_⟩
  · intro c hfirst
    cases hfirst
    rfl
  · intro c hlast
    cases hlast
    rfl

theorem JavaScript.isName_getD_anonymous (source : String) (n : Node) :
    Text.IsName ((n.declaredName? source).getD anonymous) := by
  cases h : n.declaredName? source with
  | none => exact isName_anonymous
  | some name => exact Node.isName_of_declaredName? h

theorem JavaScript.proper_of_declaredName? {source : String} {n : Node} {container : Option String}
    {name : String} {kind other : SymbolKind}
    (h : (n.declaredName? source).map (·, kind) = some (name, other))
    (hkind : kind = .function → container = none) :
    Text.IsName name ∧ (other = .function → container = none) := by
  obtain ⟨declared, hname, heq⟩ := Option.map_eq_some_iff.1 h
  obtain ⟨rfl, rfl⟩ := Prod.mk.inj heq
  exact ⟨Node.isName_of_declaredName? hname, hkind⟩

theorem JavaScript.proper_nameAndKind? {source : String} {n : Node} {container : Option String}
    {name : String} {kind : SymbolKind} (h : nameAndKind? source n container = some (name, kind)) :
    Text.IsName name ∧ (kind = .function → container = none) := by
  unfold nameAndKind? at h
  split at h
  · exact proper_of_declaredName? h nofun
  · obtain ⟨rfl, rfl⟩ := Prod.mk.inj (Option.some.inj h)
    exact ⟨isName_getD_anonymous source n, nofun⟩
  · exact proper_of_declaredName? h nofun
  · exact proper_of_declaredName? h SymbolKind.eq_none_of_ofFunction
  · exact proper_of_declaredName? h SymbolKind.eq_none_of_ofFunction
  · split at h
    · obtain ⟨rfl, rfl⟩ := Prod.mk.inj (Option.some.inj h)
      exact ⟨isName_getD_anonymous source n, SymbolKind.eq_none_of_ofFunction⟩
    · cases h

theorem javaScript_readsProperly : javaScript.ReadsProperly := by
  intro source place container symbol h
  obtain ⟨⟨name, kind⟩, hread, rfl⟩ := Option.map_eq_some_iff.1 h
  obtain ⟨hname, hkind⟩ := JavaScript.proper_nameAndKind? hread
  dsimp only
  split
  · exact (Symbol.proper_ofNode hname hkind).setParameters _
  · exact Symbol.proper_ofNode hname hkind

theorem typeScript_readsProperly : typeScript.ReadsProperly := by
  intro source place container symbol h
  change TypeScript.symbol? source place container = some symbol at h
  unfold TypeScript.symbol? at h
  split at h
  · next kind hadded =>
    obtain ⟨name, hname, rfl⟩ := Option.map_eq_some_iff.1 h
    refine Symbol.proper_ofNode (Node.isName_of_declaredName? hname) ?_
    rintro rfl
    -- none of the added kinds is a function
    unfold TypeScript.addedKind? at hadded
    split at hadded <;> cases hadded
  · exact javaScript_readsProperly source place container symbol h

theorem python_readsProperly : python.ReadsProperly := by
  intro source place container symbol h
  change Python.symbol? source place container = some symbol at h
  unfold Python.symbol? at h
  dsimp only at h
  split at h
  · obtain ⟨name, hname, rfl⟩ := Option.map_eq_some_iff.1 h
    refine (Symbol.proper_ofNode (Node.isName_of_declaredName? hname) ?_).setParameters _
    nofun
  · obtain ⟨name, hname, rfl⟩ := Option.map_eq_some_iff.1 h
    exact Symbol.proper_ofNode (Node.isName_of_declaredName? hname)
      SymbolKind.eq_none_of_ofFunction
  · cases h

theorem readsProperly_of_definitions {lang : Language} {definitions : Definitions}
    (h : lang.symbol? = definitions.symbol?) : lang.ReadsProperly := by
  intro source place container symbol hread
  rw [h] at hread
  exact Definitions.proper_of_symbol? hread

/-- A method of Go has the type of its receiver as container, but is never called a function. -/
theorem go_readsProperly : go.ReadsProperly := by
  intro source place container symbol h
  change Go.symbol? source place container = some symbol at h
  unfold Go.symbol? at h
  dsimp only at h
  split at h
  · obtain ⟨name, hname, rfl⟩ := Option.map_eq_some_iff.1 h
    exact (Symbol.proper_ofNode (Node.isName_of_declaredName? hname)
      SymbolKind.eq_none_of_ofFunction).setReturnType _
  · obtain ⟨name, hname, rfl⟩ := Option.map_eq_some_iff.1 h
    refine (Symbol.proper_ofNode (Node.isName_of_declaredName? hname) ?_).setReturnType _
    nofun
  · obtain ⟨kind, hkind, h⟩ := Option.bind_eq_some_iff.1 h
    obtain ⟨name, hname, rfl⟩ := Option.map_eq_some_iff.1 h
    obtain ⟨type, -, hkind⟩ := Option.bind_eq_some_iff.1 hkind
    refine Symbol.proper_ofNode (Node.isName_of_declaredName? hname) ?_
    rintro rfl
    unfold Go.typeKind? at hkind
    split at hkind <;> cases hkind
  · cases h

theorem readsProperly_of_mem_all {lang : Language} (h : lang ∈ all) : lang.ReadsProperly := by
  simp only [all, List.mem_cons, List.not_mem_nil, or_false] at h
  rcases h with rfl | rfl | rfl | rfl | rfl | rfl | rfl | rfl | rfl
  · exact javaScript_readsProperly
  · exact typeScript_readsProperly
  · exact typeScript_readsProperly
  · exact python_readsProperly
  · exact readsProperly_of_definitions rfl
  · exact readsProperly_of_definitions rfl
  · exact go_readsProperly
  · exact readsProperly_of_definitions rfl
  · exact readsProperly_of_definitions rfl

end Language

/-! ## Symbols of a file -/

/-- A symbol as callers may rely on it. -/
structure Symbol.WellFormed (symbol : Symbol) : Prop where
  name_ne_empty : symbol.name ≠ ""
  name_trimmed : Text.Trimmed symbol.name
  one_le_startLine : 1 ≤ symbol.startLine
  startLine_le_endLine : symbol.startLine ≤ symbol.endLine
  length_signature_le : symbol.signature.length ≤ 200
  signature_singlySpaced : Text.SinglySpaced symbol.signature.toList
  one_le_complexity : 1 ≤ symbol.complexity
  parentClass_of_function : symbol.kind = .function → symbol.parentClass = none

namespace Language

variable {lang : Language} {source : String} {root : Node}

theorem isName_of_boundFunction? {n : Node} {bound : BoundFunction}
    (h : lang.boundFunction? source n = some bound) : Text.IsName bound.name := by
  unfold boundFunction? at h
  split at h
  · exact BoundFunction.isName_of_below? h
  · cases h

theorem proper_measure (lang : Language) (body : Place) {symbol : Symbol} (h : symbol.Proper) :
    (lang.measure body symbol).symbol.Proper ∧ 1 ≤ (lang.measure body symbol).symbol.complexity :=
  ⟨⟨h.isName, h.signature, h.parentClass⟩, Complexity.one_le_cyclomatic _ _⟩

theorem ReadsProperly.proper_boundary? (h : lang.ReadsProperly) {scope : Scope}
    {boundary : Boundary} (hboundary : lang.boundary? source scope = some boundary) :
    boundary.symbol.Proper ∧ 1 ≤ boundary.symbol.complexity := by
  unfold boundary? at hboundary
  dsimp only at hboundary
  split at hboundary
  · obtain ⟨symbol, hsymbol, rfl⟩ := Option.map_eq_some_iff.1 hboundary
    exact lang.proper_measure _ (h _ _ _ symbol hsymbol)
  · split at hboundary
    · cases hboundary
    · obtain ⟨bound, hbound, rfl⟩ := Option.map_eq_some_iff.1 hboundary
      exact lang.proper_measure _ (bound.proper_symbol (isName_of_boundFunction? hbound) ..)

/-- The symbols of a well-formed tree are well formed, in every language. -/
theorem wellFormed_of_mem_symbols (hlang : lang ∈ all) (hform : root.WellFormed source)
    {symbol : Symbol} (h : symbol ∈ lang.symbols source root) : symbol.WellFormed := by
  obtain ⟨boundary, hboundary, rfl⟩ := List.mem_map.1 h
  obtain ⟨scope, hvisits, hboundary⟩ := mem_outline_iff.1 hboundary
  obtain ⟨hproper, hcomplexity⟩ := (readsProperly_of_mem_all hlang).proper_boundary? hboundary
  obtain ⟨owner, howner⟩ := exists_owner hlang hvisits.inTree hboundary
  obtain ⟨hfirst, hlast⟩ := howner.spans
  obtain ⟨header, hheader⟩ := hproper.signature
  refine ⟨hproper.isName.1, hproper.isName.2, ?_, ?_, ?_, ?_, hcomplexity, hproper.parentClass⟩
  · rw [hfirst]
    exact Nat.le_add_left 1 _
  · rw [hfirst, hlast]
    exact Node.startLine_le_endLine (hform owner howner.mem).2.2.1
  · rw [hheader]
    exact Signature.length_normalize_le header
  · rw [hheader]
    exact Signature.singlySpaced_normalize header

/-- The function of the sample is a symbol, and as its tree is well formed, so is the symbol. -/
theorem wellFormed_of_mem_symbols_sample : Sample.tree.WellFormed Sample.text ∧
    ∃ symbol ∈ rust.symbols Sample.text Sample.tree,
      symbol.name = "f" ∧ symbol.kind = .function ∧ symbol.WellFormed := by
  have hform : Sample.tree.WellFormed Sample.text := by decide
  let place : Scope := ⟨⟨Sample.tree.namedChildren.headD default, some Sample.tree⟩, none⟩
  have hmember : place ∈ rust.members Sample.text ⟨⟨Sample.tree, none⟩, none⟩ :=
    List.mem_cons_self
  obtain ⟨boundary, hboundary, hname, hkind⟩ : ∃ boundary,
      rust.boundary? Sample.text place = some boundary ∧ boundary.symbol.name = "f" ∧
        boundary.symbol.kind = .function :=
    ⟨_, rfl, by decide, by decide⟩
  have hmem : boundary ∈ rust.outline Sample.text Sample.tree :=
    mem_outline_iff.2 ⟨place, .step hmember (.refl _), hboundary⟩
  have hsymbol : boundary.symbol ∈ rust.symbols Sample.text Sample.tree :=
    List.mem_map_of_mem hmem
  exact ⟨hform, boundary.symbol, hsymbol, hname, hkind,
    wellFormed_of_mem_symbols (by simp [all]) hform hsymbol⟩

end Language

end SourceChunks
