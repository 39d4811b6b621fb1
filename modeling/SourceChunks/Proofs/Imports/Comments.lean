-- SUMMARY: Comments do not change the imports of a file, wherever the readers of imports look past them.
import SourceChunks.Language.Registry
import SourceChunks.Proofs.Comments
import SourceChunks.Proofs.Imports

/-!
# Imports and comments

Imports are read from constructs by field, by kind, by position, or from their text as it stands.
Comments are looked past by the first two ways, not by the others. This module says for each
language where it reads by position or by text, and that comments anywhere else change nothing.
-/

namespace SourceChunks

/-! ## Where comments would be read -/

/-- Where a reader of imports does not look past comments: in the parts of a node that it reads as
they stand, and among the nodes that it picks by their position. -/
structure CommentRule where
  parts : Node → List Node
  picks : String → Node → List Node := fun _ _ => []

/-- No comment in a tree stands where it would be read. -/
structure CommentRule.Obeyed (rule : CommentRule) (source : String) (root : Node) : Prop where
  silent : ∀ n ∈ root.preorder, ∀ part ∈ rule.parts n, part.Silent
  picks : ∀ n ∈ root.preorder, ∀ pick ∈ rule.picks source n, pick.isComment = false

namespace Language

/-- Whether the call of a function imports: the function is `require` or a dynamic import. -/
def JavaScript.isImportFunction (source : String) (function : Node) : Bool :=
  function.kind == "import" || (function.kind == "identifier" && function.text source == "require")

/-- In JavaScript, names and strings are read as they stand, and the path of a call of `require` or
of a dynamic import is its first argument. -/
def JavaScript.commentRule : CommentRule where
  parts n :=
    match n.kind with
    | "identifier" | "string" | "shorthand_property_identifier_pattern" => [n]
    | "import_statement" | "import_require_clause" => (n.field? "source").toList
    | "import_specifier" => (n.field? "alias").toList ++ (n.field? "name").toList
    | "pair_pattern" =>
      ((n.field? "value").filter
        (!·.isOneOf ["object_pattern", "array_pattern", "assignment_pattern"])).toList
    | _ => []
  picks source n :=
    if (n.field? "function").any (isImportFunction source) then
      ((n.field? "arguments").bind (·.namedChildren.head?)).toList
    else []

/-- In Python, module paths and names are read as they stand. -/
def Python.commentRule : CommentRule where
  parts n :=
    match n.kind with
    | "import_statement" | "import_from_statement" =>
      (n.field? "module_name").toList
        ++ (n.fieldChildren "name").filter (·.kind != "aliased_import")
    | "aliased_import" => (n.field? "name").toList ++ (n.field? "alias").toList
    | _ => []

/-- In Go, the path and the name of an import are read as they stand. -/
def Go.commentRule : CommentRule where
  parts n :=
    if n.kind = "import_spec" then (n.field? "path").toList ++ (n.field? "name").toList else []

/-- Whether a use tree is a path, with nothing to be looked for inside. -/
def Rust.isUsePath (tree : Node) : Bool :=
  !tree.isOneOf ["use_list", "scoped_use_list", "use_as_clause", "use_wildcard"]

/-- In Rust, paths are read as they stand, every item of a use list is taken for a use tree, and the
path of a wildcard is its first child. -/
def Rust.commentRule : CommentRule where
  parts n :=
    match n.kind with
    | "use_declaration" => (n.field? "argument").toList.filter isUsePath
    | "use_list" => n.namedChildren.filter isUsePath
    | "scoped_use_list" =>
      (n.field? "path").toList ++ (n.field? "list").toList.filter isUsePath
    | "use_as_clause" => (n.field? "path").toList ++ (n.field? "alias").toList
    | "use_wildcard" => n.namedChildren.head?.toList
    | _ => []
  picks _ n :=
    match n.kind with
    | "use_list" => n.namedChildren
    | "use_wildcard" => n.namedChildren.head?.toList
    | _ => []

/-- Import statements of which the whole text is read. -/
def statementRule (lang : Language) : CommentRule where
  parts n := if n.isOneOf lang.importKinds then [n] else []

/-- Every language with where comments would be read along with its imports. -/
def commentRules : List (Language × CommentRule) :=
  [(javaScript, JavaScript.commentRule), (typeScript, JavaScript.commentRule),
   (tsx, JavaScript.commentRule), (python, Python.commentRule), (php, php.statementRule),
   (rust, Rust.commentRule), (go, Go.commentRule), (java, java.statementRule),
   (cSharp, cSharp.statementRule)]

theorem map_fst_commentRules : commentRules.map (·.1) = all :=
  rfl

theorem mem_all_of_mem_commentRules {lang : Language} {rule : CommentRule}
    (h : (lang, rule) ∈ commentRules) : lang ∈ all := by
  rw [← map_fst_commentRules]
  exact List.mem_map_of_mem h

end Language

/-! ## Nodes that are read alike -/

namespace CommentRule.Obeyed

variable {rule : CommentRule} {source : String} {n : Node}

theorem of_mem_preorder (h : rule.Obeyed source n) {d : Node} (hd : d ∈ n.preorder) :
    rule.Obeyed source d where
  silent m hm := h.silent m (Node.mem_preorder_trans hm hd)
  picks m hm := h.picks m (Node.mem_preorder_trans hm hd)

theorem silent_of_mem_parts (h : rule.Obeyed source n) {part : Node} (hpart : part ∈ rule.parts n) :
    part.Silent :=
  h.silent n (Node.self_mem_preorder n) part hpart

theorem isComment_of_mem_picks (h : rule.Obeyed source n) {pick : Node}
    (hpick : pick ∈ rule.picks source n) : pick.isComment = false :=
  h.picks n (Node.self_mem_preorder n) pick hpick

end CommentRule.Obeyed

/-- Two nodes that are equal up to comments, none of which would be read. -/
structure Twins (rule : CommentRule) (source source' : String) (n n' : Node) : Prop where
  eqUpToComments : Node.EqUpToComments source source' n n'
  obeyed : rule.Obeyed source n
  obeyed' : rule.Obeyed source' n'

namespace Twins

variable {rule : CommentRule} {source source' : String} {n n' : Node}

theorem kind_eq (h : Twins rule source source' n n') : n.kind = n'.kind :=
  h.eqUpToComments.kind_eq

theorem isOneOf_eq (h : Twins rule source source' n n') (kinds : List String) :
    n.isOneOf kinds = n'.isOneOf kinds := by
  rw [Node.isOneOf, h.kind_eq, Node.isOneOf]

theorem rel_field? (h : Twins rule source source' n n') (name : String) :
    Option.Rel (fun c c' => Twins rule source source' c c' ∧ n.field? name = some c ∧
      n'.field? name = some c') (n.field? name) (n'.field? name) := by
  refine rel_of_eq_some (h.eqUpToComments.rel_field? name) ?_
  intro c c' hc hc' heq
  exact ⟨⟨heq, h.obeyed.of_mem_preorder (Node.mem_preorder_of_field? hc),
    h.obeyed'.of_mem_preorder (Node.mem_preorder_of_field? hc')⟩, hc, hc'⟩

/-- Children that are equal up to comments are twins. -/
theorem forall₂_of_children (h : Twins rule source source' n n') {cs cs' : List Node}
    (hcs : cs ⊆ n.children) (hcs' : cs' ⊆ n'.children)
    (heq : List.Forall₂ (Node.EqUpToComments source source') cs cs') :
    List.Forall₂ (Twins rule source source') cs cs' := by
  refine forall₂_of_mem heq ?_
  intro c hc c' hc' heq
  exact ⟨heq, h.obeyed.of_mem_preorder (Node.mem_preorder_of_mem_children (hcs hc)),
    h.obeyed'.of_mem_preorder (Node.mem_preorder_of_mem_children (hcs' hc'))⟩

theorem forall₂_fieldChildren (h : Twins rule source source' n n') (name : String) :
    List.Forall₂ (Twins rule source source') (n.fieldChildren name) (n'.fieldChildren name) :=
  h.forall₂_of_children (List.filter_subset_self _) (List.filter_subset_self _)
    (h.eqUpToComments.forall₂_fieldChildren name)

theorem forall₂_constructs (h : Twins rule source source' n n') :
    List.Forall₂ (Twins rule source source') n.constructs n'.constructs :=
  h.forall₂_of_children n.constructs_subset n'.constructs_subset h.eqUpToComments.forall₂_constructs

theorem rel_head?_namedChildren (h : Twins rule source source' n n')
    (hn : ∀ first ∈ n.namedChildren.head?, first.isComment = false)
    (hn' : ∀ first ∈ n'.namedChildren.head?, first.isComment = false) :
    Option.Rel (Twins rule source source') n.namedChildren.head? n'.namedChildren.head? := by
  rw [← Node.head?_constructs hn, ← Node.head?_constructs hn']
  exact rel_head? h.forall₂_constructs

/-- Named children of a kind that is not the kind of a comment. -/
theorem forall₂_ofKind (h : Twins rule source source' n n') {kind : String}
    (hkind : Text.holds "comment" kind = false) :
    List.Forall₂ (fun c c' => Twins rule source source' c c' ∧ c.kind = kind)
      (n.namedChildren.filter (·.kind == kind)) (n'.namedChildren.filter (·.kind == kind)) := by
  have hfilter (m : Node) :
      m.namedChildren.filter (·.kind == kind) = m.constructs.filter (·.kind == kind) := by
    rw [Node.constructs, List.filter_filter]
    refine List.filter_congr fun c _ => ?_
    by_cases hc : c.kind = kind <;> simp [hc, Node.isComment, hkind]
  rw [hfilter n, hfilter n']
  refine forall₂_of_mem (forall₂_filter h.forall₂_constructs fun c c' hc => ?_) ?_
  · rw [hc.kind_eq]
  · intro c hc c' _ htwins
    exact ⟨htwins, by simpa using (List.mem_filter.1 hc).2⟩

theorem any_ofKind (h : Twins rule source source' n n') {kind : String}
    (hkind : Text.holds "comment" kind = false) :
    n.namedChildren.any (·.kind == kind) = n'.namedChildren.any (·.kind == kind) := by
  have hlength := (h.forall₂_ofKind hkind).length_eq
  rw [Bool.eq_iff_iff, List.any_eq_true, List.any_eq_true, ← List.length_filter_pos_iff,
    ← List.length_filter_pos_iff, hlength]

/-- What is read from named children one by one, nothing from comments. -/
theorem flatMap_namedChildren {γ : Type} (h : Twins rule source source' n n')
    {f g : Node → List γ} (hf : ∀ c ∈ n.namedChildren, c.isComment = true → f c = [])
    (hg : ∀ c ∈ n'.namedChildren, c.isComment = true → g c = [])
    (hfg : ∀ c ∈ n.namedChildren, ∀ c', Twins rule source source' c c' → f c = g c') :
    n.namedChildren.flatMap f = n'.namedChildren.flatMap g := by
  rw [← flatMap_filter_of_eq_nil (p := (!·.isComment)) fun c hc hcomment =>
      hf c hc (by simpa using hcomment),
    ← flatMap_filter_of_eq_nil (p := (!·.isComment)) fun c hc hcomment =>
      hg c hc (by simpa using hcomment)]
  refine flatMap_eq_of_forall₂ (forall₂_of_mem h.forall₂_constructs
    fun c hc c' _ htwins => And.intro (List.mem_filter.1 hc).1 htwins) ?_
  rintro c c' ⟨hc, htwins⟩
  exact hfg c hc c' htwins

/-- A part that is read as it stands is the same in both trees. -/
theorem same_of_mem_parts (h : Twins rule source source' n n') {part part' : Node}
    (heq : Node.EqUpToComments source source' part part') (hpart : part ∈ rule.parts n)
    (hpart' : part' ∈ rule.parts n') : Node.Same source source' part part' where
  eqUpToComments := heq
  silent := h.obeyed.silent_of_mem_parts hpart
  silent' := h.obeyed'.silent_of_mem_parts hpart'

/-- A node that is read as it stands is the same in both trees. -/
theorem same (h : Twins rule source source' n n')
    (hpart : ∀ m : Node, m.kind = n.kind → m ∈ rule.parts m) : Node.Same source source' n n' :=
  h.same_of_mem_parts h.eqUpToComments (hpart n rfl) (hpart n' h.kind_eq.symm)

/-- A field that is read as it stands answers with the same node in both trees. -/
theorem rel_field?_same (h : Twins rule source source' n n') (name : String)
    (hpart : ∀ m c : Node, m.kind = n.kind → m.field? name = some c → c ∈ rule.parts m) :
    Option.Rel (Node.Same source source') (n.field? name) (n'.field? name) := by
  refine rel_of_eq_some (h.eqUpToComments.rel_field? name) ?_
  intro c c' hc hc' heq
  exact h.same_of_mem_parts heq (hpart n c rfl hc) (hpart n' c' h.kind_eq.symm hc')

theorem fieldText?_eq (h : Twins rule source source' n n') (name : String)
    (hpart : ∀ m c : Node, m.kind = n.kind → m.field? name = some c → c ∈ rule.parts m) :
    n.fieldText? source name = n'.fieldText? source' name := by
  refine bind_eq_of_rel (h.rel_field?_same name hpart) fun c c' hc => ?_
  rw [hc.text_eq]

end Twins

namespace Language

variable {source source' : String} {n n' : Node}

/-! ## JavaScript -/

namespace JavaScript

theorem text_eq_of_twins (h : Twins commentRule source source' n n')
    (hkind : n.kind = "identifier" ∨ n.kind = "string" ∨
      n.kind = "shorthand_property_identifier_pattern") :
    n.text source = n'.text source' := by
  refine (h.same ?_).text_eq
  intro m hm
  rcases hkind with hkind | hkind | hkind <;> simp [commentRule, hm, hkind]

theorem identifierTexts_eq (h : Twins commentRule source source' n n') :
    identifierTexts source n = identifierTexts source' n' := by
  rw [identifierTexts, identifierTexts, List.map_eq_flatMap, List.map_eq_flatMap]
  refine flatMap_eq_of_forall₂ (h.forall₂_ofKind (by decide)) ?_
  rintro c c' ⟨hc, hkind⟩
  rw [text_eq_of_twins hc (.inl hkind)]

theorem specifierName?_eq (h : Twins commentRule source source' n n')
    (hkind : n.kind = "import_specifier") :
    specifierName? source n = specifierName? source' n' := by
  refine map_eq_of_rel (rel_or (h.rel_field?_same "alias" ?_) (h.rel_field?_same "name" ?_)) ?_
  · intro m c hm hc
    simp [commentRule, hm, hkind, hc]
  · intro m c hm hc
    simp [commentRule, hm, hkind, hc]
  · intro c c' hc
    rw [hc.text_eq]

theorem clausePartNames_eq (h : Twins commentRule source source' n n') :
    clausePartNames source n = clausePartNames source' n' := by
  unfold clausePartNames
  rw [h.kind_eq]
  split
  · next hkind => rw [text_eq_of_twins h (.inl (h.kind_eq.trans hkind))]
  · exact identifierTexts_eq h
  · exact filterMap_eq_of_forall₂ (h.forall₂_ofKind (by decide))
      fun c c' hc => specifierName?_eq hc.1 hc.2
  · rfl

theorem clausePartNames_of_isComment (h : n.isComment = true) : clausePartNames source n = [] := by
  unfold clausePartNames
  split <;> first
    | rfl
    | exact absurd ‹n.kind = _› (Node.kind_ne_of_isComment h (by decide))

theorem statementPartNames_eq (h : Twins commentRule source source' n n') :
    statementPartNames source n = statementPartNames source' n' := by
  unfold statementPartNames
  rw [h.kind_eq]
  split
  · exact h.flatMap_namedChildren (fun _ _ => clausePartNames_of_isComment)
      (fun _ _ => clausePartNames_of_isComment) fun _ _ _ => clausePartNames_eq
  · exact identifierTexts_eq h
  · rfl

theorem statementPartNames_of_isComment (h : n.isComment = true) :
    statementPartNames source n = [] := by
  unfold statementPartNames
  split <;> first
    | rfl
    | exact absurd ‹n.kind = _› (Node.kind_ne_of_isComment h (by decide))

theorem rel_source (h : Twins commentRule source source' n n')
    (hkind : n.kind = "import_statement" ∨ n.kind = "import_require_clause") :
    Option.Rel (Node.Same source source') (n.field? "source") (n'.field? "source") := by
  refine h.rel_field?_same "source" ?_
  intro m c hm hc
  rcases hkind with hkind | hkind <;> simp [commentRule, hm, hkind, hc]

theorem moduleImport?_eq (h : Twins commentRule source source' n n')
    (hkind : n.kind = "import_statement") : moduleImport? source n = moduleImport? source' n' := by
  unfold moduleImport?
  rw [← List.head?_filter, ← List.head?_filter]
  have hrequired := rel_head? (h.forall₂_ofKind (show Text.holds "comment" "import_require_clause"
    = false by decide))
  refine map_eq_of_rel (rel_or (rel_source h (.inl hkind)) (rel_bind hrequired ?_)) ?_
  · rintro c c' ⟨hc, hkind⟩
    exact rel_source hc (.inr hkind)
  · intro path path' hpath
    have hnames := h.flatMap_namedChildren (fun _ _ => statementPartNames_of_isComment)
      (fun _ _ => statementPartNames_of_isComment) fun _ _ _ => statementPartNames_eq
    rw [hpath.text_eq, hnames]

/-- A pattern is not a name. -/
theorem simpleName?_of_isPattern
    (h : n.isOneOf ["object_pattern", "array_pattern", "assignment_pattern"] = true) :
    n.simpleName? source = none := by
  simp only [Node.isOneOf, List.contains_cons, List.contains_nil, Bool.or_false, Bool.or_eq_true,
    beq_iff_eq] at h
  have hidentifier : n.isIdentifier = false := by
    rw [Node.isIdentifier, Node.isOneOf]
    rcases h with h | h | h <;> (rw [h]; decide)
  have hstep : n.nameStep? = none := by
    rcases h with h | h | h <;> (rw [Node.nameStep?, h]; rfl)
  rw [Node.simpleName?, Node.nameNode?, Node.maxNameSteps, Node.nameWithin?, hidentifier,
    if_neg Bool.false_ne_true, hstep]
  rfl

theorem propertyName?_eq (h : Twins commentRule source source' n n') :
    propertyName? source n = propertyName? source' n' := by
  unfold propertyName?
  rw [h.kind_eq]
  split
  · next hkind => rw [text_eq_of_twins h (.inr (.inr (h.kind_eq.trans hkind)))]
  · next hkind =>
    refine bind_eq_of_rel (h.rel_field? "value") ?_
    rintro value value' ⟨htwins, hvalue, hvalue'⟩
    by_cases hpattern :
        value.isOneOf ["object_pattern", "array_pattern", "assignment_pattern"] = true
    · rw [simpleName?_of_isPattern hpattern,
        simpleName?_of_isPattern (htwins.isOneOf_eq _ ▸ hpattern)]
    · have hpattern' := htwins.isOneOf_eq _ ▸ hpattern
      refine (h.same_of_mem_parts htwins.eqUpToComments ?_ ?_).simpleName?_eq
      · simp [commentRule, h.kind_eq.trans hkind, hvalue, hpattern]
      · simp [commentRule, hkind, hvalue', hpattern']
  · rfl

theorem propertyName?_of_isComment (h : n.isComment = true) : propertyName? source n = none := by
  unfold propertyName?
  split <;> first
    | rfl
    | exact absurd ‹n.kind = _› (Node.kind_ne_of_isComment h (by decide))

/-- The names that the result of a call is bound to stand in the node around it. -/
theorem requireNames_eq {place place' : Place}
    (h : Option.Rel (Twins commentRule source source') place.parent place'.parent) :
    requireNames source place = requireNames source' place' := by
  have hname : Option.Rel (Twins commentRule source source')
      ((place.parent.filter (·.kind == "variable_declarator")).bind (·.field? "name"))
      ((place'.parent.filter (·.kind == "variable_declarator")).bind (·.field? "name")) := by
    refine rel_bind (rel_filter h fun c c' hc => by rw [hc.kind_eq]) ?_
    rintro c c' ⟨hc, -⟩
    exact rel_of_eq_some (hc.rel_field? "name") fun _ _ _ _ htwins => htwins.1
  unfold requireNames
  revert hname
  generalize (place.parent.filter _).bind _ = name
  generalize (place'.parent.filter _).bind _ = name'
  intro hname
  cases hname with
  | none => rfl
  | @some pattern pattern' htwins =>
      dsimp only
      rw [htwins.kind_eq]
      split
      · next hkind => rw [text_eq_of_twins htwins (.inl (htwins.kind_eq.trans hkind))]
      · rw [List.filterMap_eq_flatMap_toList, List.filterMap_eq_flatMap_toList]
        refine htwins.flatMap_namedChildren ?_ ?_ ?_
        · intro c _ hc
          rw [propertyName?_of_isComment hc, Option.toList_none]
        · intro c _ hc
          rw [propertyName?_of_isComment hc, Option.toList_none]
        · intro c _ c' hc
          rw [propertyName?_eq hc]
      · rfl

/-- The first argument of a call that imports is no comment. -/
theorem rel_argument {function function' : Node} (h : Twins commentRule source source' n n')
    (hfunction : n.field? "function" = some function)
    (hfunction' : n'.field? "function" = some function')
    (hcall : isImportFunction source function = true)
    (hcall' : isImportFunction source' function' = true) :
    Option.Rel (Twins commentRule source source')
      ((n.field? "arguments").bind (·.namedChildren.head?))
      ((n'.field? "arguments").bind (·.namedChildren.head?)) := by
  refine rel_bind (h.rel_field? "arguments") ?_
  rintro list list' ⟨htwins, hlist, hlist'⟩
  refine htwins.rel_head?_namedChildren ?_ ?_
  · intro first hfirst
    refine h.obeyed.isComment_of_mem_picks ?_
    simpa [commentRule, hfunction, hcall, hlist] using hfirst
  · intro first hfirst
    refine h.obeyed'.isComment_of_mem_picks ?_
    simpa [commentRule, hfunction', hcall', hlist'] using hfirst

theorem callImport?_eq {place place' : Place}
    (hnode : Twins commentRule source source' place.node place'.node)
    (hparent : Option.Rel (Twins commentRule source source') place.parent place'.parent) :
    callImport? source place = callImport? source' place' := by
  refine bind_eq_of_rel (hnode.rel_field? "function") ?_
  rintro function function' ⟨htwins, hfunction, hfunction'⟩
  have hrequire : (function.kind == "identifier" && function.text source == "require") =
      (function'.kind == "identifier" && function'.text source' == "require") := by
    rw [← htwins.kind_eq]
    by_cases hkind : function.kind = "identifier"
    · rw [text_eq_of_twins htwins (.inl hkind)]
    · rw [beq_false_of_ne hkind, Bool.false_and, Bool.false_and]
  dsimp only
  rw [hrequire, htwins.kind_eq]
  split
  · rfl
  · next hcall =>
    have hcall' : isImportFunction source' function' = true := by
      simp only [Bool.and_eq_true, Bool.not_eq_true', bne_iff_ne, not_and, ne_eq, not_not] at hcall
      rw [isImportFunction, Bool.or_eq_true, beq_iff_eq]
      cases hcase : (function'.kind == "identifier" && function'.text source' == "require") with
      | true => exact .inr rfl
      | false => exact .inl (hcall hcase)
    have hcall : isImportFunction source function = true := by
      rw [isImportFunction, hrequire, htwins.kind_eq]
      exact hcall'
    refine map_eq_of_rel (rel_filter (rel_argument hnode hfunction hfunction' hcall hcall') ?_) ?_
    · intro argument argument' htwins
      rw [htwins.kind_eq]
    · rintro argument argument' ⟨htwins, hkind⟩
      rw [text_eq_of_twins htwins (.inr (.inl (beq_iff_eq.1 hkind))), requireNames_eq hparent]

/-- The imports of a statement or a call of JavaScript. -/
theorem importEntries_eq {place place' : Place}
    (hnode : Twins commentRule source source' place.node place'.node)
    (hparent : Option.Rel (Twins commentRule source source') place.parent place'.parent) :
    importEntries source place = importEntries source' place' := by
  unfold importEntries
  rw [hnode.kind_eq]
  split
  · next hkind => rw [moduleImport?_eq hnode (hnode.kind_eq.trans hkind)]
  · rw [callImport?_eq hnode hparent]
  · rfl

end JavaScript

/-! ## Python -/

namespace Python

theorem fieldText?_aliased (h : Twins commentRule source source' n n')
    (hkind : n.kind = "aliased_import") {name : String} (hname : name = "name" ∨ name = "alias") :
    n.fieldText? source name = n'.fieldText? source' name := by
  refine h.fieldText?_eq name ?_
  intro m c hm hc
  rcases hname with rfl | rfl <;> simp [commentRule, hm, hkind, hc]

/-- The names of a statement, which are aliased or read as they stand. -/
theorem forall₂_names (h : Twins commentRule source source' n n')
    (hkind : n.kind = "import_statement" ∨ n.kind = "import_from_statement") :
    List.Forall₂ (fun name name' => Twins commentRule source source' name name' ∧
      (name.kind ≠ "aliased_import" → name.text source = name'.text source'))
      (n.fieldChildren "name") (n'.fieldChildren "name") := by
  have hpart {m name : Node} (hm : m.kind = n.kind) (hname : name ∈ m.fieldChildren "name")
      (hplain : name.kind ≠ "aliased_import") : name ∈ commentRule.parts m := by
    rcases hkind with hkind | hkind <;> simp [commentRule, hm, hkind, hname, hplain]
  refine forall₂_of_mem (h.forall₂_fieldChildren "name") ?_
  intro name hname name' hname' htwins
  refine ⟨htwins, fun hplain => ?_⟩
  have hplain' : name'.kind ≠ "aliased_import" := htwins.kind_eq ▸ hplain
  exact (h.same_of_mem_parts htwins.eqUpToComments (hpart rfl hname hplain)
    (hpart h.kind_eq.symm hname' hplain')).text_eq

theorem moduleImport?_eq (h : Twins commentRule source source' n n')
    (htext : n.kind ≠ "aliased_import" → n.text source = n'.text source') :
    moduleImport? source n = moduleImport? source' n' := by
  unfold moduleImport?
  rw [← h.kind_eq]
  split
  · next hkind =>
    rw [fieldText?_aliased h (beq_iff_eq.1 hkind) (.inl rfl),
      fieldText?_aliased h (beq_iff_eq.1 hkind) (.inr rfl)]
  · next hkind => rw [htext (by simpa using hkind)]

theorem importedName?_eq (h : Twins commentRule source source' n n')
    (htext : n.kind ≠ "aliased_import" → n.text source = n'.text source') :
    importedName? source n = importedName? source' n' := by
  unfold importedName?
  rw [← h.kind_eq]
  split
  · next hkind => rw [fieldText?_aliased h (beq_iff_eq.1 hkind) (.inr rfl)]
  · next hkind => rw [htext (by simpa using hkind)]

theorem importEntries_eq {place place' : Place}
    (h : Twins commentRule source source' place.node place'.node) :
    importEntries source place = importEntries source' place' := by
  unfold importEntries
  dsimp only
  rw [← h.kind_eq]
  split
  · next hkind =>
    exact filterMap_eq_of_forall₂ (forall₂_names h (.inl hkind))
      fun name name' hname => moduleImport?_eq hname.1 hname.2
  · next hkind =>
    have hpath : place.node.fieldText? source "module_name" =
        place'.node.fieldText? source' "module_name" := by
      refine h.fieldText?_eq _ fun m c hm hc => ?_
      simp [commentRule, hm, hkind, hc]
    have hnames := filterMap_eq_of_forall₂ (forall₂_names h (.inr hkind))
      fun name name' hname => importedName?_eq hname.1 hname.2
    rw [hpath, hnames, h.any_ofKind (by decide)]
  · rfl

end Python

/-! ## Go -/

namespace Go

theorem specImport?_eq (h : Twins commentRule source source' n n')
    (hkind : n.kind = "import_spec") : specImport? source n = specImport? source' n' := by
  have hname : n.fieldText? source "name" = n'.fieldText? source' "name" := by
    refine h.fieldText?_eq _ fun m c hm hc => ?_
    simp [commentRule, hm, hkind, hc]
  refine map_eq_of_rel (h.rel_field?_same "path" fun m c hm hc => ?_) fun path path' hpath => ?_
  · simp [commentRule, hm, hkind, hc]
  · rw [hpath.text_eq, hname]

theorem forall₂_partSpecs (h : Twins commentRule source source' n n') :
    List.Forall₂ (fun spec spec' => Twins commentRule source source' spec spec' ∧
      spec.kind = "import_spec") (partSpecs n) (partSpecs n') := by
  unfold partSpecs
  rw [← h.kind_eq]
  split
  · next hkind => exact .cons ⟨h, hkind⟩ .nil
  · exact h.forall₂_ofKind (by decide)
  · exact .nil

theorem partSpecs_of_isComment (h : n.isComment = true) : partSpecs n = [] := by
  unfold partSpecs
  split <;> first
    | rfl
    | exact absurd ‹n.kind = _› (Node.kind_ne_of_isComment h (by decide))

theorem importEntries_eq {place place' : Place}
    (h : Twins commentRule source source' place.node place'.node) :
    importEntries source place = importEntries source' place' := by
  rw [importEntries, importEntries, importSpecs, importSpecs, List.filterMap_flatMap,
    List.filterMap_flatMap]
  refine h.flatMap_namedChildren ?_ ?_ ?_
  · intro c _ hc
    rw [partSpecs_of_isComment hc, List.filterMap_nil]
  · intro c _ hc
    rw [partSpecs_of_isComment hc, List.filterMap_nil]
  · intro c _ c' hc
    exact filterMap_eq_of_forall₂ (forall₂_partSpecs hc)
      fun spec spec' hspec => specImport?_eq hspec.1 hspec.2

end Go

/-! ## Rust -/

namespace Rust

/-- A part of a construct that is a path is the same in both trees. -/
theorem same_of_isUsePath (h : Twins commentRule source source' n n') {tree tree' : Node}
    (htwins : Twins commentRule source source' tree tree')
    (hpart : isUsePath tree = true → tree ∈ commentRule.parts n)
    (hpart' : isUsePath tree' = true → tree' ∈ commentRule.parts n') :
    isUsePath tree = true → Node.Same source source' tree tree' := by
  intro hpath
  have hpath' : isUsePath tree' = true := by rwa [isUsePath, ← htwins.isOneOf_eq]
  exact h.same_of_mem_parts htwins.eqUpToComments (hpart hpath) (hpart' hpath')

/-- The items of a use list, none of which is a comment. -/
theorem forall₂_items (h : Twins commentRule source source' n n') (hkind : n.kind = "use_list") :
    List.Forall₂ (fun item item' => Twins commentRule source source' item item' ∧
      (isUsePath item = true → Node.Same source source' item item') ∧ item ∈ n.namedChildren)
      n.namedChildren n'.namedChildren := by
  have hkind' : n'.kind = "use_list" := h.kind_eq ▸ hkind
  have hall {m : Node} {source : String} (hm : m.kind = "use_list")
      (hobeyed : commentRule.Obeyed source m) : m.constructs = m.namedChildren := by
    refine List.filter_eq_self.2 fun item hitem => ?_
    have hpick : item ∈ commentRule.picks source m := by simpa [commentRule, hm] using hitem
    rw [hobeyed.isComment_of_mem_picks hpick]
    rfl
  have hitems := h.forall₂_constructs
  rw [hall hkind h.obeyed, hall hkind' h.obeyed'] at hitems
  refine forall₂_of_mem hitems ?_
  intro item hitem item' hitem' htwins
  refine ⟨htwins, same_of_isUsePath h htwins ?_ ?_, hitem⟩
  · intro hpath
    simp [commentRule, hkind, hitem, hpath]
  · intro hpath
    simp [commentRule, hkind', hitem', hpath]

/-- The path of a wildcard, which is no comment. -/
theorem rel_wildcard (h : Twins commentRule source source' n n') (hkind : n.kind = "use_wildcard") :
    Option.Rel (Node.Same source source') n.namedChildren.head? n'.namedChildren.head? := by
  have hkind' : n'.kind = "use_wildcard" := h.kind_eq ▸ hkind
  refine rel_of_eq_some (h.rel_head?_namedChildren ?_ ?_) ?_
  · intro first hfirst
    exact h.obeyed.isComment_of_mem_picks (by simpa [commentRule, hkind] using hfirst)
  · intro first hfirst
    exact h.obeyed'.isComment_of_mem_picks (by simpa [commentRule, hkind'] using hfirst)
  · intro first first' hfirst hfirst' htwins
    refine h.same_of_mem_parts htwins.eqUpToComments ?_ ?_
    · simp [commentRule, hkind, hfirst]
    · simp [commentRule, hkind', hfirst']

/-- Use trees are read alike. -/
theorem useImports_eq (h : Twins commentRule source source' n n')
    (hpath : isUsePath n = true → Node.Same source source' n n') (base : String) :
    useImports source base n = useImports source' base n' := by
  -- the list of a scoped list is found by field, so the induction is on the size of the tree
  induction hsize : sizeOf n using Nat.strongRecOn generalizing n n' base with
  | ind size ih =>
      subst hsize
      have hjoin {path path' : Node} (hpath : Node.Same source source' path path') :
          joinPath base (path.text source) = joinPath base (path'.text source') := by
        rw [hpath.text_eq]
      rw [useImports, useImports, ← h.kind_eq]
      split
      · next hkind =>
        simp only [List.flatMap_subtype, List.unattach_attach]
        refine flatMap_eq_of_forall₂ (forall₂_items h hkind) ?_
        rintro item item' ⟨htwins, hsame, hitem⟩
        exact ih _ (Node.sizeOf_lt_of_mem_namedChildren hitem) htwins hsame base rfl
      · next hkind =>
        have hscope := h.rel_field?_same "path" fun m c hm hc => by
          simp [commentRule, hm, hkind, hc]
        have hlist := h.rel_field? "list"
        rw [map_eq_of_rel hscope fun _ _ => hjoin]
        split <;> split
        · next list hn list' hn' =>
          rw [hn, hn'] at hlist
          cases hlist with
          | some hsome =>
              refine ih _ (Node.sizeOf_lt_of_field? hn) hsome.1
                (same_of_isUsePath h hsome.1 ?_ ?_) _ rfl
              · intro hpath
                simp [commentRule, hkind, hn, hpath]
              · intro hpath
                simp [commentRule, ← h.kind_eq, hkind, hn', hpath]
        · next hn hn' =>
          rw [hn, hn'] at hlist
          cases hlist
        · next hn _ hn' =>
          rw [hn, hn'] at hlist
          cases hlist
        · rfl
      · next hkind =>
        have hpath := h.rel_field?_same "path" fun m c hm hc => by simp [commentRule, hm, hkind, hc]
        have halias := h.fieldText?_eq "alias" fun m c hm hc => by simp [commentRule, hm, hkind, hc]
        refine congrArg Option.toList (bind_eq_of_rel hpath ?_)
        intro path path' hpath
        rw [hjoin hpath, halias]
      · next hkind => rw [map_eq_of_rel (rel_wildcard h hkind) fun _ _ => hjoin]
      · next hlist hscoped halias hwildcard =>
        have hleaf : isUsePath n = true := by
          simpa [isUsePath, Node.isOneOf] using ⟨hlist, hscoped, halias, hwildcard⟩
        rw [(hpath hleaf).text_eq]

theorem importEntries_eq {place place' : Place}
    (h : Twins commentRule source source' place.node place'.node)
    (hkind : place.node.kind = "use_declaration") :
    importEntries source place = importEntries source' place' := by
  have hkind' : place'.node.kind = "use_declaration" := h.kind_eq ▸ hkind
  have himports : (place.node.field? "argument").map (useImports source "") =
      (place'.node.field? "argument").map (useImports source' "") := by
    refine map_eq_of_rel (h.rel_field? "argument") ?_
    rintro tree tree' ⟨htwins, htree, htree'⟩
    refine useImports_eq htwins (same_of_isUsePath h htwins ?_ ?_) ""
    · intro hpath
      simp [commentRule, hkind, htree, hpath]
    · intro hpath
      simp [commentRule, hkind', htree', hpath]
  rw [importEntries, importEntries, declarationImports, declarationImports, himports]

end Rust

/-! ## All languages -/

/-- Import statements that are equal up to comments are read alike, if the comments obey a rule. -/
def ReadsAlike (lang : Language) (rule : CommentRule) : Prop :=
  ∀ {source source' : String} {place place' : Place},
    Twins rule source source' place.node place'.node →
    Option.Rel (Twins rule source source') place.parent place'.parent →
    place.node.isOneOf lang.importKinds = true →
    lang.importEntries source place = lang.importEntries source' place'

/-- A language that reads the whole text of its statements. -/
theorem readsAlike_of_text {lang : Language} (textImports : String → List Import)
    (htext : ∀ source place,
      lang.importEntries source place = textImports (place.node.text source)) :
    lang.ReadsAlike lang.statementRule := by
  intro source source' place place' hnode _ hkind
  have hsame : Node.Same source source' place.node place'.node := by
    refine hnode.same fun m hm => ?_
    rw [Node.isOneOf, ← hm] at hkind
    simp only [statementRule, Node.isOneOf, hkind]
    exact List.mem_singleton_self m
  rw [htext, htext, hsame.text_eq]

theorem readsAlike_of_mem_commentRules {lang : Language} {rule : CommentRule}
    (h : (lang, rule) ∈ commentRules) : lang.ReadsAlike rule := by
  simp only [commentRules, List.mem_cons, List.not_mem_nil, or_false, Prod.mk.injEq] at h
  rcases h with ⟨rfl, rfl⟩ | ⟨rfl, rfl⟩ | ⟨rfl, rfl⟩ | ⟨rfl, rfl⟩ | ⟨rfl, rfl⟩ | ⟨rfl, rfl⟩ |
    ⟨rfl, rfl⟩ | ⟨rfl, rfl⟩ | ⟨rfl, rfl⟩
  · exact fun hnode hparent _ => JavaScript.importEntries_eq hnode hparent
  · exact fun hnode hparent _ => JavaScript.importEntries_eq hnode hparent
  · exact fun hnode hparent _ => JavaScript.importEntries_eq hnode hparent
  · exact fun hnode _ _ => Python.importEntries_eq hnode
  · exact readsAlike_of_text Php.textImports fun _ _ => by simp only [php, Php.importEntries]
  · exact fun hnode _ hkind =>
      Rust.importEntries_eq hnode (by simpa [rust, Node.isOneOf] using hkind)
  · exact fun hnode _ _ => Go.importEntries_eq hnode
  · exact readsAlike_of_text Java.textImports fun _ _ => by simp only [java, Java.importEntries]
  · exact readsAlike_of_text CSharp.textImports fun _ _ => by
      simp only [cSharp, CSharp.importEntries]

/-! ## Imports of files -/

/-- The imports of a place and of what is below it, before they are merged. -/
def entriesFrom (lang : Language) (source : String) (place : Place) : List Import :=
  (place.node.namedPlaces (fun place => (lang.statementEntries source place).isEmpty)
    place.parent).flatMap (lang.statementEntries source)

theorem importsFrom_eq_entriesFrom (lang : Language) (source : String) (place : Place) :
    lang.importsFrom source place =
      .ofList ((lang.entriesFrom source place).filter
        fun entry => !lang.isStandardPath entry.path) :=
  rfl

theorem entriesFrom_eq (lang : Language) (source : String) (place : Place) :
    lang.entriesFrom source place = lang.statementEntries source place ++
      if (lang.statementEntries source place).isEmpty then
        place.node.namedChildren.flatMap fun c => lang.entriesFrom source ⟨c, some place.node⟩
      else [] := by
  obtain ⟨⟨label, children⟩, parent⟩ := place
  rw [entriesFrom, Node.namedPlaces, List.flatMap_cons]
  congr 1
  dsimp only
  split
  · rw [Node.namedPlacesAll_eq, List.flatMap_assoc]
    rfl
  · rfl

/-- A comment holds no imports. -/
theorem entriesFrom_of_isComment {lang : Language}
    (hkinds : ∀ kind ∈ lang.importKinds, Text.holds "comment" kind = false) {source : String}
    {place : Place} (hcomment : place.node.isComment = true)
    (hbelow : ∀ d ∈ place.node.preorder, d.isNamed = true → d.isComment = true) :
    lang.entriesFrom source place = [] := by
  obtain ⟨n, parent⟩ := place
  induction n using Node.induction_children generalizing parent with
  | step n ih =>
      have hnone : lang.statementEntries source ⟨n, parent⟩ = [] := by
        refine if_neg fun hkind => ?_
        have hmem : n.kind ∈ lang.importKinds := by simpa [Node.isOneOf] using hkind
        exact Node.kind_ne_of_isComment hcomment (hkinds _ hmem) rfl
      rw [entriesFrom_eq, hnone, List.nil_append, List.isEmpty_nil, if_pos rfl,
        List.flatMap_eq_nil_iff]
      intro c hc
      have hchild := Node.mem_children_of_mem_namedChildren hc
      have hmem := Node.mem_preorder_of_mem_children hchild
      refine ih c hchild _ (hbelow c hmem ?_) fun d hd => hbelow d (Node.mem_preorder_trans hd hmem)
      exact (List.mem_filter.1 hc).2

theorem entriesFrom_of_plainRemark {lang : Language}
    (hkinds : ∀ kind ∈ lang.importKinds, Text.holds "comment" kind = false) {source : String}
    {n c : Node} (hplain : ∀ c ∈ n.children, c.isRemark = true → c.PlainRemark)
    (hc : c ∈ n.namedChildren) (hcomment : c.isComment = true) (parent : Option Node) :
    lang.entriesFrom source ⟨c, parent⟩ = [] := by
  obtain ⟨hchild, hnamed⟩ := List.mem_filter.1 hc
  have hremark : c.isRemark = true := by rw [Node.isRemark, hnamed, hcomment, Bool.true_and]
  exact entriesFrom_of_isComment hkinds hcomment (hplain c hchild hremark).2

/-- Places that are read alike, and below which all is, have the same imports. -/
theorem entriesFrom_eq_of_twins {lang : Language} {rule : CommentRule}
    (hkinds : ∀ kind ∈ lang.importKinds, Text.holds "comment" kind = false)
    (hreads : lang.ReadsAlike rule) {source source' : String} {n n' : Node}
    {parent parent' : Option Node} (hnode : Twins rule source source' n n')
    (hparent : Option.Rel (Twins rule source source') parent parent') :
    lang.entriesFrom source ⟨n, parent⟩ = lang.entriesFrom source' ⟨n', parent'⟩ := by
  induction n using Node.induction_children generalizing n' parent parent' with
  | step n ih =>
      have hhere : lang.statementEntries source ⟨n, parent⟩ =
          lang.statementEntries source' ⟨n', parent'⟩ := by
        rw [statementEntries, statementEntries, ← hnode.isOneOf_eq]
        split
        · next hkind => exact hreads hnode hparent hkind
        · rfl
      have hbelow : (n.namedChildren.flatMap fun c => lang.entriesFrom source ⟨c, some n⟩) =
          n'.namedChildren.flatMap fun c => lang.entriesFrom source' ⟨c, some n'⟩ := by
        refine hnode.flatMap_namedChildren ?_ ?_ ?_
        · intro c hc hcomment
          exact entriesFrom_of_plainRemark hkinds hnode.eqUpToComments.plain.1 hc hcomment _
        · intro c hc hcomment
          exact entriesFrom_of_plainRemark hkinds hnode.eqUpToComments.plain.2 hc hcomment _
        · intro c hc c' htwins
          exact ih c (Node.mem_children_of_mem_namedChildren hc) htwins (.some hnode)
      rw [entriesFrom_eq, entriesFrom_eq, hhere, hbelow]

theorem holds_comment_of_mem_importKinds {lang : Language} (h : lang ∈ all) :
    ∀ kind ∈ lang.importKinds, Text.holds "comment" kind = false := by
  simp only [all, List.mem_cons, List.not_mem_nil, or_false] at h
  rcases h with rfl | rfl | rfl | rfl | rfl | rfl | rfl | rfl | rfl <;> decide

/-- Comments do not change the imports of a file: in each language, two trees that are equal up to
comments have the same imports, unless a comment stands in a part that is read as it stands or where
a node is picked by its position. -/
theorem imports_eq_of_eqUpToComments {lang : Language} {rule : CommentRule}
    (hrule : (lang, rule) ∈ commentRules) {source source' : String} {root root' : Node}
    (heq : Node.EqUpToComments source source' root root') (hobeyed : rule.Obeyed source root)
    (hobeyed' : rule.Obeyed source' root') :
    lang.imports source root = lang.imports source' root' := by
  have hentries := entriesFrom_eq_of_twins
    (holds_comment_of_mem_importKinds (mem_all_of_mem_commentRules hrule))
    (readsAlike_of_mem_commentRules hrule) ⟨heq, hobeyed, hobeyed'⟩ .none
  rw [imports, imports, importsFrom_eq_entriesFrom, importsFrom_eq_entriesFrom, hentries]

/-! ## A comment in a call -/

/-- The tree of a call of `require` with the argument `'x'` at an offset and comments around it. -/
private def requireTree (before after : List Node) (offset stop : Nat) : Node :=
  Sample.construct 0 "program" 0 stop
    [Sample.construct 1 "expression_statement" 0 stop
      [Sample.construct 2 "call_expression" 0 stop
        [Sample.construct 3 "identifier" 0 7 [] (some "function"),
         Sample.construct 4 "arguments" 7 stop
           (Sample.token 5 "(" 7 :: before ++ Sample.construct 6 "string" offset (offset + 3) [] ::
             after ++ [Sample.token 7 ")" (stop - 1)]) (some "arguments")]]]

/-- An empty comment. -/
private def emptyRemark (start : Nat) : Node :=
  Sample.construct 8 "comment" start (start + 4) []

private theorem eqUpToComments_requireTree :
    Node.EqUpToComments "require('x')" "require(/**/'x')" (requireTree [] [] 8 12)
      (requireTree [emptyRemark 8] [] 12 16) ∧
    Node.EqUpToComments "require('x')" "require('x'/**/)" (requireTree [] [] 8 12)
      (requireTree [] [emptyRemark 11] 8 16) := by
  constructor
  all_goals
    repeat' first
      | exact .nil
      | refine .cons ?_ ?_
      | refine .of_children rfl rfl rfl (by decide) (by decide) (by decide) rfl rfl ?_

/-- A comment behind the argument of a call obeys the rule and changes nothing. -/
theorem imports_eq_of_comment_behind_argument :
    JavaScript.commentRule.Obeyed "require('x'/**/)" (requireTree [] [emptyRemark 11] 8 16) ∧
    javaScript.imports "require('x')" (requireTree [] [] 8 12) = ⟨[⟨"x", []⟩]⟩ ∧
    javaScript.imports "require('x'/**/)" (requireTree [] [emptyRemark 11] 8 16) =
      ⟨[⟨"x", []⟩]⟩ := by
  have hobeyed : JavaScript.commentRule.Obeyed "require('x')" (requireTree [] [] 8 12) :=
    ⟨by decide, by decide⟩
  have hobeyed' : JavaScript.commentRule.Obeyed "require('x'/**/)"
      (requireTree [] [emptyRemark 11] 8 16) := ⟨by decide, by decide⟩
  have himports : javaScript.imports "require('x')" (requireTree [] [] 8 12) = ⟨[⟨"x", []⟩]⟩ := by
    decide
  have hrule : (javaScript, JavaScript.commentRule) ∈ commentRules := List.mem_cons_self
  have hsame := imports_eq_of_eqUpToComments hrule eqUpToComments_requireTree.2 hobeyed hobeyed'
  exact ⟨hobeyed', himports, hsame ▸ himports⟩

/-- A comment in front of the argument of a call hides the import. -/
theorem imports_ne_of_comment_before_argument :
    Node.EqUpToComments "require('x')" "require(/**/'x')" (requireTree [] [] 8 12)
      (requireTree [emptyRemark 8] [] 12 16) ∧
    javaScript.imports "require('x')" (requireTree [] [] 8 12) = ⟨[⟨"x", []⟩]⟩ ∧
    javaScript.imports "require(/**/'x')" (requireTree [emptyRemark 8] [] 12 16) = ⟨[]⟩ :=
  ⟨eqUpToComments_requireTree.1, by decide, by decide⟩

end Language

end SourceChunks
