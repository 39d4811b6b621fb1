-- SUMMARY: The identifiers that exported JavaScript declarations bind, and which of them are exported.
import SourceChunks.Language.TypeScript
import SourceChunks.Proofs.Tree

/-!
# Exported bindings

A declarator binds identifiers: the one that it names or, if its target is a pattern, those at the
leaves of the pattern. The exports of a declaration are read off the targets of its declarators,
and only a target that is an identifier is read as a name. What is bound inside a pattern is not
exported by its declarator.
-/

namespace SourceChunks

/-! ## Nodes that are no names -/

/-- A node that is no identifier and leads to none has no name. -/
theorem Node.simpleName?_eq_none {source : String} {n : Node} (hname : n.isIdentifier = false)
    (hstep : n.nameStep? = none) : n.simpleName? source = none := by
  have hwithin : n.nameNode? = none := by
    rw [nameNode?, maxNameSteps, nameWithin?, hname, if_neg Bool.false_ne_true, hstep]
    rfl
  rw [simpleName?, hwithin]
  rfl

/-- An identifier with any text is its own name. -/
theorem Node.simpleName?_of_isIdentifier {source : String} {n : Node}
    (hname : n.isIdentifier = true) (htext : (Text.trim (n.text source)).isEmpty = false) :
    n.simpleName? source = some (Text.trim (n.text source)) := by
  have hwithin : n.nameNode? = some n := by
    rw [nameNode?, maxNameSteps, nameWithin?, if_pos hname]
  rw [simpleName?, hwithin, Option.bind_some]
  exact if_neg (by rw [htext]; exact Bool.false_ne_true)

namespace Language

namespace JavaScript

variable {source : String}

/-! ## Binding targets -/

/-- The identifiers that a binding target binds. A name binds itself, and a pattern what its parts
bind: the elements of an object or array pattern and of a rest element, the value of a property,
and the left side of a default. -/
inductive Binds : Node → Node → Prop where
  | name {n : Node} (kind : n.kind ∈ ["identifier", "shorthand_property_identifier_pattern"]) :
      Binds n n
  | element {n part x : Node} (kind : n.kind ∈ ["object_pattern", "array_pattern", "rest_pattern"])
      (mem : part ∈ n.namedChildren) (binds : Binds part x) : Binds n x
  | value {n part x : Node} (kind : n.kind ∈ ["pair_pattern"])
      (field : n.field? "value" = some part) (binds : Binds part x) : Binds n x
  | defaulted {n part x : Node}
      (kind : n.kind ∈ ["assignment_pattern", "object_assignment_pattern"])
      (field : n.field? "left" = some part) (binds : Binds part x) : Binds n x

/-- The kinds of binding targets that are no plain names. -/
def patternKinds : List String :=
  ["shorthand_property_identifier_pattern", "object_pattern", "array_pattern", "rest_pattern",
   "pair_pattern", "assignment_pattern", "object_assignment_pattern"]

theorem simpleName?_of_mem_patternKinds {n : Node} (h : n.kind ∈ patternKinds) :
    n.simpleName? source = none := by
  apply Node.simpleName?_eq_none
  · have hapart : ∀ kind ∈ patternKinds, Node.identifierKinds.contains kind = false := by decide
    exact hapart n.kind h
  · simp only [patternKinds, List.mem_cons, List.not_mem_nil, or_false] at h
    unfold Node.nameStep?
    rcases h with h | h | h | h | h | h | h <;> (rw [h]; rfl)

/-- A target is the identifier that it binds, or a pattern. -/
theorem Binds.target_cases {target x : Node} (h : Binds target x) :
    target.kind = "identifier" ∧ x = target ∨ target.kind ∈ patternKinds := by
  have hpattern {kinds : List String} (hsub : kinds ⊆ patternKinds) (hkind : target.kind ∈ kinds) :
      target.kind ∈ patternKinds := hsub hkind
  cases h with
  | name kind =>
      rcases List.mem_cons.1 kind with hident | hshorthand
      · exact .inl ⟨hident, rfl⟩
      · exact .inr (hpattern (by decide) hshorthand)
  | element kind _ _ => exact .inr (hpattern (by decide) kind)
  | value kind _ _ => exact .inr (hpattern (by decide) kind)
  | defaulted kind _ _ => exact .inr (hpattern (by decide) kind)

/-! ## Exported declarations -/

/-- The declarators of a declaration of variables. -/
def declarators (declaration : Node) : List Node :=
  declaration.namedChildren.filter (·.kind == "variable_declarator")

theorem declarationNames_eq {declaration : Node}
    (h : declaration.kind ∈ ["lexical_declaration", "variable_declaration"]) :
    declarationNames source declaration =
      (declarators declaration).filterMap (·.declaredName? source) := by
  cases declaration with
  | mk label children =>
      have hfilter : declarators (.mk label children) =
          children.filter fun c => c.isNamed && c.kind == "variable_declarator" := by
        rw [declarators, Node.namedChildren, Node.children, List.filter_filter]
        exact List.filter_congr fun c _ => Bool.and_comm _ _
      have hkind : label.kind = "lexical_declaration" ∨ label.kind = "variable_declaration" := by
        simpa [Node.kind, Node.label] using h
      rw [hfilter, declarationNames]
      rcases hkind with hkind | hkind <;> (rw [hkind]; rfl)

/-- The names of the declaration of an export statement are exported. -/
theorem mem_exports_of_declaration {root statement declaration : Node} {name : String}
    (hstatement : statement ∈ root.namedChildren) (hexport : statement.kind = "export_statement")
    (hdeclaration : statement.field? "declaration" = some declaration)
    (hname : name ∈ declarationNames source declaration) : name ∈ exports source root := by
  rw [exports, List.mem_eraseDups, List.mem_flatMap]
  refine ⟨statement, List.mem_filter.2 ⟨hstatement, by simp [hexport]⟩, ?_⟩
  simp [statementNames, hdeclaration, hname]

end JavaScript

open JavaScript

/-- An identifier that a declarator of an exported declaration binds is exported if it is the whole
target of the declarator. A declarator with a pattern as its target exports nothing. -/
theorem bound_identifier_exported {lang : Language} (hlang : lang ∈ [javaScript, typeScript, tsx])
    {source : String} {root statement declaration declarator target x : Node}
    (hstatement : statement ∈ root.namedChildren) (hexport : statement.kind = "export_statement")
    (hdeclaration : statement.field? "declaration" = some declaration)
    (hkind : declaration.kind ∈ ["lexical_declaration", "variable_declaration"])
    (hdeclarator : declarator ∈ declarators declaration)
    (htarget : declarator.field? "name" = some target) (hbinds : Binds target x)
    (hname : (Text.trim (x.text source)).isEmpty = false) :
    (target.kind = "identifier" →
      declarator.declaredName? source = some (Text.trim (x.text source)) ∧
        Text.trim (x.text source) ∈ lang.exports source root) ∧
    (target.kind ≠ "identifier" → declarator.declaredName? source = none) := by
  have hexports : lang.exports = JavaScript.exports := by
    simp only [List.mem_cons, List.not_mem_nil, or_false] at hlang
    rcases hlang with rfl | rfl | rfl <;> rfl
  have hdeclared : declarator.declaredName? source = target.simpleName? source := by
    rw [Node.declaredName?, htarget, Option.bind_some]
  rw [hexports, hdeclared]
  rcases hbinds.target_cases with ⟨hident, rfl⟩ | hpattern
  · refine ⟨fun _ => ?_, absurd hident⟩
    have hisIdentifier : x.isIdentifier = true := by
      rw [Node.isIdentifier, Node.isOneOf_iff, hident]
      decide
    have hown := Node.simpleName?_of_isIdentifier hisIdentifier hname
    refine ⟨hown, mem_exports_of_declaration hstatement hexport hdeclaration ?_⟩
    rw [declarationNames_eq hkind]
    exact List.mem_filterMap.2 ⟨declarator, hdeclarator, hdeclared.trans hown⟩
  · refine ⟨fun hident => ?_, fun _ => simpleName?_of_mem_patternKinds hpattern⟩
    have hplain : "identifier" ∉ patternKinds := by decide
    exact absurd (hident ▸ hpattern) hplain

/-- A declaration with a pattern and a plain name. -/
private def patternText : String := "export const \x7b a, b: [c] \x7d = d, e = f;\n"

private def patternTarget : Node :=
  Sample.construct 6 "object_pattern" 13 26
    [Sample.token 7 "\x7b" 13,
     Sample.construct 8 "shorthand_property_identifier_pattern" 15 16 [],
     Sample.token 9 "," 16,
     Sample.construct 10 "pair_pattern" 18 24
       [Sample.construct 11 "property_identifier" 18 19 [] (some "key"), Sample.token 12 ":" 19,
        Sample.construct 13 "array_pattern" 21 24
          [Sample.token 14 "[" 21, Sample.construct 15 "identifier" 22 23 [],
           Sample.token 16 "]" 23]
          (some "value")],
     Sample.token 17 "\x7d" 25]
    (some "name")

private def plainTarget : Node :=
  Sample.construct 22 "identifier" 32 33 [] (some "name")

private def plainDeclarator : Node :=
  Sample.construct 21 "variable_declarator" 32 37
    [plainTarget, Sample.token 23 "=" 34,
     Sample.construct 24 "identifier" 36 37 [] (some "value")]

private def patternDeclarator : Node :=
  Sample.construct 5 "variable_declarator" 13 30
    [patternTarget, Sample.token 18 "=" 27,
     Sample.construct 19 "identifier" 29 30 [] (some "value")]

private def exportedDeclaration : Node :=
  Sample.construct 3 "lexical_declaration" 7 38
    [Sample.token 4 "const" 7, patternDeclarator, Sample.token 20 "," 30, plainDeclarator,
     Sample.token 25 ";" 37]
    (some "declaration")

private def patternStatement : Node :=
  Sample.construct 1 "export_statement" 0 38 [Sample.token 2 "export" 0, exportedDeclaration]

private def patternFile : Node :=
  Sample.construct 0 "program" 0 39 [patternStatement]

/-- The plain name of the declaration is exported. -/
theorem bound_identifier_exported_plain :
    patternStatement ∈ patternFile.namedChildren ∧
      plainDeclarator ∈ declarators exportedDeclaration ∧
      "e" ∈ javaScript.exports patternText patternFile := by
  have hlang : javaScript ∈ [javaScript, typeScript, tsx] := List.mem_cons_self
  have hstatement : patternStatement ∈ patternFile.namedChildren := List.mem_cons_self
  have hdeclaration : patternStatement.field? "declaration" = some exportedDeclaration := rfl
  have hdeclarator : plainDeclarator ∈ declarators exportedDeclaration :=
    List.mem_cons_of_mem _ List.mem_cons_self
  have hbinds : Binds plainTarget plainTarget := .name (by decide)
  have hname : (Text.trim (plainTarget.text patternText)).isEmpty = false := by decide
  have hexported := bound_identifier_exported hlang hstatement rfl hdeclaration (by decide)
    hdeclarator rfl hbinds hname
  exact ⟨hstatement, hdeclarator, (hexported.1 rfl).2⟩

/-- Of the names that the declaration binds, those inside the pattern are not exported. -/
theorem bound_identifier_not_exported :
    Binds patternTarget (Sample.construct 8 "shorthand_property_identifier_pattern" 15 16 []) ∧
    Binds patternTarget (Sample.construct 15 "identifier" 22 23 []) ∧
    javaScript.exports patternText patternFile = ["e"] := by
  refine ⟨?_, ?_, by decide +kernel⟩
  · exact .element (by decide) List.mem_cons_self (.name (by decide))
  · refine .element (by decide) (List.mem_cons_of_mem _ List.mem_cons_self) ?_
    refine .value (by decide) rfl ?_
    exact .element (by decide) List.mem_cons_self (.name (by decide))

end Language

end SourceChunks
