-- SUMMARY: Java and C# files export the names of visible declarations in visible types.
import SourceChunks.Language.CSharp
import SourceChunks.Language.Java
import SourceChunks.Proofs.Tree

/-!
# Visible declarations

Java and C# export what is declared public in public types. The exports are collected by going from
type to type; here they are described declaration by declaration. A declaration stands in a chain of
type declarations, each a member of the next, up to a type at the top level of the file. It is
exported if it and all types of the chain are visible: public, or members of an interface. The one
exception are C# events that are declared like fields, which are never exported.
-/

namespace SourceChunks

/-! ## Declarations and the types around them -/

/-- How the declarations of a language are nested, and which names they declare. -/
structure VisibilityRule where
  /-- Kinds of type declarations. -/
  types : List String
  /-- Kinds of members that declare one name. -/
  members : List String
  /-- Kinds of members that hold declarators. -/
  fields : List String
  /-- The declarations at the top level of a file. -/
  TopLevel : Node → Node → Prop
  /-- The members of a type declaration. -/
  Member : Node → Node → Prop
  /-- The declarators of a member that holds them. -/
  Declarator : Node → Node → Prop

/-- Whether a declaration is visible where it stands: it is public, or the type that it is a member
of is an interface. -/
def Node.Visible (source : String) (d : Node) (owner : Option Node) : Prop :=
  d.hasModifier source "public" = true ∨ ∃ type ∈ owner, type.kind = "interface_declaration"

theorem Node.visible_none {source : String} {d : Node} :
    d.Visible source none ↔ d.hasModifier source "public" = true := by
  simp [Node.Visible]

/-- Names that are read behind a test of visibility. -/
theorem Node.mem_ite_visible {source : String} {d owner : Node} {names : List String}
    {name : String} :
    name ∈ (if !(owner.kind == "interface_declaration" || d.hasModifier source "public") then []
      else names) ↔ d.Visible source (some owner) ∧ name ∈ names := by
  have hvisible : d.Visible source (some owner) ↔
      (owner.kind == "interface_declaration" || d.hasModifier source "public") = true := by
    simp [Node.Visible, or_comm]
  rw [hvisible]
  cases owner.kind == "interface_declaration" || d.hasModifier source "public" <;> simp

namespace VisibilityRule

variable (rule : VisibilityRule) (source : String)

/-- A declaration with the type declarations around it, from the inside out: the outermost one is at
the top level, and each other declaration is a member of the next. -/
inductive Nested (root : Node) : Node → List Node → Prop where
  | top {d : Node} (top : rule.TopLevel root d) (type : d.kind ∈ rule.types) : Nested root d []
  | member {d owner : Node} {outer : List Node} (around : Nested root owner outer)
      (type : owner.kind ∈ rule.types) (member : rule.Member owner d) :
      Nested root d (owner :: outer)

/-- A declaration and all types around it are visible. -/
def VisibleThroughout : Node → List Node → Prop
  | d, [] => d.Visible source none
  | d, owner :: outer => d.Visible source (some owner) ∧ VisibleThroughout owner outer

/-- The names that a declaration declares: its own, or those of its declarators. -/
inductive Declares : Node → String → Prop where
  | own {d : Node} {name : String} (kind : d.kind ∈ rule.types ++ rule.members)
      (declared : d.declaredName? source = some name) : Declares d name
  | declarator {d declarator : Node} {name : String} (kind : d.kind ∈ rule.fields)
      (mem : rule.Declarator d declarator)
      (declared : declarator.declaredName? source = some name) : Declares d name

/-- A declaration in a file exposes a name: it declares the name, and it and all types around it are
visible. -/
def Exposes (root d : Node) (name : String) : Prop :=
  ∃ outer, rule.Nested root d outer ∧ VisibleThroughout source d outer ∧
    rule.Declares source d name

/-! ## Names collected from type to type -/

/-- The names of a type are its own and those of its visible members, without the members of the
kinds `left`. -/
structure Collects (left : List String) (names : Node → List String) : Prop where
  mem_names {d : Node} {name : String} : name ∈ names d ↔ d.declaredName? source = some name ∨
    ∃ m, rule.Member d m ∧ m.Visible source (some d) ∧
      (m.kind ∈ rule.types ∧ name ∈ names m ∨
        m.kind ∉ rule.types ∧ m.kind ∉ left ∧ rule.Declares source m name)
  sizeOf_lt {d m : Node} (member : rule.Member d m) : sizeOf m < sizeOf d
  types_apart {kind : String} (type : kind ∈ rule.types) :
    kind ∉ rule.members ∧ kind ∉ rule.fields ∧ kind ∉ left

variable {rule source} {left : List String} {names : Node → List String} {root : Node}

/-- What is collected from a visible type is exposed by the type or by a declaration below it. -/
theorem Collects.exists_exposes (h : rule.Collects source left names) {d : Node}
    {outer : List Node} {name : String} (hnested : rule.Nested root d outer)
    (hvisible : VisibleThroughout source d outer) (htype : d.kind ∈ rule.types)
    (hname : name ∈ names d) : ∃ e, rule.Exposes source root e name ∧ e.kind ∉ left := by
  obtain hown | ⟨m, hmember, hvis, ⟨hmtype, hbelow⟩ | ⟨-, hleft, hdeclares⟩⟩ :=
    h.mem_names.1 hname
  · have hdeclares : rule.Declares source d name := .own (List.mem_append_left _ htype) hown
    exact ⟨d, ⟨outer, hnested, hvisible, hdeclares⟩, (h.types_apart htype).2.2⟩
  · exact h.exists_exposes (.member hnested htype hmember) ⟨hvis, hvisible⟩ hmtype hbelow
  · exact ⟨m, ⟨d :: outer, .member hnested htype hmember, ⟨hvis, hvisible⟩, hdeclares⟩, hleft⟩
termination_by sizeOf d
decreasing_by exact h.sizeOf_lt hmember

/-- What is collected from a type with all around it visible is collected at the top level. -/
theorem Collects.subset_of_nested (h : rule.Collects source left names) {exported : String → Prop}
    (htop : ∀ d, rule.TopLevel root d → d.kind ∈ rule.types → d.Visible source none →
      ∀ name ∈ names d, exported name)
    {d : Node} {outer : List Node} (hnested : rule.Nested root d outer)
    (hvisible : VisibleThroughout source d outer) (htype : d.kind ∈ rule.types) :
    ∀ name ∈ names d, exported name := by
  induction hnested with
  | top top _ => exact htop _ top htype hvisible
  | member _ type member ih =>
      intro name hname
      exact ih hvisible.2 type name
        (h.mem_names.2 (.inr ⟨_, member, hvisible.1, .inl ⟨htype, hname⟩⟩))

/-- Collecting from the visible types at the top level gives what visible declarations expose. -/
theorem Collects.exported_iff (h : rule.Collects source left names) {exported : String → Prop}
    (htop : ∀ name, exported name ↔ ∃ d, rule.TopLevel root d ∧ d.kind ∈ rule.types ∧
      d.Visible source none ∧ name ∈ names d) {name : String} :
    exported name ↔ ∃ d, rule.Exposes source root d name ∧ d.kind ∉ left := by
  have hcollected {d : Node} {outer : List Node} (hnested : rule.Nested root d outer)
      (hvisible : VisibleThroughout source d outer) (htype : d.kind ∈ rule.types) :
      ∀ name ∈ names d, exported name := by
    refine h.subset_of_nested ?_ hnested hvisible htype
    intro d top type visible name hname
    exact (htop name).2 ⟨d, top, type, visible, hname⟩
  constructor
  · intro hexported
    obtain ⟨d, top, type, visible, hname⟩ := (htop name).1 hexported
    exact h.exists_exposes (.top top type) visible type hname
  · rintro ⟨d, ⟨outer, hnested, hvisible, hdeclares⟩, hleft⟩
    by_cases htype : d.kind ∈ rule.types
    · -- a type declares nothing but its own name
      refine hcollected hnested hvisible htype name (h.mem_names.2 (.inl ?_))
      cases hdeclares with
      | own _ declared => exact declared
      | declarator kind _ _ => exact absurd kind (h.types_apart htype).2.1
    · cases hnested with
      | top _ type => exact absurd type htype
      | member around type member =>
          exact hcollected around hvisible.2 type name
            (h.mem_names.2 (.inr ⟨d, member, hvisible.1, .inr ⟨htype, hleft, hdeclares⟩⟩))

/-! ## Names of one member -/

/-- The names that are collected from a member, by its kind. -/
def memberNames (rule : VisibilityRule) (source : String) (left : List String)
    (fieldNames names : Node → List String) (m : Node) : List String :=
  if m.isOneOf rule.members then (m.declaredName? source).toList
  else if m.isOneOf (rule.fields.filter (· ∉ left)) then fieldNames m
  else if m.isOneOf rule.types then names m
  else []

/-- Members of other kinds have no names. -/
theorem memberNames_eq_nil {fieldNames : Node → List String} {m : Node}
    (h : m.kind ∉ rule.types ++ rule.members ++ rule.fields) :
    rule.memberNames source left fieldNames names m = [] := by
  simp only [List.mem_append, not_or] at h
  simp [memberNames, Node.isOneOf_iff, h]

/-- A kind is in one of the lists only, and the kinds `left` are among the last. -/
structure Apart (rule : VisibilityRule) (left : List String) : Prop where
  types : ∀ kind ∈ rule.types, kind ∉ rule.members ∧ kind ∉ rule.fields ∧ kind ∉ left
  members : ∀ kind ∈ rule.members, kind ∉ rule.fields ∧ kind ∉ left

theorem mem_memberNames (hapart : rule.Apart left) {fieldNames : Node → List String}
    (hfields : ∀ m name, name ∈ fieldNames m ↔
      ∃ d, rule.Declarator m d ∧ d.declaredName? source = some name) {m : Node} {name : String} :
    name ∈ rule.memberNames source left fieldNames names m ↔
      m.kind ∈ rule.types ∧ name ∈ names m ∨
        m.kind ∉ rule.types ∧ m.kind ∉ left ∧ rule.Declares source m name := by
  unfold memberNames
  simp only [Node.isOneOf_iff, List.mem_filter, decide_eq_true_eq]
  by_cases htype : m.kind ∈ rule.types
  · obtain ⟨hmember, hfield, -⟩ := hapart.types _ htype
    simp [htype, hmember, hfield]
  · by_cases hmember : m.kind ∈ rule.members
    · obtain ⟨hfield, hleft⟩ := hapart.members _ hmember
      have hdeclares : rule.Declares source m name ↔ m.declaredName? source = some name := by
        constructor
        · rintro (⟨-, declared⟩ | ⟨kind, -, -⟩)
          · exact declared
          · exact absurd kind hfield
        · exact .own (List.mem_append_right _ hmember)
      simp [htype, hmember, hleft, hdeclares]
    · have hdeclares : rule.Declares source m name ↔
          m.kind ∈ rule.fields ∧ name ∈ fieldNames m := by
        rw [hfields]
        constructor
        · rintro (⟨kind, -⟩ | ⟨kind, mem, declared⟩)
          · exact absurd kind (by simp [htype, hmember])
          · exact ⟨kind, _, mem, declared⟩
        · rintro ⟨kind, d, mem, declared⟩
          exact .declarator kind mem declared
      by_cases hread : m.kind ∈ rule.fields ∧ m.kind ∉ left
      · simp [htype, hmember, hread, hdeclares]
      · rw [if_neg hmember, if_neg hread, if_neg htype, hdeclares]
        simp only [List.not_mem_nil, htype, false_and, false_or, not_false_eq_true, true_and,
          false_iff]
        rintro ⟨hleft, hfield, -⟩
        exact hread ⟨hfield, hleft⟩

/-- Names that are collected member by member, from the members that have any. -/
theorem Collects.of_members (hapart : rule.Apart left) {fieldNames : Node → List String}
    (hfields : ∀ m name, name ∈ fieldNames m ↔
      ∃ d, rule.Declarator m d ∧ d.declaredName? source = some name)
    (hnames : ∀ d name, name ∈ names d ↔ d.declaredName? source = some name ∨
      ∃ m, rule.Member d m ∧ m.Visible source (some d) ∧
        name ∈ rule.memberNames source left fieldNames names m)
    (hsize : ∀ d m, rule.Member d m → sizeOf m < sizeOf d) : rule.Collects source left names where
  mem_names := by
    intro d name
    simp only [hnames d name, mem_memberNames hapart hfields]
  sizeOf_lt := hsize _ _
  types_apart type := hapart.types _ type

end VisibilityRule

/-! ## Java -/

namespace Language

namespace Java

/-- The members of a type: what stands in its body and, in an enum, in the part of the body behind
the constants. There is at most one such part; of several the first would count. -/
inductive Member (owner : Node) : Node → Prop where
  | inBody {body m : Node} (field : owner.field? "body" = some body)
      (mem : m ∈ body.namedChildren) : Member owner m
  | behindConstants {body part m : Node} (field : owner.field? "body" = some body)
      (first : body.namedChildren.find? (·.kind == "enum_body_declarations") = some part)
      (mem : m ∈ part.namedChildren) : Member owner m

theorem Member.exists_body {owner m : Node} (h : Member owner m) :
    ∃ body, owner.field? "body" = some body := by
  cases h with
  | inBody field _ => exact ⟨_, field⟩
  | behindConstants field _ _ => exact ⟨_, field⟩

/-- How Java nests its declarations. -/
def visibility : VisibilityRule where
  types := typeDeclarations
  members := ["method_declaration", "constructor_declaration"]
  fields := ["field_declaration", "constant_declaration"]
  TopLevel root d := d ∈ root.namedChildren
  Member := Member
  Declarator field d := d ∈ field.namedChildren ∧ d.kind = "variable_declarator"

theorem visibility_apart : visibility.Apart [] where
  types := by decide
  members := by decide

theorem mem_fieldNames {source : String} (field : Node) (name : String) :
    name ∈ fieldNames source field ↔
      ∃ d, visibility.Declarator field d ∧ d.declaredName? source = some name := by
  simp only [fieldNames, visibility, List.mem_filterMap, List.mem_filter, beq_iff_eq]

/-- The part behind the constants is no member itself; its children are. -/
theorem mem_bodyMembers {owner body m : Node} (hbody : owner.field? "body" = some body)
    (hkind : m.kind ≠ "enum_body_declarations") : m ∈ bodyMembers body ↔ Member owner m := by
  have hmember : Member owner m ↔ m ∈ body.namedChildren ∨
      ∃ part ∈ body.namedChildren.find? (·.kind == "enum_body_declarations"),
        m ∈ part.namedChildren := by
    constructor
    · rintro (⟨hbody', mem⟩ | ⟨hbody', part, mem⟩)
      · exact .inl (Option.some.inj (hbody.symm.trans hbody') ▸ mem)
      · exact .inr ⟨_, Option.some.inj (hbody.symm.trans hbody') ▸ part, mem⟩
    · rintro (mem | ⟨part, hpart, mem⟩)
      · exact .inBody hbody mem
      · exact .behindConstants hbody hpart mem
  rw [hmember, bodyMembers]
  split
  · next part hpart =>
    rw [List.mem_append, List.mem_eraseP_of_neg (by simpa using hkind)]
    simp [hpart]
  · next hnone => simp [hnone]

theorem typeNames_eq (source : String) (d : Node) :
    typeNames source d = (d.declaredName? source).toList ++
      (d.field? "body").toList.flatMap fun body => (bodyMembers body).flatMap fun m =>
        if !(d.kind == "interface_declaration" || m.hasModifier source "public") then []
        else visibility.memberNames source [] (fieldNames source) (typeNames source) m := by
  rw [typeNames]
  congr 1
  split
  · next hbody => rw [hbody]; rfl
  · next body hbody =>
    rw [hbody, Option.toList_some, List.flatMap_singleton, List.flatMap_subtype,
      List.unattach_attach]
    intro m _
    rfl

theorem mem_typeNames {source : String} (d : Node) (name : String) :
    name ∈ typeNames source d ↔ d.declaredName? source = some name ∨
      ∃ m, visibility.Member d m ∧ m.Visible source (some d) ∧
        name ∈ visibility.memberNames source [] (fieldNames source) (typeNames source) m := by
  have hkind {m : Node} (h : name ∈ visibility.memberNames source [] (fieldNames source)
      (typeNames source) m) : m.kind ≠ "enum_body_declarations" := by
    intro heq
    rw [VisibilityRule.memberNames_eq_nil (by rw [heq]; decide)] at h
    exact List.not_mem_nil h
  rw [typeNames_eq, List.mem_append, Option.mem_toList]
  simp only [List.mem_flatMap, Option.mem_toList, Node.mem_ite_visible]
  refine or_congr_right ⟨?_, ?_⟩
  · rintro ⟨body, hbody, m, hmem, hvisible, hname⟩
    exact ⟨m, (mem_bodyMembers hbody (hkind hname)).1 hmem, hvisible, hname⟩
  · rintro ⟨m, hmember, hvisible, hname⟩
    obtain ⟨body, hbody⟩ := hmember.exists_body
    exact ⟨body, hbody, m, (mem_bodyMembers hbody (hkind hname)).2 hmember, hvisible, hname⟩

theorem sizeOf_lt_of_member {owner m : Node} (h : Member owner m) : sizeOf m < sizeOf owner := by
  cases h with
  | inBody field mem => exact Node.sizeOf_lt_of_mem_field? field mem
  | behindConstants field first mem =>
      have hpart := Node.sizeOf_lt_of_mem_field? field (List.mem_of_find?_eq_some first)
      exact Nat.lt_trans (Node.sizeOf_lt_of_mem_namedChildren mem) hpart

theorem visibility_collects (source : String) : visibility.Collects source [] (typeNames source) :=
  .of_members visibility_apart mem_fieldNames mem_typeNames fun _ _ => sizeOf_lt_of_member

theorem mem_exports {source : String} {root : Node} (name : String) :
    name ∈ exports source root ↔ ∃ d, visibility.TopLevel root d ∧ d.kind ∈ visibility.types ∧
      d.Visible source none ∧ name ∈ typeNames source d := by
  simp only [exports, visibility, List.mem_eraseDups, List.mem_flatMap, List.mem_filter,
    Bool.and_eq_true, Node.isOneOf_iff, Node.visible_none, and_assoc]

end Java

/-! ## C# -/

namespace CSharp

/-- The declarations of a scope, through any nesting of namespaces. -/
inductive InScope : Node → Node → Prop where
  | item {scope d : Node} (mem : d ∈ scope.namedChildren) : InScope scope d
  | block {scope space body d : Node} (mem : space ∈ scope.namedChildren)
      (kind : space.kind = "namespace_declaration") (field : space.field? "body" = some body)
      (inner : InScope body d) : InScope scope d
  | file {scope space d : Node} (mem : space ∈ scope.namedChildren)
      (kind : space.kind = "file_scoped_namespace_declaration") (inner : InScope space d) :
      InScope scope d

/-- How C# nests its declarations. An event is declared like a property, with accessors, or like a
field, with declarators. -/
def visibility : VisibilityRule where
  types := exportableTypes
  members :=
    ["method_declaration", "constructor_declaration", "property_declaration", "event_declaration"]
  fields := ["field_declaration", "event_field_declaration"]
  TopLevel := InScope
  Member owner m := ∃ body, owner.field? "body" = some body ∧ m ∈ body.namedChildren
  Declarator field d := ∃ declaration ∈ field.namedChildren,
    declaration.kind = "variable_declaration" ∧ d ∈ declaration.namedChildren ∧
      d.kind = "variable_declarator"

/-- The kinds of members that are left out of the exports. -/
def leftOut : List String := ["event_field_declaration"]

theorem visibility_apart : visibility.Apart leftOut where
  types := by decide
  members := by decide

theorem mem_fieldNames {source : String} (field : Node) (name : String) :
    name ∈ fieldNames source field ↔
      ∃ d, visibility.Declarator field d ∧ d.declaredName? source = some name := by
  simp only [fieldNames, visibility, List.mem_filterMap, List.mem_flatMap, List.mem_filter,
    beq_iff_eq, and_assoc]

/-- Of the two kinds of members with declarators, one is left out. -/
theorem memberNames_eq {source : String} (m : Node) :
    visibility.memberNames source leftOut (fieldNames source) (typeNames source) m =
      if m.isOneOf ["method_declaration", "constructor_declaration", "property_declaration",
          "event_declaration"] then (m.declaredName? source).toList
      else if m.kind == "field_declaration" then fieldNames source m
      else if m.isOneOf exportableTypes then typeNames source m
      else [] := by
  have hread : visibility.fields.filter (· ∉ leftOut) = ["field_declaration"] := by decide
  have hkind : m.isOneOf ["field_declaration"] = (m.kind == "field_declaration") :=
    Bool.eq_iff_iff.2 (by simp [Node.isOneOf_iff])
  rw [VisibilityRule.memberNames, hread, hkind]
  rfl

theorem mem_typeNames {source : String} (d : Node) (name : String) :
    name ∈ typeNames source d ↔ d.declaredName? source = some name ∨
      ∃ m, visibility.Member d m ∧ m.Visible source (some d) ∧
        name ∈ visibility.memberNames source leftOut (fieldNames source) (typeNames source) m := by
  rw [typeNames, List.mem_append, Option.mem_toList]
  refine or_congr Iff.rfl ?_
  split
  · next hbody => simp [visibility, hbody]
  · next body hbody =>
    simp only [List.flatMap_subtype, List.unattach_attach, List.mem_flatMap, Node.mem_ite_visible]
    constructor
    · rintro ⟨m, hmem, hvisible, hname⟩
      exact ⟨m, ⟨body, hbody, hmem⟩, hvisible, by rwa [memberNames_eq]⟩
    · rintro ⟨m, ⟨body', hbody', hmem⟩, hvisible, hname⟩
      cases hbody.symm.trans hbody'
      exact ⟨m, hmem, hvisible, by rwa [memberNames_eq] at hname⟩

theorem visibility_collects (source : String) :
    visibility.Collects source leftOut (typeNames source) :=
  .of_members visibility_apart mem_fieldNames mem_typeNames
    fun _ _ ⟨_, hbody, hmem⟩ => Node.sizeOf_lt_of_mem_field? hbody hmem

/-- What a scope exports comes from one of its items: a namespace, or a public type. -/
theorem mem_scopeNames_iff {source : String} {scope : Node} {name : String} :
    name ∈ scopeNames source scope ↔ ∃ item ∈ scope.namedChildren,
      (item.kind = "namespace_declaration" ∧
        ∃ body, item.field? "body" = some body ∧ name ∈ scopeNames source body) ∨
      (item.kind = "file_scoped_namespace_declaration" ∧ name ∈ scopeNames source item) ∨
      (item.kind ∈ exportableTypes ∧ item.Visible source none ∧ name ∈ typeNames source item) := by
  rw [scopeNames]
  simp only [List.flatMap_subtype, List.unattach_attach, List.mem_flatMap]
  refine exists_congr fun item => and_congr_right fun _ => ?_
  have hspace : "namespace_declaration" ∉ exportableTypes := by decide
  have hfile : "file_scoped_namespace_declaration" ∉ exportableTypes := by decide
  split
  · next hkind =>
    simp only [beq_iff_eq] at hkind
    simp only [hkind, hspace]
    cases item.field? "body" <;> simp
  · next hkind =>
    split
    · next hkind' =>
      simp only [beq_iff_eq] at hkind'
      simp [hkind', hfile]
    · next hkind' =>
      simp only [beq_iff_eq] at hkind hkind'
      simp only [hkind, hkind', false_and, false_or, Node.visible_none, ← Node.isOneOf_iff]
      cases item.isOneOf exportableTypes <;> cases item.hasModifier source "public" <;> simp

theorem exists_inScope_of_mem_scopeNames {source : String} {scope : Node} {name : String}
    (h : name ∈ scopeNames source scope) : ∃ d, InScope scope d ∧ d.kind ∈ exportableTypes ∧
      d.Visible source none ∧ name ∈ typeNames source d := by
  obtain ⟨item, hitem, ⟨kind, body, field, hbelow⟩ | ⟨kind, hbelow⟩ | htype⟩ :=
    mem_scopeNames_iff.1 h
  · obtain ⟨d, inner, hd⟩ := exists_inScope_of_mem_scopeNames hbelow
    exact ⟨d, .block hitem kind field inner, hd⟩
  · obtain ⟨d, inner, hd⟩ := exists_inScope_of_mem_scopeNames hbelow
    exact ⟨d, .file hitem kind inner, hd⟩
  · exact ⟨item, .item hitem, htype⟩
termination_by sizeOf scope
decreasing_by
  · exact Nat.lt_trans (Node.sizeOf_lt_of_field? field) (Node.sizeOf_lt_of_mem_namedChildren hitem)
  · exact Node.sizeOf_lt_of_mem_namedChildren hitem

theorem mem_scopeNames_of_inScope {source : String} {scope d : Node} {name : String}
    (h : InScope scope d) (htype : d.kind ∈ exportableTypes) (hvisible : d.Visible source none)
    (hname : name ∈ typeNames source d) : name ∈ scopeNames source scope := by
  induction h with
  | item mem => exact mem_scopeNames_iff.2 ⟨_, mem, .inr (.inr ⟨htype, hvisible, hname⟩)⟩
  | block mem kind field _ ih =>
      exact mem_scopeNames_iff.2 ⟨_, mem, .inl ⟨kind, _, field, ih htype hvisible hname⟩⟩
  | file mem kind _ ih =>
      exact mem_scopeNames_iff.2 ⟨_, mem, .inr (.inl ⟨kind, ih htype hvisible hname⟩)⟩

theorem mem_exports {source : String} {root : Node} (name : String) :
    name ∈ exports source root ↔ ∃ d, visibility.TopLevel root d ∧ d.kind ∈ visibility.types ∧
      d.Visible source none ∧ name ∈ typeNames source d := by
  rw [exports, List.mem_eraseDups]
  constructor
  · exact exists_inScope_of_mem_scopeNames
  · rintro ⟨d, hscope, htype, hvisible, hname⟩
    exact mem_scopeNames_of_inScope hscope htype hvisible hname

end CSharp

/-! ## Exported names -/

/-- A Java file exports the names that visible declarations in visible types declare. So does a C#
file, without the events that are declared like fields. -/
theorem exports_iff_exposed {source : String} {root : Node} {name : String} :
    (name ∈ java.exports source root ↔ ∃ d, Java.visibility.Exposes source root d name) ∧
    (name ∈ cSharp.exports source root ↔
      ∃ d, CSharp.visibility.Exposes source root d name ∧ d.kind ≠ "event_field_declaration") := by
  constructor
  · have hexported : name ∈ java.exports source root ↔
        ∃ d, Java.visibility.Exposes source root d name ∧ d.kind ∉ ([] : List String) :=
      (Java.visibility_collects source).exported_iff Java.mem_exports
    simpa only [List.not_mem_nil, not_false_eq_true, and_true] using hexported
  · have hexported : name ∈ cSharp.exports source root ↔
        ∃ d, CSharp.visibility.Exposes source root d name ∧ d.kind ∉ CSharp.leftOut :=
      (CSharp.visibility_collects source).exported_iff CSharp.mem_exports
    simpa only [CSharp.leftOut, List.mem_singleton] using hexported

/-- An interface with an event that is declared like a field. -/
private def feedText : String := "public interface IFeed \x7b event Action Changed; \x7d\n"

private def feedEvent : Node :=
  Sample.construct 8 "event_field_declaration" 25 46
    [Sample.token 9 "event" 25,
     Sample.construct 10 "variable_declaration" 31 45
       [Sample.construct 11 "identifier" 31 37 [] (some "type"),
        Sample.construct 12 "variable_declarator" 38 45
          [Sample.construct 13 "identifier" 38 45 [] (some "name")]],
     Sample.token 14 ";" 45]

private def feedInterface : Node :=
  Sample.construct 1 "interface_declaration" 0 48
    [Sample.construct 2 "modifier" 0 6 [Sample.token 3 "public" 0],
     Sample.token 4 "interface" 7, Sample.construct 5 "identifier" 17 22 [] (some "name"),
     Sample.construct 6 "declaration_list" 23 48
       [Sample.token 7 "\x7b" 23, feedEvent, Sample.token 15 "\x7d" 47]
       (some "body")]

private def feedFile : Node :=
  Sample.construct 0 "compilation_unit" 0 49 [feedInterface]

/-- The event is a member of a public interface, and is not exported. -/
theorem event_field_not_exported :
    CSharp.visibility.Exposes feedText feedFile feedEvent "Changed" ∧
      cSharp.exports feedText feedFile = ["IFeed"] := by
  constructor
  · have htop : CSharp.visibility.Nested feedFile feedInterface [] :=
      .top (.item List.mem_cons_self) (by decide)
    have hnested : CSharp.visibility.Nested feedFile feedEvent [feedInterface] :=
      .member htop (by decide) ⟨_, rfl, List.mem_cons_self⟩
    have hpublic : feedInterface.Visible feedText none := .inl (by decide +kernel)
    have hmember : feedEvent.Visible feedText (some feedInterface) := .inr ⟨_, rfl, rfl⟩
    refine ⟨_, hnested, ⟨hmember, hpublic⟩, ?_⟩
    exact .declarator (by decide) ⟨_, List.mem_cons_self, rfl,
      List.mem_cons_of_mem _ List.mem_cons_self, rfl⟩ (by decide +kernel)
  · have htype : CSharp.typeNames feedText feedInterface = ["IFeed"] := by
      rw [CSharp.typeNames]
      decide +kernel
    have hscope : CSharp.scopeNames feedText feedFile =
        CSharp.typeNames feedText feedInterface ++ [] := by
      rw [CSharp.scopeNames]
      rfl
    change (CSharp.scopeNames feedText feedFile).eraseDups = _
    rw [hscope, htype]
    decide

end Language

end SourceChunks
