-- SUMMARY: Strings and comments in Java annotations change the exports by the word `public` alone.
import SourceChunks.Proofs.Comments
import SourceChunks.Proofs.Exports.Visibility
import SourceChunks.Proofs.Text.Blank

/-!
# Annotations and visibility

A Java declaration holds its keywords and its annotations in one list of modifiers, and it is taken
for public if `public` is a word of the text of that list. The string literals and comments in the
annotations belong to the text. Delimiters set them off from what is around them, so that they
matter in one way only: by having `public` among their own words. Where two files differ in nothing
but such quotations, and `public` is a word of them in both or in neither, they export the same.
-/

namespace SourceChunks

/-! ## Texts with quotations -/

namespace Text

/-- The characters at the ends of string literals and comments. -/
def isDelimiter (c : Char) : Bool :=
  c == '"' || c == '/'

/-- A part of a text that is set off from what is around it. It begins with a delimiter, and it ends
with one or, as a comment up to the end of a line does, in front of white space. -/
structure Delimited (part rest : String) : Prop where
  first : ∃ c ∈ part.toList.head?, isDelimiter c = true
  last : (∃ c ∈ part.toList.getLast?, isDelimiter c = true) ∨
    ∀ c ∈ rest.toList.head?, isBlank c = true

/-- A text is made of pieces with delimited parts in between. -/
inductive Woven : (text : String) → (pieces parts : List String) → Prop where
  | last (piece : String) : Woven piece [piece] []
  | cons {text : String} {pieces parts : List String} (piece part : String)
      (delimited : Delimited part text) (rest : Woven text pieces parts) :
      Woven (piece ++ (part ++ text)) (piece :: pieces) (part :: parts)

/-- A word that no delimiter is part of. -/
def Undelimited (word : String) : Prop :=
  ∀ c, isDelimiter c = true → Bounds word c

theorem undelimited_of_any {word : String} (h : word.toList.any isDelimiter = false) :
    Undelimited word := by
  intro c hc
  refine ⟨?_, fun hmem => ?_⟩
  · simp only [isDelimiter, Bool.or_eq_true, beq_iff_eq] at hc
    rcases hc with rfl | rfl <;> decide
  · have hany : word.toList.any isDelimiter = true := List.any_eq_true.2 ⟨c, hmem, hc⟩
    rw [h] at hany
    cases hany

variable {word text part rest : String} {pieces parts : List String}

/-- The words of a delimited part and of what comes behind it, with a delimiter in its place. -/
theorem Delimited.mem_words_append (hword : Undelimited word) (h : Delimited part rest) :
    word ∈ words (.ofList (part.toList ++ rest.toList)) ↔
      word ∈ words part ∨ word ∈ words (.ofList ('"' :: rest.toList)) := by
  have hquote : Bounds word '"' := hword '"' rfl
  rcases h.last with ⟨d, hd, hdelimiter⟩ | hblank
  · have hpart : part.toList = part.toList.dropLast ++ [d] :=
      (List.dropLast_append_getLast? d hd).symm
    have hd' := hword d hdelimiter
    have hcut := hd'.mem_words_append part.toList.dropLast rest.toList
    have hmark := hd'.mem_words_congr hquote [] rest.toList
    rw [List.nil_append, List.nil_append] at hmark
    rw [← hpart, String.ofList_toList, hmark] at hcut
    rw [hpart, List.append_assoc, List.singleton_append]
    exact hcut
  · cases hrest : rest.toList with
    | nil =>
        rw [List.append_nil, String.ofList_toList, or_iff_left hquote.not_mem_words_singleton]
    | cons c cs =>
        have hc : isBlank c = true := hblank c (by rw [hrest]; rfl)
        have hmark := words_append hc ['"'] cs
        rw [List.singleton_append] at hmark
        rw [words_append hc, hmark, List.mem_append, List.mem_append, String.ofList_toList,
          or_iff_right hquote.not_mem_words_singleton]

/-- A delimited part has words of its own; for the words around it a delimiter would do. -/
theorem Delimited.mem_words_iff (hword : Undelimited word) (h : Delimited part rest)
    (before : List Char) :
    word ∈ words (.ofList (before ++ (part.toList ++ rest.toList))) ↔
      word ∈ words part ∨ word ∈ words (.ofList (before ++ '"' :: rest.toList)) := by
  have hquote : Bounds word '"' := hword '"' rfl
  obtain ⟨c, hc, hdelimiter⟩ := h.first
  obtain ⟨cs, hpart⟩ := List.head?_eq_some_iff.1 hc
  have hc' := hword c hdelimiter
  calc word ∈ words (.ofList (before ++ (part.toList ++ rest.toList)))
    _ ↔ word ∈ words (.ofList (before ++ [c])) ∨
          word ∈ words (.ofList (part.toList ++ rest.toList)) := by
        rw [hpart]
        exact hc'.mem_words_append before (cs ++ rest.toList)
    _ ↔ word ∈ words (.ofList (before ++ ['"'])) ∨
          word ∈ words part ∨ word ∈ words (.ofList ('"' :: rest.toList)) := by
        rw [hc'.mem_words_congr hquote before [], h.mem_words_append hword]
    _ ↔ word ∈ words part ∨ word ∈ words (.ofList (before ++ '"' :: rest.toList)) := by
        rw [hquote.mem_words_append before rest.toList, or_left_comm]

/-- A word of a woven text is a word of one of its parts, or of the pieces with delimiters in
between. The induction carries what stands in front of the text, since a word could begin there. -/
theorem Woven.mem_words_iff (hword : Undelimited word) (h : Woven text pieces parts)
    (before : List Char) :
    word ∈ words (.ofList (before ++ text.toList)) ↔
      (∃ part ∈ parts, word ∈ words part) ∨
        word ∈ words (.ofList (before ++ ['"'].intercalate (pieces.map String.toList))) := by
  induction h generalizing before with
  | last piece => simp
  | @cons text pieces parts piece part delimited rest ih =>
      have hpieces : pieces.map String.toList ≠ [] := by
        cases rest <;> simp
      have hwhole := delimited.mem_words_iff hword (before ++ piece.toList)
      have hrest := ih (before ++ piece.toList ++ ['"'])
      simp only [List.append_assoc, List.singleton_append] at hwhole hrest
      rw [String.toList_append, String.toList_append, hwhole, hrest, List.map_cons,
        List.intercalate_cons_of_ne_nil hpieces, List.exists_mem_cons_iff, or_assoc]
      simp only [List.append_assoc, List.singleton_append]

/-- Texts that differ in their parts only have a word alike if the parts do. -/
theorem Woven.mem_words_congr (hword : Undelimited word) {text' : String} {parts' : List String}
    (h : Woven text pieces parts) (h' : Woven text' pieces parts')
    (hparts : (∃ part ∈ parts, word ∈ words part) ↔ ∃ part ∈ parts', word ∈ words part) :
    word ∈ words text ↔ word ∈ words text' := by
  have htext := h.mem_words_iff hword []
  have htext' := h'.mem_words_iff hword []
  rw [List.nil_append, String.ofList_toList] at htext htext'
  rw [htext, htext', hparts]

end Text

/-! ## Equality up to quotations in annotations -/

namespace Language.Java

/-- String literals and comments. -/
def isQuotation (n : Node) : Bool :=
  n.kind == "string_literal" || n.isComment

/-- The quotations in the annotations of a list of modifiers. -/
def quotations (modifiers : Node) : List Node :=
  let annotations := modifiers.namedChildren.filter (·.isOneOf ["annotation", "marker_annotation"])
  annotations.flatMap fun note => (note.visited (!isQuotation ·)).filter isQuotation

/-- The texts of the quotations in the annotations of a list of modifiers. -/
def quotedTexts (source : String) (modifiers : Node) : List String :=
  (quotations modifiers).map (·.text source)

/-- Two lists of modifiers, each with its source, that differ in nothing but the quotations in their
annotations. What these may say instead of one another is up to `allow`. -/
structure SameModifiers (allow : List String → List String → Prop) (source source' : String)
    (n n' : Node) : Prop where
  kind : n.kind = "modifiers"
  kind' : n'.kind = "modifiers"
  named : n.isNamed = n'.isNamed
  field : n.label.field = none
  field' : n'.label.field = none
  text : ∃ pieces, Text.Woven (n.text source) pieces (quotedTexts source n) ∧
    Text.Woven (n'.text source') pieces (quotedTexts source' n')
  allowed : allow (quotedTexts source n) (quotedTexts source' n')

mutual

/-- Two nodes, each with its source, that differ in nothing but quotations in the annotations of
lists of modifiers below them. Of the text it is enough to say that names and modifiers are the
same. -/
inductive EqUpToAnnotations (allow : List String → List String → Prop) (source source' : String) :
    Node → Node → Prop where
  | intro {n n' : Node} (kind : n.kind = n'.kind) (named : n.isNamed = n'.isNamed)
      (field : n.label.field = n'.label.field)
      (text : n.isIdentifier = true ∨ n.isOneOf ["modifiers", "modifier"] = true →
        n.text source = n'.text source')
      (children : List.Forall₂ (SameChild allow source source') n.children n'.children)
      (fields : ∀ name, Option.Rel (EqUpToAnnotations allow source source')
        (n.field? name) (n'.field? name)) :
      EqUpToAnnotations allow source source' n n'

/-- Two children of such nodes. -/
inductive SameChild (allow : List String → List String → Prop) (source source' : String) :
    Node → Node → Prop where
  | modifiers {n n' : Node} (same : SameModifiers allow source source' n n') :
      SameChild allow source source' n n'
  | other {n n' : Node} (equal : EqUpToAnnotations allow source source' n n') :
      SameChild allow source source' n n'

end

/-- The word `public` is in some of the quotations on both sides, or in none on either. -/
def SayPublicAlike (texts texts' : List String) : Prop :=
  (∃ text ∈ texts, "public" ∈ Text.words text) ↔ ∃ text ∈ texts', "public" ∈ Text.words text

variable {allow : List String → List String → Prop} {source source' : String} {n n' : Node}

namespace EqUpToAnnotations

theorem kind_eq (h : EqUpToAnnotations allow source source' n n') : n.kind = n'.kind := by
  cases h with
  | intro kind named field text children fields => exact kind

theorem isNamed_eq (h : EqUpToAnnotations allow source source' n n') :
    n.isNamed = n'.isNamed := by
  cases h with
  | intro kind named field text children fields => exact named

theorem isOneOf_eq (h : EqUpToAnnotations allow source source' n n') (kinds : List String) :
    n.isOneOf kinds = n'.isOneOf kinds := by
  rw [Node.isOneOf, Node.isOneOf, h.kind_eq]

theorem text_eq (h : EqUpToAnnotations allow source source' n n')
    (hkind : n.isIdentifier = true ∨ n.isOneOf ["modifiers", "modifier"] = true) :
    n.text source = n'.text source' := by
  cases h with
  | intro kind named field text children fields => exact text hkind

theorem forall₂_children (h : EqUpToAnnotations allow source source' n n') :
    List.Forall₂ (SameChild allow source source') n.children n'.children := by
  cases h with
  | intro kind named field text children fields => exact children

theorem rel_field? (h : EqUpToAnnotations allow source source' n n') (name : String) :
    Option.Rel (EqUpToAnnotations allow source source') (n.field? name) (n'.field? name) := by
  cases h with
  | intro kind named field text children fields => exact fields name

end EqUpToAnnotations

namespace SameChild

theorem kind_eq (h : SameChild allow source source' n n') : n.kind = n'.kind := by
  cases h with
  | modifiers same => rw [same.kind, same.kind']
  | other equal => exact equal.kind_eq

theorem isNamed_eq (h : SameChild allow source source' n n') : n.isNamed = n'.isNamed := by
  cases h with
  | modifiers same => exact same.named
  | other equal => exact equal.isNamed_eq

/-- Nodes of any kind but a list of modifiers do not differ themselves. -/
theorem eqUpToAnnotations (h : SameChild allow source source' n n')
    (hkind : n.kind ≠ "modifiers") : EqUpToAnnotations allow source source' n n' := by
  cases h with
  | modifiers same => exact absurd same.kind hkind
  | other equal => exact equal

end SameChild

theorem EqUpToAnnotations.forall₂_namedChildren (h : EqUpToAnnotations allow source source' n n') :
    List.Forall₂ (SameChild allow source source') n.namedChildren n'.namedChildren :=
  forall₂_filter h.forall₂_children fun _ _ hc => hc.isNamed_eq

/-! ## Names -/

theorem SameChild.rel_nameStep? (h : SameChild allow source source' n n') :
    Option.Rel (SameChild allow source source') n.nameStep? n'.nameStep? := by
  cases h with
  | modifiers same =>
      -- a list of modifiers leads to no name
      rw [Node.nameStep?, Node.nameStep?, same.kind, same.kind']
      exact .none
  | other equal =>
      refine Node.rel_nameStep? equal.kind_eq (fun name => ?_) equal.forall₂_namedChildren
      exact rel_of_eq_some (equal.rel_field? name) fun _ _ _ _ hc => .other hc

theorem SameChild.simpleName?_eq (h : SameChild allow source source' n n') :
    n.simpleName? source = n'.simpleName? source' := by
  refine Node.simpleName?_eq_of_step (fun c c' hc => hc.kind_eq)
    (fun c c' hc => hc.rel_nameStep?) (fun c c' hc hidentifier => ?_) h
  cases hc with
  | modifiers same =>
      rw [Node.isIdentifier, Node.isOneOf, same.kind] at hidentifier
      exact absurd hidentifier (by decide)
  | other equal => exact equal.text_eq (.inl hidentifier)

theorem EqUpToAnnotations.declaredName?_eq (h : EqUpToAnnotations allow source source' n n') :
    n.declaredName? source = n'.declaredName? source' :=
  bind_eq_of_rel (h.rel_field? "name") fun _ _ hc => (SameChild.other hc).simpleName?_eq

theorem EqUpToAnnotations.fieldNames_eq (h : EqUpToAnnotations allow source source' n n') :
    fieldNames source n = fieldNames source' n' := by
  have hdeclarators : List.Forall₂ (EqUpToAnnotations allow source source')
      (n.namedChildren.filter (·.kind == "variable_declarator"))
      (n'.namedChildren.filter (·.kind == "variable_declarator")) := by
    refine forall₂_of_mem (forall₂_filter h.forall₂_namedChildren fun c c' hc => ?_) ?_
    · rw [hc.kind_eq]
    · intro c hc c' _ hsame
      have hkind : c.kind = "variable_declarator" := by simpa using (List.mem_filter.1 hc).2
      exact hsame.eqUpToAnnotations (by rw [hkind]; decide)
  exact filterMap_eq_of_forall₂ hdeclarators fun _ _ hc => hc.declaredName?_eq

/-! ## Members -/

theorem EqUpToAnnotations.forall₂_bodyMembers (h : EqUpToAnnotations allow source source' n n') :
    List.Forall₂ (SameChild allow source source') (bodyMembers n) (bodyMembers n') := by
  have hkind {c c' : Node} (hc : SameChild allow source source' c c') :
      (c.kind == "enum_body_declarations") = (c'.kind == "enum_body_declarations") := by
    rw [hc.kind_eq]
  have hmembers := h.forall₂_namedChildren
  have hpart := rel_head? (forall₂_filter hmembers fun _ _ hc => hkind hc)
  rw [List.head?_filter, List.head?_filter] at hpart
  unfold bodyMembers
  dsimp only
  generalize hfind : n.namedChildren.find? (·.kind == "enum_body_declarations") = found at hpart ⊢
  generalize n'.namedChildren.find? (·.kind == "enum_body_declarations") = found' at hpart ⊢
  cases hpart with
  | none => exact hmembers
  | @some part part' hpart =>
      have hkind' : part.kind = "enum_body_declarations" := by simpa using List.find?_some hfind
      have hequal := hpart.eqUpToAnnotations (by rw [hkind']; decide)
      exact List.rel_append (forall₂_eraseP hmembers fun _ _ hc => hkind hc)
        hequal.forall₂_namedChildren

/-! ## Visibility -/

/-- Whether a list of modifiers has the word `public` depends on its quotations by that word. -/
theorem SameModifiers.contains_public_eq (h : SameModifiers SayPublicAlike source source' n n') :
    (Text.words (n.text source)).contains "public" =
      (Text.words (n'.text source')).contains "public" := by
  obtain ⟨pieces, hwoven, hwoven'⟩ := h.text
  have hpublic : Text.Undelimited "public" := Text.undelimited_of_any (by decide)
  rw [Bool.eq_iff_iff, List.contains_iff_mem, List.contains_iff_mem]
  exact hwoven.mem_words_congr hpublic hwoven' h.allowed

theorem EqUpToAnnotations.hasModifier_eq
    (h : EqUpToAnnotations SayPublicAlike source source' n n') :
    n.hasModifier source "public" = n'.hasModifier source' "public" := by
  have hlist {c : Node} (hkind : c.kind = "modifiers") :
      c.isOneOf ["modifiers", "modifier"] = true := by
    rw [Node.isOneOf, hkind]
    rfl
  refine any_eq_of_forall₂ h.forall₂_children fun c c' hc => ?_
  cases hc with
  | modifiers same =>
      rw [if_pos (hlist same.kind), if_pos (hlist same.kind'), same.contains_public_eq]
  | other equal =>
      rw [← equal.isOneOf_eq, ← equal.kind_eq]
      split
      · next hread => rw [equal.text_eq (.inr hread)]
      · rfl

/-- A list of modifiers among the members of a type counts for nothing. -/
theorem memberNames_of_modifiers (hkind : n.kind = "modifiers") :
    visibility.memberNames source [] (fieldNames source) (typeNames source) n = [] :=
  VisibilityRule.memberNames_eq_nil (by rw [hkind]; decide)

/-! ## Exports -/

theorem EqUpToAnnotations.memberNames_eq (h : EqUpToAnnotations allow source source' n n')
    (htypes : typeNames source n = typeNames source' n') :
    visibility.memberNames source [] (fieldNames source) (typeNames source) n =
      visibility.memberNames source' [] (fieldNames source') (typeNames source') n' := by
  simp only [VisibilityRule.memberNames, h.isOneOf_eq, h.declaredName?_eq, h.fieldNames_eq, htypes]

theorem EqUpToAnnotations.typeNames_eq {n n' : Node}
    (h : EqUpToAnnotations SayPublicAlike source source' n n') :
    typeNames source n = typeNames source' n' := by
  rw [Java.typeNames_eq, Java.typeNames_eq, h.declaredName?_eq]
  refine congrArg _ ?_
  generalize hfield : n.field? "body" = found
  have hbody := h.rel_field? "body"
  rw [hfield] at hbody
  generalize n'.field? "body" = found' at hbody ⊢
  cases hbody with
  | none => rw [Option.toList_none, List.flatMap_nil, List.flatMap_nil]
  | @some body body' hbody =>
      rw [Option.toList_some, Option.toList_some, List.flatMap_singleton, List.flatMap_singleton]
      refine flatMap_eq_of_forall₂ (forall₂_of_mem hbody.forall₂_bodyMembers ?_) fun _ _ hm => hm
      intro m hm m' _ hsame
      cases hsame with
      | modifiers same =>
          rw [memberNames_of_modifiers same.kind, memberNames_of_modifiers same.kind', ite_self,
            ite_self]
      | other equal =>
          have hsize : sizeOf m < sizeOf n :=
            Nat.lt_trans (sizeOf_lt_of_mem_bodyMembers hm) (Node.sizeOf_lt_of_field? hfield)
          rw [h.kind_eq, equal.hasModifier_eq, equal.memberNames_eq equal.typeNames_eq]
termination_by sizeOf n

/-- The public types of two files. -/
theorem EqUpToAnnotations.forall₂_exported
    (h : EqUpToAnnotations SayPublicAlike source source' n n') :
    List.Forall₂ (EqUpToAnnotations SayPublicAlike source source')
      (n.namedChildren.filter fun item =>
        item.isOneOf typeDeclarations && item.hasModifier source "public")
      (n'.namedChildren.filter fun item =>
        item.isOneOf typeDeclarations && item.hasModifier source' "public") := by
  have hnot : typeDeclarations.contains "modifiers" = false := by decide
  refine forall₂_of_mem (forall₂_filter h.forall₂_namedChildren fun c c' hc => ?_) ?_
  · cases hc with
    | modifiers same =>
        rw [Node.isOneOf, Node.isOneOf, same.kind, same.kind', hnot, Bool.false_and,
          Bool.false_and]
    | other equal => rw [equal.isOneOf_eq, equal.hasModifier_eq]
  · intro c hc c' _ hsame
    rw [List.mem_filter, Bool.and_eq_true] at hc
    have htype : typeDeclarations.contains c.kind = true := hc.2.1
    refine hsame.eqUpToAnnotations fun hkind => ?_
    rw [hkind, hnot] at htype
    cases htype

end Language.Java

/-- Files that differ in nothing but quotations in annotations export the same, in the same order,
if `public` is a word of the quotations of both or of neither, list of modifiers by list of
modifiers. -/
theorem Language.java_exports_eq_of_eqUpToAnnotations {source source' : String} {root root' : Node}
    (h : Java.EqUpToAnnotations Java.SayPublicAlike source source' root root') :
    java.exports source root = java.exports source' root' := by
  have hexported := Java.EqUpToAnnotations.forall₂_exported h
  change Java.exports source root = Java.exports source' root'
  unfold Java.exports
  rw [flatMap_eq_of_forall₂ hexported fun _ _ hc => hc.typeNames_eq]

/-! ## One tree with two texts -/

namespace Language

/-- A tree is equal to itself up to annotations, with two sources that agree on its names and, up to
quotations, on its lists of modifiers. -/
theorem Java.EqUpToAnnotations.of_same_tree {allow : List String → List String → Prop}
    {source source' : String} (n : Node) (hresolved : ∀ d ∈ n.preorder, d.label.resolved = [])
    (htext : ∀ d ∈ n.preorder, d.isIdentifier = true ∨ d.kind = "modifier" →
      d.text source = d.text source')
    (hmodifiers : ∀ d ∈ n.preorder, d.kind = "modifiers" → SameModifiers allow source source' d d)
    (hkind : n.kind ≠ "modifiers") : EqUpToAnnotations allow source source' n n := by
  induction n using Node.induction_children with
  | step n ih =>
      have hchild {c : Node} (hc : c ∈ n.children) (hother : c.kind ≠ "modifiers") :
          EqUpToAnnotations allow source source' c c := by
        have hbelow {d : Node} (hd : d ∈ c.preorder) : d ∈ n.preorder :=
          Node.mem_preorder_trans hd (Node.mem_preorder_of_mem_children hc)
        exact ih c hc (fun d hd => hresolved d (hbelow hd)) (fun d hd => htext d (hbelow hd))
          (fun d hd => hmodifiers d (hbelow hd)) hother
      have hself := Node.self_mem_preorder n
      refine .intro rfl rfl rfl (fun hread => htext n hself ?_) ?_ (fun name => ?_)
      · simpa [Node.isOneOf_iff, hkind] using hread
      · refine List.forall₂_same.2 fun c hc => ?_
        by_cases hlist : c.kind = "modifiers"
        · exact .modifiers (hmodifiers c (Node.mem_preorder_of_mem_children hc) hlist)
        · exact .other (hchild hc hlist)
      · rw [Node.field?_eq_head? (hresolved n hself)]
        cases hfield : (n.fieldChildren name).head? with
        | none => exact .none
        | some c =>
            obtain ⟨hc, hheld⟩ := List.mem_filter.1 (List.mem_of_mem_head? hfield)
            refine .some (hchild hc fun hlist => ?_)
            -- a list of modifiers is held under no field
            have hnone := (hmodifiers c (Node.mem_preorder_of_mem_children hc) hlist).field
            rw [hnone] at hheld
            cases hheld

/-- A public class whose only method has an annotation and no keyword. -/
private def boxText (note : String) : String :=
  "public class Box \x7b @Note(\"" ++ note ++ "\") void open() \x7b \x7d \x7d\n"

private def boxModifiers : Node :=
  Sample.construct 2 "modifiers" 0 6 [Sample.token 3 "public" 0]

private def noteModifiers : Node :=
  Sample.construct 9 "modifiers" 19 41
    [Sample.construct 10 "annotation" 19 41
      [Sample.token 11 "@" 19, Sample.construct 12 "identifier" 20 24 [] (some "name"),
       Sample.construct 13 "annotation_argument_list" 24 41
         [Sample.token 14 "(" 24,
          Sample.construct 15 "string_literal" 25 40
            [Sample.token 16 "\"" 25, Sample.construct 17 "string_fragment" 26 39 [],
             Sample.token 18 "\"" 39],
          Sample.token 19 ")" 40]
         (some "arguments")]]

private def boxClass : Node :=
  Sample.construct 1 "class_declaration" 0 59
    [boxModifiers, Sample.token 4 "class" 7,
     Sample.construct 5 "identifier" 13 16 [] (some "name"),
     Sample.construct 6 "class_body" 17 59
       [Sample.token 7 "\x7b" 17,
        Sample.construct 8 "method_declaration" 19 57
          [noteModifiers, Sample.construct 20 "void_type" 42 46 [] (some "type"),
           Sample.construct 21 "identifier" 47 51 [] (some "name"),
           Sample.construct 22 "formal_parameters" 51 53
             [Sample.token 23 "(" 51, Sample.token 24 ")" 52] (some "parameters"),
           Sample.construct 25 "block" 54 57
             [Sample.token 26 "\x7b" 54, Sample.token 27 "\x7d" 56] (some "body")],
        Sample.token 28 "\x7d" 58]
       (some "body")]

/-- The tree of the file, with a note of thirteen letters. -/
private def boxFile : Node :=
  Sample.construct 0 "program" 0 60 [boxClass]

/-- The string literal with a note. -/
private def quoted (note : String) : String :=
  "\"" ++ note ++ "\""

/-- A note fits into the annotation: it is its only quotation, and nothing else changes with it. -/
private structure Fits (note : String) : Prop where
  names : ∀ d ∈ boxFile.preorder, d.isIdentifier = true ∨ d.kind = "modifier" →
    d.text (boxText note) = d.text (boxText "a secret note")
  keyword : boxModifiers.text (boxText note) = "public"
  content : noteModifiers.text (boxText note) = "@Note(" ++ (quoted note ++ ")")
  quotations : Java.quotedTexts (boxText note) noteModifiers = [quoted note]

private theorem Fits.eqUpToAnnotations {allow : List String → List String → Prop}
    {note note' : String} (h : Fits note) (h' : Fits note') (hnone : allow [] [])
    (hnotes : allow [quoted note] [quoted note']) :
    Java.EqUpToAnnotations allow (boxText note) (boxText note') boxFile boxFile := by
  have hquoted (note : String) : Text.Delimited (quoted note) ")" :=
    ⟨⟨'"', by simp [quoted], rfl⟩, .inl ⟨'"', by simp [quoted, List.getLast?_cons], rfl⟩⟩
  have hbox : Java.SameModifiers allow (boxText note) (boxText note') boxModifiers
      boxModifiers := by
    refine ⟨rfl, rfl, rfl, rfl, rfl, ⟨["public"], ?_, ?_⟩, hnone⟩
    · rw [h.keyword]
      exact .last _
    · rw [h'.keyword]
      exact .last _
  have hnote : Java.SameModifiers allow (boxText note) (boxText note') noteModifiers
      noteModifiers := by
    refine ⟨rfl, rfl, rfl, rfl, rfl, ⟨["@Note(", ")"], ?_, ?_⟩, ?_⟩
    · rw [h.content, h.quotations]
      exact .cons _ _ (hquoted note) (.last _)
    · rw [h'.content, h'.quotations]
      exact .cons _ _ (hquoted note') (.last _)
    · rwa [h.quotations, h'.quotations]
  refine .of_same_tree boxFile (by decide) ?_ ?_ (by decide)
  · intro d hd hread
    rw [h.names d hd hread, h'.names d hd hread]
  · intro d hd hkind
    have hlists : boxFile.preorder.filter (·.kind == "modifiers") = [boxModifiers, noteModifiers] :=
      rfl
    have hmem : d ∈ boxFile.preorder.filter (·.kind == "modifiers") :=
      List.mem_filter.2 ⟨hd, beq_iff_eq.2 hkind⟩
    rw [hlists, List.mem_pair] at hmem
    rcases hmem with rfl | rfl
    · exact hbox
    · exact hnote

private theorem fits_secret : Fits "a secret note" :=
  ⟨by decide +kernel, by decide +kernel, by decide +kernel, by decide +kernel⟩

private theorem fits_hidden : Fits "a hidden note" :=
  ⟨by decide +kernel, by decide +kernel, by decide +kernel, by decide +kernel⟩

private theorem fits_public : Fits "a public note" :=
  ⟨by decide +kernel, by decide +kernel, by decide +kernel, by decide +kernel⟩

private theorem Fits.exports_eq {note : String} (h : Fits note) :
    java.exports (boxText note) boxFile = (Java.typeNames (boxText note) boxClass).eraseDups := by
  have hpublic : boxClass.hasModifier (boxText note) "public" = true := by
    refine List.any_eq_true.2 ⟨boxModifiers, List.mem_cons_self, ?_⟩
    have hlist : boxModifiers.isOneOf ["modifiers", "modifier"] = true := rfl
    rw [if_pos hlist, h.keyword]
    decide
  have htype : boxClass.isOneOf Java.typeDeclarations = true := rfl
  have hchildren : boxFile.namedChildren = [boxClass] := rfl
  have hexports : java.exports = Java.exports := rfl
  rw [hexports, Java.exports, hchildren, List.filter_cons, htype, hpublic]
  simp

/-- One note instead of another changes nothing. -/
theorem java_exports_eq_box :
    Java.EqUpToAnnotations Java.SayPublicAlike (boxText "a secret note") (boxText "a hidden note")
      boxFile boxFile ∧
    java.exports (boxText "a secret note") boxFile =
      java.exports (boxText "a hidden note") boxFile := by
  have hequal := fits_secret.eqUpToAnnotations fits_hidden
    (show Java.SayPublicAlike [] [] from Iff.rfl)
    (show Java.SayPublicAlike [quoted "a secret note"] [quoted "a hidden note"] by
      unfold Java.SayPublicAlike; decide +kernel)
  exact ⟨hequal, java_exports_eq_of_eqUpToAnnotations hequal⟩

/-- A note with the word `public` in it has the method exported. -/
theorem java_exports_depend_on_quotation :
    Java.EqUpToAnnotations (fun _ _ => True) (boxText "a secret note") (boxText "a public note")
      boxFile boxFile ∧
    java.exports (boxText "a secret note") boxFile = ["Box"] ∧
    java.exports (boxText "a public note") boxFile = ["Box", "open"] := by
  refine ⟨fits_secret.eqUpToAnnotations fits_public trivial trivial, ?_, ?_⟩
  · rw [fits_secret.exports_eq, Java.typeNames]
    decide +kernel
  · rw [fits_public.exports_eq, Java.typeNames]
    decide +kernel

end Language

end SourceChunks
