-- SUMMARY: Trees that differ in nothing but comments, and what can be read off them alike.
import Mathlib.Data.List.Forall2
import SourceChunks.Proofs.Tree
import SourceChunks.Symbol.Name

/-!
# Trees that differ in comments

A parser puts comments among the children of whatever construct they stand in. Two trees are equal
up to comments if they agree once the comments are left out: in the kinds of their nodes, in the
order of their children, in what their fields answer with, and in the text of the nodes that hold
no comment. A node that holds none is read alike in both trees, whichever way it is read.
-/

namespace SourceChunks

/-! ## Related lists and options -/

section Related

variable {α β γ : Type} {R : α → β → Prop}

theorem flatMap_eq_of_forall₂ {xs : List α} {ys : List β} (h : List.Forall₂ R xs ys)
    {f : α → List γ} {g : β → List γ} (hfg : ∀ x y, R x y → f x = g y) :
    xs.flatMap f = ys.flatMap g := by
  induction h with
  | nil => rfl
  | cons hxy _ ih => rw [List.flatMap_cons, List.flatMap_cons, hfg _ _ hxy, ih]

theorem flatMap_filter_of_eq_nil {p : α → Bool} {f : α → List γ} {xs : List α}
    (h : ∀ x ∈ xs, p x = false → f x = []) : (xs.filter p).flatMap f = xs.flatMap f := by
  induction xs with
  | nil => rfl
  | cons x xs ih =>
      have hrest := ih fun y hy => h y (List.mem_cons_of_mem _ hy)
      rw [List.filter_cons, List.flatMap_cons]
      cases hx : p x with
      | true => rw [if_pos rfl, List.flatMap_cons, hrest]
      | false => rw [h x List.mem_cons_self hx, List.nil_append, ← hrest]; rfl

theorem filterMap_eq_of_forall₂ {xs : List α} {ys : List β} (h : List.Forall₂ R xs ys)
    {f : α → Option γ} {g : β → Option γ} (hfg : ∀ x y, R x y → f x = g y) :
    xs.filterMap f = ys.filterMap g := by
  rw [List.filterMap_eq_flatMap_toList, List.filterMap_eq_flatMap_toList]
  exact flatMap_eq_of_forall₂ h fun x y hxy => by rw [hfg x y hxy]

theorem forall₂_of_mem {S : α → β → Prop} {xs : List α} {ys : List β} (h : List.Forall₂ R xs ys)
    (hRS : ∀ x ∈ xs, ∀ y ∈ ys, R x y → S x y) : List.Forall₂ S xs ys := by
  induction h with
  | nil => exact .nil
  | cons hxy _ ih =>
      refine .cons (hRS _ List.mem_cons_self _ List.mem_cons_self hxy) (ih ?_)
      intro x hx y hy
      exact hRS x (List.mem_cons_of_mem _ hx) y (List.mem_cons_of_mem _ hy)

theorem forall₂_filter {xs : List α} {ys : List β} (h : List.Forall₂ R xs ys) {p : α → Bool}
    {q : β → Bool} (hpq : ∀ x y, R x y → p x = q y) :
    List.Forall₂ R (xs.filter p) (ys.filter q) := by
  refine List.rel_filter ?_ h
  intro x y hxy
  dsimp only
  rw [hpq x y hxy]

theorem forall₂_eraseP {xs : List α} {ys : List β} (h : List.Forall₂ R xs ys) {p : α → Bool}
    {q : β → Bool} (hpq : ∀ x y, R x y → p x = q y) :
    List.Forall₂ R (xs.eraseP p) (ys.eraseP q) := by
  induction h with
  | nil => exact .nil
  | @cons x y _ _ hxy hrest ih =>
      rw [List.eraseP_cons, List.eraseP_cons, ← hpq x y hxy]
      cases p x with
      | true => exact hrest
      | false => exact .cons hxy ih

theorem any_eq_of_forall₂ {xs : List α} {ys : List β} (h : List.Forall₂ R xs ys) {p : α → Bool}
    {q : β → Bool} (hpq : ∀ x y, R x y → p x = q y) : xs.any p = ys.any q := by
  induction h with
  | nil => rfl
  | cons hxy _ ih => rw [List.any_cons, List.any_cons, hpq _ _ hxy, ih]

theorem rel_head? {xs : List α} {ys : List β} (h : List.Forall₂ R xs ys) :
    Option.Rel R xs.head? ys.head? := by
  cases h with
  | nil => exact .none
  | cons hxy _ => exact .some hxy

theorem rel_getLast? {xs : List α} {ys : List β} (h : List.Forall₂ R xs ys) :
    Option.Rel R xs.getLast? ys.getLast? := by
  rw [← List.head?_reverse, ← List.head?_reverse]
  exact rel_head? (List.rel_reverse h)

theorem map_eq_of_rel {x : Option α} {y : Option β} (h : Option.Rel R x y) {f : α → γ} {g : β → γ}
    (hfg : ∀ a b, R a b → f a = g b) : x.map f = y.map g := by
  cases h with
  | none => rfl
  | some hab => rw [Option.map_some, Option.map_some, hfg _ _ hab]

theorem bind_eq_of_rel {x : Option α} {y : Option β} (h : Option.Rel R x y) {f : α → Option γ}
    {g : β → Option γ} (hfg : ∀ a b, R a b → f a = g b) : x.bind f = y.bind g := by
  cases h with
  | none => rfl
  | some hab => exact hfg _ _ hab

theorem rel_of_eq_some {S : α → β → Prop} {x : Option α} {y : Option β} (h : Option.Rel R x y)
    (hRS : ∀ a b, x = some a → y = some b → R a b → S a b) : Option.Rel S x y := by
  cases h with
  | none => exact .none
  | some hab => exact .some (hRS _ _ rfl rfl hab)

theorem rel_filter {x : Option α} {y : Option β} (h : Option.Rel R x y) {p : α → Bool}
    {q : β → Bool} (hpq : ∀ a b, R a b → p a = q b) :
    Option.Rel (fun a b => R a b ∧ p a = true) (x.filter p) (y.filter q) := by
  cases h with
  | none => exact .none
  | @some a b hab =>
      rw [Option.filter_some, Option.filter_some, ← hpq a b hab]
      split
      · next hp => exact .some ⟨hab, hp⟩
      · exact .none

theorem rel_or {x x' : Option α} {y y' : Option β} (h : Option.Rel R x y)
    (h' : Option.Rel R x' y') : Option.Rel R (x <|> x') (y <|> y') := by
  cases h with
  | none => exact h'
  | some hab => exact .some hab

theorem rel_bind {δ : Type} {S : γ → δ → Prop} {x : Option α} {y : Option β}
    (h : Option.Rel R x y) {f : α → Option γ} {g : β → Option δ}
    (hfg : ∀ a b, R a b → Option.Rel S (f a) (g b)) : Option.Rel S (x.bind f) (y.bind g) := by
  cases h with
  | none => exact .none
  | some hab => exact hfg _ _ hab

end Related

namespace Node

/-! ## Names of related nodes -/

section Names

variable {R : Node → Node → Prop} {source source' : String} {n n' : Node}

/-- One step towards the name of a node leads alike, be it by a field or by position. -/
theorem rel_nameStep? (hkind : n.kind = n'.kind)
    (hfields : ∀ name, Option.Rel R (n.field? name) (n'.field? name))
    (hchildren : List.Forall₂ R n.namedChildren n'.namedChildren) :
    Option.Rel R n.nameStep? n'.nameStep? := by
  have hhead := rel_head? hchildren
  have hlast := rel_getLast? hchildren
  unfold nameStep?
  rw [hkind]
  split <;> first
    | exact hfields _
    | exact hhead
    | exact rel_or (hfields _) hlast
    | exact rel_or (hfields _) (rel_or (hfields _) hhead)
    | exact .none

/-- Nodes have the same name if they are related in a way that every step towards a name keeps, and
identifiers related so have the same text. -/
theorem simpleName?_eq_of_step (hkind : ∀ c c', R c c' → c.kind = c'.kind)
    (hstep : ∀ c c', R c c' → Option.Rel R c.nameStep? c'.nameStep?)
    (htext : ∀ c c', R c c' → c.isIdentifier = true → c.text source = c'.text source')
    (h : R n n') : n.simpleName? source = n'.simpleName? source' := by
  have hwithin (steps : Nat) {c c' : Node} (hc : R c c') :
      Option.Rel (fun d d' => d.text source = d'.text source')
        (c.nameWithin? steps) (c'.nameWithin? steps) := by
    induction steps generalizing c c' with
    | zero => exact .none
    | succ steps ih =>
        have hsame : c.isIdentifier = c'.isIdentifier := by
          rw [isIdentifier, isIdentifier, isOneOf, isOneOf, hkind c c' hc]
        rw [nameWithin?, nameWithin?, ← hsame]
        split
        · next hidentifier => exact .some (htext c c' hc hidentifier)
        · exact rel_bind (hstep c c' hc) fun d d' hd => ih hd
  refine bind_eq_of_rel (hwithin maxNameSteps h) fun c c' hc => ?_
  rw [hc]

end Names

/-! ## Comments among children -/

/-- Whether a node is a comment: a construct whose kind has the word in it. -/
def isRemark (n : Node) : Bool :=
  n.isNamed && n.isComment

theorem kind_ne_of_isComment {n : Node} (h : n.isComment = true) {kind : String}
    (hkind : Text.holds "comment" kind = false) : n.kind ≠ kind := by
  intro heq
  rw [isComment, heq, hkind] at h
  cases h

/-- The children of a node, comments apart. -/
def substance (n : Node) : List Node :=
  n.children.filter (!·.isRemark)

/-- A comment as grammars have them: it is held under no field, and the constructs in it are parts
of comments. -/
def PlainRemark (n : Node) : Prop :=
  n.label.field = none ∧ ∀ d ∈ n.preorder, d.isNamed = true → d.isComment = true

/-- Nothing below a node is a comment. -/
def Silent (n : Node) : Prop :=
  ∀ d ∈ n.descendants, d.isRemark = false

instance (n : Node) : Decidable n.PlainRemark :=
  inferInstanceAs (Decidable (_ ∧ _))

instance (n : Node) : Decidable n.Silent :=
  inferInstanceAs (Decidable (∀ _ ∈ _, _))

theorem Silent.of_mem_descendants {n d : Node} (h : n.Silent) (hd : d ∈ n.descendants) :
    d.Silent := by
  intro e he
  obtain ⟨child, hchild, hd⟩ := mem_descendants.1 hd
  exact h e (mem_descendants.2
    ⟨child, hchild, mem_preorder_trans (mem_preorder_of_mem_descendants he) hd⟩)

theorem Silent.of_mem_namedChildren {n c : Node} (h : n.Silent) (hc : c ∈ n.namedChildren) :
    c.Silent :=
  h.of_mem_descendants (mem_descendants_of_mem_children (mem_children_of_mem_namedChildren hc))

theorem Silent.substance_eq {n : Node} (h : n.Silent) : n.substance = n.children := by
  refine List.filter_eq_self.2 fun c hc => ?_
  rw [h c (mem_descendants_of_mem_children hc)]
  rfl

/-- The constructs among the children of a node, comments apart. -/
def constructs (n : Node) : List Node :=
  n.namedChildren.filter (!·.isComment)

theorem constructs_eq (n : Node) : n.constructs = n.substance.filter (·.isNamed) := by
  rw [constructs, namedChildren, substance, List.filter_filter, List.filter_filter]
  refine List.filter_congr fun c _ => ?_
  cases hnamed : c.isNamed <;> simp [isRemark, hnamed]

theorem constructs_subset (n : Node) : n.constructs ⊆ n.children :=
  fun _ hc => mem_children_of_mem_namedChildren (List.mem_filter.1 hc).1

/-- The first construct, if no comment stands before it. -/
theorem head?_constructs {n : Node}
    (h : ∀ first ∈ n.namedChildren.head?, first.isComment = false) :
    n.constructs.head? = n.namedChildren.head? := by
  rw [constructs]
  cases hchildren : n.namedChildren with
  | nil => rfl
  | cons first rest =>
      have hfirst : first.isComment = false := h first (by rw [hchildren]; rfl)
      rw [List.filter_cons, hfirst]
      rfl

/-- Comments are not among the children under a field. -/
theorem fieldChildren_eq {n : Node}
    (remarks : ∀ c ∈ n.children, c.isRemark = true → c.PlainRemark) (name : String) :
    n.fieldChildren name = n.substance.filter (·.label.field == some name) := by
  rw [fieldChildren, substance, List.filter_filter]
  refine List.filter_congr fun c hc => ?_
  cases hremark : c.isRemark with
  | false => simp
  | true => simp [(remarks c hc hremark).1]

theorem field?_eq_head? {n : Node} (resolved : n.label.resolved = []) (name : String) :
    n.field? name = (n.fieldChildren name).head? := by
  rw [field?, resolved, List.lookup_nil, fieldChildren, List.head?_filter]

/-! ## Equality up to comments -/

/-- Two nodes, each with its source, that differ in nothing but comments. Of the text it is enough
to say that it is the same where there is no comment. -/
inductive EqUpToComments (source source' : String) : Node → Node → Prop where
  | intro {n n' : Node} (kind : n.kind = n'.kind) (named : n.isNamed = n'.isNamed)
      (field : n.label.field = n'.label.field)
      (text : n.Silent → n'.Silent → n.text source = n'.text source')
      (remarks : ∀ c ∈ n.children, c.isRemark = true → c.PlainRemark)
      (remarks' : ∀ c ∈ n'.children, c.isRemark = true → c.PlainRemark)
      (children : List.Forall₂ (EqUpToComments source source') n.substance n'.substance)
      (fields : ∀ name, Option.Rel (EqUpToComments source source')
        (n.field? name) (n'.field? name)) :
      EqUpToComments source source' n n'

namespace EqUpToComments

variable {source source' : String} {n n' : Node}

theorem kind_eq (h : EqUpToComments source source' n n') : n.kind = n'.kind := by
  cases h
  assumption

theorem isNamed_eq (h : EqUpToComments source source' n n') : n.isNamed = n'.isNamed := by
  cases h
  assumption

theorem field_eq (h : EqUpToComments source source' n n') : n.label.field = n'.label.field := by
  cases h
  assumption

theorem plain (h : EqUpToComments source source' n n') :
    (∀ c ∈ n.children, c.isRemark = true → c.PlainRemark) ∧
      ∀ c ∈ n'.children, c.isRemark = true → c.PlainRemark := by
  cases h
  exact ⟨‹_›, ‹_›⟩

theorem forall₂_substance (h : EqUpToComments source source' n n') :
    List.Forall₂ (EqUpToComments source source') n.substance n'.substance := by
  cases h
  assumption

theorem rel_field? (h : EqUpToComments source source' n n') (name : String) :
    Option.Rel (EqUpToComments source source') (n.field? name) (n'.field? name) := by
  cases h with
  | intro kind named field text remarks remarks' children fields => exact fields name

/-- Nodes without comments have the same text. -/
theorem text_eq (h : EqUpToComments source source' n n') (hn : n.Silent) (hn' : n'.Silent) :
    n.text source = n'.text source' := by
  cases h with
  | intro kind named field text remarks remarks' children fields => exact text hn hn'

/-- Where no field is resolved otherwise than by the first child under it, fields answer alike if
the children do, since comments are held under no field. -/
theorem of_children (kind : n.kind = n'.kind) (named : n.isNamed = n'.isNamed)
    (field : n.label.field = n'.label.field)
    (text : n.Silent → n'.Silent → n.text source = n'.text source')
    (remarks : ∀ c ∈ n.children, c.isRemark = true → c.PlainRemark)
    (remarks' : ∀ c ∈ n'.children, c.isRemark = true → c.PlainRemark)
    (resolved : n.label.resolved = []) (resolved' : n'.label.resolved = [])
    (children : List.Forall₂ (EqUpToComments source source') n.substance n'.substance) :
    EqUpToComments source source' n n' := by
  refine .intro kind named field text remarks remarks' children fun name => ?_
  rw [field?_eq_head? resolved, field?_eq_head? resolved', fieldChildren_eq remarks,
    fieldChildren_eq remarks']
  refine rel_head? (forall₂_filter children ?_)
  intro c c' hc
  rw [hc.field_eq]

theorem forall₂_fieldChildren (h : EqUpToComments source source' n n') (name : String) :
    List.Forall₂ (EqUpToComments source source')
      (n.fieldChildren name) (n'.fieldChildren name) := by
  rw [fieldChildren_eq h.plain.1, fieldChildren_eq h.plain.2]
  refine forall₂_filter h.forall₂_substance ?_
  intro c c' hc
  rw [hc.field_eq]

theorem forall₂_constructs (h : EqUpToComments source source' n n') :
    List.Forall₂ (EqUpToComments source source') n.constructs n'.constructs := by
  rw [constructs_eq, constructs_eq]
  exact forall₂_filter h.forall₂_substance fun c c' hc => hc.isNamed_eq

end EqUpToComments

/-! ## Nodes without comments -/

/-- Two nodes that do not differ: they are equal up to comments and hold none. -/
structure Same (source source' : String) (n n' : Node) : Prop where
  eqUpToComments : EqUpToComments source source' n n'
  silent : n.Silent
  silent' : n'.Silent

namespace Same

variable {source source' : String} {n n' : Node}

theorem kind_eq (h : Same source source' n n') : n.kind = n'.kind :=
  h.eqUpToComments.kind_eq

theorem text_eq (h : Same source source' n n') : n.text source = n'.text source' :=
  h.eqUpToComments.text_eq h.silent h.silent'

theorem rel_field? (h : Same source source' n n') (name : String) :
    Option.Rel (Same source source') (n.field? name) (n'.field? name) := by
  refine rel_of_eq_some (h.eqUpToComments.rel_field? name) ?_
  intro c c' hc hc' heq
  exact ⟨heq, h.silent.of_mem_descendants (mem_descendants_of_field? hc),
    h.silent'.of_mem_descendants (mem_descendants_of_field? hc')⟩

theorem forall₂_namedChildren (h : Same source source' n n') :
    List.Forall₂ (Same source source') n.namedChildren n'.namedChildren := by
  have hchildren := h.eqUpToComments.forall₂_substance
  rw [h.silent.substance_eq, h.silent'.substance_eq] at hchildren
  refine forall₂_of_mem (forall₂_filter hchildren fun c c' hc => hc.isNamed_eq) ?_
  intro c hc c' hc' heq
  exact ⟨heq, h.silent.of_mem_namedChildren hc, h.silent'.of_mem_namedChildren hc'⟩

theorem simpleName?_eq (h : Same source source' n n') :
    n.simpleName? source = n'.simpleName? source' := by
  refine simpleName?_eq_of_step (fun c c' hc => hc.kind_eq) ?_ (fun c c' hc _ => hc.text_eq) h
  intro c c' hc
  exact rel_nameStep? hc.kind_eq hc.rel_field? hc.forall₂_namedChildren

end Same

end Node

end SourceChunks
