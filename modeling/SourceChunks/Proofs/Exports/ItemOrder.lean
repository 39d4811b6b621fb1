-- SUMMARY: The names that a Rust file exports, and what of them depends on the order of its items.
import SourceChunks.Language.Rust
import SourceChunks.Proofs.Imports

/-!
# The order of items

A Rust file exports the names of its public items first. Then its implementations are gone through
in source order, and each adds its public methods if the name of its type is exported by then.
Types and methods share one list of names, so a method that is called like a type lets in the
methods of that type, but only from the implementations that come later. This is the one way in
which the order of the items shows.
-/

namespace SourceChunks

theorem mem_foldl_pushNew {values new : List String} {name : String} :
    name ∈ new.foldl pushNew values ↔ name ∈ values ∨ name ∈ new := by
  induction new generalizing values with
  | nil => simp
  | cons value new ih =>
      have hpush : name ∈ pushNew values value ↔ name ∈ values ∨ name = value := by
        unfold pushNew
        split <;> grind
      rw [List.foldl_cons, ih, hpush, List.mem_cons, or_assoc]

namespace Language

namespace Rust

variable {source : String} {root root' : Node}

/-! ## What a file offers -/

/-- The names of the public items of a file and of its public modules. -/
def publicItems (source : String) (root : Node) : List String :=
  (offers source root).filterMap (·.name?)

/-- The implementations of a file and of its public modules, in source order. -/
def implementations (source : String) (root : Node) : List Node :=
  (offers source root).filterMap (·.methods?)

/-- The name of the type that an implementation is for. -/
def typeName? (source : String) (implementation : Node) : Option String :=
  (implementation.field? "type").bind (·.simpleName? source)

/-- What a single item offers. -/
def itemOffers (source : String) (item : Node) : List Offer :=
  if item.kind == "impl_item" then [.methods item]
  else if !isPublic source item then []
  else
    (itemNames source item).map .name ++
      if item.kind == "mod_item" then ((item.field? "body").map (offers source)).getD [] else []

theorem offers_eq (source : String) (scope : Node) :
    offers source scope = scope.namedChildren.flatMap (itemOffers source) := by
  rw [offers]
  simp only [List.flatMap_subtype, List.unattach_attach]
  congr 1
  funext item
  unfold itemOffers
  congr 4
  split
  · next hbody => rw [hbody]; rfl
  · next hbody => rw [hbody]; rfl

/-- Items in another order offer the same, in another order. -/
theorem offers_perm (h : root.namedChildren.Perm root'.namedChildren) :
    (offers source root).Perm (offers source root') := by
  rw [offers_eq, offers_eq]
  exact h.flatMap_right _

theorem mem_publicItems_iff (h : root.namedChildren.Perm root'.namedChildren) {name : String} :
    name ∈ publicItems source root ↔ name ∈ publicItems source root' :=
  ((offers_perm h).filterMap _).mem_iff

theorem mem_implementations_iff (h : root.namedChildren.Perm root'.namedChildren)
    {implementation : Node} :
    implementation ∈ implementations source root ↔
      implementation ∈ implementations source root' :=
  ((offers_perm h).filterMap _).mem_iff

theorem implementations_eq (source : String) (root : Node) : implementations source root =
    root.namedChildren.flatMap fun item => (itemOffers source item).filterMap (·.methods?) := by
  rw [implementations, offers_eq, List.filterMap_flatMap]

/-- Items other than implementations and modules hold no implementations. -/
theorem implementations_of_item {item : Node} (himpl : item.kind ≠ "impl_item")
    (hmod : item.kind ≠ "mod_item") : (itemOffers source item).filterMap (·.methods?) = [] := by
  unfold itemOffers
  cases isPublic source item with
  | false => simp [himpl]
  | true => simp [himpl, hmod, Offer.methods?]

/-! ## Going through the implementations -/

/-- One implementation adds its methods if its type is there, and nothing otherwise. -/
theorem mem_addMethods {exports : List String} {implementation : Node} {name : String} :
    name ∈ addMethods source exports implementation ↔
      name ∈ exports ∨ ∃ type ∈ exports, typeName? source implementation = some type ∧
        name ∈ methodNames source implementation := by
  unfold addMethods
  change name ∈ (if (typeName? source implementation).any exports.contains = true then _ else _) ↔ _
  cases htype : typeName? source implementation with
  | none => simp
  | some type =>
      by_cases hmem : type ∈ exports
      · simp only [Option.any_some, List.contains_eq_mem, hmem, decide_true, if_pos,
          mem_foldl_pushNew]
        grind
      · simp only [Option.any_some, List.contains_eq_mem, hmem, decide_false, Bool.false_eq_true,
          if_false]
        grind

theorem subset_foldl_addMethods (source : String) (exports : List String) (impls : List Node) :
    exports ⊆ impls.foldl (addMethods source) exports := by
  induction impls generalizing exports with
  | nil => exact List.Subset.refl _
  | cons implementation rest ih =>
      intro name hname
      exact ih _ (mem_addMethods.2 (.inl hname))

/-- The methods of a type that is exported from the start. -/
theorem mem_foldl_addMethods_of_type {exports : List String} {impls : List Node}
    {implementation : Node} {type name : String} (himpl : implementation ∈ impls)
    (htype : typeName? source implementation = some type) (hmem : type ∈ exports)
    (hname : name ∈ methodNames source implementation) :
    name ∈ impls.foldl (addMethods source) exports := by
  induction impls generalizing exports with
  | nil => simp at himpl
  | cons first rest ih =>
      rcases List.mem_cons.1 himpl with rfl | himpl
      · apply subset_foldl_addMethods source _ rest
        exact mem_addMethods.2 (.inr ⟨type, hmem, htype, hname⟩)
      · exact ih himpl (mem_addMethods.2 (.inl hmem))

/-- What holds of the names at the start and of the methods of types of which it holds, holds of
all names at the end. -/
theorem forall_mem_foldl_addMethods {P : String → Prop} {exports : List String}
    {impls : List Node} (hstart : ∀ name ∈ exports, P name)
    (hstep : ∀ implementation ∈ impls, ∀ type, typeName? source implementation = some type →
      P type → ∀ name ∈ methodNames source implementation, P name) :
    ∀ name ∈ impls.foldl (addMethods source) exports, P name := by
  induction impls generalizing exports with
  | nil => exact hstart
  | cons first rest ih =>
      rw [List.forall_mem_cons] at hstep
      apply ih _ hstep.2
      intro name hname
      rcases mem_addMethods.1 hname with hname | ⟨type, hmem, htype, hname⟩
      · exact hstart name hname
      · exact hstep.1 type htype (hstart type hmem) name hname

/-- A name that is new at the end is a method of a type whose name is there at the end. -/
theorem exists_type_of_mem_foldl_addMethods {exports : List String} {impls : List Node}
    {name : String} (h : name ∈ impls.foldl (addMethods source) exports) :
    name ∈ exports ∨ ∃ implementation ∈ impls, name ∈ methodNames source implementation ∧
      ∃ type ∈ impls.foldl (addMethods source) exports,
        typeName? source implementation = some type := by
  induction impls generalizing exports with
  | nil => exact .inl h
  | cons first rest ih =>
      obtain hold | ⟨implementation, himpl, hname, htype⟩ := ih h
      · rcases mem_addMethods.1 hold with hold | ⟨type, hmem, htype, hname⟩
        · exact .inl hold
        · have hkept := subset_foldl_addMethods source exports (first :: rest) hmem
          exact .inr ⟨first, List.mem_cons_self, hname, type, hkept, htype⟩
      · exact .inr ⟨implementation, List.mem_cons_of_mem _ himpl, hname, htype⟩

/-- Which names are exported in the end depends on which are exported at the start, not on their
order. -/
theorem mem_foldl_addMethods_congr {exports exports' : List String} (impls : List Node)
    (h : ∀ name, name ∈ exports ↔ name ∈ exports') (name : String) :
    name ∈ impls.foldl (addMethods source) exports ↔
      name ∈ impls.foldl (addMethods source) exports' := by
  induction impls generalizing exports exports' with
  | nil => exact h name
  | cons first rest ih =>
      apply ih
      intro other
      simp only [mem_addMethods, h]

/-! ## Exported names -/

theorem exports_eq (source : String) (root : Node) : exports source root =
    (implementations source root).foldl (addMethods source) (publicItems source root).eraseDups :=
  rfl

/-- The names that a file exports in any order of its items: those of its public items, and the
public methods of the types among these. -/
def Settled (source : String) (root : Node) (name : String) : Prop :=
  name ∈ publicItems source root ∨
    ∃ implementation ∈ implementations source root, ∃ type ∈ publicItems source root,
      typeName? source implementation = some type ∧ name ∈ methodNames source implementation

/-- A settled method is called like a type that is implemented and is no public item itself. -/
def MethodNamesType (source : String) (root : Node) (name : String) : Prop :=
  Settled source root name ∧ name ∉ publicItems source root ∧
    ∃ implementation ∈ implementations source root, typeName? source implementation = some name

theorem Settled.of_perm (h : root.namedChildren.Perm root'.namedChildren) {name : String}
    (hname : Settled source root name) : Settled source root' name := by
  rcases hname with hitem | ⟨implementation, himpl, type, htype, heq, hname⟩
  · exact .inl ((mem_publicItems_iff h).1 hitem)
  · exact .inr ⟨implementation, (mem_implementations_iff h).1 himpl, type,
      (mem_publicItems_iff h).1 htype, heq, hname⟩

theorem MethodNamesType.of_perm (h : root.namedChildren.Perm root'.namedChildren) {name : String}
    (hname : MethodNamesType source root name) : MethodNamesType source root' name := by
  obtain ⟨hsettled, hitem, implementation, himpl, htype⟩ := hname
  refine ⟨hsettled.of_perm h, ?_, implementation, (mem_implementations_iff h).1 himpl, htype⟩
  rwa [← mem_publicItems_iff h]

theorem Settled.mem_exports {name : String} (h : Settled source root name) :
    name ∈ exports source root := by
  rw [exports_eq]
  rcases h with hitem | ⟨implementation, himpl, type, htype, heq, hname⟩
  · exact subset_foldl_addMethods source _ _ (List.mem_eraseDups.2 hitem)
  · exact mem_foldl_addMethods_of_type himpl heq (List.mem_eraseDups.2 htype) hname

/-- Without methods that are called like types, nothing but the settled names is exported. -/
theorem mem_exports_iff_settled (h : ∀ name, ¬ MethodNamesType source root name) {name : String} :
    name ∈ exports source root ↔ Settled source root name := by
  refine ⟨fun hname => ?_, Settled.mem_exports⟩
  rw [exports_eq] at hname
  refine forall_mem_foldl_addMethods (P := Settled source root) ?_ ?_ name hname
  · intro item hitem
    exact .inl (List.mem_eraseDups.1 hitem)
  · intro implementation himpl type htype hsettled method hmethod
    by_cases hitem : type ∈ publicItems source root
    · exact .inr ⟨implementation, himpl, type, hitem, htype, hmethod⟩
    · exact absurd ⟨hsettled, hitem, implementation, himpl, htype⟩ (h type)

/-- An exported name that is not settled is a method of a type that is exported without being a
public item, so the type has the name of a method. -/
theorem settled_or_exists_type {name : String} (h : name ∈ exports source root) :
    Settled source root name ∨ ∃ implementation ∈ implementations source root,
      name ∈ methodNames source implementation ∧ ∃ type ∈ exports source root,
        type ∉ publicItems source root ∧ typeName? source implementation = some type := by
  obtain hitem | ⟨implementation, himpl, hname, type, htype, heq⟩ :=
    exists_type_of_mem_foldl_addMethods h
  · exact .inl (.inl (List.mem_eraseDups.1 hitem))
  · by_cases hitem : type ∈ publicItems source root
    · exact .inl (.inr ⟨implementation, himpl, type, hitem, heq, hname⟩)
    · exact .inr ⟨implementation, himpl, hname, type, htype, hitem, heq⟩

end Rust

/-- The items of a file in another order. A name that is exported in one order only is a method of
a type that is no public item and has its name exported nevertheless, as that of a method. So the
order does not show if the implementations keep theirs, nor if no method of a public item is called
like another type that is implemented. -/
theorem rust_exports_reordered {source : String} {root root' : Node}
    (h : root.namedChildren.Perm root'.namedChildren) :
    (∀ name ∈ rust.exports source root, name ∈ rust.exports source root' ∨
      ∃ implementation ∈ Rust.implementations source root,
        name ∈ Rust.methodNames source implementation ∧
        ∃ type ∈ rust.exports source root, type ∉ Rust.publicItems source root ∧
          Rust.typeName? source implementation = some type) ∧
    (Rust.implementations source root = Rust.implementations source root' ∨
        (∀ name, ¬ Rust.MethodNamesType source root name) →
      ∀ name, name ∈ rust.exports source root ↔ name ∈ rust.exports source root') := by
  refine ⟨fun name hname => ?_, ?_⟩
  · exact (Rust.settled_or_exists_type hname).imp_left fun hsettled =>
      (hsettled.of_perm h).mem_exports
  · rintro (himpls | hapart) name
    · change name ∈ Rust.exports source root ↔ name ∈ Rust.exports source root'
      rw [Rust.exports_eq, Rust.exports_eq, himpls]
      apply Rust.mem_foldl_addMethods_congr
      intro item
      rw [List.mem_eraseDups, List.mem_eraseDups, Rust.mem_publicItems_iff h]
    · have hapart' : ∀ other, ¬ Rust.MethodNamesType source root' other :=
        fun other hother => hapart other (hother.of_perm h.symm)
      change name ∈ Rust.exports source root ↔ name ∈ Rust.exports source root'
      rw [Rust.mem_exports_iff_settled hapart, Rust.mem_exports_iff_settled hapart']
      exact ⟨.of_perm h, .of_perm h.symm⟩

/-- A public type and a private one, with an implementation each. -/
private def storeText : String :=
  "pub struct Store;\nstruct cache;\nimpl Store \x7b pub fn cache() \x7b\x7d \x7d\n" ++
    "impl cache \x7b pub fn evict() \x7b\x7d \x7d\n"

private def pubModifier (id start : Nat) : Node :=
  Sample.construct id "visibility_modifier" start (start + 3) [Sample.token (id + 1) "pub" start]

private def storeItem : Node :=
  Sample.construct 1 "struct_item" 0 17
    [pubModifier 2 0, Sample.token 4 "struct" 4,
     Sample.construct 5 "type_identifier" 11 16 [] (some "name"), Sample.token 6 ";" 16]

private def cacheItem : Node :=
  Sample.construct 7 "struct_item" 18 31
    [Sample.token 8 "struct" 18, Sample.construct 9 "type_identifier" 25 30 [] (some "name"),
     Sample.token 10 ";" 30]

/-- An implementation of a type whose name has five letters, with a method whose name has five. -/
private def implementation (id start : Nat) : Node :=
  Sample.construct id "impl_item" start (start + 32)
    [Sample.token (id + 1) "impl" start,
     Sample.construct (id + 2) "type_identifier" (start + 5) (start + 10) [] (some "type"),
     Sample.construct (id + 3) "declaration_list" (start + 11) (start + 32)
       [Sample.token (id + 4) "\x7b" (start + 11),
        Sample.construct (id + 5) "function_item" (start + 13) (start + 30)
          [pubModifier (id + 6) (start + 13), Sample.token (id + 8) "fn" (start + 17),
           Sample.construct (id + 9) "identifier" (start + 20) (start + 25) [] (some "name"),
           Sample.construct (id + 10) "parameters" (start + 25) (start + 27)
             [Sample.token (id + 11) "(" (start + 25), Sample.token (id + 12) ")" (start + 26)]
             (some "parameters"),
           Sample.construct (id + 13) "block" (start + 28) (start + 30)
             [Sample.token (id + 14) "\x7b" (start + 28),
              Sample.token (id + 15) "\x7d" (start + 29)]
             (some "body")],
        Sample.token (id + 16) "\x7d" (start + 31)]
       (some "body")]

/-- The file with its items in some order. -/
private def storeFile (items : List Node) : Node :=
  Sample.construct 0 "source_file" 0 98 items

private theorem namedChildren_storeFile {items : List Node}
    (h : ∀ item ∈ items, item.isNamed = true) : (storeFile items).namedChildren = items :=
  List.filter_eq_self.2 h

private def implStore : Node := implementation 11 32

private def implCache : Node := implementation 28 65

/-- Moving the public type behind everything else changes nothing: the implementations keep their
order, so the methods of `cache` are still exported. -/
theorem rust_exports_reordered_moved :
    (storeFile [storeItem, cacheItem, implStore, implCache]).namedChildren.Perm
      (storeFile [cacheItem, implStore, implCache, storeItem]).namedChildren ∧
    "evict" ∈ rust.exports storeText (storeFile [storeItem, cacheItem, implStore, implCache]) ∧
    "evict" ∈ rust.exports storeText (storeFile [cacheItem, implStore, implCache, storeItem]) := by
  have hperm : (storeFile [storeItem, cacheItem, implStore, implCache]).namedChildren.Perm
      (storeFile [cacheItem, implStore, implCache, storeItem]).namedChildren :=
    @List.perm_append_comm _ [storeItem] [cacheItem, implStore, implCache]
  have himpls : Rust.implementations storeText
        (storeFile [storeItem, cacheItem, implStore, implCache]) =
      Rust.implementations storeText (storeFile [cacheItem, implStore, implCache, storeItem]) := by
    have hstore : (Rust.itemOffers storeText storeItem).filterMap (·.methods?) = [] :=
      Rust.implementations_of_item (by decide) (by decide)
    rw [Rust.implementations_eq, Rust.implementations_eq, namedChildren_storeFile (by decide),
      namedChildren_storeFile (by decide)]
    simp only [List.flatMap_cons, List.flatMap_nil, hstore, List.nil_append, List.append_nil]
  have hevict : "evict" ∈
      rust.exports storeText (storeFile [storeItem, cacheItem, implStore, implCache]) := by
    change _ ∈ Rust.exports _ _
    rw [Rust.exports, Rust.offers_eq]
    decide +kernel
  exact ⟨hperm, hevict, ((rust_exports_reordered hperm).2 (.inl himpls) "evict").1 hevict⟩

/-- A method that is called like a private type lets in the methods of that type, if their
implementation comes later and not if it comes first. -/
theorem rust_exports_depend_on_order :
    (storeFile [storeItem, cacheItem, implStore, implCache]).namedChildren.Perm
      (storeFile [storeItem, cacheItem, implCache, implStore]).namedChildren ∧
    rust.exports storeText (storeFile [storeItem, cacheItem, implStore, implCache]) =
      ["Store", "cache", "evict"] ∧
    rust.exports storeText (storeFile [storeItem, cacheItem, implCache, implStore]) =
      ["Store", "cache"] := by
  refine ⟨.cons _ (.cons _ (.swap _ _ _)), ?_, ?_⟩
  all_goals
    change Rust.exports _ _ = _
    rw [Rust.exports, Rust.offers_eq]
    decide +kernel

end Language

end SourceChunks
