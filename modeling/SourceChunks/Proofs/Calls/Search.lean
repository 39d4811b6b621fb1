-- SUMMARY: A search for calls with a stack of pending nodes finds the sites of a preorder listing, each once.
import SourceChunks.Language.Registry
import SourceChunks.Proofs.Calls
import SourceChunks.Proofs.Imports
import SourceChunks.Proofs.Text.Blank

/-!
# Searching for calls

The calls of a construct are searched for with a stack: the node on top is taken, its own site is
recorded unless it is known, and its named children are put on top. Such a search always comes to
an end, and what it has then recorded is a list that can be given by recursion on the tree: the site
of a node, followed by the sites of its named children, without repetitions. So searching a part of
a tree, or for fewer kinds of calls, gives some of the same sites.
-/

namespace SourceChunks

namespace Node

/-! ## Nodes reached through named nodes -/

/-- A node leads to itself and to what its named children lead to. -/
inductive LeadsTo : Node → Node → Prop
  | refl (n : Node) : LeadsTo n n
  | child {n c m : Node} (hc : c ∈ n.namedChildren) (h : LeadsTo c m) : LeadsTo n m

theorem LeadsTo.trans {a b c : Node} (hab : a.LeadsTo b) (hbc : b.LeadsTo c) : a.LeadsTo c := by
  induction hab with
  | refl => exact hbc
  | child hc _ ih => exact .child hc (ih hbc)

/-- The site of a node, if the node is a call of one of the given kinds. -/
def siteAt? (kinds : List String) (source : String) (n : Node) : Option CallSite :=
  if n.isOneOf kinds then n.callSite? source else none

theorem siteAt?_eq_some_iff {kinds : List String} {source : String} {n : Node} {site : CallSite} :
    n.siteAt? kinds source = some site ↔
      n.isOneOf kinds = true ∧ n.callSite? source = some site := by
  unfold siteAt?
  split <;> simp_all

/-- What a call names is a name. -/
theorem isName_of_callSite? {source : String} {n : Node} {site : CallSite}
    (h : n.callSite? source = some site) : Text.IsName site.symbol := by
  obtain ⟨name, -, h⟩ := Option.bind_eq_some_iff.1 h
  dsimp only at h
  split at h
  · simp at h
  · next hname =>
    rw [← Option.some.inj h]
    exact ⟨by simpa using hname, Text.trimmed_trim _⟩

end Node

namespace CallSite

variable (kinds : List String) (source : String)

/-! ## Listing the sites of a tree -/

/-- A list of sites for every tree: the site of a node comes first, then those of its named
children, one child after the other. -/
def ListsSites (sites : Node → List CallSite) : Prop :=
  ∀ n, sites n = (n.siteAt? kinds source).toList ++ n.namedChildren.flatMap sites

/-- The sites of the calls that a node leads to, with repetitions. -/
def listing (n : Node) : List CallSite :=
  (n.namedPlaces (fun _ => true) none).filterMap fun place => place.node.siteAt? kinds source

theorem ofNode_eq (n : Node) : ofNode kinds source n = (listing kinds source n).eraseDups :=
  rfl

/-- The parent of a place does not matter for its site. -/
theorem filterMap_namedPlaces (parent : Option Node) (n : Node) :
    (n.namedPlaces (fun _ => true) parent).filterMap
      (fun place => place.node.siteAt? kinds source) = listing kinds source n := by
  cases n with
  | mk label children => rw [listing, Node.namedPlaces, Node.namedPlaces, List.filterMap_cons,
      List.filterMap_cons]

theorem listsSites_listing : ListsSites kinds source (listing kinds source) := by
  intro n
  cases n with
  | mk label children =>
    rw [listing, List.filterMap_eq_flatMap_toList, Node.namedPlaces, List.flatMap_cons, if_pos rfl,
      Node.namedPlacesAll_eq, List.flatMap_assoc]
    simp only [← List.filterMap_eq_flatMap_toList, filterMap_namedPlaces]
    rfl

/-- There is no other way to list the sites. -/
theorem ListsSites.eq_listing {sites : Node → List CallSite} (h : ListsSites kinds source sites)
    (n : Node) : sites n = listing kinds source n := by
  induction n using Node.induction_children with
  | step n ih =>
      have hchildren : ∀ c ∈ n.namedChildren, sites c = listing kinds source c := by
        intro c hc
        exact ih c (Node.mem_children_of_mem_namedChildren hc)
      rw [h n, listsSites_listing kinds source n, List.flatMap_def, List.flatMap_def,
        List.map_congr_left hchildren]

variable {kinds source} in
theorem mem_listing_iff {n : Node} {site : CallSite} :
    site ∈ listing kinds source n ↔
      ∃ call, n.LeadsTo call ∧ call.siteAt? kinds source = some site := by
  constructor
  · intro h
    induction n using Node.induction_children with
    | step n ih =>
        rw [listsSites_listing kinds source n, List.mem_append, Option.mem_toList,
          List.mem_flatMap] at h
        rcases h with h | ⟨c, hc, h⟩
        · exact ⟨n, .refl n, h⟩
        · obtain ⟨call, hcall, hsite⟩ := ih c (Node.mem_children_of_mem_namedChildren hc) h
          exact ⟨call, .child hc hcall, hsite⟩
  · rintro ⟨call, hcall, hsite⟩
    induction hcall with
    | refl n =>
        rw [listsSites_listing kinds source n, hsite]
        exact List.mem_append_left _ List.mem_cons_self
    | @child n c call hc _ ih =>
        rw [listsSites_listing kinds source n]
        exact List.mem_append_right _ (List.mem_flatMap.2 ⟨c, hc, ih hsite⟩)

/-! ## Recording each site once -/

/-- Adds a site to those recorded, unless it is one of them. -/
def record (found : List CallSite) (site : CallSite) : List CallSite :=
  if site ∈ found then found else found ++ [site]

theorem record_eraseDups (sites : List CallSite) (site : CallSite) :
    record sites.eraseDups site = (sites ++ [site]).eraseDups := by
  rw [eraseDups_concat, record]
  simp

theorem foldl_record (before sites : List CallSite) :
    sites.foldl record before.eraseDups = (before ++ sites).eraseDups :=
  foldl_eraseDups record_eraseDups before sites

end CallSite

/-! ## The search -/

/-- A search for calls on its way: the nodes still to be visited, the next one first, and the sites
recorded so far. -/
structure CallSearch where
  pending : List Node
  found : List CallSite

namespace CallSearch

open CallSite

variable (kinds : List String) (source : String)

/-- The search after a visit: the named children of the node come before what was pending. -/
def visit (n : Node) (rest : List Node) (found : List CallSite) : CallSearch :=
  ⟨n.namedChildren ++ rest, (n.siteAt? kinds source).toList.foldl record found⟩

/-- The search visits one pending node after the other, and answers when none is left. -/
inductive Finishes : CallSearch → List CallSite → Prop
  | done (found : List CallSite) : Finishes ⟨[], found⟩ found
  | step {n : Node} {rest : List Node} {found answer : List CallSite}
      (h : Finishes (visit kinds source n rest found) answer) : Finishes ⟨n :: rest, found⟩ answer

variable {kinds source}

/-- A visit takes sites from what is pending to what is recorded, and loses none. -/
theorem Finishes.eq {search : CallSearch} {answer : List CallSite}
    (h : Finishes kinds source search answer) :
    answer = (search.pending.flatMap (listing kinds source)).foldl record search.found := by
  induction h with
  | done found => rfl
  | @step n rest found answer _ ih =>
      rw [ih, visit, List.flatMap_append, List.flatMap_cons, listsSites_listing kinds source n,
        List.append_assoc]
      exact List.foldl_append.symm

/-- A search that ends when the sites of a node are recorded ends when the node is pending. -/
theorem Finishes.of_node (n : Node) {rest : List Node} {found answer : List CallSite}
    (h : Finishes kinds source ⟨rest, (listing kinds source n).foldl record found⟩ answer) :
    Finishes kinds source ⟨n :: rest, found⟩ answer := by
  induction n using Node.induction_children generalizing rest found with
  | step n ih =>
      have hnodes : ∀ (ns : List Node), (∀ c ∈ ns, c ∈ n.children) → ∀ found,
          Finishes kinds source ⟨rest, (ns.flatMap (listing kinds source)).foldl record found⟩
            answer →
          Finishes kinds source ⟨ns ++ rest, found⟩ answer := by
        intro ns
        induction ns with
        | nil => exact fun _ _ h => h
        | cons c ns ihns =>
            intro hsub found h
            rw [List.flatMap_cons, List.foldl_append] at h
            have htail := ihns (fun d hd => hsub d (List.mem_cons_of_mem c hd)) _ h
            exact ih c (hsub c List.mem_cons_self) htail
      rw [listsSites_listing kinds source n, List.foldl_append] at h
      exact .step (hnodes _ (fun _ => Node.mem_children_of_mem_namedChildren) _ h)

/-- Every search comes to an end, with the sites that the node leads to. -/
theorem finishes_iff (n : Node) (answer : List CallSite) :
    Finishes kinds source ⟨[n], []⟩ answer ↔ answer = CallSite.ofNode kinds source n := by
  have hrecorded : (listing kinds source n).foldl record [] = CallSite.ofNode kinds source n :=
    foldl_record [] (listing kinds source n)
  constructor
  · intro h
    rw [h.eq, List.flatMap_singleton, hrecorded]
  · rintro rfl
    refine .of_node n ?_
    rw [hrecorded]
    exact .done _

end CallSearch

namespace CallSite

/-- The kinds of calls of a language are among those of all languages. -/
theorem subset_allCallKinds {lang : Language} (h : lang ∈ Language.all) :
    lang.callKinds ⊆ Language.allCallKinds := by
  intro kind hkind
  exact List.mem_eraseDups.2 (List.mem_flatMap.2 ⟨lang, h, hkind⟩)

theorem mem_ofNode_iff {kinds : List String} {source : String} {n : Node} {site : CallSite} :
    site ∈ ofNode kinds source n ↔
      ∃ call, n.LeadsTo call ∧ call.isOneOf kinds = true ∧ call.callSite? source = some site := by
  rw [ofNode_eq, List.mem_eraseDups, mem_listing_iff]
  simp only [Node.siteAt?_eq_some_iff]

theorem ofNode_subset_of_subset {kinds kinds' : List String} (h : kinds ⊆ kinds')
    (source : String) (n : Node) : ofNode kinds source n ⊆ ofNode kinds' source n := by
  intro site hsite
  obtain ⟨call, hcall, hkind, hsite⟩ := mem_ofNode_iff.1 hsite
  have hkind' : call.isOneOf kinds' = true :=
    List.contains_iff_mem.2 (h (List.contains_iff_mem.1 hkind))
  exact mem_ofNode_iff.2 ⟨call, hcall, hkind', hsite⟩

/-- The call sites of a construct are those of the calls that named nodes lead to, in preorder and
each once, which is what a search with a stack comes to; every site has a name. So a part of a tree
has no other sites than the whole, and no language finds a site that is not found with the kinds of
calls of all languages. -/
theorem ofNode_sites (kinds : List String) (source : String) (n : Node) :
    (∃! sites, ListsSites kinds source sites) ∧
    (∀ sites, ListsSites kinds source sites → ofNode kinds source n = (sites n).eraseDups) ∧
    (∀ answer, CallSearch.Finishes kinds source ⟨[n], []⟩ answer ↔
      answer = ofNode kinds source n) ∧
    (ofNode kinds source n).Nodup ∧
    (∀ site, site ∈ ofNode kinds source n ↔
      ∃ call, n.LeadsTo call ∧ call.isOneOf kinds = true ∧ call.callSite? source = some site) ∧
    (∀ site ∈ ofNode kinds source n, site.symbol ≠ "" ∧ Text.Trimmed site.symbol) ∧
    (∀ m, n.LeadsTo m → ofNode kinds source m ⊆ ofNode kinds source n) ∧
    ∀ lang ∈ Language.all,
      ofNode lang.callKinds source n ⊆ ofNode Language.allCallKinds source n := by
  refine ⟨⟨listing kinds source, listsSites_listing kinds source,
    fun sites h => funext (h.eq_listing kinds source)⟩, ?_, CallSearch.finishes_iff n,
    nodup_eraseDups _, fun _ => mem_ofNode_iff, ?_, ?_, ?_⟩
  · intro sites h
    rw [h.eq_listing kinds source n, ofNode_eq]
  · intro site hsite
    obtain ⟨call, -, -, hsite⟩ := mem_ofNode_iff.1 hsite
    exact Node.isName_of_callSite? hsite
  · intro m hm site hsite
    obtain ⟨call, hcall, hkind, hsite⟩ := mem_ofNode_iff.1 hsite
    exact mem_ofNode_iff.2 ⟨call, hm.trans hcall, hkind, hsite⟩
  · intro lang hlang
    exact ofNode_subset_of_subset (subset_allCallKinds hlang) source n

/-- The body of the sample calls `g` and then `h`; the first call is found from the whole file too,
and with the calls of all languages. -/
theorem ofNode_sites_sample :
    Sample.tree.LeadsTo (Sample.call 9 11) ∧
    ofNode Language.rust.callKinds Sample.text (Sample.call 9 11) = [⟨"g", 2⟩] ∧
    ofNode Language.rust.callKinds Sample.text Sample.tree = [⟨"g", 2⟩, ⟨"h", 3⟩] ∧
    ⟨"g", 2⟩ ∈ ofNode Language.rust.callKinds Sample.text Sample.tree ∧
    ⟨"g", 2⟩ ∈ ofNode Language.allCallKinds Sample.text Sample.tree := by
  have hleads : Sample.tree.LeadsTo (Sample.call 9 11) :=
    .child List.mem_cons_self <|
      .child (List.mem_cons_of_mem _ (List.mem_cons_of_mem _ List.mem_cons_self)) <|
        .child List.mem_cons_self (.refl _)
  have hpart : ofNode Language.rust.callKinds Sample.text (Sample.call 9 11) = [⟨"g", 2⟩] := by
    decide
  obtain ⟨-, hlists, -, -, -, -, hparts, hall⟩ :=
    ofNode_sites Language.rust.callKinds Sample.text Sample.tree
  have hfile := hlists _ (listsSites_listing Language.rust.callKinds Sample.text)
  have hmem := hparts _ hleads (hpart ▸ List.mem_cons_self)
  have hany := hall Language.rust (by simp [Language.all]) hmem
  exact ⟨hleads, hpart, hfile.trans (by decide), hmem, hany⟩

end CallSite

end SourceChunks
