-- SUMMARY: Which tags make a block: each closing tag with the first opening tag of its kind since the closing tag before it.
import Mathlib.Data.Nat.Find
import SourceChunks.Proofs.Template.Tag

/-!
# Pairing tags

Blocks are found from their opening tags, in one pass that drops an opening tag as soon as it finds
no partner. What comes out is better said from the closing tags: a closing tag ends a block if an
opening tag of its kind stands between it and the closing tag before it, and the first such opening
tag begins the block. Blocks therefore never overlap, and a comment, in which no tag counts, lies
inside a block or outside of it.
-/

namespace SourceChunks.Template

/-! ## Opening tags and the closing tags they lead to -/

/-- The closing tag that an opening tag leads to: the first one behind it. -/
def nextCloser? (closers : List (Occurrence BlockKind)) (opener : Occurrence BlockKind) :
    Option (Occurrence BlockKind) :=
  closers.find? (opener.span.stop ≤ ·.span.start)

/-- An opening tag makes a block with a closing tag: it leads to it, is of its kind, and is the
first one of which both are true. -/
structure Pairs (openers closers : List (Occurrence BlockKind))
    (opener closer : Occurrence BlockKind) : Prop where
  mem : opener ∈ openers
  leads : nextCloser? closers opener = some closer
  kind_eq : opener.value = closer.value
  first : ∀ other ∈ openers, nextCloser? closers other = some closer →
    other.value = closer.value → opener.span.start ≤ other.span.start

/-- Tags as they stand in a text: none is empty, tags of one sort come in order, and tags of
different sorts do not overlap. -/
structure Apart (openers closers : List (Occurrence BlockKind)) : Prop where
  openers_ordered : openers.Pairwise (·.span.stop ≤ ·.span.start)
  closers_ordered : closers.Pairwise (·.span.stop ≤ ·.span.start)
  opener_lt : ∀ opener ∈ openers, opener.span.start < opener.span.stop
  closer_lt : ∀ closer ∈ closers, closer.span.start < closer.span.stop
  separate : ∀ opener ∈ openers, ∀ closer ∈ closers,
    opener.span.stop ≤ closer.span.start ∨ closer.span.stop ≤ opener.span.start

section Pairing

variable {text : String} {openers closers rest : List (Occurrence BlockKind)}
  {opener other closer found : Occurrence BlockKind}

theorem mem_of_nextCloser? (h : nextCloser? closers opener = some closer) :
    closer ∈ closers ∧ opener.span.stop ≤ closer.span.start :=
  ⟨List.mem_of_find?_eq_some h, by simpa using List.find?_some h⟩

theorem Apart.tail (h : Apart (opener :: openers) closers) : Apart openers closers where
  openers_ordered := (List.pairwise_cons.1 h.openers_ordered).2
  closers_ordered := h.closers_ordered
  opener_lt other hother := h.opener_lt other (List.mem_cons_of_mem _ hother)
  closer_lt := h.closer_lt
  separate other hother := h.separate other (List.mem_cons_of_mem _ hother)

/-- Behind an opening tag, another one leads to the same closing tag as long as it stands in front
of it. -/
theorem nextCloser?_eq_iff_of_le (h : nextCloser? closers opener = some closer)
    (hle : opener.span.stop ≤ other.span.stop) :
    nextCloser? closers other = some closer ↔ other.span.stop ≤ closer.span.start := by
  refine ⟨fun hother => (mem_of_nextCloser? hother).2, fun hother => ?_⟩
  obtain ⟨-, before, after, hclosers, hbefore⟩ := List.find?_eq_some_iff_append.1 h
  refine List.find?_eq_some_iff_append.2 ⟨by simpa using hother, before, after, hclosers, ?_⟩
  intro earlier hearlier
  have := hbefore earlier hearlier
  simp only [Bool.not_eq_true', decide_eq_false_iff_not] at this ⊢
  omega

/-- An opening tag that fits no closing tag makes no block, and is in no other's way. -/
theorem pairs_cons_of_not_fits
    (hfits : ∀ closer, nextCloser? closers opener = some closer → opener.value ≠ closer.value) :
    Pairs (opener :: rest) closers other closer ↔ Pairs rest closers other closer := by
  constructor
  · intro h
    have hne : other ≠ opener := by
      rintro rfl
      exact hfits closer h.leads h.kind_eq
    exact ⟨List.mem_of_ne_of_mem hne h.mem, h.leads, h.kind_eq,
      fun third hthird => h.first third (List.mem_cons_of_mem _ hthird)⟩
  · intro h
    refine ⟨List.mem_cons_of_mem _ h.mem, h.leads, h.kind_eq, ?_⟩
    intro third hthird hleads hkind
    rcases List.mem_cons.1 hthird with rfl | hthird
    · exact absurd hkind (hfits closer hleads)
    · exact h.first third hthird hleads hkind

/-- An opening tag behind one that leads to a closing tag leads to it as well, unless it stands
behind that closing tag. -/
theorem Apart.not_leads_iff (hapart : Apart (opener :: rest) closers)
    (hleads : nextCloser? closers opener = some found) (hother : other ∈ rest) :
    nextCloser? closers other ≠ some found ↔ found.span.stop ≤ other.span.start := by
  have hmem := (mem_of_nextCloser? hleads).1
  have hle := (List.pairwise_cons.1 hapart.openers_ordered).1 other hother
  have hother_lt := hapart.opener_lt other (List.mem_cons_of_mem _ hother)
  have hfound_lt := hapart.closer_lt found hmem
  have hseparate := hapart.separate other (List.mem_cons_of_mem _ hother) found hmem
  rw [Ne, nextCloser?_eq_iff_of_le hleads (by omega)]
  omega

/-- An opening tag that fits makes a block, and takes with it all opening tags up to the end of that
block. -/
theorem pairs_cons_of_fits (hapart : Apart (opener :: rest) closers)
    (hleads : nextCloser? closers opener = some found) (hkind : opener.value = found.value) :
    Pairs (opener :: rest) closers other closer ↔
      (other = opener ∧ closer = found) ∨
        Pairs (rest.filter (found.span.stop ≤ ·.span.start)) closers other closer := by
  have hbehind := (List.pairwise_cons.1 hapart.openers_ordered).1
  have hlt := hapart.opener_lt opener List.mem_cons_self
  constructor
  · intro h
    by_cases hcloser : closer = found
    · subst hcloser
      have hle := h.first opener List.mem_cons_self hleads hkind
      rcases List.mem_cons.1 h.mem with rfl | hother
      · exact .inl ⟨rfl, rfl⟩
      · have := hbehind other hother
        omega
    · have hother : other ∈ rest := by
        refine List.mem_of_ne_of_mem ?_ h.mem
        rintro rfl
        exact hcloser (Option.some.inj (h.leads.symm.trans hleads))
      have hne : nextCloser? closers other ≠ some found := by
        rw [h.leads]
        exact fun heq => hcloser (Option.some.inj heq)
      refine .inr ⟨?_, h.leads, h.kind_eq, ?_⟩
      · exact List.mem_filter.2 ⟨hother, by simpa using (hapart.not_leads_iff hleads hother).1 hne⟩
      · intro third hthird
        exact h.first third (List.mem_cons_of_mem _ (List.mem_filter.1 hthird).1)
  · rintro (⟨rfl, rfl⟩ | h)
    · refine ⟨List.mem_cons_self, hleads, hkind, ?_⟩
      intro third hthird _ _
      rcases List.mem_cons.1 hthird with rfl | hthird
      · exact Nat.le_refl _
      · have := hbehind third hthird
        omega
    · obtain ⟨hother, hstart⟩ := List.mem_filter.1 h.mem
      have hne : closer ≠ found := by
        rintro rfl
        exact (hapart.not_leads_iff hleads hother).2 (by simpa using hstart) h.leads
      refine ⟨List.mem_cons_of_mem _ hother, h.leads, h.kind_eq, ?_⟩
      intro third hthird hthird_leads hthird_kind
      rcases List.mem_cons.1 hthird with rfl | hthird
      · exact absurd (Option.some.inj (hthird_leads.symm.trans hleads)) hne
      · have hthird_ne : nextCloser? closers third ≠ some found := by
          rw [hthird_leads]
          exact fun heq => hne (Option.some.inj heq)
        refine h.first third (List.mem_filter.2 ⟨hthird, ?_⟩) hthird_leads hthird_kind
        simpa using (hapart.not_leads_iff hleads hthird).1 hthird_ne

/-- The pass over the opening tags finds the pairs among those that start from an offset on. -/
theorem mem_pairFrom_iff (hapart : Apart openers closers) {offset : Nat} {block : Block} :
    block ∈ pairFrom text closers offset openers ↔
      ∃ opener closer, Pairs (openers.filter (offset ≤ ·.span.start)) closers opener closer ∧
        block = .between text opener closer := by
  induction openers generalizing offset with
  | nil =>
      refine iff_of_false (by simp [pairFrom]) ?_
      rintro ⟨opener, closer, hpairs, -⟩
      simpa using hpairs.mem
  | cons opener rest ih =>
      have ih := @ih hapart.tail
      have hbehind := (List.pairwise_cons.1 hapart.openers_ordered).1
      have hlt := hapart.opener_lt opener List.mem_cons_self
      rw [pairFrom]
      split
      · next hskip =>
        rw [ih, List.filter_cons_of_neg (by simpa using hskip)]
      · next hfrom =>
        -- the opening tags that remain all start behind this one
        have hrest : ∀ bound, bound ≤ opener.span.stop →
            rest.filter (bound ≤ ·.span.start) = rest := by
          intro bound hbound
          refine List.filter_eq_self.2 fun other hother => ?_
          have := hbehind other hother
          simp only [decide_eq_true_eq]
          omega
        rw [List.filter_cons_of_pos (by simpa using hfrom), hrest offset (by omega)]
        split
        · next hnone =>
          rw [ih, hrest _ (Nat.le_refl _)]
          simp only [pairs_cons_of_not_fits (fun closer hcloser => by
            rw [nextCloser?, hnone] at hcloser; cases hcloser)]
        · next found hfound =>
          split
          · next hkind =>
            rw [List.mem_cons, ih]
            simp only [pairs_cons_of_fits hapart hfound hkind.symm]
            constructor
            · rintro (rfl | ⟨other, closer, hpairs, rfl⟩)
              · exact ⟨opener, found, .inl ⟨rfl, rfl⟩, rfl⟩
              · exact ⟨other, closer, .inr hpairs, rfl⟩
            · rintro ⟨other, closer, ⟨rfl, rfl⟩ | hpairs, rfl⟩
              · exact .inl rfl
              · exact .inr ⟨other, closer, hpairs, rfl⟩
          · next hkind =>
            rw [ih, hrest _ (Nat.le_refl _)]
            simp only [pairs_cons_of_not_fits (fun closer hcloser => by
              obtain rfl := Option.some.inj (hfound.symm.trans hcloser)
              exact fun heq => hkind heq.symm)]

/-- Blocks come one behind the other. -/
theorem pairwise_pairFrom (hapart : Apart openers closers) {offset : Nat} :
    (pairFrom text closers offset openers).Pairwise (·.span.stop ≤ ·.span.start) := by
  induction openers generalizing offset with
  | nil => simp [pairFrom]
  | cons opener rest ih =>
      have ih := @ih hapart.tail
      rw [pairFrom]
      split
      · exact ih
      · split
        · exact ih
        · next found hfound =>
          split
          · refine List.pairwise_cons.2 ⟨?_, ih⟩
            intro block hblock
            obtain ⟨other, closer, hpairs, rfl⟩ := (mem_pairFrom_iff hapart.tail).1 hblock
            have hbehind := (List.mem_filter.1 hpairs.mem).2
            exact of_decide_eq_true hbehind
          · exact ih

/-- An opening tag leads to a closing tag behind it if all closing tags before that one end in front
of it. -/
theorem nextCloser?_eq_some_iff (hapart : Apart openers closers) (hopener : opener ∈ openers) :
    nextCloser? closers opener = some closer ↔
      closer ∈ closers ∧ opener.span.stop ≤ closer.span.start ∧
        ∀ earlier ∈ closers, earlier.span.start < closer.span.start →
          earlier.span.stop ≤ opener.span.start := by
  have hlt := hapart.opener_lt opener hopener
  constructor
  · intro h
    obtain ⟨hmem, hle⟩ := mem_of_nextCloser? h
    refine ⟨hmem, hle, ?_⟩
    intro earlier hearlier hstart
    obtain ⟨-, before, after, rfl, hbefore⟩ := List.find?_eq_some_iff_append.1 h
    rcases List.mem_append.1 hearlier with hin | hin
    · have hnot := hbefore earlier hin
      simp only [Bool.not_eq_true', decide_eq_false_iff_not] at hnot
      exact (hapart.separate opener hopener earlier hearlier).resolve_left hnot
    · -- what comes from this closing tag on does not start before it
      have hordered := (List.pairwise_append.1 hapart.closers_ordered).2.1
      rcases List.mem_cons.1 hin with rfl | hin
      · omega
      · have := (List.pairwise_cons.1 hordered).1 earlier hin
        have := hapart.closer_lt closer hmem
        omega
  · rintro ⟨hmem, hle, hearlier⟩
    obtain ⟨before, after, rfl⟩ := List.append_of_mem hmem
    refine List.find?_eq_some_iff_append.2 ⟨by simpa using hle, before, after, rfl, ?_⟩
    intro earlier hbefore
    have hin := List.mem_append_left (closer :: after) hbefore
    have hordered := (List.pairwise_append.1 hapart.closers_ordered).2.2 earlier hbefore closer
      List.mem_cons_self
    have hearlier_lt := hapart.closer_lt earlier hin
    have := hearlier earlier hin (by omega)
    simp only [Bool.not_eq_true', decide_eq_false_iff_not]
    omega

/-- Closing tags that end together are one. -/
theorem Apart.closer_eq (hapart : Apart openers closers) (hcloser : closer ∈ closers)
    (hfound : found ∈ closers) (hstop : closer.span.stop = found.span.stop) : closer = found := by
  obtain ⟨i, hi, rfl⟩ := List.getElem_of_mem hcloser
  obtain ⟨j, hj, rfl⟩ := List.getElem_of_mem hfound
  have hordered := List.pairwise_iff_getElem.1 hapart.closers_ordered
  have hlt := hapart.closer_lt _ hcloser
  have hlt' := hapart.closer_lt _ hfound
  rcases Nat.lt_trichotomy i j with hij | rfl | hji
  · have := hordered i j hi hj hij
    omega
  · rfl
  · have := hordered j i hj hi hji
    omega

end Pairing

/-! ## Tags that count -/

/-- A tag counts if it does not start inside a comment. -/
structure Counts {α : Type} (form : List Char → Option (α × List Char)) (text : String)
    (tag : Occurrence α) : Prop where
  isTag : IsTag form text tag
  visible : ∀ comment ∈ comments text, comment.contains tag.span.start = false

/-- The opening tags of a template that count. -/
def openers (text : String) : List (Occurrence BlockKind) :=
  outside (comments text) (occurrences opening? text)

/-- The closing tags of a template that count. -/
def closers (text : String) : List (Occurrence BlockKind) :=
  outside (comments text) (occurrences closing? text)

section Counts

variable {text : String} {tag : Occurrence BlockKind}

theorem mem_outside_iff {form : List Char → Option (BlockKind × List Char)}
    (hform : HasOneBrace form) :
    tag ∈ outside (comments text) (occurrences form text) ↔ Counts form text tag := by
  rw [outside, List.mem_filter, mem_occurrences_iff hform]
  simp only [Bool.not_eq_true', List.any_eq_false, Bool.not_eq_true]
  exact ⟨fun h => ⟨h.1, h.2⟩, fun h => ⟨h.1, h.2⟩⟩

theorem mem_openers_iff : tag ∈ openers text ↔ Counts opening? text tag :=
  mem_outside_iff hasOneBrace_opening?

theorem mem_closers_iff : tag ∈ closers text ↔ Counts closing? text tag :=
  mem_outside_iff hasOneBrace_closing?

theorem apart_openers_closers (text : String) : Apart (openers text) (closers text) where
  openers_ordered := pairwise_occurrencesFrom.filter _
  closers_ordered := pairwise_occurrencesFrom.filter _
  opener_lt _ hopener :=
    (mem_openers_iff.1 hopener).isTag.start_lt_stop hasOneBrace_opening?
  closer_lt _ hcloser :=
    (mem_closers_iff.1 hcloser).isTag.start_lt_stop hasOneBrace_closing?
  separate _ hopener _ hcloser :=
    (mem_openers_iff.1 hopener).isTag.separate hasOneBrace_opening? hasOneBrace_closing?
      (fun _ _ _ => closing?_eq_none_of_opening?) (mem_closers_iff.1 hcloser).isTag

/-- Blocks are what pairs of tags that count make. -/
theorem mem_blocks_iff {block : Block} :
    block ∈ blocks text ↔ ∃ opener closer, Pairs (openers text) (closers text) opener closer ∧
      block = .between text opener closer := by
  have hall : (openers text).filter (0 ≤ ·.span.start) = openers text :=
    List.filter_eq_self.2 fun _ _ => by simp
  rw [← hall]
  exact mem_pairFrom_iff (apart_openers_closers text)

end Counts

/-! ## Blocks from their closing tags -/

/-- An offset is the end of the last closing tag that counts and starts before `closer`, or zero if
there is none. -/
structure PreviousEnd (text : String) (closer : Occurrence BlockKind) (stop : Nat) : Prop where
  bound : ∀ earlier, Counts closing? text earlier →
    earlier.span.start < closer.span.start → earlier.span.stop ≤ stop
  attained : stop = 0 ∨ ∃ previous, Counts closing? text previous ∧
    previous.span.start < closer.span.start ∧ previous.span.stop = stop

/-- An opening tag of the kind of `closer` lies between an offset and that closing tag. -/
structure Fits (start : Nat) (closer opener : Occurrence BlockKind) : Prop where
  from_start : start ≤ opener.span.start
  to_closer : opener.span.stop ≤ closer.span.start
  kind_eq : opener.value = closer.value

/-- No byte is in both ranges. -/
def Span.Disjoint (a b : Span) : Prop :=
  a.stop ≤ b.start ∨ b.stop ≤ a.start

/-- The bytes of the first range are in the second. -/
def Span.Within (a b : Span) : Prop :=
  b.start ≤ a.start ∧ a.stop ≤ b.stop

section Closers

variable {text : String} {opener closer : Occurrence BlockKind} {stop : Nat}

/-- Every closing tag has an end of the one before it. -/
theorem exists_previousEnd (hcloser : Counts closing? text closer) :
    ∃ stop, PreviousEnd text closer stop := by
  obtain ⟨before, after, hclosers⟩ := List.append_of_mem (mem_closers_iff.2 hcloser)
  have hordered := (apart_openers_closers text).closers_ordered
  rw [hclosers, List.pairwise_append, List.pairwise_cons] at hordered
  obtain ⟨hinner, ⟨hafter, -⟩, hseam⟩ := hordered
  have hlt := hcloser.isTag.start_lt_stop hasOneBrace_closing?
  have hearlier : ∀ earlier, Counts closing? text earlier →
      earlier.span.start < closer.span.start → earlier ∈ before := by
    intro earlier hcounts hstart
    have hmem := mem_closers_iff.2 hcounts
    rw [hclosers, List.mem_append, List.mem_cons] at hmem
    rcases hmem with hmem | rfl | hmem
    · exact hmem
    · omega
    · have := hafter earlier hmem
      omega
  rcases List.eq_nil_or_concat' before with rfl | ⟨init, previous, rfl⟩
  · refine ⟨0, fun earlier hcounts hstart => ?_, .inl rfl⟩
    exact absurd (hearlier earlier hcounts hstart) List.not_mem_nil
  · have hprevious : Counts closing? text previous := by
      refine mem_closers_iff.1 ?_
      rw [hclosers]
      simp
    have hprevious_lt := hprevious.isTag.start_lt_stop hasOneBrace_closing?
    have hle := hseam previous (by simp) closer List.mem_cons_self
    refine ⟨previous.span.stop, fun earlier hcounts hstart => ?_,
      .inr ⟨previous, hprevious, by omega, rfl⟩⟩
    rcases List.mem_append.1 (hearlier earlier hcounts hstart) with hmem | hmem
    · have := (List.pairwise_append.1 hinner).2.2 earlier hmem previous (by simp)
      omega
    · rw [List.mem_singleton.1 hmem]

/-- The opening tags that lead to a closing tag are those between it and the end of the closing tag
before it. -/
theorem PreviousEnd.leads_iff (hstop : PreviousEnd text closer stop)
    (hcloser : Counts closing? text closer) (hopener : Counts opening? text opener) :
    nextCloser? (closers text) opener = some closer ↔
      stop ≤ opener.span.start ∧ opener.span.stop ≤ closer.span.start := by
  rw [nextCloser?_eq_some_iff (apart_openers_closers text) (mem_openers_iff.2 hopener)]
  constructor
  · rintro ⟨-, hle, hearlier⟩
    refine ⟨?_, hle⟩
    rcases hstop.attained with rfl | ⟨previous, hprevious, hstart, rfl⟩
    · exact Nat.zero_le _
    · exact hearlier previous (mem_closers_iff.2 hprevious) hstart
  · rintro ⟨hfrom, hle⟩
    refine ⟨mem_closers_iff.2 hcloser, hle, ?_⟩
    intro earlier hearlier hstart
    exact Nat.le_trans (hstop.bound earlier (mem_closers_iff.1 hearlier) hstart) hfrom

theorem PreviousEnd.pairs_iff (hstop : PreviousEnd text closer stop)
    (hcloser : Counts closing? text closer) :
    Pairs (openers text) (closers text) opener closer ↔
      Counts opening? text opener ∧ Fits stop closer opener ∧
        ∀ other, Counts opening? text other → Fits stop closer other →
          opener.span.start ≤ other.span.start := by
  constructor
  · intro h
    have hopener := mem_openers_iff.1 h.mem
    obtain ⟨hfrom, hto⟩ := (hstop.leads_iff hcloser hopener).1 h.leads
    refine ⟨hopener, ⟨hfrom, hto, h.kind_eq⟩, ?_⟩
    intro other hother hfits
    exact h.first other (mem_openers_iff.2 hother)
      ((hstop.leads_iff hcloser hother).2 ⟨hfits.from_start, hfits.to_closer⟩) hfits.kind_eq
  · rintro ⟨hopener, hfits, hfirst⟩
    refine ⟨mem_openers_iff.2 hopener, (hstop.leads_iff hcloser hopener).2
      ⟨hfits.from_start, hfits.to_closer⟩, hfits.kind_eq, ?_⟩
    intro other hother hleads hkind
    have hcounts := mem_openers_iff.1 hother
    obtain ⟨hfrom, hto⟩ := (hstop.leads_iff hcloser hcounts).1 hleads
    exact hfirst other hcounts ⟨hfrom, hto, hkind⟩

/-- Among the opening tags that fit there is a first one. -/
theorem exists_first_fit (h : ∃ opener, Counts opening? text opener ∧ Fits stop closer opener) :
    ∃ opener, Counts opening? text opener ∧ Fits stop closer opener ∧
      ∀ other, Counts opening? text other → Fits stop closer other →
        opener.span.start ≤ other.span.start := by
  classical
  have hstart : ∃ start opener, Counts opening? text opener ∧ Fits stop closer opener ∧
      opener.span.start = start := by
    obtain ⟨opener, hcounts, hfits⟩ := h
    exact ⟨_, opener, hcounts, hfits, rfl⟩
  obtain ⟨opener, hcounts, hfits, heq⟩ := Nat.find_spec hstart
  refine ⟨opener, hcounts, hfits, ?_⟩
  intro other hother hother_fits
  rw [heq]
  exact Nat.find_min' hstart ⟨other, hother, hother_fits, rfl⟩

/-- The blocks that end with a closing tag are those that it makes with an opening tag. -/
theorem exists_pairs_of_stop_eq (hcloser : Counts closing? text closer) {block : Block}
    (hblock : block ∈ blocks text) (hend : block.span.stop = closer.span.stop) :
    ∃ opener, Pairs (openers text) (closers text) opener closer ∧
      block = .between text opener closer := by
  obtain ⟨opener, found, hpairs, rfl⟩ := mem_blocks_iff.1 hblock
  have hfound : found = closer :=
    (apart_openers_closers text).closer_eq (mem_of_nextCloser? hpairs.leads).1
      (mem_closers_iff.2 hcloser) hend
  exact ⟨opener, hfound ▸ hpairs, by rw [hfound]⟩

end Closers

/-! ## Comments -/

/-- A comment begins with an opening brace. -/
theorem isCharAt_of_mem_comments {text : String} {comment : Span} (h : comment ∈ comments text) :
    Text.IsCharAt text.toList comment.start '\x7b' := by
  obtain ⟨found, hfound, rfl⟩ := List.mem_map.1 h
  obtain ⟨before, rest, after, htext, hstart, hform⟩ := exists_form_of_mem_occurrencesFrom hfound
  obtain ⟨behind, htag, -⟩ := Option.map_eq_some_iff.1 hform
  obtain ⟨tail, rfl, -⟩ := exists_brace_of_afterTag? (by decide) htag
  exact ⟨before, tail, htext, by rw [hstart, Nat.zero_add]⟩

/-- A comment lies inside a block or outside of it: neither of its tags starts in the comment, and
the comment does not start in its closing tag. -/
theorem disjoint_or_within_of_mem_comments {text : String} {comment : Span}
    (hcomment : comment ∈ comments text) {block : Block} (hblock : block ∈ blocks text) :
    comment.Disjoint block.span ∨ comment.Within block.span := by
  obtain ⟨opener, closer, hpairs, rfl⟩ := mem_blocks_iff.1 hblock
  have hcloser := mem_closers_iff.1 (mem_of_nextCloser? hpairs.leads).1
  have hopener_out := (mem_openers_iff.1 hpairs.mem).visible comment hcomment
  have hcloser_out := hcloser.visible comment hcomment
  have hbehind := hcloser.isTag.stop_le hasOneBrace_closing? (isCharAt_of_mem_comments hcomment)
  have hlt := hcloser.isTag.start_lt_stop hasOneBrace_closing?
  simp only [Span.contains, Bool.and_eq_false_iff, decide_eq_false_iff_not]
    at hopener_out hcloser_out
  simp only [Span.Disjoint, Span.Within, Block.between]
  omega

/-- The blocks of a template, from their closing tags. A closing tag ends a block if an opening tag
of its kind lies between it and the end of the closing tag before it, and then the block reaches
from the first such opening tag to its end; there are no other blocks. So blocks come in source
order without overlaps, and each comment lies inside a block or outside of it. -/
theorem blocks_pairing (text : String) :
    (∀ closer, Counts closing? text closer → ∃ stop, PreviousEnd text closer stop ∧
      ((∃ block ∈ blocks text, block.span.stop = closer.span.stop) ↔
        ∃ opener, Counts opening? text opener ∧ Fits stop closer opener) ∧
      ∀ block ∈ blocks text, block.span.stop = closer.span.stop →
        ∃ opener, Counts opening? text opener ∧ Fits stop closer opener ∧
          (∀ other, Counts opening? text other → Fits stop closer other →
            opener.span.start ≤ other.span.start) ∧
          block = .between text opener closer) ∧
    (∀ block ∈ blocks text, ∃ closer, Counts closing? text closer ∧
      block.span.stop = closer.span.stop) ∧
    (blocks text).Pairwise (·.span.stop ≤ ·.span.start) ∧
    ∀ comment ∈ comments text, ∀ block ∈ blocks text,
      comment.Disjoint block.span ∨ comment.Within block.span := by
  refine ⟨?_, ?_, ?_, ?_⟩
  · intro closer hcloser
    obtain ⟨stop, hstop⟩ := exists_previousEnd hcloser
    have hblocks : ∀ block ∈ blocks text, block.span.stop = closer.span.stop →
        ∃ opener, Counts opening? text opener ∧ Fits stop closer opener ∧
          (∀ other, Counts opening? text other → Fits stop closer other →
            opener.span.start ≤ other.span.start) ∧
          block = .between text opener closer := by
      intro block hblock hend
      obtain ⟨opener, hpairs, rfl⟩ := exists_pairs_of_stop_eq hcloser hblock hend
      obtain ⟨hopener, hfits, hfirst⟩ := (hstop.pairs_iff hcloser).1 hpairs
      exact ⟨opener, hopener, hfits, hfirst, rfl⟩
    refine ⟨stop, hstop, ⟨?_, ?_⟩, hblocks⟩
    · rintro ⟨block, hblock, hend⟩
      obtain ⟨opener, hopener, hfits, -⟩ := hblocks block hblock hend
      exact ⟨opener, hopener, hfits⟩
    · intro hfit
      obtain ⟨opener, hfirst⟩ := exists_first_fit hfit
      have hpairs := (hstop.pairs_iff hcloser).2 hfirst
      exact ⟨_, mem_blocks_iff.2 ⟨opener, closer, hpairs, rfl⟩, rfl⟩
  · intro block hblock
    obtain ⟨opener, closer, hpairs, rfl⟩ := mem_blocks_iff.1 hblock
    exact ⟨closer, mem_closers_iff.1 (mem_of_nextCloser? hpairs.leads).1, rfl⟩
  · exact pairwise_pairFrom (apart_openers_closers text)
  · intro comment hcomment block hblock
    exact disjoint_or_within_of_mem_comments hcomment hblock

/-- Two opening tags, of which the second is closed first, behind a comment that holds a closing tag
of its kind. -/
private def crossed : String :=
  "\x7b%style%\x7d\x7b%schema%\x7d\x7b%comment%\x7d\x7b%endschema%\x7d\x7b%endcomment%\x7d"
    ++ "\x7b%endschema%\x7d\x7b%endstyle%\x7d"

/-- The closing tag behind the comment ends a block that holds the comment. The last closing tag
ends none: its opening tag stands before the closing tag in front of it. -/
theorem blocks_pairing_crossed :
    Counts closing? crossed ⟨⟨57, 70⟩, .schema⟩ ∧ Counts closing? crossed ⟨⟨70, 82⟩, .style⟩ ∧
    blocks crossed = [⟨.schema, ⟨9, 70⟩, ⟨1, 1⟩, none⟩] ∧
    (∃ stop opener, PreviousEnd crossed ⟨⟨57, 70⟩, .schema⟩ stop ∧
      Counts opening? crossed opener ∧ Fits stop ⟨⟨57, 70⟩, .schema⟩ opener) ∧
    (∃ stop, PreviousEnd crossed ⟨⟨70, 82⟩, .style⟩ stop ∧
      ¬ ∃ opener, Counts opening? crossed opener ∧ Fits stop ⟨⟨70, 82⟩, .style⟩ opener) ∧
    ∃ comment ∈ comments crossed, comment.Within ⟨9, 70⟩ := by
  have hblocks : blocks crossed = [⟨.schema, ⟨9, 70⟩, ⟨1, 1⟩, none⟩] := by decide +kernel
  have hschema : Counts closing? crossed ⟨⟨57, 70⟩, .schema⟩ :=
    mem_closers_iff.1 (by decide +kernel)
  have hstyle : Counts closing? crossed ⟨⟨70, 82⟩, .style⟩ :=
    mem_closers_iff.1 (by decide +kernel)
  have hcomment : ⟨19, 57⟩ ∈ comments crossed := by decide +kernel
  obtain ⟨hclosers, -, -, hcomments⟩ := blocks_pairing crossed
  refine ⟨hschema, hstyle, hblocks, ?_, ?_, ⟨19, 57⟩, hcomment, ?_⟩
  · obtain ⟨stop, hstop, hends, -⟩ := hclosers _ hschema
    obtain ⟨opener, hopener⟩ := hends.1 (by simp [hblocks])
    exact ⟨stop, opener, hstop, hopener⟩
  · obtain ⟨stop, hstop, hends, -⟩ := hclosers _ hstyle
    refine ⟨stop, hstop, fun hfit => ?_⟩
    obtain ⟨block, hblock, hend⟩ := hends.2 hfit
    rw [hblocks, List.mem_singleton] at hblock
    simp [hblock] at hend
  · have hblock : ⟨.schema, ⟨9, 70⟩, ⟨1, 1⟩, none⟩ ∈ blocks crossed := by simp [hblocks]
    exact (hcomments _ hcomment _ hblock).resolve_left (by simp [Span.Disjoint])

end SourceChunks.Template
