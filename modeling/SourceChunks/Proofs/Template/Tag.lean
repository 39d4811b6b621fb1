-- SUMMARY: Where tags stand in a template: the search finds every tag of a block, and no two of them overlap.
import Mathlib.Data.List.Basic
import SourceChunks.Proofs.Template.Block

/-!
# Where tags stand

The search for a form goes on behind each match, so it could miss a match that begins inside
another. The tags of blocks are safe from this: a tag has one opening brace, its first character.
Hence the search finds every tag of a text, in source order, and of two tags, also of different
forms, one ends before the other begins.
-/

namespace SourceChunks.Template

/-! ## One brace per tag -/

/-- What is read of a text until `rest` is left has no opening brace in it. -/
def ReadsNoBrace (cs rest : List Char) : Prop :=
  ∃ inner, cs = inner ++ rest ∧ '\x7b' ∉ inner

namespace ReadsNoBrace

theorem refl (cs : List Char) : ReadsNoBrace cs cs :=
  ⟨[], rfl, by simp⟩

theorem trans {xs ys zs : List Char} (hxy : ReadsNoBrace xs ys) (hyz : ReadsNoBrace ys zs) :
    ReadsNoBrace xs zs := by
  obtain ⟨inner, rfl, hinner⟩ := hxy
  obtain ⟨inner', rfl, hinner'⟩ := hyz
  refine ⟨inner ++ inner', by rw [List.append_assoc], ?_⟩
  simp [hinner, hinner']

theorem cons {c : Char} (hc : c ≠ '\x7b') {cs rest : List Char} (h : ReadsNoBrace cs rest) :
    ReadsNoBrace (c :: cs) rest := by
  obtain ⟨inner, rfl, hinner⟩ := h
  exact ⟨c :: inner, rfl, by simp [hc.symm, hinner]⟩

theorem afterHyphen (cs : List Char) : ReadsNoBrace cs (afterHyphen cs) := by
  unfold Template.afterHyphen
  split
  · exact (refl _).cons (by decide)
  · exact refl _

theorem blanks (cs : List Char) : ReadsNoBrace cs (cs.dropWhile Text.isBlank) := by
  refine ⟨cs.takeWhile Text.isBlank, List.takeWhile_append_dropWhile.symm, ?_⟩
  intro hmem
  have hblank := List.all_eq_true.1 List.all_takeWhile _ hmem
  exact absurd hblank (by decide)

theorem word {word cs rest : List Char} (hword : '\x7b' ∉ word)
    (h : word.isPrefixOf? cs = some rest) : ReadsNoBrace cs rest :=
  ⟨word, (List.append_eq_of_isPrefixOf?_eq_some h).symm, hword⟩

theorem afterClosing? {cs rest : List Char} (h : afterClosing? cs = some rest) :
    ReadsNoBrace cs rest := by
  unfold Template.afterClosing? at h
  split at h
  · next inner hinner =>
    obtain rfl := Option.some.inj h
    have hclosing : ReadsNoBrace ('%' :: '\x7d' :: inner) inner :=
      ((refl inner).cons (by decide)).cons (by decide)
    rw [← hinner] at hclosing
    exact ((blanks cs).trans (afterHyphen _)).trans hclosing
  · cases h

end ReadsNoBrace

/-- The word of a tag has no brace, so the tag has one only, where it begins. -/
theorem exists_brace_of_afterTag? {word : String} (hword : '\x7b' ∉ word.toList)
    {cs rest : List Char} (h : afterTag? word cs = some rest) :
    ∃ tail, cs = '\x7b' :: tail ∧ ReadsNoBrace tail rest := by
  obtain ⟨inner, hopening, h⟩ := Option.bind_eq_some_iff.1 h
  obtain ⟨behind, hbehind, hclosing⟩ := Option.bind_eq_some_iff.1 h
  unfold afterOpening? at hopening
  split at hopening
  · next cs =>
    obtain rfl := Option.some.inj hopening
    refine ⟨_, rfl, ?_⟩
    have hinside : ReadsNoBrace ('%' :: cs) _ :=
      ((ReadsNoBrace.afterHyphen cs).trans (.blanks _)).cons (by decide)
    exact (hinside.trans (.word hword hbehind)).trans (.afterClosing? hclosing)
  · cases hopening

variable {α β : Type}

/-- A form of tags that have one opening brace, their first character. -/
def HasOneBrace (form : List Char → Option (α × List Char)) : Prop :=
  ∀ cs value rest, form cs = some (value, rest) →
    ∃ tail, cs = '\x7b' :: tail ∧ ReadsNoBrace tail rest

theorem exists_word_of_blockWords (wordOf : String → String) {cs rest : List Char}
    {kind : BlockKind} (h : (blockWords.findSome? fun (kind, word) =>
      (afterTag? (wordOf word) cs).map (kind, ·)) = some (kind, rest)) :
    ∃ pair ∈ blockWords, afterTag? (wordOf pair.2) cs = some rest := by
  obtain ⟨pair, hmem, h⟩ := List.exists_of_findSome?_eq_some h
  obtain ⟨behind, hbehind, hrest⟩ := Option.map_eq_some_iff.1 h
  obtain ⟨-, rfl⟩ := Prod.mk.inj hrest
  exact ⟨pair, hmem, hbehind⟩

theorem hasOneBrace_blockWords (wordOf : String → String)
    (hwords : ∀ pair ∈ blockWords, '\x7b' ∉ (wordOf pair.2).toList) :
    HasOneBrace fun cs => blockWords.findSome? fun (kind, word) =>
      (afterTag? (wordOf word) cs).map (kind, ·) := by
  intro cs kind rest h
  obtain ⟨pair, hmem, htag⟩ := exists_word_of_blockWords wordOf h
  exact exists_brace_of_afterTag? (hwords pair hmem) htag

theorem hasOneBrace_opening? : HasOneBrace opening? :=
  hasOneBrace_blockWords (fun word => word) (by decide)

theorem hasOneBrace_closing? : HasOneBrace closing? :=
  hasOneBrace_blockWords ("end" ++ ·) (by decide)

/-! ## The search finds every tag -/

/-- An occurrence has its form at the place where it starts. -/
theorem exists_form_of_mem_occurrencesFrom {form : List Char → Option (α × List Char)}
    {offset skip : Nat} {cs : List Char} {found : Occurrence α}
    (h : found ∈ occurrencesFrom form offset skip cs) :
    ∃ before rest after, cs = before ++ rest ∧
      found.span.start = offset + Text.byteLength before ∧
      form rest = some (found.value, after) := by
  induction cs generalizing offset skip with
  | nil => simp [occurrencesFrom] at h
  | cons c cs ih =>
      have hlater : ∀ {skip}, found ∈ occurrencesFrom form (offset + c.utf8Size) skip cs →
          ∃ before rest after, c :: cs = before ++ rest ∧
            found.span.start = offset + Text.byteLength before ∧
            form rest = some (found.value, after) := by
        intro skip hfound
        obtain ⟨before, rest, after, hcs, hstart, hform⟩ := ih hfound
        refine ⟨c :: before, rest, after, ?_, ?_, hform⟩
        · rw [hcs, List.cons_append]
        · rw [hstart, Text.byteLength_cons, Nat.add_assoc]
      rw [occurrencesFrom] at h
      split at h
      · exact hlater h
      · split at h
        · next value rest hmatch =>
          rcases List.mem_cons.1 h with rfl | h
          · exact ⟨[], c :: cs, rest, rfl, rfl, hmatch⟩
          · exact hlater h
        · exact hlater h

/-- A form stands in a text that begins at a byte offset: some of its characters have the form, and
the span has their bytes. -/
def StandsFrom (form : List Char → Option (α × List Char)) (offset : Nat) (cs : List Char)
    (tag : Occurrence α) : Prop :=
  ∃ before body after, cs = before ++ (body ++ after) ∧
    form (body ++ after) = some (tag.value, after) ∧
    tag.span = ⟨offset + Text.byteLength before, offset + Text.byteLength (before ++ body)⟩

/-- A tag of a text. -/
def IsTag (form : List Char → Option (α × List Char)) (text : String) (tag : Occurrence α) :
    Prop :=
  StandsFrom form 0 text.toList tag

section Search

variable {form : List Char → Option (α × List Char)} {offset skip : Nat} {cs : List Char}
  {c : Char} {tag : Occurrence α}

theorem standsFrom_cons_iff :
    StandsFrom form offset (c :: cs) tag ↔
      (∃ body after, c :: cs = body ++ after ∧ form (c :: cs) = some (tag.value, after) ∧
        tag.span = ⟨offset, offset + Text.byteLength body⟩) ∨
      StandsFrom form (offset + c.utf8Size) cs tag := by
  constructor
  · rintro ⟨before, body, after, hcs, hform, hspan⟩
    cases before with
    | nil =>
        rw [List.nil_append] at hcs
        exact .inl ⟨body, after, hcs, hcs ▸ hform, by simpa using hspan⟩
    | cons d before =>
        obtain ⟨rfl, rfl⟩ := List.cons.inj hcs
        exact .inr ⟨before, body, after, rfl, hform, by simpa [Nat.add_assoc] using hspan⟩
  · rintro (⟨body, after, hcs, hform, hspan⟩ | ⟨before, body, after, rfl, hform, hspan⟩)
    · exact ⟨[], body, after, hcs, hcs ▸ hform, by simpa using hspan⟩
    · exact ⟨c :: before, body, after, rfl, hform, by simpa [Nat.add_assoc] using hspan⟩

/-- A form with one brace stands only where the text has a brace. -/
theorem StandsFrom.isCharAt (hform : HasOneBrace form) (h : StandsFrom form offset cs tag) :
    ∃ start, Text.IsCharAt cs start '\x7b' ∧ tag.span.start = offset + start := by
  obtain ⟨before, body, after, rfl, hmatch, hspan⟩ := h
  obtain ⟨tail, htail, -⟩ := hform _ _ _ hmatch
  exact ⟨_, ⟨before, tail, by rw [htail], rfl⟩, by rw [hspan]⟩

/-- The search finds every place where a form with one brace stands, provided that what it skips has
no brace. -/
theorem mem_occurrencesFrom_iff (hform : HasOneBrace form) (hskip : '\x7b' ∉ cs.take skip) :
    tag ∈ occurrencesFrom form offset skip cs ↔ StandsFrom form offset cs tag := by
  induction cs generalizing offset skip with
  | nil =>
      refine iff_of_false (by simp [occurrencesFrom]) fun hstands => ?_
      obtain ⟨start, hat, -⟩ := hstands.isCharAt hform
      exact Text.not_isCharAt_nil hat
  | cons c cs ih =>
      rw [standsFrom_cons_iff, occurrencesFrom]
      split
      · next hpos =>
        -- the tag before reaches this far: no tag starts here
        rw [show skip = skip - 1 + 1 by omega, List.take_succ_cons, List.mem_cons, not_or] at hskip
        rw [ih hskip.2]
        refine (or_iff_right ?_).symm
        rintro ⟨body, after, -, hmatch, -⟩
        obtain ⟨tail, htail, -⟩ := hform _ _ _ hmatch
        exact hskip.1 (List.cons.inj htail).1.symm
      · cases hmatch : form (c :: cs) with
        | none =>
            dsimp only
            rw [ih (by simp)]
            refine (or_iff_right ?_).symm
            rintro ⟨body, after, -, hmatch', -⟩
            cases hmatch'
        | some found =>
            obtain ⟨value, rest⟩ := found
            obtain ⟨tail, htail, inner, rfl, hinner⟩ := hform _ _ _ hmatch
            obtain ⟨rfl, rfl⟩ := List.cons.inj htail
            have hlength : ('\x7b' :: (inner ++ rest)).length - rest.length = inner.length + 1 := by
              simp
              omega
            dsimp only
            rw [hlength, Nat.add_sub_cancel, List.mem_cons,
              ih (by rwa [List.take_left]), List.take_succ_cons, List.take_left]
            refine or_congr_left ⟨?_, ?_⟩
            · rintro rfl
              exact ⟨'\x7b' :: inner, rest, rfl, rfl, rfl⟩
            · rintro ⟨body, after, hbody, hvalue, hspan⟩
              obtain ⟨rfl, rfl⟩ := Prod.mk.inj (Option.some.inj hvalue)
              obtain rfl : '\x7b' :: inner = body := List.append_cancel_right hbody
              exact congrArg (Occurrence.mk · tag.value) hspan

theorem mem_occurrences_iff (hform : HasOneBrace form) {text : String} :
    tag ∈ occurrences form text ↔ IsTag form text tag :=
  mem_occurrencesFrom_iff hform (by simp)

/-- The search goes on behind what it skips. -/
theorem le_start_of_mem_occurrencesFrom (h : tag ∈ occurrencesFrom form offset skip cs) :
    offset + Text.byteLength (cs.take skip) ≤ tag.span.start := by
  induction cs generalizing offset skip with
  | nil => simp [occurrencesFrom] at h
  | cons c cs ih =>
      have hlater : ∀ {skip}, tag ∈ occurrencesFrom form (offset + c.utf8Size) skip cs →
          offset ≤ tag.span.start := by
        intro skip hmem
        have := ih hmem
        omega
      rw [occurrencesFrom] at h
      split at h
      · next hpos =>
        have := ih h
        rw [show skip = skip - 1 + 1 by omega, List.take_succ_cons, Text.byteLength_cons]
        omega
      · next hzero =>
        rw [Nat.eq_zero_of_not_pos hzero, List.take_zero, Text.byteLength_nil, Nat.add_zero]
        split at h
        · rcases List.mem_cons.1 h with rfl | h
          · exact Nat.le_refl _
          · exact hlater h
        · exact hlater h

/-- What the search finds comes in source order, without overlaps. -/
theorem pairwise_occurrencesFrom :
    (occurrencesFrom form offset skip cs).Pairwise (·.span.stop ≤ ·.span.start) := by
  induction cs generalizing offset skip with
  | nil => simp [occurrencesFrom]
  | cons c cs ih =>
      rw [occurrencesFrom]
      split
      · exact ih
      · split
        · next value rest hmatch =>
          refine List.pairwise_cons.2 ⟨?_, ih⟩
          intro later hlater
          have := le_start_of_mem_occurrencesFrom hlater
          dsimp only
          cases hlength : (c :: cs).length - rest.length with
          | zero =>
              rw [List.take_zero, Text.byteLength_nil]
              omega
          | succ length =>
              rw [hlength, Nat.add_sub_cancel] at this
              rw [List.take_succ_cons, Text.byteLength_cons]
              omega
        · exact ih

end Search

/-! ## Tags do not overlap -/

section Overlap

variable {form : List Char → Option (α × List Char)} {text : String} {tag : Occurrence α}

/-- A tag is a brace with text behind it that has none. -/
theorem IsTag.exists_inner (hform : HasOneBrace form) (h : IsTag form text tag) :
    ∃ before inner after, text.toList = before ++ ('\x7b' :: inner ++ after) ∧
      '\x7b' ∉ inner ∧ form ('\x7b' :: inner ++ after) = some (tag.value, after) ∧
      tag.span.start = Text.byteLength before ∧
      tag.span.stop = Text.byteLength before + Text.byteLength ('\x7b' :: inner) := by
  obtain ⟨before, body, after, htext, hmatch, hspan⟩ := h
  obtain ⟨tail, htail, inner, rfl, hinner⟩ := hform _ _ _ hmatch
  obtain rfl : body = '\x7b' :: inner := List.append_cancel_right htail
  refine ⟨before, inner, after, htext, hinner, hmatch, ?_, ?_⟩
  · simp only [hspan, Nat.zero_add]
  · simp only [hspan, Nat.zero_add, Text.byteLength_append]

theorem IsTag.start_lt_stop (hform : HasOneBrace form) (h : IsTag form text tag) :
    tag.span.start < tag.span.stop := by
  obtain ⟨before, inner, after, -, -, -, hstart, hstop⟩ := h.exists_inner hform
  have := Text.byteLength_pos (List.cons_ne_nil '\x7b' inner)
  omega

theorem IsTag.isCharAt (hform : HasOneBrace form) (h : IsTag form text tag) :
    Text.IsCharAt text.toList tag.span.start '\x7b' := by
  obtain ⟨start, hat, hstart⟩ := StandsFrom.isCharAt hform h
  rwa [hstart, Nat.zero_add]

/-- A brace behind the start of a tag stands behind the whole tag. -/
theorem IsTag.stop_le (hform : HasOneBrace form) (h : IsTag form text tag) {offset : Nat}
    (hat : Text.IsCharAt text.toList offset '\x7b') (hlt : tag.span.start < offset) :
    tag.span.stop ≤ offset := by
  obtain ⟨before, inner, after, htext, hinner, -, hstart, hstop⟩ := h.exists_inner hform
  rw [htext, Text.isCharAt_append_iff, Text.isCharAt_append_iff, Text.isCharAt_cons_iff] at hat
  rcases hat with hbefore | ⟨-, (⟨hzero, -⟩ | ⟨-, hinside⟩) | ⟨hbehind, -⟩⟩
  · have := hbefore.lt_byteLength
    omega
  · omega
  · obtain ⟨xs, ys, rfl, -⟩ := hinside
    simp at hinner
  · omega

/-- What stands behind an offset of a text is determined by the offset. -/
private theorem eq_of_byteLength_eq {xs ys xs' ys' : List Char} (h : xs ++ ys = xs' ++ ys')
    (hlength : Text.byteLength xs = Text.byteLength xs') : ys = ys' := by
  rcases List.append_eq_append_iff.1 h with ⟨gap, rfl, rfl⟩ | ⟨gap, rfl, rfl⟩
  all_goals
    rw [Text.byteLength_append] at hlength
    have hgap : gap = [] := by
      by_contra hne
      have := Text.byteLength_pos hne
      omega
    simp [hgap]

/-- Of two tags of forms that never occur in one place, one ends before the other begins. -/
theorem IsTag.separate {form' : List Char → Option (β × List Char)} {tag' : Occurrence β}
    (hform : HasOneBrace form) (hform' : HasOneBrace form')
    (hne : ∀ cs value rest, form cs = some (value, rest) → form' cs = none)
    (h : IsTag form text tag) (h' : IsTag form' text tag') :
    tag.span.stop ≤ tag'.span.start ∨ tag'.span.stop ≤ tag.span.start := by
  rcases Nat.lt_trichotomy tag.span.start tag'.span.start with hlt | heq | hlt
  · exact .inl (h.stop_le hform (h'.isCharAt hform') hlt)
  · obtain ⟨before, inner, after, htext, -, hmatch, hstart, -⟩ := h.exists_inner hform
    obtain ⟨before', inner', after', htext', -, hmatch', hstart', -⟩ := h'.exists_inner hform'
    have hsame := eq_of_byteLength_eq (htext.symm.trans htext') (by omega)
    rw [← hsame, hne _ _ _ hmatch] at hmatch'
    cases hmatch'
  · exact .inr (h'.stop_le hform' (h.isCharAt hform) hlt)

end Overlap

/-- The word of a tag is what its inside begins with. -/
theorem head?_of_afterTag? {word : String} {c : Char} (hword : word.toList.head? = some c)
    {cs rest : List Char} (h : afterTag? word cs = some rest) :
    ∃ inner, afterOpening? cs = some inner ∧ inner.head? = some c := by
  obtain ⟨inner, hopening, h⟩ := Option.bind_eq_some_iff.1 h
  obtain ⟨behind, hbehind, -⟩ := Option.bind_eq_some_iff.1 h
  refine ⟨inner, hopening, ?_⟩
  rw [← List.append_eq_of_isPrefixOf?_eq_some hbehind]
  simp [hword]

/-- No tag opens a block and closes one: the words that close blocks begin with another letter than
those that open them. -/
theorem closing?_eq_none_of_opening? {cs rest : List Char} {kind : BlockKind}
    (h : opening? cs = some (kind, rest)) : closing? cs = none := by
  by_contra hclosing
  obtain ⟨⟨kind', rest'⟩, hclosing⟩ := Option.ne_none_iff_exists'.1 hclosing
  obtain ⟨pair, hpair, hopener⟩ := exists_word_of_blockWords (fun word => word) h
  obtain ⟨pair', hpair', hcloser⟩ := exists_word_of_blockWords ("end" ++ ·) hclosing
  have hfirst : ∀ pair ∈ blockWords, ∃ c, c ≠ 'e' ∧ pair.2.toList.head? = some c := by
    simp [blockWords]
  obtain ⟨c, hc, hword⟩ := hfirst pair hpair
  obtain ⟨inner, hinner, hhead⟩ := head?_of_afterTag? hword hopener
  have hword' : ("end" ++ pair'.2).toList.head? = some 'e' := by simp
  obtain ⟨inner', hinner', hhead'⟩ := head?_of_afterTag? hword' hcloser
  obtain rfl := Option.some.inj (hinner.symm.trans hinner')
  exact hc (Option.some.inj (hhead.symm.trans hhead'))

end SourceChunks.Template
