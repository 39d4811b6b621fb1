-- SUMMARY: Trimmed texts, words, and texts in which single spaces are the only white space.
import Mathlib.Data.List.Chain
import SourceChunks.Text.Blank

/-!
# White space around and inside texts

A trimmed text has no white space at its ends. A collapsed text has no other white space than
single spaces between its words, and every text that begins a collapsed text is like it.
-/

namespace SourceChunks.Text

/-! ## Trimmed texts -/

/-- No white space stands at either end of a text. -/
def Trimmed (s : String) : Prop :=
  (∀ c ∈ s.toList.head?, isBlank c = false) ∧ ∀ c ∈ s.toList.getLast?, isBlank c = false

/-- What can be a name: a trimmed text that is not empty. -/
def IsName (s : String) : Prop :=
  s ≠ "" ∧ Trimmed s

theorem not_of_mem_head?_dropWhile {p : Char → Bool} {cs : List Char} {c : Char}
    (h : c ∈ (cs.dropWhile p).head?) : p c = false := by
  have hhead := List.head?_dropWhile_not p cs
  rw [Option.mem_def.1 h] at hhead
  exact hhead

/-- The part in front of a run at the end begins as the whole does. -/
theorem head?_of_mem_head?_reverse_dropWhile {p : Char → Bool} {cs : List Char} {c : Char}
    (h : c ∈ (cs.reverse.dropWhile p).reverse.head?) : c ∈ cs.head? := by
  obtain ⟨run, hrun⟩ := List.dropWhile_suffix (l := cs.reverse) p
  have hsplit : cs = (cs.reverse.dropWhile p).reverse ++ run.reverse := by
    rw [← List.reverse_append, hrun, List.reverse_reverse]
  rw [hsplit, List.head?_append, Option.mem_def.1 h]
  exact rfl

theorem trimmed_trim (s : String) : Trimmed (trim s) := by
  unfold Trimmed trim dropBothWhile
  rw [String.toList_ofList]
  constructor
  · intro c hc
    exact not_of_mem_head?_dropWhile (head?_of_mem_head?_reverse_dropWhile hc)
  · intro c hc
    rw [List.getLast?_reverse] at hc
    exact not_of_mem_head?_dropWhile hc

theorem exists_dropBothWhile (p : Char → Bool) (cs : List Char) :
    ∃ before behind : List Char, (∀ c ∈ before, p c = true) ∧ (∀ c ∈ behind, p c = true) ∧
      cs = before ++ (dropBothWhile p cs ++ behind) := by
  refine ⟨cs.takeWhile p, ((cs.dropWhile p).reverse.takeWhile p).reverse, ?_, ?_, ?_⟩
  · intro c hc
    exact List.all_eq_true.1 List.all_takeWhile c hc
  · intro c hc
    exact List.all_eq_true.1 List.all_takeWhile c (List.mem_reverse.1 hc)
  · rw [dropBothWhile, ← List.reverse_append, List.takeWhile_append_dropWhile, List.reverse_reverse,
      List.takeWhile_append_dropWhile]

/-- Trimming takes white space from both ends. -/
theorem exists_trim (s : String) : ∃ before behind : List Char,
    (∀ c ∈ before, isBlank c = true) ∧ (∀ c ∈ behind, isBlank c = true) ∧
      s.toList = before ++ ((trim s).toList ++ behind) := by
  rw [trim, String.toList_ofList]
  exact exists_dropBothWhile isBlank s.toList

/-! ## Pieces between separators -/

theorem piecesBetween_of_forall {p : Char → Bool} {cs : List Char}
    (h : ∀ c ∈ cs, p c = false) : piecesBetween p cs = [cs] := by
  induction cs with
  | nil => rfl
  | cons c cs ih =>
      rw [List.forall_mem_cons] at h
      simp [piecesBetween, h.1, ih h.2]

/-- A separator ends one piece, and the next begins behind it. -/
theorem piecesBetween_append {p : Char → Bool} {c : Char} (hc : p c = true)
    (before rest : List Char) :
    piecesBetween p (before ++ c :: rest) = piecesBetween p before ++ piecesBetween p rest := by
  induction before with
  | nil => simp [piecesBetween, hc]
  | cons b before ih =>
      obtain ⟨piece, pieces, hpieces⟩ :=
        List.exists_cons_of_ne_nil (piecesBetween_ne_nil p before)
      by_cases hb : p b = true
      · simp [piecesBetween, hb, ih]
      · simp [piecesBetween, hb, ih, hpieces]

/-- What is around any other character is one piece with it. -/
theorem piecesBetween_append_of_not {p : Char → Bool} {c : Char} (hc : p c = false)
    (before rest : List Char) :
    piecesBetween p (before ++ c :: rest) =
      (piecesBetween p before).dropLast ++
        ((piecesBetween p before).getLastD [] ++ c :: (piecesBetween p rest).headD []) ::
          (piecesBetween p rest).tail := by
  induction before with
  | nil =>
      obtain ⟨piece, pieces, hpieces⟩ := List.exists_cons_of_ne_nil (piecesBetween_ne_nil p rest)
      simp [piecesBetween, hc, hpieces]
  | cons b before ih =>
      obtain ⟨piece, pieces, hpieces⟩ :=
        List.exists_cons_of_ne_nil (piecesBetween_ne_nil p before)
      rw [hpieces] at ih
      by_cases hb : p b = true
      · simp [piecesBetween, hb, ih, hpieces]
      · cases pieces with
        | nil => simp [piecesBetween, hb, ih, hpieces]
        | cons next pieces => simp [piecesBetween, hb, ih, hpieces]

/-- The pieces hold everything but the separators. -/
theorem flatten_piecesBetween (p : Char → Bool) (cs : List Char) :
    (piecesBetween p cs).flatten = cs.filter (!p ·) := by
  induction cs with
  | nil => rfl
  | cons c cs ih =>
      obtain ⟨piece, pieces, hpieces⟩ := List.exists_cons_of_ne_nil (piecesBetween_ne_nil p cs)
      rw [hpieces, List.flatten_cons] at ih
      by_cases hc : p c = true
      · simp [piecesBetween, hc, hpieces, ih]
      · simp [piecesBetween, hc, hpieces, ih]

/-! ## Words -/

theorem not_of_mem_piecesBetween {p : Char → Bool} {cs piece : List Char}
    (h : piece ∈ piecesBetween p cs) : ∀ c ∈ piece, p c = false := by
  induction cs generalizing piece with
  | nil => simp_all [piecesBetween]
  | cons c cs ih =>
      unfold piecesBetween at h
      split at h
      · rcases List.mem_cons.1 h with rfl | h
        · simp
        · exact ih h
      · next hc =>
        split at h
        · next hnil => exact absurd hnil (piecesBetween_ne_nil p cs)
        · next first rest hpieces =>
          rcases List.mem_cons.1 h with rfl | h
          · intro d hd
            rcases List.mem_cons.1 hd with rfl | hd
            · simpa using hc
            · exact ih (hpieces ▸ List.mem_cons_self) d hd
          · exact ih (hpieces ▸ List.mem_cons_of_mem first h)

/-- A word is not empty and holds no white space. -/
theorem mem_words {s word : String} (h : word ∈ words s) :
    word.toList ≠ [] ∧ ∀ c ∈ word.toList, isBlank c = false := by
  obtain ⟨piece, hpiece, rfl⟩ := List.mem_map.1 h
  obtain ⟨hpiece, hne⟩ := List.mem_filter.1 hpiece
  rw [String.toList_ofList]
  exact ⟨by simpa using hne, not_of_mem_piecesBetween hpiece⟩

/-- White space ends one word, and the next begins behind it. -/
theorem words_append {c : Char} (hc : isBlank c = true) (before rest : List Char) :
    words (.ofList (before ++ c :: rest)) = words (.ofList before) ++ words (.ofList rest) := by
  simp only [words, String.toList_ofList, piecesBetween_append hc, List.filter_append,
    List.map_append]

theorem words_of_forall {word : List Char} (hne : word ≠ [])
    (h : ∀ c ∈ word, isBlank c = false) : words (.ofList word) = [.ofList word] := by
  simp [words, piecesBetween_of_forall h, hne]

theorem words_blank_append {gap : List Char} (hgap : ∀ c ∈ gap, isBlank c = true)
    (cs : List Char) : words (.ofList (gap ++ cs)) = words (.ofList cs) := by
  induction gap with
  | nil => rfl
  | cons c gap ih =>
      rw [List.forall_mem_cons] at hgap
      have hsplit := words_append hgap.1 [] (gap ++ cs)
      rwa [ih hgap.2] at hsplit

/-- A word ends where white space follows, or with the text. -/
theorem words_cons {word rest : List Char} (hne : word ≠ [])
    (hword : ∀ c ∈ word, isBlank c = false) (hrest : ∀ c ∈ rest.head?, isBlank c = true) :
    words (.ofList (word ++ rest)) = .ofList word :: words (.ofList rest) := by
  cases rest with
  | nil =>
      rw [List.append_nil, words_of_forall hne hword]
      rfl
  | cons c rest =>
      have hc : isBlank c = true := hrest c rfl
      have hskip := words_append hc [] rest
      rw [words_append hc, words_of_forall hne hword, List.singleton_append]
      exact congrArg _ hskip.symm

theorem mem_words_iff {cs : List Char} {word : String} :
    word ∈ words (.ofList cs) ↔ word.toList ≠ [] ∧ word.toList ∈ piecesBetween isBlank cs := by
  rw [words, String.toList_ofList, List.mem_map]
  constructor
  · rintro ⟨piece, hpiece, rfl⟩
    rw [String.toList_ofList]
    simpa [and_comm] using hpiece
  · rintro ⟨hne, hpiece⟩
    refine ⟨word.toList, List.mem_filter.2 ⟨hpiece, ?_⟩, String.ofList_toList⟩
    simpa using hne

theorem toList_squeeze (s : String) : (squeeze s).toList = s.toList.filter (!isBlank ·) := by
  rw [squeeze, String.toList_join, words, List.flatMap_map]
  simp only [String.toList_ofList]
  rw [← flatten_piecesBetween, ← List.flatten_filter_not_isEmpty, List.flatMap_id']

/-! ## Words around a character -/

/-- A character that is neither white space nor part of a word, so that the word does not reach over
it. -/
structure Bounds (word : String) (c : Char) : Prop where
  notBlank : isBlank c = false
  notMem : c ∉ word.toList

namespace Bounds

variable {word : String} {c d : Char}

/-- Where a word can be around a character that bounds it: in front, before some white space, or
behind, after some. -/
theorem mem_words_append_cons (h : Bounds word c) (before rest : List Char) :
    word ∈ words (.ofList (before ++ c :: rest)) ↔ word.toList ≠ [] ∧
      (word.toList ∈ (piecesBetween isBlank before).dropLast ∨
        word.toList ∈ (piecesBetween isBlank rest).tail) := by
  rw [mem_words_iff, piecesBetween_append_of_not h.notBlank, List.mem_append, List.mem_cons]
  refine and_congr_right fun _ => or_congr_right (or_iff_right fun hacross => h.notMem ?_)
  rw [hacross]
  exact List.mem_append_right _ List.mem_cons_self

/-- A character that bounds a word cuts the text in two. -/
theorem mem_words_append (h : Bounds word c) (before rest : List Char) :
    word ∈ words (.ofList (before ++ c :: rest)) ↔
      word ∈ words (.ofList (before ++ [c])) ∨ word ∈ words (.ofList (c :: rest)) := by
  have hrest := h.mem_words_append_cons [] rest
  rw [List.nil_append] at hrest
  rw [h.mem_words_append_cons before rest, h.mem_words_append_cons before [], hrest]
  simp [piecesBetween, and_or_left]

/-- Which of the characters that bound a word stands in a text does not matter to the word. -/
theorem mem_words_congr (hc : Bounds word c) (hd : Bounds word d) (before rest : List Char) :
    word ∈ words (.ofList (before ++ c :: rest)) ↔
      word ∈ words (.ofList (before ++ d :: rest)) := by
  rw [hc.mem_words_append_cons, hd.mem_words_append_cons]

theorem not_mem_words_singleton (h : Bounds word c) : word ∉ words (.ofList [c]) := by
  have hword := h.mem_words_append_cons [] []
  simpa [piecesBetween] using hword

end Bounds

/-! ## Single spaces -/

/-- Spaces are the only white space, and no two of them stand together. -/
def SinglySpaced (cs : List Char) : Prop :=
  (∀ c ∈ cs, isBlank c = true → c = ' ') ∧ ¬ [' ', ' '] <:+: cs

theorem SinglySpaced.of_isPrefix {cs ds : List Char} (h : SinglySpaced cs) (hds : ds <+: cs) :
    SinglySpaced ds := by
  constructor
  · intro c hc
    exact h.1 c (hds.subset hc)
  · intro hspaces
    exact h.2 (hspaces.trans hds.isInfix)

/-- Of two characters side by side at most one is white space. -/
private def oneBlank (a b : Char) : Prop :=
  isBlank a = false ∨ isBlank b = false

private theorem isChain_oneBlank {cs : List Char} (h : ∀ c ∈ cs, isBlank c = false) :
    cs.IsChain oneBlank := by
  refine List.Pairwise.isChain (List.pairwise_of_forall_mem_list ?_)
  intro a ha b _
  exact .inl (h a ha)

/-- Joined words begin as the first of them. -/
private theorem head?_intercalate {word : List Char} (hne : word ≠ []) (rest : List (List Char)) :
    ([' '].intercalate (word :: rest)).head? = word.head? := by
  cases rest with
  | nil => simp
  | cons next rest =>
      rw [List.intercalate_cons_cons, List.append_assoc, List.head?_append_of_ne_nil word hne]

private theorem isChain_intercalate {words : List (List Char)}
    (h : ∀ word ∈ words, word ≠ [] ∧ ∀ c ∈ word, isBlank c = false) :
    ([' '].intercalate words).IsChain oneBlank := by
  induction words with
  | nil => simp
  | cons word rest ih =>
      have hword := (h word List.mem_cons_self).2
      have hrest := ih fun other hother => h other (List.mem_cons_of_mem _ hother)
      cases rest with
      | nil => simpa using isChain_oneBlank hword
      | cons next rest =>
          obtain ⟨hne, hnext⟩ := h next (List.mem_cons_of_mem _ List.mem_cons_self)
          rw [List.intercalate_cons_cons, List.append_assoc, List.singleton_append,
            List.isChain_append, List.isChain_cons]
          refine ⟨isChain_oneBlank hword, ⟨?_, hrest⟩, ?_⟩
          · -- behind the space stands the next word
            intro c hc
            rw [head?_intercalate hne] at hc
            exact .inr (hnext c (List.mem_of_mem_head? hc))
          · intro c hc d _
            exact .inl (hword c (List.mem_of_mem_getLast? hc))

private theorem mem_intercalate {words : List (List Char)} {c : Char}
    (h : c ∈ [' '].intercalate words) : c = ' ' ∨ ∃ word ∈ words, c ∈ word := by
  induction words with
  | nil => simp at h
  | cons word rest ih =>
      cases rest with
      | nil => exact .inr ⟨word, List.mem_cons_self, by simpa using h⟩
      | cons next rest =>
          rw [List.intercalate_cons_cons, List.append_assoc, List.mem_append, List.mem_append,
            List.mem_singleton] at h
          rcases h with h | rfl | h
          · exact .inr ⟨word, List.mem_cons_self, h⟩
          · exact .inl rfl
          · obtain hspace | ⟨other, hother, hc⟩ := ih h
            · exact .inl hspace
            · exact .inr ⟨other, List.mem_cons_of_mem _ hother, hc⟩

/-- Words with a space between each two of them are singly spaced. -/
theorem singlySpaced_intercalate {words : List (List Char)}
    (h : ∀ word ∈ words, word ≠ [] ∧ ∀ c ∈ word, isBlank c = false) :
    SinglySpaced ([' '].intercalate words) := by
  constructor
  · intro c hc hblank
    obtain hspace | ⟨word, hword, hc⟩ := mem_intercalate hc
    · exact hspace
    · rw [(h word hword).2 c hc] at hblank
      cases hblank
  · intro hspaces
    have hchain := List.IsChain.infix (isChain_intercalate h) hspaces
    rcases List.isChain_pair.1 hchain with hblank | hblank
    · cases hblank
    · cases hblank

theorem singlySpaced_collapse (s : String) : SinglySpaced (collapse s).toList := by
  rw [collapse, String.toList_intercalate]
  refine singlySpaced_intercalate ?_
  intro word hword
  obtain ⟨word, hmem, rfl⟩ := List.mem_map.1 hword
  exact mem_words hmem

end SourceChunks.Text
