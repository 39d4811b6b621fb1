-- SUMMARY: Lists of chunks: the lines they cover, the lines they show, and the order that sorting gives them.
import SourceChunks.Chunk
import SourceChunks.Proofs.Windows

/-!
# Lists of chunks

What is said of the chunks of a file, whatever the file is: which lines they cover, that their text
is the text of their lines, and that sorting them by first line is stable.
-/

namespace SourceChunks.Chunk

/-! ## Ranges -/

/-- The lines of a chunk. -/
def lineRange (chunk : Chunk) : LineRange := ⟨chunk.startLine, chunk.endLine⟩

/-- A line lies in one of several chunks. -/
def Covers (chunks : List Chunk) (line : Nat) : Prop :=
  ∃ chunk ∈ chunks, chunk.containsLine line = true

/-- The chunks of text between symbols or blocks. -/
def templates (chunks : List Chunk) : List Chunk :=
  chunks.filter (·.metadata.kind = .template)

theorem mem_templates {chunks : List Chunk} {chunk : Chunk} :
    chunk ∈ templates chunks ↔ chunk ∈ chunks ∧ chunk.metadata.kind = .template := by
  simp [templates]

theorem templates_subset (chunks : List Chunk) : templates chunks ⊆ chunks :=
  fun _ hmem => (mem_templates.1 hmem).1

theorem covers_iff_lineRange {chunks : List Chunk} {line : Nat} :
    Covers chunks line ↔ ∃ range ∈ chunks.map lineRange, range.contains line = true := by
  constructor
  · rintro ⟨chunk, hmem, hline⟩
    exact ⟨chunk.lineRange, List.mem_map_of_mem hmem, hline⟩
  · rintro ⟨range, hmem, hline⟩
    obtain ⟨chunk, hchunk, rfl⟩ := List.mem_map.1 hmem
    exact ⟨chunk, hchunk, hline⟩

theorem Covers.mono {chunks others : List Chunk} {line : Nat} (h : Covers chunks line)
    (hsub : chunks ⊆ others) : Covers others line := by
  obtain ⟨chunk, hmem, hline⟩ := h
  exact ⟨chunk, hsub hmem, hline⟩

theorem covers_congr_perm {chunks others : List Chunk} {line : Nat} (h : chunks.Perm others) :
    Covers chunks line ↔ Covers others line :=
  ⟨fun hcovers => hcovers.mono h.subset, fun hcovers => hcovers.mono h.symm.subset⟩

/-- Chunks that are the windows of a block cover the lines of the block. -/
theorem covers_windows_iff {chunks : List Chunk} {options : Options} {block : LineRange}
    {line : Nat} (hwindows : chunks.map lineRange = LineRange.windows options block)
    (hblock : block.first ≤ block.last) : Covers chunks line ↔ block.contains line = true := by
  rw [covers_iff_lineRange, hwindows, LineRange.exists_mem_windows_contains_iff hblock]

theorem covers_flatMap_iff {α : Type} {items : List α} {chunksOf : α → List Chunk} {line : Nat} :
    Covers (items.flatMap chunksOf) line ↔ ∃ item ∈ items, Covers (chunksOf item) line := by
  constructor
  · rintro ⟨chunk, hmem, hline⟩
    obtain ⟨item, hitem, hmem⟩ := List.mem_flatMap.1 hmem
    exact ⟨item, hitem, chunk, hmem, hline⟩
  · rintro ⟨item, hitem, chunk, hmem, hline⟩
    exact ⟨chunk, List.mem_flatMap.2 ⟨item, hitem, hmem⟩, hline⟩

/-- A chunk that is a window of a block lies inside the block. -/
theorem bounds_of_windows {chunks : List Chunk} {options : Options} {block : LineRange}
    (hwindows : chunks.map lineRange = LineRange.windows options block)
    (hblock : block.first ≤ block.last) {chunk : Chunk} (hmem : chunk ∈ chunks) :
    block.first ≤ chunk.startLine ∧ chunk.startLine ≤ chunk.endLine ∧
      chunk.endLine ≤ block.last := by
  have hwindow : chunk.lineRange ∈ LineRange.windows options block :=
    hwindows ▸ List.mem_map_of_mem hmem
  exact LineRange.bounds_of_mem_windows hblock hwindow

/-! ## Contents -/

/-- A chunk shows its lines: the lines of the file fall into those before it, its own, of which
there is at least one, and those after it, and its text is its own lines joined by line feeds. -/
def ShowsLines (lines : List String) (chunk : Chunk) : Prop :=
  ∃ before own after, lines = before ++ own ++ after ∧ own ≠ [] ∧
    chunk.startLine = before.length + 1 ∧ chunk.endLine = before.length + own.length ∧
    chunk.content = "\n".intercalate own

theorem showsLines_of_sliceLines {lines : List String} {chunk : Chunk}
    (hcontent : chunk.content = Text.sliceLines lines chunk.startLine chunk.endLine)
    (hstart : 1 ≤ chunk.startLine) (hle : chunk.startLine ≤ chunk.endLine)
    (hend : chunk.endLine ≤ lines.length) : ShowsLines lines chunk := by
  have hlength : ((lines.take chunk.endLine).drop (chunk.startLine - 1)).length =
      chunk.endLine - (chunk.startLine - 1) := by
    rw [List.length_drop, List.length_take, Nat.min_eq_left hend]
  refine ⟨lines.take (chunk.startLine - 1),
    (lines.take chunk.endLine).drop (chunk.startLine - 1), lines.drop chunk.endLine, ?_, ?_, ?_, ?_,
    hcontent⟩
  · have hsplit := List.take_append_drop (chunk.startLine - 1) (lines.take chunk.endLine)
    rw [List.take_take, Nat.min_eq_left (by omega)] at hsplit
    rw [hsplit, List.take_append_drop]
  · intro hnil
    rw [hnil, List.length_nil] at hlength
    omega
  · rw [List.length_take, Nat.min_eq_left (by omega)]
    omega
  · rw [hlength, List.length_take, Nat.min_eq_left (by omega)]
    omega

/-! ## Order -/

theorem sorted_perm (chunks : List Chunk) : (sorted chunks).Perm chunks :=
  List.mergeSort_perm _ _

@[simp] theorem mem_sorted {chunks : List Chunk} {chunk : Chunk} :
    chunk ∈ sorted chunks ↔ chunk ∈ chunks :=
  (sorted_perm chunks).mem_iff

private def startsBefore (a b : Chunk) : Bool := a.startLine ≤ b.startLine

private theorem startsBefore_trans (a b c : Chunk) (hab : startsBefore a b = true)
    (hbc : startsBefore b c = true) : startsBefore a c = true := by
  simp only [startsBefore, decide_eq_true_eq] at hab hbc ⊢
  exact Nat.le_trans hab hbc

private theorem startsBefore_total (a b : Chunk) :
    (startsBefore a b || startsBefore b a) = true := by
  simp only [startsBefore, Bool.or_eq_true, decide_eq_true_eq]
  exact Nat.le_total _ _

/-- Sorting is stable: chunks that start on one line stand as they stood before. -/
theorem pairwise_sorted {R : Chunk → Chunk → Prop} {chunks : List Chunk} (h : chunks.Pairwise R) :
    (sorted chunks).Pairwise fun a b =>
      a.startLine < b.startLine ∨ (a.startLine = b.startLine ∧ R a b) := by
  -- with its place in the unsorted list beside each chunk, no two are tied
  let numbered := chunks.zipIdx.mergeSort (List.zipIdxLE startsBefore)
  have hsorted : sorted chunks = numbered.map (·.1) := List.mergeSort_zipIdx.symm
  have hordered : numbered.Pairwise (List.zipIdxLE startsBefore · ·) :=
    List.pairwise_mergeSort (List.zipIdxLE_trans startsBefore_trans)
      (List.zipIdxLE_total startsBefore_total) _
  have hplaces : numbered.Pairwise (·.2 ≠ ·.2) := by
    have hnodup : (numbered.map (·.2)).Nodup := by
      rw [((List.mergeSort_perm _ _).map _).nodup_iff, List.zipIdx_map_snd]
      exact List.nodup_range'
    exact List.pairwise_map.1 hnodup
  rw [hsorted, List.pairwise_map]
  refine (hordered.and hplaces).imp_of_mem ?_
  rintro ⟨a, i⟩ ⟨b, j⟩ ha hb ⟨hle, hne⟩
  obtain ⟨hi, ha⟩ := List.getElem?_eq_some_iff.1
    (List.mem_zipIdx_iff_getElem?.1 (List.mem_mergeSort.1 ha))
  obtain ⟨hj, hb⟩ := List.getElem?_eq_some_iff.1
    (List.mem_zipIdx_iff_getElem?.1 (List.mem_mergeSort.1 hb))
  simp only [List.zipIdxLE, startsBefore, decide_eq_true_eq] at hle
  rcases Nat.lt_trichotomy a.startLine b.startLine with hlt | heq | hgt
  · exact .inl hlt
  · have hij : i ≤ j := by simpa [heq] using hle
    have hR := List.pairwise_iff_getElem.1 h i j hi hj (by omega)
    rw [ha, hb] at hR
    exact .inr ⟨heq, hR⟩
  · rw [if_neg (Nat.not_le.2 hgt)] at hle
    simp at hle

/-- Two chunks whose first lines are in order stay in order. -/
theorem sublist_sorted {chunks : List Chunk} {a b : Chunk} (h : [a, b].Sublist chunks)
    (hle : a.startLine ≤ b.startLine) : [a, b].Sublist (sorted chunks) :=
  List.pair_sublist_mergeSort startsBefore_trans startsBefore_total (decide_eq_true hle) h

/-- Sorting mixes chunks of symbols or blocks with chunks of text, which are the template chunks. -/
theorem templates_sorted_perm {elements texts : List Chunk}
    (helements : ∀ chunk ∈ elements, chunk.metadata.kind ≠ .template)
    (htexts : ∀ chunk ∈ texts, chunk.metadata.kind = .template) :
    (templates (sorted (elements ++ texts))).Perm texts := by
  refine ((sorted_perm _).filter _).trans (.of_eq ?_)
  rw [List.filter_append, List.filter_eq_nil_iff.2, List.filter_eq_self.2, List.nil_append]
  · intro chunk hmem
    exact decide_eq_true (htexts chunk hmem)
  · intro chunk hmem
    simpa using helements chunk hmem

/-- Sorted chunks are in the order of their first lines. -/
theorem pairwise_startLine_sorted (chunks : List Chunk) :
    (sorted chunks).Pairwise (·.startLine ≤ ·.startLine) := by
  have h : chunks.Pairwise fun _ _ => True := List.pairwise_of_forall fun _ _ => trivial
  refine (pairwise_sorted h).imp ?_
  intro a b hab
  omega

end SourceChunks.Chunk
