-- SUMMARY: The chunks of a template lose no text and tell blocks from the text around them.
import SourceChunks.Proofs.Chunk
import SourceChunks.Proofs.Template.Block
import SourceChunks.Proofs.Template.Mask
import SourceChunks.Template

/-!
# Coverage of templates

Blocks are ranges of bytes, chunks are ranges of lines, and a line may hold parts of several blocks
and text besides. Block chunks cover every line that a block touches. Template chunks cover every
line with free text, which is text outside all blocks, and no line that a block touches without it.
-/

namespace SourceChunks.Template

/-! ## Free text -/

/-- A line of a template, counted from one, holds a character that is not blank and stands outside
all blocks. -/
def HoldsFreeText (text : String) (line : Nat) : Prop :=
  ∃ offset c, Text.IsCharAt text.toList offset c ∧ Text.isBlank c = false ∧
    (∀ block ∈ blocks text, block.span.contains offset = false) ∧ Text.lineAt text offset = line

/-- A template with spaces in place of its blocks. -/
def withoutBlocks (text : String) : String :=
  mask ((blocks text).map (·.span)) text

theorem holdsFreeText_iff {text : String} {line : Nat} :
    HoldsFreeText text line ↔ Text.HoldsText (withoutBlocks text) line := by
  rw [withoutBlocks, holdsText_mask_iff]
  simp only [HoldsFreeText, List.forall_mem_map]

theorem HoldsFreeText.holdsText {text : String} {line : Nat} (h : HoldsFreeText text line) :
    Text.HoldsText text line := by
  obtain ⟨offset, c, hat, hc, -, hline⟩ := h
  exact ⟨offset, c, hat, hc, hline⟩

/-- The test for lines without free text. -/
theorem all_isBlankText_iff {text : String} {line : Nat} (hline : 1 ≤ line) :
    ((Text.lines (withoutBlocks text))[line - 1]?).all Text.isBlankText = true ↔
      ¬ HoldsFreeText text line := by
  rw [holdsFreeText_iff, Text.holdsText_iff]
  cases h : (Text.lines (withoutBlocks text))[line - 1]? with
  | none =>
      refine iff_of_true rfl ?_
      rintro ⟨i, content, rfl, hcontent, -⟩
      rw [Nat.add_sub_cancel, hcontent] at h
      cases h
  | some content =>
      constructor
      · rintro hblank ⟨i, other, rfl, hother, hfree⟩
        rw [Nat.add_sub_cancel, hother] at h
        obtain rfl := Option.some.inj h
        rw [Option.all_some, hfree] at hblank
        cases hblank
      · intro hfree
        cases hblank : Text.isBlankText content with
        | true => exact hblank
        | false => exact absurd ⟨line - 1, content, by omega, h, hblank⟩ hfree

/-! ## Runs between blocks -/

/-- The runs of lines that do not belong to blocks only. -/
def textRuns (text : String) : List LineRange :=
  let lines := Text.lines text
  LineRange.uncovered lines
    (coveredLines lines.length (blocks text) (Text.lines (withoutBlocks text)))

variable {text : String}

theorem getD_coveredLines {line : Nat} (hfirst : 1 ≤ line)
    (hlast : line ≤ (Text.lines text).length) :
    (coveredLines (Text.lines text).length (blocks text)
      (Text.lines (withoutBlocks text))).getD (line - 1) false = false ↔
      ((∃ block ∈ blocks text, block.lines.contains line = true) → HoldsFreeText text line) := by
  rw [coveredLines, LineRange.getD_flags _ hfirst hlast, Bool.and_eq_false_imp,
    ← Bool.not_eq_true, all_isBlankText_iff hfirst, Classical.not_not]
  simp

/-- A line with free text is in a run. -/
theorem exists_mem_textRuns_of_holdsFreeText {line : Nat} (h : HoldsFreeText text line) :
    ∃ run ∈ textRuns text, run.contains line = true := by
  obtain ⟨i, content, rfl, hcontent, hblank⟩ := Text.holdsText_iff.1 h.holdsText
  have hi := (List.getElem?_eq_some_iff.1 hcontent).1
  refine LineRange.exists_mem_uncovered_contains hcontent hblank ?_
  exact (getD_coveredLines (Nat.le_add_left 1 i) hi).2 fun _ => h

/-- A line of a run that a block reaches has free text. -/
theorem holdsFreeText_of_mem_textRuns {run : LineRange} {line : Nat} (h : run ∈ textRuns text)
    (hline : run.contains line = true) {block : Block} (hblock : block ∈ blocks text)
    (hreaches : block.lines.contains line = true) : HoldsFreeText text line := by
  obtain ⟨hfirst, hlast, hflag⟩ := LineRange.free_of_mem_uncovered h hline
  exact (getD_coveredLines hfirst hlast).1 hflag ⟨block, hblock, hreaches⟩

/-! ## The chunks of one block or run -/

section Parts

variable {lines : List String} {file : String} {options : Options}
  {names : List (Nat × String)} {block : Block} {run : LineRange}

/-- The chunks of a block are its windows. -/
theorem lineRange_blockChunks : (blockChunks lines file options block).map Chunk.lineRange =
    LineRange.windows options block.lines := by
  rw [blockChunks, List.map_map]
  exact List.map_id _

/-- The chunks of a run are its windows. -/
theorem lineRange_templateChunks : (templateChunks lines file options names run).map
    Chunk.lineRange = LineRange.windows options run := by
  rw [templateChunks, List.map_map]
  exact List.map_id _

/-- A chunk of a block shows that it is one, and says which. -/
theorem metadata_of_mem_blockChunks {chunk : Chunk}
    (h : chunk ∈ blockChunks lines file options block) :
    chunk.metadata.kind = .block ∧ chunk.metadata.symbolType = some (.block block.kind) ∧
      chunk.metadata.symbolName = block.name ∧
      chunk.content = Text.sliceLines lines chunk.startLine chunk.endLine := by
  obtain ⟨window, -, rfl⟩ := List.mem_map.1 h
  exact ⟨rfl, rfl, rfl, rfl⟩

theorem metadata_of_mem_templateChunks {chunk : Chunk}
    (h : chunk ∈ templateChunks lines file options names run) :
    chunk.metadata.kind = .template ∧
      chunk.content = Text.sliceLines lines chunk.startLine chunk.endLine := by
  obtain ⟨window, -, rfl⟩ := List.mem_map.1 h
  exact ⟨rfl, rfl⟩

end Parts

/-! ## All chunks of a template -/

section Chunks

variable (text) (file : String) (options : Options)

/-- The chunks of all blocks of a template, one block after the other. -/
def allBlockChunks : List Chunk :=
  (blocks text).flatMap (blockChunks (Text.lines text) file options)

/-- The chunks of all runs of a template, one run after the other. -/
def allTextChunks : List Chunk :=
  (textRuns text).flatMap (templateChunks (Text.lines text) file options
    (references (mask (comments text) (withoutBlocks text))))

variable {text}

theorem chunks_eq (h : Text.isBlankText text = false) :
    chunks text file options =
      Chunk.sorted (allBlockChunks text file options ++ allTextChunks text file options) := by
  rw [chunks, h]
  rfl

theorem kind_of_mem_allBlockChunks {chunk : Chunk} (h : chunk ∈ allBlockChunks text file options) :
    chunk.metadata.kind = .block := by
  obtain ⟨block, -, hmem⟩ := List.mem_flatMap.1 h
  exact (metadata_of_mem_blockChunks hmem).1

theorem kind_of_mem_allTextChunks {chunk : Chunk} (h : chunk ∈ allTextChunks text file options) :
    chunk.metadata.kind = .template := by
  obtain ⟨run, -, hmem⟩ := List.mem_flatMap.1 h
  exact (metadata_of_mem_templateChunks hmem).1

/-- The template chunks are the chunks of the runs. -/
theorem templates_chunks_perm (h : Text.isBlankText text = false) :
    (Chunk.templates (chunks text file options)).Perm (allTextChunks text file options) := by
  rw [chunks_eq file options h]
  refine Chunk.templates_sorted_perm ?_ ?_
  · intro chunk hmem
    simp [kind_of_mem_allBlockChunks file options hmem]
  · intro chunk hmem
    exact kind_of_mem_allTextChunks file options hmem

/-- Template chunks cover the runs. -/
theorem covers_templates_chunks_iff (h : Text.isBlankText text = false) {line : Nat} :
    Chunk.Covers (Chunk.templates (chunks text file options)) line ↔
      ∃ run ∈ textRuns text, run.contains line = true := by
  rw [Chunk.covers_congr_perm (templates_chunks_perm file options h), allTextChunks,
    Chunk.covers_flatMap_iff]
  refine exists_congr fun run => and_congr_right fun hrun => ?_
  exact Chunk.covers_windows_iff lineRange_templateChunks
    (LineRange.first_le_last_of_mem_uncovered hrun)

/-- Every chunk of a template shows its lines. -/
theorem showsLines_of_mem_chunks {chunk : Chunk} (h : chunk ∈ chunks text file options) :
    chunk.ShowsLines (Text.lines text) := by
  cases htext : Text.isBlankText text with
  | true => simp [chunks, htext] at h
  | false =>
      rw [chunks_eq file options htext, Chunk.mem_sorted, List.mem_append] at h
      rcases h with h | h
      · obtain ⟨block, hblock, hmem⟩ := List.mem_flatMap.1 h
        obtain ⟨hpos, hle, hend⟩ := bounds_of_mem_blocks hblock
        obtain ⟨h₁, h₂, h₃⟩ := Chunk.bounds_of_windows lineRange_blockChunks hle hmem
        exact Chunk.showsLines_of_sliceLines (metadata_of_mem_blockChunks hmem).2.2.2
          (Nat.le_trans hpos h₁) h₂ (Nat.le_trans h₃ hend)
      · obtain ⟨run, hrun, hmem⟩ := List.mem_flatMap.1 h
        obtain ⟨hpos, hle, hend⟩ := LineRange.bounds_of_mem_uncovered hrun
        obtain ⟨h₁, h₂, h₃⟩ := Chunk.bounds_of_windows lineRange_templateChunks hle hmem
        exact Chunk.showsLines_of_sliceLines (metadata_of_mem_templateChunks hmem).2
          (Nat.le_trans hpos h₁) h₂ (Nat.le_trans h₃ hend)

/-- Chunks are in the order of their first lines, and on one line block chunks come first. -/
theorem pairwise_chunks : (chunks text file options).Pairwise fun a b =>
    a.startLine ≤ b.startLine ∧
      (a.startLine = b.startLine → a.metadata.kind = .template → b.metadata.kind = .template) := by
  cases htext : Text.isBlankText text with
  | true => simp [chunks, htext]
  | false =>
      have hparts : (allBlockChunks text file options ++ allTextChunks text file options).Pairwise
          fun a b => a.metadata.kind = .template → b.metadata.kind = .template := by
        have hany (chunks : List Chunk) : chunks.Pairwise fun _ _ => True :=
          List.pairwise_of_forall fun _ _ => trivial
        refine List.pairwise_append.2 ⟨?_, ?_, ?_⟩
        · refine (hany _).imp_of_mem ?_
          intro a b ha _ _ hkind
          rw [kind_of_mem_allBlockChunks file options ha] at hkind
          cases hkind
        · refine (hany _).imp_of_mem ?_
          intro a b _ hb _ _
          exact kind_of_mem_allTextChunks file options hb
        · intro a _ b hb _
          exact kind_of_mem_allTextChunks file options hb
      rw [chunks_eq file options htext]
      refine (Chunk.pairwise_sorted hparts).imp ?_
      rintro a b (hlt | ⟨heq, hkind⟩)
      · exact ⟨Nat.le_of_lt hlt, fun heq => absurd heq (Nat.ne_of_lt hlt)⟩
      · exact ⟨Nat.le_of_eq heq, fun _ => hkind⟩

end Chunks

/-- The chunks of a template lose no free text, give every line that a block touches to a chunk of
that block, and keep lines without free text out of template chunks. They show their lines, in
order, blocks before text. -/
theorem chunks_coverage (text file : String) (options : Options)
    (htext : Text.isBlankText text = false) :
    let chunks := chunks text file options
    (∀ line, HoldsFreeText text line → Chunk.Covers (Chunk.templates chunks) line) ∧
    (∀ block ∈ blocks text, ∀ line, block.Touches text line →
      ∃ chunk ∈ chunks, chunk.containsLine line = true ∧ chunk.metadata.kind = .block ∧
        chunk.metadata.symbolType = some (.block block.kind) ∧
        chunk.metadata.symbolName = block.name) ∧
    (∀ block ∈ blocks text, ∀ line, block.Touches text line → ¬ HoldsFreeText text line →
      ¬ Chunk.Covers (Chunk.templates chunks) line) ∧
    (∀ chunk ∈ chunks, chunk.ShowsLines (Text.lines text)) ∧
    chunks.Pairwise fun a b => a.startLine ≤ b.startLine ∧
      (a.startLine = b.startLine → a.metadata.kind = .template → b.metadata.kind = .template) := by
  intro chunks
  have htemplates := @covers_templates_chunks_iff text file options htext
  refine ⟨?_, ?_, ?_, ?_, pairwise_chunks file options⟩
  · intro line hfree
    exact htemplates.2 (exists_mem_textRuns_of_holdsFreeText hfree)
  · intro block hblock line htouch
    have hcovers : Chunk.Covers (blockChunks (Text.lines text) file options block) line :=
      (Chunk.covers_windows_iff lineRange_blockChunks (bounds_of_mem_blocks hblock).2.1).2
        (contains_of_touches hblock htouch)
    obtain ⟨chunk, hmem, hline⟩ := hcovers
    obtain ⟨hkind, htype, hname, -⟩ := metadata_of_mem_blockChunks hmem
    refine ⟨chunk, ?_, hline, hkind, htype, hname⟩
    rw [show chunks = _ from chunks_eq file options htext, Chunk.mem_sorted]
    exact List.mem_append_left _ (List.mem_flatMap.2 ⟨block, hblock, hmem⟩)
  · intro block hblock line htouch hbare hcovers
    obtain ⟨run, hrun, hline⟩ := htemplates.1 hcovers
    have hreaches := contains_of_touches hblock htouch
    exact hbare (holdsFreeText_of_mem_textRuns hrun hline hblock hreaches)
  · intro chunk hchunk
    exact showsLines_of_mem_chunks file options hchunk

/-- A template whose first line holds text and the start of a block, which ends on the second. -/
private def sharedLine : String := "a \x7b% style %\x7d\n\x7b% endstyle %\x7d\n"

/-- The line that text and a block share is in a template chunk, the other line of the block is
not. -/
theorem chunks_coverage_sharedLine : Text.isBlankText sharedLine = false ∧
    HoldsFreeText sharedLine 1 ∧
    Chunk.Covers (Chunk.templates (chunks sharedLine "a.liquid" {})) 1 ∧
    ∃ block ∈ blocks sharedLine, block.Touches sharedLine 1 ∧ block.Touches sharedLine 2 ∧
      ¬ HoldsFreeText sharedLine 2 ∧
      ¬ Chunk.Covers (Chunk.templates (chunks sharedLine "a.liquid" {})) 2 := by
  have htext : Text.isBlankText sharedLine = false := by decide
  have hblocks : blocks sharedLine = [⟨.style, ⟨2, 28⟩, ⟨1, 2⟩, none⟩] := by decide
  have hblock : ⟨.style, ⟨2, 28⟩, ⟨1, 2⟩, none⟩ ∈ blocks sharedLine := by
    rw [hblocks]
    exact List.mem_singleton.2 rfl
  have hfree : HoldsFreeText sharedLine 1 := by
    refine ⟨0, 'a', ⟨[], sharedLine.toList.tail, by decide, rfl⟩, by decide, ?_, by decide⟩
    rw [hblocks]
    decide
  have hbare : ¬ HoldsFreeText sharedLine 2 := (all_isBlankText_iff (by decide)).1 (by decide)
  obtain ⟨hcovers, -, hfreed, -⟩ := chunks_coverage sharedLine "a.liquid" {} htext
  refine ⟨htext, hfree, hcovers 1 hfree, _, hblock, ⟨2, rfl, by decide⟩, ⟨20, rfl, by decide⟩,
    hbare, ?_⟩
  exact hfreed _ hblock 2 ⟨20, rfl, by decide⟩ hbare

end SourceChunks.Template
