-- SUMMARY: Which template chunks hold text: all but the windows that fall into a gap of their run.
import SourceChunks.Proofs.Chunk.Lines
import SourceChunks.Proofs.Template.Imports

/-!
# Text in template chunks

A run loses the blank lines at its ends and keeps those between its lines of text. Its windows are
then cut by line numbers, so one of them may have blank lines only. That takes a run which is long
enough to be split and a gap in it of at least one window; every other template chunk holds text.
-/

namespace SourceChunks

/-! ## Blank slices -/

namespace Text

theorem isBlankText_append (s t : String) :
    isBlankText (s ++ t) = (isBlankText s && isBlankText t) := by
  simp [isBlankText]

theorem isBlankText_intercalate (lines : List String) :
    isBlankText ("\n".intercalate lines) = lines.all isBlankText := by
  induction lines with
  | nil => rfl
  | cons line rest ih =>
      cases rest with
      | nil => simp
      | cons next rest =>
          have hfeed : isBlankText "\n" = true := by decide
          rw [String.intercalate_cons_cons, isBlankText_append, isBlankText_append, ih, hfeed,
            Bool.and_true, List.all_cons (a := line)]

/-- A slice of lines holds a character that is not blank where one of its lines holds text. -/
theorem exists_char_sliceLines_iff {source : String} {first last : Nat} (hfirst : 1 ≤ first) :
    (∃ c ∈ (sliceLines (lines source) first last).toList, isBlank c = false) ↔
      ∃ line, first ≤ line ∧ line ≤ last ∧ HoldsText source line := by
  have hblank : (∃ c ∈ (sliceLines (lines source) first last).toList, isBlank c = false) ↔
      isBlankText (sliceLines (lines source) first last) = false := by
    simp [isBlankText]
  rw [hblank, sliceLines, isBlankText_intercalate, List.all_eq_false]
  constructor
  · rintro ⟨text, hmem, htext⟩
    obtain ⟨i, hi⟩ := List.mem_iff_getElem?.1 hmem
    rw [List.getElem?_drop, List.getElem?_take] at hi
    split at hi
    · refine ⟨first - 1 + i + 1, by omega, by omega, ?_⟩
      exact holdsText_iff.2 ⟨_, text, rfl, hi, by simpa using htext⟩
    · cases hi
  · rintro ⟨line, hline, hlast, hholds⟩
    obtain ⟨i, text, rfl, htext, hfull⟩ := holdsText_iff.1 hholds
    refine ⟨text, List.mem_iff_getElem?.2 ⟨i - (first - 1), ?_⟩, by simp [hfull]⟩
    rw [List.getElem?_drop, List.getElem?_take, if_pos (by omega),
      show first - 1 + (i - (first - 1)) = i by omega, htext]

end Text

/-! ## Gaps -/

/-- The first and the last line of a run hold text. -/
theorem LineRange.holdsText_of_mem_uncovered {source : String} {covered : List Bool}
    {run : LineRange} (h : run ∈ uncovered (Text.lines source) covered) :
    Text.HoldsText source run.first ∧ Text.HoldsText source run.last := by
  obtain ⟨hfirst, hlast⟩ := ends_of_mem_uncovered h
  exact ⟨Text.holdsText_iff.2 hfirst, Text.holdsText_iff.2 hlast⟩

namespace Chunk

/-- A chunk falls into a gap of a run: the run is split, and begins and ends with text; the chunk is
a full window strictly inside of it, on lines that hold no text. -/
structure FillsGap (source : String) (options : Options) (run : LineRange) (chunk : Chunk) :
    Prop where
  split : options.splitThreshold < run.last - run.first + 1
  full : chunk.endLine + 1 = chunk.startLine + options.chunkSize
  behind : run.first < chunk.startLine
  before : chunk.endLine < run.last
  first : Text.HoldsText source run.first
  last : Text.HoldsText source run.last
  blank : ∀ line, chunk.containsLine line = true → ¬ Text.HoldsText source line

variable {source : String} {options : Options} {covered : List Bool} {run : LineRange}
  {chunk : Chunk}

/-- A window of a run without text misses both ends of the run, so it is a full one. -/
theorem fillsGap_of_window (hrun : run ∈ LineRange.uncovered (Text.lines source) covered)
    (hwindow : chunk.lineRange ∈ LineRange.windows options run)
    (hblank : ∀ line, chunk.containsLine line = true → ¬ Text.HoldsText source line) :
    chunk.FillsGap source options run := by
  have hle := LineRange.first_le_last_of_mem_uncovered hrun
  obtain ⟨hfirst, hlast⟩ := LineRange.holdsText_of_mem_uncovered hrun
  obtain ⟨hbegins, hordered, hends⟩ := LineRange.bounds_of_mem_windows hle hwindow
  have hbehind : run.first ≠ chunk.startLine := by
    intro heq
    refine hblank run.first (LineRange.contains_iff.2 ⟨?_, ?_⟩) hfirst
    · exact Nat.le_of_eq heq.symm
    · exact Nat.le_trans (Nat.le_of_eq heq) hordered
  have hbefore : chunk.endLine ≠ run.last := by
    intro heq
    refine hblank run.last (LineRange.contains_iff.2 ⟨?_, ?_⟩) hlast
    · exact Nat.le_trans hordered (Nat.le_of_eq heq)
    · exact Nat.le_of_eq heq.symm
  obtain ⟨hsplit, hfull⟩ := LineRange.full_of_mem_windows hle hwindow hbefore
  exact ⟨hsplit, hfull, Nat.lt_of_le_of_ne hbegins hbehind, Nat.lt_of_le_of_ne hends hbefore,
    hfirst, hlast, hblank⟩

/-- A window of one of several runs holds text unless it falls into a gap. -/
theorem exists_char_iff_of_window {runs : List LineRange}
    (hruns : runs = LineRange.uncovered (Text.lines source) covered) (hrun : run ∈ runs)
    (hwindow : chunk.lineRange ∈ LineRange.windows options run)
    (hcontent : chunk.content = Text.sliceLines (Text.lines source) chunk.startLine chunk.endLine) :
    (∃ c ∈ chunk.content.toList, Text.isBlank c = false) ↔
      ¬ ∃ gapped ∈ runs, chunk.FillsGap source options gapped := by
  subst hruns
  have hstart : 1 ≤ chunk.startLine := by
    obtain ⟨hpos, hle, -⟩ := LineRange.bounds_of_mem_uncovered hrun
    exact Nat.le_trans hpos (LineRange.bounds_of_mem_windows hle hwindow).1
  rw [hcontent, Text.exists_char_sliceLines_iff hstart]
  constructor
  · rintro ⟨line, hfirst, hlast, hholds⟩ ⟨gapped, -, hgap⟩
    exact hgap.blank line (LineRange.contains_iff.2 ⟨hfirst, hlast⟩) hholds
  · intro hnone
    by_contra hblank
    refine hnone ⟨run, hrun, fillsGap_of_window hrun hwindow ?_⟩
    intro line hline hholds
    obtain ⟨hfirst, hlast⟩ := LineRange.contains_iff.1 hline
    exact hblank ⟨line, hfirst, hlast, hholds⟩

end Chunk

/-! ## Template chunks -/

/-- The template chunks of a parsed file are the windows of its runs. -/
theorem Chunk.lineRange_templates_ofTree_perm (lang : Language) (root : Node) {source : String}
    (file : String) (options : Options) (hsource : Text.isBlankText source = false) :
    ((templates (ofTree lang root source file options)).map lineRange).Perm
      ((lang.textRuns source root).flatMap (LineRange.windows options)) := by
  refine ((templates_ofTree_perm lang root file options hsource).map _).trans (.of_eq ?_)
  simp only [List.map_flatMap, FileContext.lineRange_templateChunks]
  rfl

theorem Chunk.content_of_mem_templates_ofTree {lang : Language} {root : Node}
    {source file : String} {options : Options} {chunk : Chunk}
    (h : chunk ∈ templates (ofTree lang root source file options)) :
    chunk.content = Text.sliceLines (Text.lines source) chunk.startLine chunk.endLine := by
  obtain ⟨hmem, hkind⟩ := mem_templates.1 h
  rcases mem_ofTree lang root file options hmem with ⟨boundary, -, hsymbol⟩ | ⟨run, -, htext⟩
  · rw [FileContext.kind_of_mem_symbolChunks _ hsymbol] at hkind
    cases hkind
  · exact FileContext.content_of_mem_templateChunks _ htext

theorem Template.content_of_mem_templates_chunks {text file : String} {options : Options}
    {chunk : Chunk} (h : chunk ∈ Chunk.templates (chunks text file options)) :
    chunk.content = Text.sliceLines (Text.lines text) chunk.startLine chunk.endLine := by
  obtain ⟨run, -, hmem⟩ := exists_run_of_mem_templates file options h
  exact (metadata_of_mem_templateChunks hmem).2

namespace Chunk

/-- Among chunks whose ranges are the windows of runs, one belongs to a run. -/
theorem exists_run_of_perm {chunks : List Chunk} {runs : List LineRange} {options : Options}
    (h : (chunks.map lineRange).Perm (runs.flatMap (LineRange.windows options))) {chunk : Chunk}
    (hmem : chunk ∈ chunks) : ∃ run ∈ runs, chunk.lineRange ∈ LineRange.windows options run :=
  List.mem_flatMap.1 (h.mem_iff.1 (List.mem_map_of_mem hmem))

/-- Template chunks hold text, in parsed files as in templates, unless they fall into a gap of at
least one window between two lines of text of a run that is split. -/
theorem templates_hold_text (lang : Language) (root : Node) (source file : String)
    (options : Options) :
    (∀ chunk ∈ templates (ofTree lang root source file options),
      (∃ c ∈ chunk.content.toList, Text.isBlank c = false) ↔
        ¬ ∃ run ∈ lang.textRuns source root, chunk.FillsGap source options run) ∧
    ∀ chunk ∈ templates (Template.chunks source file options),
      (∃ c ∈ chunk.content.toList, Text.isBlank c = false) ↔
        ¬ ∃ run ∈ Template.textRuns source, chunk.FillsGap source options run := by
  cases hsource : Text.isBlankText source with
  | true => simp [ofTree, Template.chunks, templates, hsource]
  | false =>
      constructor
      · intro chunk hchunk
        obtain ⟨run, hrun, hwindow⟩ := exists_run_of_perm
          (lineRange_templates_ofTree_perm lang root file options hsource) hchunk
        exact exists_char_iff_of_window rfl hrun hwindow (content_of_mem_templates_ofTree hchunk)
      · intro chunk hchunk
        obtain ⟨run, hrun, hwindow⟩ := exists_run_of_perm
          (Template.lineRange_templates_perm file options hsource) hchunk
        exact exists_char_iff_of_window rfl hrun hwindow
          (Template.content_of_mem_templates_chunks hchunk)

/-- Three imports with blank lines between them. -/
private def gapped : String := "use a;\n\nuse b;\n\nuse c;\n"

/-- The syntax tree of the three imports. -/
private def gappedTree : Node :=
  Sample.construct 0 "source_file" 0 23
    [Sample.useDeclaration 1 0, Sample.useDeclaration 5 8, Sample.useDeclaration 9 16]

private theorem textRuns_gapped : Language.rust.textRuns gapped gappedTree = [⟨1, 5⟩] := by
  decide +kernel

private theorem textRuns_gapped_template : Template.textRuns gapped = [⟨1, 5⟩] := by
  decide +kernel

private theorem exists_window_of_perm {chunks : List Chunk}
    (h : (chunks.map lineRange).Perm ([⟨1, 5⟩].flatMap (LineRange.windows ⟨1, 0⟩))) :
    ∃ chunk ∈ chunks, chunk.startLine = 2 ∧ chunk.endLine = 2 := by
  have hwindow : ⟨2, 2⟩ ∈ [⟨1, 5⟩].flatMap (LineRange.windows ⟨1, 0⟩) := by
    simp [LineRange.windows, LineRange.windowsFrom, Options.splitThreshold, Options.windowStep,
      Options.splitFactor, maxCount]
  obtain ⟨chunk, hchunk, hrange⟩ := List.mem_map.1 (h.mem_iff.2 hwindow)
  exact ⟨chunk, hchunk, LineRange.mk.inj hrange⟩

/-- Cut into single lines, the text has a chunk for the blank line behind the first import. -/
private theorem exists_blank_gapped :
    ∃ chunk ∈ templates (Template.chunks gapped "a.liquid" ⟨1, 0⟩),
      chunk.startLine = 2 ∧ chunk.content = "" := by
  have hsource : Text.isBlankText gapped = false := by decide
  have hperm := Template.lineRange_templates_perm "a.liquid" ⟨1, 0⟩ hsource
  rw [textRuns_gapped_template] at hperm
  obtain ⟨chunk, hchunk, hstart, hend⟩ := exists_window_of_perm hperm
  refine ⟨chunk, hchunk, hstart, ?_⟩
  rw [Template.content_of_mem_templates_chunks hchunk, hstart, hend]
  decide

/-- With the default options the run of the three imports is not split and all its chunks hold text.
Cut into single lines, it has a chunk in a gap. -/
theorem templates_hold_text_gapped :
    (∀ chunk ∈ templates (ofTree .rust gappedTree gapped "a.rs" {}),
      ∃ c ∈ chunk.content.toList, Text.isBlank c = false) ∧
    ∃ chunk ∈ templates (Template.chunks gapped "a.liquid" ⟨1, 0⟩),
      chunk.startLine = 2 ∧ chunk.FillsGap gapped ⟨1, 0⟩ ⟨1, 5⟩ := by
  constructor
  · intro chunk hchunk
    refine ((templates_hold_text .rust gappedTree gapped "a.rs" {}).1 chunk hchunk).2 ?_
    rintro ⟨run, hrun, hgap⟩
    rw [textRuns_gapped, List.mem_singleton] at hrun
    subst hrun
    exact absurd hgap.split (by decide)
  · obtain ⟨chunk, hchunk, hstart, hcontent⟩ := exists_blank_gapped
    have hgap := (templates_hold_text .rust gappedTree gapped "a.liquid" ⟨1, 0⟩).2 chunk hchunk
    rw [hcontent, textRuns_gapped_template] at hgap
    simp only [String.toList_empty, List.not_mem_nil, false_and, exists_false, false_iff,
      not_not, List.mem_singleton, exists_eq_left] at hgap
    exact ⟨chunk, hchunk, hstart, hgap⟩

/-- A template chunk may have no text, in a parsed file as in a template: windows of a single line
show the blank lines between the three imports. -/
theorem exists_blank_template : gappedTree.WellFormed gapped ∧
    (⟨1, 0⟩ : Options).chunkOverlap < (⟨1, 0⟩ : Options).chunkSize ∧
    (∃ chunk ∈ templates (ofTree .rust gappedTree gapped "a.rs" ⟨1, 0⟩), chunk.content = "") ∧
    ∃ chunk ∈ templates (Template.chunks gapped "a.liquid" ⟨1, 0⟩), chunk.content = "" := by
  refine ⟨by decide, by decide, ?_, ?_⟩
  · have hsource : Text.isBlankText gapped = false := by decide
    have hperm := lineRange_templates_ofTree_perm .rust gappedTree "a.rs" ⟨1, 0⟩ hsource
    rw [textRuns_gapped] at hperm
    obtain ⟨chunk, hchunk, hstart, hend⟩ := exists_window_of_perm hperm
    refine ⟨chunk, hchunk, ?_⟩
    rw [content_of_mem_templates_ofTree hchunk, hstart, hend]
    decide
  · obtain ⟨chunk, hchunk, -, hcontent⟩ := exists_blank_gapped
    exact ⟨chunk, hchunk, hcontent⟩

end Chunk

end SourceChunks
