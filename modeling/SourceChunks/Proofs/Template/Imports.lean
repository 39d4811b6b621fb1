-- SUMMARY: The imports of template chunks: the references of visible text, each in every chunk of its run.
import Mathlib.Logic.ExistsUnique
import SourceChunks.Proofs.Template.Coverage
import SourceChunks.Proofs.Template.Tag

/-!
# Imports of templates

References are looked for in a text that has been masked twice, once for blocks and once for
comments. Since masking moves nothing, a reference that is found stands in the template itself, at
the same offset and line, outside all blocks and comments. Its line then holds free text, so it is
in a run, and in one only. All chunks of a run carry the names of the references of the whole run.
-/

namespace SourceChunks.Template

/-! ## References -/

/-- A reference starts with an opening brace. -/
theorem exists_brace_of_reference? {cs rest : List Char} {name : String}
    (h : reference? cs = some (name, rest)) : ∃ inner, cs = '\x7b' :: inner := by
  obtain ⟨inner, hopening, -⟩ := Option.bind_eq_some_iff.1 h
  unfold afterOpening? at hopening
  split at hopening
  · exact ⟨_, rfl⟩
  · cases hopening

theorem isCharAt_of_mem_occurrences_reference? {text : String} {found : Occurrence String}
    (h : found ∈ occurrences reference? text) :
    Text.IsCharAt text.toList found.span.start '\x7b' := by
  obtain ⟨before, rest, after, htext, hstart, hform⟩ := exists_form_of_mem_occurrencesFrom h
  obtain ⟨inner, rfl⟩ := exists_brace_of_reference? hform
  exact ⟨before, inner, htext, by rw [hstart, Nat.zero_add]⟩

/-- A template with spaces in place of its blocks and comments. -/
def visibleText (text : String) : String :=
  mask (comments text) (withoutBlocks text)

/-- The references in the visible text of a template. -/
def visibleReferences (text : String) : List (Occurrence String) :=
  occurrences reference? (visibleText text)

/-- The line of a template on which the tag of a reference starts. -/
def lineOf (text : String) (reference : Occurrence String) : Nat :=
  Text.lineAt text reference.span.start

/-- The names of the references whose tags start in a run, in source order. -/
def namesIn (text : String) (run : LineRange) : List String :=
  ((visibleReferences text).filter fun reference => run.contains (lineOf text reference)).map
    (·.value)

variable {text : String}

/-- A reference that is found stands in the template, outside all comments and blocks. -/
theorem outside_of_mem_visibleReferences {reference : Occurrence String}
    (h : reference ∈ visibleReferences text) :
    Text.IsCharAt text.toList reference.span.start '\x7b' ∧
      (∀ block ∈ blocks text, block.span.contains reference.span.start = false) ∧
      ∀ comment ∈ comments text, comment.contains reference.span.start = false := by
  have hbrace : Text.isBlank '\x7b' = false := by decide
  have hvisible := isCharAt_of_mem_occurrences_reference? h
  obtain ⟨houtside, hcomments⟩ := (isCharAt_mask_iff _ hbrace).1 hvisible
  obtain ⟨hat, hblocks⟩ := (isCharAt_mask_iff _ hbrace).1 houtside
  exact ⟨hat, List.forall_mem_map.1 hblocks, hcomments⟩

theorem holdsFreeText_lineOf {reference : Occurrence String}
    (h : reference ∈ visibleReferences text) : HoldsFreeText text (lineOf text reference) := by
  obtain ⟨hat, hblocks, -⟩ := outside_of_mem_visibleReferences h
  exact ⟨_, _, hat, by decide, hblocks, rfl⟩

/-- A reference is in exactly one run. -/
theorem existsUnique_run_of_mem_visibleReferences {reference : Occurrence String}
    (h : reference ∈ visibleReferences text) :
    ∃! run, run ∈ textRuns text ∧ run.contains (lineOf text reference) = true := by
  obtain ⟨run, hrun, hline⟩ := exists_mem_textRuns_of_holdsFreeText (holdsFreeText_lineOf h)
  refine ⟨run, ⟨hrun, hline⟩, ?_⟩
  rintro other ⟨hother, hline'⟩
  exact LineRange.eq_of_mem_uncovered hother hrun hline' hline

/-- The lines of references are the same in the template and in its visible text. -/
theorem references_visibleText (text : String) :
    references (visibleText text) =
      (visibleReferences text).map fun reference => (lineOf text reference, reference.value) := by
  simp only [references, visibleReferences, lineOf, visibleText, withoutBlocks, lineAt_mask]

theorem namesIn_eq (text : String) (run : LineRange) :
    ((references (visibleText text)).filter (run.contains ·.1)).map (·.2) = namesIn text run := by
  rw [references_visibleText, List.filter_map, List.map_map]
  rfl

/-! ## Imports of chunks -/

/-- A chunk of text lies in a run of lines. -/
def LiesIn (chunk : Chunk) (run : LineRange) : Prop :=
  run.first ≤ chunk.startLine ∧ chunk.startLine ≤ chunk.endLine ∧ chunk.endLine ≤ run.last

/-- The imports of a run: the names of its references, each where it occurs first. A run without
references has none. -/
def importsIn (text : String) (run : LineRange) : Option (List String) :=
  if namesIn text run = [] then none else some (namesIn text run).eraseDups

theorem exists_importsIn_eq_some {run : LineRange} {reference : Occurrence String}
    (h : reference ∈ visibleReferences text) (hline : run.contains (lineOf text reference) = true) :
    ∃ names, importsIn text run = some names ∧ reference.value ∈ names := by
  have hmem : reference.value ∈ namesIn text run :=
    List.mem_map_of_mem (List.mem_filter.2 ⟨h, hline⟩)
  refine ⟨_, if_neg (List.ne_nil_of_mem hmem), ?_⟩
  exact List.mem_eraseDups.2 hmem

section Chunks

variable (file : String) (options : Options)

/-- A template that has chunks is not blank. -/
theorem isBlankText_of_mem_chunks {chunk : Chunk} (h : chunk ∈ chunks text file options) :
    Text.isBlankText text = false := by
  cases htext : Text.isBlankText text with
  | true => simp [chunks, htext] at h
  | false => rfl

/-- A template chunk is a chunk of a run. -/
theorem exists_run_of_mem_templates {chunk : Chunk}
    (h : chunk ∈ Chunk.templates (chunks text file options)) :
    ∃ run ∈ textRuns text, chunk ∈ templateChunks (Text.lines text) file options
      (references (visibleText text)) run := by
  have htext := isBlankText_of_mem_chunks file options (Chunk.templates_subset _ h)
  exact List.mem_flatMap.1 ((templates_chunks_perm file options htext).mem_iff.1 h)

theorem liesIn_of_mem_templateChunks {lines : List String} {names : List (Nat × String)}
    {run : LineRange} (hrun : run ∈ textRuns text) {chunk : Chunk}
    (h : chunk ∈ templateChunks lines file options names run) : LiesIn chunk run :=
  Chunk.bounds_of_windows lineRange_templateChunks
    (LineRange.first_le_last_of_mem_uncovered hrun) h

/-- A chunk lies in one run only. -/
theorem eq_of_liesIn {chunk : Chunk} {run other : LineRange} (hrun : run ∈ textRuns text)
    (hother : other ∈ textRuns text) (h : LiesIn chunk run) (h' : LiesIn chunk other) :
    run = other := by
  obtain ⟨hfirst, hle, hlast⟩ := h
  obtain ⟨hfirst', -, hlast'⟩ := h'
  refine LineRange.eq_of_mem_uncovered hrun hother
    (LineRange.contains_iff.2 ⟨hfirst, Nat.le_trans hle hlast⟩)
    (LineRange.contains_iff.2 ⟨hfirst', Nat.le_trans hle hlast'⟩)

theorem imports_of_mem_templateChunks {lines : List String} {run : LineRange} {chunk : Chunk}
    (h : chunk ∈ templateChunks lines file options (references (visibleText text)) run) :
    chunk.metadata.imports = importsIn text run := by
  obtain ⟨window, -, rfl⟩ := List.mem_map.1 h
  dsimp only
  rw [namesIn_eq, importsIn]
  cases namesIn text run with
  | nil => rfl
  | cons name names => simp [List.eraseDups_cons]

theorem imports_of_mem_blockChunks {lines : List String} {block : Block} {chunk : Chunk}
    (h : chunk ∈ blockChunks lines file options block) : chunk.metadata.imports = none := by
  obtain ⟨window, -, rfl⟩ := List.mem_map.1 h
  rfl

/-- The template chunks are the windows of the runs. -/
theorem lineRange_templates_perm (htext : Text.isBlankText text = false) :
    ((Chunk.templates (chunks text file options)).map Chunk.lineRange).Perm
      ((textRuns text).flatMap (LineRange.windows options)) := by
  refine ((templates_chunks_perm file options htext).map _).trans (.of_eq ?_)
  simp only [allTextChunks, List.map_flatMap, lineRange_templateChunks]

/-- A template chunk is a chunk of the run it lies in, and has the imports of that run. -/
theorem imports_of_liesIn {chunk : Chunk}
    (h : chunk ∈ Chunk.templates (chunks text file options)) {run : LineRange}
    (hrun : run ∈ textRuns text) (hlies : LiesIn chunk run) :
    chunk.metadata.imports = importsIn text run := by
  obtain ⟨own, hown, hmem⟩ := exists_run_of_mem_templates file options h
  obtain rfl := eq_of_liesIn hown hrun (liesIn_of_mem_templateChunks file options hown hmem) hlies
  exact imports_of_mem_templateChunks file options hmem

end Chunks

/-- The imports of a template come from its visible text and are complete. A reference that is found
starts outside all blocks and comments and is in exactly one run, and every template chunk of that
run lists it, also one that does not show it. A template chunk has the names of the references of
its run and no others; a block chunk has none. -/
theorem chunks_imports (text file : String) (options : Options) :
    let chunks := chunks text file options
    (∀ reference ∈ visibleReferences text,
      (∀ block ∈ blocks text, block.span.contains reference.span.start = false) ∧
      (∀ comment ∈ comments text, comment.contains reference.span.start = false) ∧
      ∃! run, run ∈ textRuns text ∧ run.contains (lineOf text reference) = true) ∧
    (∀ reference ∈ visibleReferences text, ∀ run ∈ textRuns text,
      run.contains (lineOf text reference) = true →
      ∀ chunk ∈ Chunk.templates chunks, LiesIn chunk run →
        ∃ names, chunk.metadata.imports = some names ∧ reference.value ∈ names) ∧
    (∀ chunk ∈ Chunk.templates chunks, ∃! run, run ∈ textRuns text ∧ LiesIn chunk run) ∧
    (∀ chunk ∈ Chunk.templates chunks, ∀ run ∈ textRuns text, LiesIn chunk run →
      chunk.metadata.imports = importsIn text run) ∧
    (Text.isBlankText text = false → ((Chunk.templates chunks).map Chunk.lineRange).Perm
      ((textRuns text).flatMap (LineRange.windows options))) ∧
    ∀ chunk ∈ chunks, chunk.metadata.kind = .block → chunk.metadata.imports = none := by
  intro chunks
  refine ⟨?_, ?_, ?_, ?_, ?_, ?_⟩
  · intro reference hreference
    obtain ⟨-, hblocks, hcomments⟩ := outside_of_mem_visibleReferences hreference
    exact ⟨hblocks, hcomments, existsUnique_run_of_mem_visibleReferences hreference⟩
  · intro reference hreference run hrun hline chunk hchunk hlies
    rw [imports_of_liesIn file options hchunk hrun hlies]
    exact exists_importsIn_eq_some hreference hline
  · intro chunk hchunk
    obtain ⟨run, hrun, hmem⟩ := exists_run_of_mem_templates file options hchunk
    have hlies := liesIn_of_mem_templateChunks file options hrun hmem
    refine ⟨run, ⟨hrun, hlies⟩, ?_⟩
    rintro other ⟨hother, hlies'⟩
    exact eq_of_liesIn hother hrun hlies' hlies
  · intro chunk hchunk run hrun hlies
    exact imports_of_liesIn file options hchunk hrun hlies
  · intro htext
    exact lineRange_templates_perm file options htext
  · intro chunk hchunk hkind
    have htext := isBlankText_of_mem_chunks file options hchunk
    rw [show chunks = _ from chunks_eq file options htext, Chunk.mem_sorted,
      List.mem_append] at hchunk
    rcases hchunk with hchunk | hchunk
    · obtain ⟨block, -, hmem⟩ := List.mem_flatMap.1 hchunk
      exact imports_of_mem_blockChunks file options hmem
    · rw [kind_of_mem_allTextChunks file options hchunk] at hkind
      cases hkind

/-- A template of four lines that refers to another one on the first of them. The reference behind
it is in a comment, which has no end. -/
private def splitRun : String :=
  "\x7b%render 'a'%\x7d\x7b%comment%\x7d\x7b%render 'b'%\x7d\nc\nd\ne\n"

/-- Cut into single lines, the last chunk of the run still lists the visible reference of the
first line, and only that one. -/
theorem chunks_imports_splitRun :
    visibleReferences splitRun = [⟨⟨0, 12⟩, "a"⟩] ∧
    (∀ comment ∈ comments splitRun, comment.contains 0 = false) ∧
    textRuns splitRun = [⟨1, 4⟩] ∧
    ∃ chunk ∈ Chunk.templates (chunks splitRun "a.liquid" ⟨1, 0⟩),
      chunk.startLine = 4 ∧ chunk.metadata.imports = some ["a"] := by
  have hreferences : visibleReferences splitRun = [⟨⟨0, 12⟩, "a"⟩] := by decide +kernel
  have hruns : textRuns splitRun = [⟨1, 4⟩] := by decide +kernel
  have hwindow : ⟨4, 4⟩ ∈ LineRange.windows ⟨1, 0⟩ ⟨1, 4⟩ := by
    simp [LineRange.windows, LineRange.windowsFrom, Options.splitThreshold, Options.windowStep,
      Options.splitFactor, maxCount]
  obtain ⟨hplaces, -, -, himports, hall, -⟩ := chunks_imports splitRun "a.liquid" ⟨1, 0⟩
  have hhidden := (hplaces ⟨⟨0, 12⟩, "a"⟩ (by simp [hreferences])).2.1
  have hmem := (hall (by decide)).mem_iff.2
    (List.mem_flatMap.2 ⟨⟨1, 4⟩, by simp [hruns], hwindow⟩)
  obtain ⟨chunk, hchunk, hrange⟩ := List.mem_map.1 hmem
  obtain ⟨hstart, hend⟩ := LineRange.mk.inj hrange
  have hlies : LiesIn chunk ⟨1, 4⟩ := by
    simp [LiesIn, hstart, hend]
  refine ⟨hreferences, hhidden, hruns, chunk, hchunk, hstart, ?_⟩
  rw [himports chunk hchunk ⟨1, 4⟩ (by simp [hruns]) hlies]
  simp [importsIn, namesIn, hreferences, lineOf, Text.lineAt, Text.rowAt, LineRange.contains,
    List.eraseDups_cons]

end SourceChunks.Template
