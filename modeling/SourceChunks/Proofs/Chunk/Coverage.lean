-- SUMMARY: The chunks of a syntax tree cover its file: symbols by their own chunks, the text between by template chunks.
import SourceChunks.Chunk.OfTree
import SourceChunks.Language.Registry
import SourceChunks.Proofs.Chunk
import SourceChunks.Proofs.Text.Lines
import SourceChunks.Proofs.Tree

/-!
# Coverage of parsed files

The chunks of a parsed file lose no line that holds text. The chunks of a symbol cover the lines of
the symbol, template chunks cover lines outside all symbols, and which lines are covered by which
does not depend on the options.
-/

namespace SourceChunks

/-- The lines of a symbol in a file of `count` lines; the first one counts in any case. -/
def Symbol.linesIn (count : Nat) (symbol : Symbol) : LineRange :=
  ⟨symbol.startLine, max (min symbol.endLine count) symbol.startLine⟩

namespace Metadata

variable (m : Metadata) (imports : FileImports)

@[simp] theorem startLine_withImports : (m.withImports imports).startLine = m.startLine := by
  unfold withImports
  split <;> rfl

@[simp] theorem endLine_withImports : (m.withImports imports).endLine = m.endLine := by
  unfold withImports
  split <;> rfl

@[simp] theorem kind_withImports : (m.withImports imports).kind = m.kind := by
  unfold withImports
  split <;> rfl

end Metadata

namespace FileContext

/-! ## The chunks of one symbol or run -/

variable (ctx : FileContext)

/-- The chunks of a symbol are its windows. -/
theorem lineRange_symbolChunks (boundary : Boundary) :
    (ctx.symbolChunks boundary).map Chunk.lineRange =
      LineRange.windows ctx.options (ctx.symbolRange boundary.symbol) := by
  rw [symbolChunks, List.map_map]
  refine Eq.trans (List.map_congr_left ?_) (List.map_id _)
  intro window _
  simp [Chunk.lineRange, Chunk.startLine, Chunk.endLine, chunk, Metadata.withSymbol,
    Metadata.withHalstead]

/-- The chunks of a run are its windows. -/
theorem lineRange_templateChunks (run : LineRange) :
    (ctx.templateChunks run).map Chunk.lineRange = LineRange.windows ctx.options run := by
  rw [templateChunks, List.map_map]
  refine Eq.trans (List.map_congr_left ?_) (List.map_id _)
  intro window _
  simp [Chunk.lineRange, Chunk.startLine, Chunk.endLine, chunk]

theorem bounds_of_mem_symbolChunks {boundary : Boundary} {chunk : Chunk}
    (h : chunk ∈ ctx.symbolChunks boundary) :
    boundary.symbol.startLine ≤ chunk.startLine ∧ chunk.startLine ≤ chunk.endLine ∧
      chunk.endLine ≤ (ctx.symbolRange boundary.symbol).last :=
  Chunk.bounds_of_windows (ctx.lineRange_symbolChunks boundary) (Nat.le_max_right ..) h

theorem bounds_of_mem_templateChunks {run : LineRange} (hrun : run.first ≤ run.last) {chunk : Chunk}
    (h : chunk ∈ ctx.templateChunks run) :
    run.first ≤ chunk.startLine ∧ chunk.startLine ≤ chunk.endLine ∧ chunk.endLine ≤ run.last :=
  Chunk.bounds_of_windows (ctx.lineRange_templateChunks run) hrun h

theorem kind_of_mem_symbolChunks {boundary : Boundary} {chunk : Chunk}
    (h : chunk ∈ ctx.symbolChunks boundary) :
    chunk.metadata.kind = .symbol boundary.symbol.kind := by
  obtain ⟨window, -, rfl⟩ := List.mem_map.1 h
  simp [FileContext.chunk, Metadata.withSymbol, Metadata.withHalstead]

theorem kind_of_mem_templateChunks {run : LineRange} {chunk : Chunk}
    (h : chunk ∈ ctx.templateChunks run) : chunk.metadata.kind = .template := by
  obtain ⟨window, -, rfl⟩ := List.mem_map.1 h
  simp [FileContext.chunk]

end FileContext

/-! ## Runs between symbols -/

namespace Language

/-- The runs of lines outside all symbols of a file. -/
def textRuns (lang : Language) (source : String) (root : Node) : List LineRange :=
  let count := (Text.lines source).length
  LineRange.uncovered (Text.lines source) <| (List.range' 1 count).map fun line =>
    (lang.symbols source root).any fun symbol => (symbol.linesIn count).contains line

variable {lang : Language} {source : String} {root : Node}

/-- No line of a run belongs to a symbol. -/
theorem not_contains_of_mem_textRuns {run : LineRange} {line : Nat}
    (h : run ∈ lang.textRuns source root) (hline : run.contains line = true) :
    ∀ symbol ∈ lang.symbols source root,
      (symbol.linesIn (Text.lines source).length).contains line = false := by
  obtain ⟨h₁, h₂, h₃⟩ := LineRange.free_of_mem_uncovered h hline
  rw [LineRange.getD_flags _ h₁ h₂] at h₃
  simpa using h₃

/-- A line with text that belongs to no symbol is in a run. -/
theorem exists_mem_textRuns_contains {line : Nat} (htext : Text.HoldsText source line)
    (hfree : ∀ symbol ∈ lang.symbols source root,
      (symbol.linesIn (Text.lines source).length).contains line = false) :
    ∃ run ∈ lang.textRuns source root, run.contains line = true := by
  obtain ⟨i, text, rfl, htext, hblank⟩ := Text.holdsText_iff.1 htext
  refine LineRange.exists_mem_uncovered_contains htext hblank ?_
  have hi := (List.getElem?_eq_some_iff.1 htext).1
  rw [show i = i + 1 - 1 from rfl, LineRange.getD_flags _ (by omega) hi]
  simpa using hfree

end Language

/-! ## All chunks of a file -/

namespace Chunk

variable (lang : Language) (root : Node) (source file : String) (options : Options)

theorem ofTree_eq {source : String} (hsource : Text.isBlankText source = false) :
    ofTree lang root source file options =
      let ctx := FileContext.ofTree lang root source file options
      sorted ((lang.outline source root).flatMap ctx.symbolChunks
        ++ (lang.textRuns source root).flatMap ctx.templateChunks) := by
  rw [ofTree, hsource]
  rfl

/-- The template chunks of a file are those of its runs. -/
theorem templates_ofTree_perm {source : String} (hsource : Text.isBlankText source = false) :
    (templates (ofTree lang root source file options)).Perm
      ((lang.textRuns source root).flatMap
        (FileContext.ofTree lang root source file options).templateChunks) := by
  rw [ofTree_eq lang root file options hsource]
  refine templates_sorted_perm ?_ ?_
  · intro chunk hmem
    obtain ⟨boundary, -, hmem⟩ := List.mem_flatMap.1 hmem
    simp [FileContext.kind_of_mem_symbolChunks _ hmem]
  · intro chunk hmem
    obtain ⟨run, -, hmem⟩ := List.mem_flatMap.1 hmem
    exact FileContext.kind_of_mem_templateChunks _ hmem

/-- The other chunks of a file are those of its symbols. -/
theorem filter_isSymbol_ofTree_perm {source : String}
    (hsource : Text.isBlankText source = false) :
    ((ofTree lang root source file options).filter (·.metadata.kind.isSymbol)).Perm
      ((lang.outline source root).flatMap
        (FileContext.ofTree lang root source file options).symbolChunks) := by
  rw [ofTree_eq lang root file options hsource]
  refine ((sorted_perm _).filter _).trans (.of_eq ?_)
  rw [List.filter_append, List.filter_eq_self.2, List.filter_eq_nil_iff.2, List.append_nil]
  · intro chunk hmem
    obtain ⟨run, -, hmem⟩ := List.mem_flatMap.1 hmem
    simp [FileContext.kind_of_mem_templateChunks _ hmem, ChunkKind.isSymbol]
  · intro chunk hmem
    obtain ⟨boundary, -, hmem⟩ := List.mem_flatMap.1 hmem
    simp [FileContext.kind_of_mem_symbolChunks _ hmem, ChunkKind.isSymbol]

/-- The chunks of a symbol cover its lines, whatever the options. -/
theorem covers_symbolChunks_iff (boundary : Boundary) {line : Nat} :
    Covers ((FileContext.ofTree lang root source file options).symbolChunks boundary) line ↔
      (boundary.symbol.linesIn (Text.lines source).length).contains line = true :=
  covers_windows_iff (FileContext.lineRange_symbolChunks _ boundary) (Nat.le_max_right ..)

/-- Template chunks cover the runs, whatever the options. -/
theorem covers_templates_ofTree_iff {source : String} (hsource : Text.isBlankText source = false)
    {line : Nat} : Covers (templates (ofTree lang root source file options)) line ↔
      ∃ run ∈ lang.textRuns source root, run.contains line = true := by
  rw [covers_congr_perm (templates_ofTree_perm lang root file options hsource),
    covers_flatMap_iff]
  refine exists_congr fun run => and_congr_right fun hrun => ?_
  exact covers_windows_iff (FileContext.lineRange_templateChunks _ run)
    (LineRange.first_le_last_of_mem_uncovered hrun)

/-- A chunk of a file is one of a symbol or one of a run. -/
theorem mem_ofTree {source : String} {chunk : Chunk}
    (h : chunk ∈ ofTree lang root source file options) :
    (∃ boundary ∈ lang.outline source root,
        chunk ∈ (FileContext.ofTree lang root source file options).symbolChunks boundary) ∨
      ∃ run ∈ lang.textRuns source root,
        chunk ∈ (FileContext.ofTree lang root source file options).templateChunks run := by
  cases hsource : Text.isBlankText source with
  | true => simp [ofTree, hsource] at h
  | false =>
      rw [ofTree_eq lang root file options hsource] at h
      simpa only [mem_sorted, List.mem_append, List.mem_flatMap] using h

theorem symbolChunks_subset_ofTree {source : String} (hsource : Text.isBlankText source = false)
    {boundary : Boundary} (hboundary : boundary ∈ lang.outline source root) :
    (FileContext.ofTree lang root source file options).symbolChunks boundary ⊆
      ofTree lang root source file options := by
  intro chunk hmem
  rw [ofTree_eq lang root file options hsource, mem_sorted]
  exact List.mem_append_left _ (List.mem_flatMap.2 ⟨boundary, hboundary, hmem⟩)

theorem startLine_le_endLine_of_mem_ofTree {source : String} {chunk : Chunk}
    (h : chunk ∈ ofTree lang root source file options) : chunk.startLine ≤ chunk.endLine := by
  rcases mem_ofTree lang root file options h with ⟨boundary, -, hmem⟩ | ⟨run, hrun, hmem⟩
  · exact (FileContext.bounds_of_mem_symbolChunks _ hmem).2.1
  · have hle := LineRange.first_le_last_of_mem_uncovered hrun
    exact (FileContext.bounds_of_mem_templateChunks _ hle hmem).2.1

/-- A line with text is covered by the chunks of a symbol that it belongs to, or else by a template
chunk. -/
theorem covers_ofTree_of_holdsText {source : String} (hsource : Text.isBlankText source = false)
    {line : Nat} (htext : Text.HoldsText source line) :
    Covers (ofTree lang root source file options) line := by
  by_cases hfree : ∀ symbol ∈ lang.symbols source root,
      (symbol.linesIn (Text.lines source).length).contains line = false
  · have hcovers := (covers_templates_ofTree_iff lang root file options hsource).2
      (Language.exists_mem_textRuns_contains htext hfree)
    exact hcovers.mono (templates_subset _)
  · simp only [Classical.not_forall, Bool.not_eq_false] at hfree
    obtain ⟨symbol, hsymbol, hline⟩ := hfree
    obtain ⟨boundary, hboundary, rfl⟩ := List.mem_map.1 hsymbol
    have hcovers := (covers_symbolChunks_iff lang root source file options boundary).2 hline
    exact hcovers.mono (symbolChunks_subset_ofTree lang root file options hsource hboundary)

/-- The chunks of a file lose no line with text and tell symbols from the text between them, in the
order of the lines and in the same way for all options. -/
theorem ofTree_coverage (lang : Language) (root : Node) (source file : String)
    (options others : Options) (hsource : Text.isBlankText source = false) :
    let symbols := lang.symbols source root
    let count := (Text.lines source).length
    let chunks := ofTree lang root source file options
    let ctx := FileContext.ofTree lang root source file
    (∀ line, Text.HoldsText source line → Covers chunks line) ∧
    (∀ line, Covers (templates chunks) line →
      ∀ symbol ∈ symbols, (symbol.linesIn count).contains line = false) ∧
    (∀ line, Text.HoldsText source line →
      (∀ symbol ∈ symbols, (symbol.linesIn count).contains line = false) →
      Covers (templates chunks) line) ∧
    (∀ chunk ∈ chunks, chunk.startLine ≤ chunk.endLine) ∧
    chunks.Pairwise (·.startLine ≤ ·.startLine) ∧
    (∀ line, Covers (templates chunks) line ↔
      Covers (templates (ofTree lang root source file others)) line) ∧
    (chunks.filter (·.metadata.kind.isSymbol)).Perm
      ((lang.outline source root).flatMap (ctx options).symbolChunks) ∧
    ∀ boundary ∈ lang.outline source root, ∀ line,
      Covers ((ctx options).symbolChunks boundary) line ↔
        Covers ((ctx others).symbolChunks boundary) line := by
  intro symbols count chunks ctx
  have htemplates := @covers_templates_ofTree_iff lang root file options source hsource
  refine ⟨?_, ?_, ?_, ?_, ?_, ?_, ?_, ?_⟩
  · intro line htext
    exact covers_ofTree_of_holdsText lang root file options hsource htext
  · intro line hcovers
    obtain ⟨run, hrun, hline⟩ := htemplates.1 hcovers
    exact Language.not_contains_of_mem_textRuns hrun hline
  · intro line htext hfree
    exact htemplates.2 (Language.exists_mem_textRuns_contains htext hfree)
  · intro chunk hchunk
    exact startLine_le_endLine_of_mem_ofTree lang root file options hchunk
  · rw [show chunks = _ from ofTree_eq lang root file options hsource]
    exact pairwise_startLine_sorted _
  · intro line
    rw [htemplates, covers_templates_ofTree_iff lang root file others hsource]
  · exact filter_isSymbol_ofTree_perm lang root file options hsource
  · intro boundary _ line
    rw [covers_symbolChunks_iff, covers_symbolChunks_iff]

/-- The import behind the function of the sample is not lost, also where windows have one line. -/
theorem ofTree_coverage_sample : Text.isBlankText Sample.text = false ∧
    Text.HoldsText Sample.text 5 ∧
    Covers (ofTree .rust Sample.tree Sample.text "lib.rs" ⟨1, 0⟩) 5 ∧
    ∀ line, Covers (templates (ofTree .rust Sample.tree Sample.text "lib.rs" ⟨1, 0⟩)) line ↔
      Covers (templates (ofTree .rust Sample.tree Sample.text "lib.rs" {})) line := by
  have hsource : Text.isBlankText Sample.text = false := by decide
  have htext : Text.HoldsText Sample.text 5 :=
    ⟨25, 'u', ⟨Sample.text.toList.take 25, Sample.text.toList.drop 26, by decide, by decide⟩,
      by decide, by decide⟩
  obtain ⟨hcovers, -, -, -, -, hsame, -⟩ :=
    ofTree_coverage .rust Sample.tree Sample.text "lib.rs" ⟨1, 0⟩ {} hsource
  exact ⟨hsource, htext, hcovers 5 htext, hsame⟩

end Chunk

end SourceChunks
