-- SUMMARY: The lines of chunks of a well-formed tree: chunks show the lines of the file, and symbols end where their nodes end.
import SourceChunks.Proofs.Chunk.Coverage
import SourceChunks.Proofs.Outline

/-!
# Lines of symbols and chunks

Three notions of line meet in a chunk: rows counted by line feeds, the list of lines, which has
none behind the last line feed, and the last line of a node, which leaves out a line that the node
only touches at its start. On a well-formed tree they agree for every symbol that has text, so no
symbol ends below the last line of its file.
-/

namespace SourceChunks

/-! ## Lines of symbols -/

/-- Every node that becomes a symbol has text. -/
def Language.NoEmptySymbols (lang : Language) (source : String) (root : Node) : Prop :=
  ∀ scope, lang.Visits source root scope → (lang.boundary? source scope).isSome = true →
    scope.place.node.start < scope.place.node.stop

/-- A tree without empty nodes has no empty symbols. -/
theorem Language.noEmptySymbols_of_forall {lang : Language} {source : String} {root : Node}
    (h : ∀ n ∈ root.preorder, n.start < n.stop) : lang.NoEmptySymbols source root := by
  intro scope hvisits _
  exact h scope.place.node hvisits.inTree.node_mem

section Bounds

variable {lang : Language} {source : String} {root : Node}

/-- A symbol with text lies on the lines of the file. -/
theorem Language.bounds_of_mem_outline (hlang : lang ∈ Language.all)
    (hform : root.WellFormed source) (hwidth : lang.NoEmptySymbols source root)
    {boundary : Boundary} (h : boundary ∈ lang.outline source root) :
    1 ≤ boundary.symbol.startLine ∧ boundary.symbol.startLine ≤ boundary.symbol.endLine ∧
      boundary.symbol.endLine ≤ (Text.lines source).length := by
  obtain ⟨scope, hvisits, hboundary⟩ := mem_outline_iff.1 h
  obtain ⟨owner, howner⟩ := exists_owner hlang hvisits.inTree hboundary
  have hlt : owner.start < owner.stop := by
    have hnode := hwidth scope hvisits (by rw [hboundary]; rfl)
    have hinside := Node.inside_of_mem_preorder hform.nested howner.mem howner.node_mem
    exact Nat.lt_of_le_of_lt hinside.1 (Nat.lt_of_lt_of_le hnode hinside.2)
  have hstop := Node.stop_le_of_mem_preorder hform.nested howner.mem
  obtain ⟨hfirst, hlast⟩ := howner.spans
  rw [hfirst, hlast]
  refine ⟨Nat.le_add_left 1 _, ?_, ?_⟩
  · exact Node.startLine_le_endLine (Nat.le_of_lt hlt)
  · exact Node.endLine_le_length_lines hlt hstop

end Bounds

/-! ## Contents of chunks -/

namespace FileContext

variable (ctx : FileContext)

theorem content_of_mem_symbolChunks {boundary : Boundary} {chunk : Chunk}
    (h : chunk ∈ ctx.symbolChunks boundary) :
    chunk.content = Text.sliceLines ctx.lines chunk.startLine chunk.endLine := by
  obtain ⟨window, -, rfl⟩ := List.mem_map.1 h
  simp [Chunk.startLine, Chunk.endLine, FileContext.chunk, Metadata.withSymbol,
    Metadata.withHalstead]

theorem content_of_mem_templateChunks {run : LineRange} {chunk : Chunk}
    (h : chunk ∈ ctx.templateChunks run) :
    chunk.content = Text.sliceLines ctx.lines chunk.startLine chunk.endLine := by
  obtain ⟨window, -, rfl⟩ := List.mem_map.1 h
  simp [Chunk.startLine, Chunk.endLine, FileContext.chunk]

/-- The first chunk of a symbol starts with the symbol. -/
theorem startLine_head?_symbolChunks (boundary : Boundary) :
    (ctx.symbolChunks boundary).head?.map (·.startLine) = some boundary.symbol.startLine := by
  have hwindows : (LineRange.windows ctx.options (ctx.symbolRange boundary.symbol)).head?.map
      (·.first) = some boundary.symbol.startLine := LineRange.head?_windows
  rw [← ctx.lineRange_symbolChunks, List.head?_map, Option.map_map] at hwindows
  exact hwindows

/-- The last chunk of a symbol ends with the lines of the symbol that are in the file. -/
theorem endLine_getLast?_symbolChunks (boundary : Boundary) :
    (ctx.symbolChunks boundary).getLast?.map (·.endLine) =
      some (ctx.symbolRange boundary.symbol).last := by
  have hwindows : (LineRange.windows ctx.options (ctx.symbolRange boundary.symbol)).getLast?.map
      (·.last) = some (ctx.symbolRange boundary.symbol).last :=
    LineRange.getLast?_windows (Nat.le_max_right ..)
  rw [← ctx.lineRange_symbolChunks, List.getLast?_map, Option.map_map] at hwindows
  exact hwindows

end FileContext

namespace Chunk

variable {lang : Language} {root : Node} {source file : String} {options : Options}

/-- A symbol with text ends inside its file, so its range is not cut. -/
theorem symbolRange_of_mem_outline (hlang : lang ∈ Language.all) (hform : root.WellFormed source)
    (hwidth : lang.NoEmptySymbols source root) {boundary : Boundary}
    (h : boundary ∈ lang.outline source root) (file : String) (options : Options) :
    (FileContext.ofTree lang root source file options).symbolRange boundary.symbol =
      ⟨boundary.symbol.startLine, boundary.symbol.endLine⟩ := by
  obtain ⟨-, hle, hend⟩ := Language.bounds_of_mem_outline hlang hform hwidth h
  change boundary.symbol.linesIn (Text.lines source).length = _
  rw [Symbol.linesIn, Nat.min_eq_left hend, Nat.max_eq_left hle]

/-- A chunk lies on the lines of its file and has the text of its lines. -/
theorem bounds_of_mem_ofTree (hlang : lang ∈ Language.all) (hform : root.WellFormed source)
    (hwidth : lang.NoEmptySymbols source root) {chunk : Chunk}
    (h : chunk ∈ ofTree lang root source file options) :
    1 ≤ chunk.startLine ∧ chunk.startLine ≤ chunk.endLine ∧
      chunk.endLine ≤ (Text.lines source).length ∧
      chunk.content = Text.sliceLines (Text.lines source) chunk.startLine chunk.endLine := by
  rcases mem_ofTree lang root file options h with ⟨boundary, hboundary, hmem⟩ | ⟨run, hrun, hmem⟩
  · obtain ⟨hpos, -, hend⟩ := Language.bounds_of_mem_outline hlang hform hwidth hboundary
    obtain ⟨h₁, h₂, h₃⟩ := FileContext.bounds_of_mem_symbolChunks _ hmem
    rw [symbolRange_of_mem_outline hlang hform hwidth hboundary file options] at h₃
    exact ⟨Nat.le_trans hpos h₁, h₂, Nat.le_trans h₃ hend,
      FileContext.content_of_mem_symbolChunks _ hmem⟩
  · obtain ⟨hpos, hle, hend⟩ := LineRange.bounds_of_mem_uncovered hrun
    obtain ⟨h₁, h₂, h₃⟩ := FileContext.bounds_of_mem_templateChunks _ hle hmem
    exact ⟨Nat.le_trans hpos h₁, h₂, Nat.le_trans h₃ hend,
      FileContext.content_of_mem_templateChunks _ hmem⟩

/-- The chunks of a well-formed tree show the lines of the file, and those of a symbol reach from
its first line to its last: no symbol is cut at the end of the file. A carriage return belongs to a
line end only in front of a line feed, so one at the very end of the text is shown. -/
theorem ofTree_lines (hlang : lang ∈ Language.all) (hform : root.WellFormed source)
    (hwidth : lang.NoEmptySymbols source root) (file : String) (options : Options) :
    let lines := Text.lines source
    let chunks := ofTree lang root source file options
    let ctx := FileContext.ofTree lang root source file options
    Text.CutsInto source.toList (lines.map String.toList) ∧
    (∀ chunk ∈ chunks, 1 ≤ chunk.startLine ∧ chunk.startLine ≤ chunk.endLine ∧
      chunk.endLine ≤ lines.length ∧ chunk.ShowsLines lines) ∧
    (Text.isBlankText source = false → (chunks.filter (·.metadata.kind.isSymbol)).Perm
      ((lang.outline source root).flatMap ctx.symbolChunks)) ∧
    ∀ boundary ∈ lang.outline source root,
      boundary.symbol.endLine ≤ lines.length ∧
      (ctx.symbolChunks boundary).head?.map (·.startLine) = some boundary.symbol.startLine ∧
      (ctx.symbolChunks boundary).getLast?.map (·.endLine) = some boundary.symbol.endLine := by
  intro lines chunks ctx
  refine ⟨Text.cutsInto_lines source, ?_, ?_, ?_⟩
  · intro chunk hchunk
    obtain ⟨hpos, hle, hend, hcontent⟩ := bounds_of_mem_ofTree hlang hform hwidth hchunk
    exact ⟨hpos, hle, hend, showsLines_of_sliceLines hcontent hpos hle hend⟩
  · intro hsource
    exact filter_isSymbol_ofTree_perm lang root file options hsource
  · intro boundary hboundary
    have hend := (Language.bounds_of_mem_outline hlang hform hwidth hboundary).2.2
    refine ⟨hend, ctx.startLine_head?_symbolChunks boundary, ?_⟩
    rw [ctx.endLine_getLast?_symbolChunks boundary,
      symbolRange_of_mem_outline hlang hform hwidth hboundary file options]

/-- The sample is well-formed and has no empty symbol, so its chunks show its lines. -/
theorem ofTree_lines_sample : Sample.tree.WellFormed Sample.text ∧
    Language.rust.NoEmptySymbols Sample.text Sample.tree ∧
    ∀ chunk ∈ ofTree .rust Sample.tree Sample.text "lib.rs" ⟨1, 0⟩,
      chunk.endLine ≤ 5 ∧
        chunk.ShowsLines ["fn f() \x7b", "  g();", "  h();", "\x7d", "use a;"] := by
  have hform : Sample.tree.WellFormed Sample.text := by decide
  have hwidth : Language.rust.NoEmptySymbols Sample.text Sample.tree :=
    Language.noEmptySymbols_of_forall (by decide)
  refine ⟨hform, hwidth, ?_⟩
  intro chunk hchunk
  obtain ⟨-, hchunks, -, -⟩ := ofTree_lines (by simp [Language.all]) hform hwidth "lib.rs" ⟨1, 0⟩
  have hlines : Text.lines Sample.text = ["fn f() \x7b", "  g();", "  h();", "\x7d", "use a;"] := by
    decide
  rw [hlines] at hchunks
  exact (hchunks chunk hchunk).2.2

/-- The syntax tree of an import on one line, with one character behind it. -/
private def importTree : Node :=
  Sample.construct 0 "source_file" 0 7 [Sample.useDeclaration 1 0]

/-- Not every piece between line feeds is shown without its carriage return: the last one keeps
it. -/
theorem exists_chunk_with_return : importTree.WellFormed "use a;\r" ∧
    Language.rust.NoEmptySymbols "use a;\r" importTree ∧
    ∃ chunk ∈ ofTree .rust importTree "use a;\r" "a/one.rs" {},
      chunk.startLine = 1 ∧ chunk.endLine = 1 ∧
      chunk.content ≠ "\n".intercalate
        (((Text.piecesBetween (· == '\n') "use a;\r".toList).map Text.dropReturn).map .ofList) := by
  have hform : importTree.WellFormed "use a;\r" := by decide
  have hwidth : Language.rust.NoEmptySymbols "use a;\r" importTree :=
    Language.noEmptySymbols_of_forall (by decide)
  have htext : Text.HoldsText "use a;\r" 1 :=
    ⟨0, 'u', ⟨[], "se a;\r".toList, by decide, rfl⟩, by decide, by decide⟩
  obtain ⟨chunk, hchunk, -⟩ :=
    covers_ofTree_of_holdsText .rust importTree "a/one.rs" {} (by decide) htext
  obtain ⟨hpos, hle, hend, hcontent⟩ :=
    bounds_of_mem_ofTree (by simp [Language.all]) hform hwidth hchunk
  have hlines : Text.lines "use a;\r" = ["use a;\r"] := by decide
  rw [hlines, List.length_singleton] at hend
  have hfirst : chunk.startLine = 1 := by omega
  have hlast : chunk.endLine = 1 := by omega
  rw [hlines, hfirst, hlast] at hcontent
  refine ⟨hform, hwidth, chunk, hchunk, hfirst, hlast, ?_⟩
  rw [hcontent]
  decide

end Chunk

end SourceChunks
