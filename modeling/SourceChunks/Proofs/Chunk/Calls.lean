-- SUMMARY: Splitting loses no calls: each chunk of a symbol carries the calls of its own lines, and together they carry all.
import SourceChunks.Proofs.Calls
import SourceChunks.Proofs.Chunk.Coverage
import SourceChunks.Proofs.Outline

/-!
# Calls of the chunks of a symbol

The calls of a symbol are read from the node that is measured for it, while its chunks are cut from
the lines of its owner. Both lie in the owner, so every call is on a line of the symbol, and since
the chunks of a symbol cover its lines, every call is in one of them.
-/

namespace SourceChunks

/-- The calls of a symbol, in source order. -/
def Language.callsOf (lang : Language) (source : String) (boundary : Boundary) : List CallSite :=
  CallSite.ofNode lang.callKinds source boundary.body.node

/-- The calls of a symbol are on lines of the symbol and of the file. -/
theorem Language.line_of_mem_callsOf {lang : Language} {source : String} {root : Node}
    (hlang : lang ∈ Language.all) (hnested : root.Nested source) {boundary : Boundary}
    (hboundary : boundary ∈ lang.outline source root) {site : CallSite}
    (h : site ∈ lang.callsOf source boundary) :
    boundary.symbol.startLine ≤ site.line ∧ site.line ≤ boundary.symbol.endLine ∧
      site.line ≤ (Text.lines source).length := by
  obtain ⟨scope, hvisits, hscope⟩ := mem_outline_iff.1 hboundary
  obtain ⟨owner, howner⟩ := exists_owner hlang hvisits.inTree hscope
  obtain ⟨name, hname, hlt, hline⟩ := CallSite.exists_name_of_mem_ofNode h
  have hinside : name.Inside owner :=
    Node.inside_of_mem_preorder hnested howner.mem (Node.mem_preorder_trans hname howner.body_mem)
  have hstop := Node.stop_le_of_mem_preorder hnested howner.mem
  have hbefore : name.start < owner.stop := Nat.lt_of_lt_of_le hlt hinside.2
  obtain ⟨hfirst, hlast⟩ := howner.spans
  rw [hfirst, hlast, hline]
  refine ⟨?_, ?_, ?_⟩
  · exact Text.lineAt_mono source hinside.1
  · exact Node.lineAt_le_endLine hbefore hstop
  · exact Text.rowAt_lt_length_lines (Nat.lt_of_lt_of_le hbefore hstop)

namespace FileContext

variable (ctx : FileContext)

/-- A chunk of a symbol carries the calls on its lines, also where the symbol is not split and the
calls are handed over as they are. -/
theorem callSites_of_mem_symbolChunks {boundary : Boundary} {chunk : Chunk}
    (hcalls : ∀ site ∈ ctx.language.callsOf ctx.source boundary,
      (ctx.symbolRange boundary.symbol).contains site.line = true)
    (h : chunk ∈ ctx.symbolChunks boundary) :
    chunk.metadata.callSites =
      some ((ctx.language.callsOf ctx.source boundary).filter (chunk.containsLine ·.line)) := by
  obtain ⟨window, hwindow, rfl⟩ := List.mem_map.1 h
  simp only [Chunk.containsLine, Chunk.startLine, Chunk.endLine, FileContext.chunk,
    Metadata.withSymbol, Metadata.withHalstead, Metadata.startLine_withImports,
    Metadata.endLine_withImports, Option.some.injEq]
  split
  · rfl
  · next hsingle =>
    refine (List.filter_eq_self.2 ?_).symm
    intro site hsite
    exact LineRange.contains_of_windows_single (Nat.le_max_right ..) hsingle hwindow
      (hcalls site hsite)

end FileContext

namespace Chunk

/-- Splitting loses no calls: the calls of a symbol are on its lines, each of its chunks carries
those on its own lines, in their order, and every call is in one of them. -/
theorem ofTree_calls {lang : Language} {root : Node} {source : String}
    (hlang : lang ∈ Language.all) (hnested : root.Nested source) (file : String)
    (options : Options) :
    let ctx := FileContext.ofTree lang root source file options
    (Text.isBlankText source = false →
      ((ofTree lang root source file options).filter (·.metadata.kind.isSymbol)).Perm
        ((lang.outline source root).flatMap ctx.symbolChunks)) ∧
    ∀ boundary ∈ lang.outline source root,
      let calls := lang.callsOf source boundary
      let chunks := ctx.symbolChunks boundary
      (∀ site ∈ calls,
        boundary.symbol.startLine ≤ site.line ∧ site.line ≤ boundary.symbol.endLine) ∧
      (∀ chunk ∈ chunks,
        chunk.metadata.callSites = some (calls.filter (chunk.containsLine ·.line))) ∧
      ∀ site ∈ calls, ∃ chunk ∈ chunks, ∃ sites,
        chunk.metadata.callSites = some sites ∧ site ∈ sites := by
  intro ctx
  refine ⟨filter_isSymbol_ofTree_perm lang root file options, ?_⟩
  intro boundary hboundary calls chunks
  have hrange : ∀ site ∈ calls, (ctx.symbolRange boundary.symbol).contains site.line = true := by
    intro site hsite
    obtain ⟨hfirst, hlast, hcount⟩ := Language.line_of_mem_callsOf hlang hnested hboundary hsite
    have hmin : site.line ≤ min boundary.symbol.endLine ctx.lines.length :=
      Nat.le_min.2 ⟨hlast, hcount⟩
    exact LineRange.contains_iff.2 ⟨hfirst, Nat.le_trans hmin (Nat.le_max_left ..)⟩
  refine ⟨?_, ?_, ?_⟩
  · intro site hsite
    obtain ⟨hfirst, hlast, -⟩ := Language.line_of_mem_callsOf hlang hnested hboundary hsite
    exact ⟨hfirst, hlast⟩
  · intro chunk hchunk
    exact ctx.callSites_of_mem_symbolChunks hrange hchunk
  · intro site hsite
    obtain ⟨chunk, hchunk, hline⟩ :=
      (covers_symbolChunks_iff lang root source file options boundary).2 (hrange site hsite)
    refine ⟨chunk, hchunk, _, ctx.callSites_of_mem_symbolChunks hrange hchunk, ?_⟩
    exact List.mem_filter.2 ⟨hsite, hline⟩

/-- The function of the sample, as a place to search. -/
private def sampleFunction : Scope :=
  ⟨⟨Sample.tree.namedChildren.headD default, some Sample.tree⟩, none⟩

/-- The second call of the function of the sample is in a chunk of one line. -/
theorem ofTree_calls_sample : Sample.tree.Nested Sample.text ∧
    ∃ boundary ∈ Language.rust.outline Sample.text Sample.tree,
      Language.rust.callsOf Sample.text boundary = [⟨"g", 2⟩, ⟨"h", 3⟩] ∧
      ∃ chunk ∈ (FileContext.ofTree .rust Sample.tree Sample.text "lib.rs" ⟨1, 0⟩).symbolChunks
          boundary,
        ∃ sites, chunk.metadata.callSites = some sites ∧ ⟨"h", 3⟩ ∈ sites := by
  have hnested : Sample.tree.Nested Sample.text := by decide
  have hmember : sampleFunction ∈ Language.rust.members Sample.text ⟨⟨Sample.tree, none⟩, none⟩ :=
    List.mem_cons_self
  obtain ⟨boundary, hboundary, hcalls⟩ : ∃ boundary,
      Language.rust.boundary? Sample.text sampleFunction = some boundary ∧
        Language.rust.callsOf Sample.text boundary = [⟨"g", 2⟩, ⟨"h", 3⟩] :=
    ⟨_, rfl, by decide⟩
  have hmem : boundary ∈ Language.rust.outline Sample.text Sample.tree :=
    Language.mem_outline_iff.2 ⟨sampleFunction, .step hmember (.refl _), hboundary⟩
  have hrust : Language.rust ∈ Language.all := by simp [Language.all]
  obtain ⟨-, hall⟩ := ofTree_calls hrust hnested "lib.rs" ⟨1, 0⟩
  obtain ⟨-, -, hfound⟩ := hall boundary hmem
  exact ⟨hnested, boundary, hmem, hcalls, hfound ⟨"h", 3⟩ (by rw [hcalls]; decide)⟩

end Chunk

end SourceChunks
