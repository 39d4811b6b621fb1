-- SUMMARY: What the chunks of one file have in common: its imports and exports, and for the chunks of one symbol all but the lines.
import SourceChunks.Proofs.Chunk.Coverage
import SourceChunks.Proofs.Imports
import SourceChunks.Proofs.Outline

/-!
# Metadata of the chunks of a file

Chunks are built on two ways, from the windows of symbols and from those of the text between them.
Both attach the imports of the whole file. Its exports, in which no name repeats, go as a whole to
every template chunk and to the chunks of the symbols that are exported.
-/

namespace SourceChunks

/-! ## Exported names -/

namespace Language

theorem Rust.nodup_addMethods {source : String} {exports : List String} (h : exports.Nodup)
    (implementation : Node) : (Rust.addMethods source exports implementation).Nodup := by
  unfold Rust.addMethods
  split
  · exact nodup_foldl_pushNew h _
  · exact h

theorem Rust.nodup_foldl_addMethods {source : String} {exports : List String} (h : exports.Nodup)
    (implementations : List Node) :
    (implementations.foldl (Rust.addMethods source) exports).Nodup := by
  induction implementations generalizing exports with
  | nil => exact h
  | cons implementation rest ih => exact ih (Rust.nodup_addMethods h implementation)

/-- No language exports a name twice. -/
theorem nodup_exports {lang : Language} (hlang : lang ∈ all) (source : String) (root : Node) :
    (lang.exports source root).Nodup := by
  simp only [all, List.mem_cons, List.not_mem_nil, or_false] at hlang
  rcases hlang with rfl | rfl | rfl | rfl | rfl | rfl | rfl | rfl | rfl
  · exact nodup_eraseDups _
  · exact nodup_eraseDups _
  · exact nodup_eraseDups _
  · exact nodup_eraseDups _
  · exact nodup_eraseDups _
  · exact Rust.nodup_foldl_addMethods (nodup_eraseDups _) _
  · exact nodup_eraseDups _
  · exact nodup_eraseDups _
  · exact nodup_eraseDups _

theorem nodup_paths_imports (lang : Language) (source : String) (root : Node) :
    (lang.imports source root).paths.Nodup := by
  rw [imports, importsFrom, FileImports.paths_ofList]
  exact nodup_eraseDups _

end Language

/-! ## Metadata of single chunks -/

namespace Metadata

/-- The imports of a file are attached: both fields, or neither if the file imports nothing. -/
def CarriesImports (m : Metadata) (imports : FileImports) : Prop :=
  if imports.isEmpty then m.imports = none ∧ m.importedSymbols = none
  else m.imports = some imports.paths ∧ m.importedSymbols = some imports.namesByPath

/-- Metadata without the lines of its chunk and the calls on them. -/
def unplaced (m : Metadata) : Metadata :=
  { m with startLine := 0, endLine := 0, callSites := none }

theorem carriesImports_withImports {m : Metadata} (himports : m.imports = none)
    (hnames : m.importedSymbols = none) (imports : FileImports) :
    (m.withImports imports).CarriesImports imports := by
  unfold CarriesImports withImports
  split
  · exact ⟨himports, hnames⟩
  · exact ⟨rfl, rfl⟩

theorem unplaced_withImports (m : Metadata) (imports : FileImports) :
    (m.withImports imports).unplaced = m.unplaced.withImports imports := by
  unfold withImports
  split <;> rfl

end Metadata

namespace FileContext

variable (ctx : FileContext)

theorem carriesImports_chunk (kind : ChunkKind) (range : LineRange) :
    (ctx.chunk kind range).metadata.CarriesImports ctx.imports :=
  Metadata.carriesImports_withImports rfl rfl _

/-- Chunks of one kind differ in nothing but their lines. -/
theorem unplaced_chunk (kind : ChunkKind) (range other : LineRange) :
    (ctx.chunk kind range).metadata.unplaced = (ctx.chunk kind other).metadata.unplaced := by
  unfold FileContext.chunk
  rw [Metadata.unplaced_withImports, Metadata.unplaced_withImports]
  rfl

theorem carriesImports_of_mem_symbolChunks {boundary : Boundary} {chunk : Chunk}
    (h : chunk ∈ ctx.symbolChunks boundary) : chunk.metadata.CarriesImports ctx.imports := by
  obtain ⟨window, -, rfl⟩ := List.mem_map.1 h
  exact ctx.carriesImports_chunk (.symbol boundary.symbol.kind) window

theorem carriesImports_of_mem_templateChunks {run : LineRange} {chunk : Chunk}
    (h : chunk ∈ ctx.templateChunks run) : chunk.metadata.CarriesImports ctx.imports := by
  obtain ⟨window, -, rfl⟩ := List.mem_map.1 h
  exact ctx.carriesImports_chunk .template window

theorem exports_of_mem_symbolChunks {boundary : Boundary} {chunk : Chunk}
    (h : chunk ∈ ctx.symbolChunks boundary) :
    chunk.metadata.exports =
      if ctx.language.isExported ctx.exports boundary.body boundary.symbol then some ctx.exports
      else none := by
  obtain ⟨window, -, rfl⟩ := List.mem_map.1 h
  rfl

theorem exports_of_mem_templateChunks {run : LineRange} {chunk : Chunk}
    (h : chunk ∈ ctx.templateChunks run) :
    chunk.metadata.exports = if ctx.exports.isEmpty then none else some ctx.exports := by
  obtain ⟨window, -, rfl⟩ := List.mem_map.1 h
  rfl

/-- The chunks of one symbol differ in their lines and calls only. -/
theorem unplaced_of_mem_symbolChunks {boundary : Boundary} {chunk other : Chunk}
    (h : chunk ∈ ctx.symbolChunks boundary) (hother : other ∈ ctx.symbolChunks boundary) :
    chunk.metadata.unplaced = other.metadata.unplaced := by
  obtain ⟨window, -, rfl⟩ := List.mem_map.1 h
  obtain ⟨window', -, rfl⟩ := List.mem_map.1 hother
  -- what is added to a chunk of the symbol does not depend on the window
  let add (m : Metadata) : Metadata :=
    { (m.withSymbol boundary.symbol).withHalstead
        (Halstead.ofNode ctx.language.rules ctx.source boundary.body.node) with
      exports :=
        if ctx.language.isExported ctx.exports boundary.body boundary.symbol then some ctx.exports
        else none }
  exact congrArg add (ctx.unplaced_chunk (.symbol boundary.symbol.kind) window window')

end FileContext

/-! ## All chunks of a file -/

namespace Chunk

/-- What is known of a file is attached to its chunks in one way: all carry its imports, with a key
for each path; the template chunks carry its exports if it has any, the chunks of a symbol if the
symbol is exported; and the chunks of one symbol differ in their lines and calls only. -/
theorem ofTree_metadata {lang : Language} (hlang : lang ∈ Language.all) (root : Node)
    (source file : String) (options : Options) :
    let imports := lang.imports source root
    let exports := lang.exports source root
    let chunks := ofTree lang root source file options
    let ctx := FileContext.ofTree lang root source file options
    (imports.namesByPath.map (·.1)).Perm imports.paths ∧ imports.paths.Nodup ∧ exports.Nodup ∧
    (∀ chunk ∈ chunks, chunk.metadata.CarriesImports imports) ∧
    (∀ chunk ∈ chunks, chunk.metadata.kind = .template →
      chunk.metadata.exports = if exports.isEmpty then none else some exports) ∧
    (∀ chunk ∈ chunks, chunk.metadata.kind ≠ .template →
      ∃ boundary ∈ lang.outline source root, chunk ∈ ctx.symbolChunks boundary) ∧
    ∀ boundary ∈ lang.outline source root, ∀ chunk ∈ ctx.symbolChunks boundary,
      chunk.metadata.kind = .symbol boundary.symbol.kind ∧
      chunk.metadata.exports =
        (if lang.isExported exports boundary.body boundary.symbol then some exports else none) ∧
      ∀ other ∈ ctx.symbolChunks boundary, chunk.metadata.unplaced = other.metadata.unplaced := by
  intro imports exports chunks ctx
  refine ⟨FileImports.keys_namesByPath_perm imports, lang.nodup_paths_imports source root,
    Language.nodup_exports hlang source root, ?_, ?_, ?_, ?_⟩
  · intro chunk hchunk
    rcases mem_ofTree lang root file options hchunk with ⟨boundary, -, hmem⟩ | ⟨run, -, hmem⟩
    · exact ctx.carriesImports_of_mem_symbolChunks hmem
    · exact ctx.carriesImports_of_mem_templateChunks hmem
  · intro chunk hchunk hkind
    rcases mem_ofTree lang root file options hchunk with ⟨boundary, -, hmem⟩ | ⟨run, -, hmem⟩
    · rw [ctx.kind_of_mem_symbolChunks hmem] at hkind
      cases hkind
    · exact ctx.exports_of_mem_templateChunks hmem
  · intro chunk hchunk hkind
    rcases mem_ofTree lang root file options hchunk with hsymbol | ⟨run, -, hmem⟩
    · exact hsymbol
    · exact absurd (ctx.kind_of_mem_templateChunks hmem) hkind
  · intro boundary _ chunk hmem
    exact ⟨ctx.kind_of_mem_symbolChunks hmem, ctx.exports_of_mem_symbolChunks hmem,
      fun other hother => ctx.unplaced_of_mem_symbolChunks hmem hother⟩

/-- A module of Python: an import and a function on two lines. -/
private def importingText : String := "import a\ndef f():\n  g()\n"

private def exportedTree : Node :=
  Sample.construct 4 "function_definition" 9 23
    [Sample.token 5 "def" 9,
     Sample.construct 6 "identifier" 13 14 [] (some "name"),
     Sample.construct 7 "parameters" 14 16 [Sample.token 8 "(" 14, Sample.token 9 ")" 15]
       (some "parameters"),
     Sample.token 10 ":" 16,
     Sample.construct 11 "block" 20 23 [] (some "body")]

private def importingTree : Node :=
  Sample.construct 0 "module" 0 24
    [Sample.construct 1 "import_statement" 0 8
      [Sample.token 2 "import" 0, Sample.construct 3 "dotted_name" 7 8 [] (some "name")],
     exportedTree]

/-- The module imports `a` and exports `f`, and so say all its chunks, those of `f` among them. -/
theorem ofTree_metadata_module : Language.python ∈ Language.all ∧
    ∃ boundary ∈ Language.python.outline importingText importingTree,
      (∀ chunk ∈ ofTree .python importingTree importingText "m.py" ⟨1, 0⟩,
        chunk.metadata.imports = some ["a"] ∧
          chunk.metadata.importedSymbols = some [("a", ["a"])]) ∧
      ∀ chunk ∈ (FileContext.ofTree .python importingTree importingText "m.py" ⟨1, 0⟩).symbolChunks
          boundary, chunk.metadata.exports = some ["f"] := by
  have hpython : Language.python ∈ Language.all := by simp [Language.all]
  let place : Scope := ⟨⟨exportedTree, some importingTree⟩, none⟩
  have hmember : place ∈ Language.python.members importingText ⟨⟨importingTree, none⟩, none⟩ :=
    List.mem_cons_of_mem _ List.mem_cons_self
  obtain ⟨boundary, hboundary, hname⟩ : ∃ boundary,
      Language.python.boundary? importingText place = some boundary ∧ boundary.symbol.name = "f" :=
    ⟨_, rfl, by decide⟩
  have hmem : boundary ∈ Language.python.outline importingText importingTree :=
    Language.mem_outline_iff.2 ⟨place, .step hmember (.refl _), hboundary⟩
  have hexports : Language.python.exports importingText importingTree = ["f"] := by decide
  have himports : Language.python.imports importingText importingTree = ⟨[⟨"a", ["a"]⟩]⟩ := by decide
  obtain ⟨-, -, -, hall, -, -, hsymbol⟩ :=
    ofTree_metadata hpython importingTree importingText "m.py" ⟨1, 0⟩
  rw [himports] at hall
  refine ⟨hpython, boundary, hmem, ?_, ?_⟩
  · intro chunk hchunk
    simpa [Metadata.CarriesImports, FileImports.isEmpty, FileImports.paths,
      FileImports.namesByPath] using hall chunk hchunk
  · intro chunk hchunk
    rw [(hsymbol boundary hmem chunk hchunk).2.1, hexports, if_pos]
    simp [Language.python, hname]

end Chunk

end SourceChunks
