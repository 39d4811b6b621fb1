-- SUMMARY: The chunks of a parsed file: symbols, and the text between them.
import SourceChunks.Chunk
import SourceChunks.Outline

/-!
# Chunks of a syntax tree

Every symbol becomes a chunk, or several windows if it is oversized; the lines outside all symbols
become template chunks. All chunks carry the imports of the file. Its exports go to the template
chunks and to the symbols that are exported.
-/

namespace SourceChunks

/-- What the chunks of one file have in common. -/
structure FileContext where
  language : Language
  source : String
  lines : List String
  file : String
  options : Options
  imports : FileImports
  exports : List String

namespace FileContext

/-- What the chunks of a parsed file have in common. -/
def ofTree (language : Language) (root : Node) (source file : String) (options : Options) :
    FileContext where
  language := language
  source := source
  lines := Text.lines source
  file := file
  options := options
  imports := language.imports source root
  exports := language.exports source root

/-- A chunk of a kind over a range of lines, with the imports of the file. -/
def chunk (ctx : FileContext) (kind : ChunkKind) (range : LineRange) : Chunk where
  content := Text.sliceLines ctx.lines range.first range.last
  metadata :=
    Metadata.withImports
      { file := ctx.file
        startLine := range.first
        endLine := range.last
        kind := kind
        language := ctx.language.tag } ctx.imports

/-- The lines of a symbol that are in the file; the first one counts in any case. -/
def symbolRange (ctx : FileContext) (symbol : Symbol) : LineRange :=
  ⟨symbol.startLine, max (min symbol.endLine ctx.lines.length) symbol.startLine⟩

/-- The chunks of a symbol. Each carries the calls of its own lines. -/
def symbolChunks (ctx : FileContext) (boundary : Boundary) : List Chunk :=
  let symbol := boundary.symbol
  let halstead := Halstead.ofNode ctx.language.rules ctx.source boundary.body.node
  let calls := CallSite.ofNode ctx.language.callKinds ctx.source boundary.body.node
  let exported := ctx.language.isExported ctx.exports boundary.body symbol
  let windows := LineRange.windows ctx.options (ctx.symbolRange symbol)
  windows.map fun window =>
    let chunk := ctx.chunk (.symbol symbol.kind) window
    let calls := if windows.length > 1 then calls.filter (window.contains ·.line) else calls
    { chunk with
      metadata :=
        { (chunk.metadata.withSymbol symbol).withHalstead halstead with
          callSites := some calls
          exports := if exported then some ctx.exports else none } }

def templateChunks (ctx : FileContext) (run : LineRange) : List Chunk :=
  (LineRange.windows ctx.options run).map fun window =>
    let chunk := ctx.chunk .template window
    { chunk with
      metadata :=
        { chunk.metadata with exports := if ctx.exports.isEmpty then none else some ctx.exports } }

/-- For each line of the file, whether a symbol covers it. -/
def coveredLines (ctx : FileContext) (symbols : List Symbol) : List Bool :=
  (List.range' 1 ctx.lines.length).map fun line =>
    symbols.any fun symbol => (ctx.symbolRange symbol).contains line

end FileContext

/-- The chunks of a parsed file, in the order of their first lines. A blank file has none. -/
def Chunk.ofTree (language : Language) (root : Node) (source file : String) (options : Options) :
    List Chunk :=
  if Text.isBlankText source then []
  else
    let ctx := FileContext.ofTree language root source file options
    let boundaries := language.outline source root
    let runs := LineRange.uncovered ctx.lines (ctx.coveredLines (boundaries.map (·.symbol)))
    Chunk.sorted (boundaries.flatMap ctx.symbolChunks ++ runs.flatMap ctx.templateChunks)

end SourceChunks
