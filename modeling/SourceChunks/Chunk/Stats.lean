-- SUMMARY: Statistics of a list of chunks.
import SourceChunks.Chunk

/-!
# Statistics

How many chunks there are of each kind, how many lines they have, and how complex they get.
-/

namespace SourceChunks

/-- Counts over a list of chunks. -/
structure Stats where
  totalChunks : Nat
  totalLines : Nat
  symbolChunks : Nat
  templateChunks : Nat
  blockChunks : Nat
  /-- The chunks that belong to schema blocks. -/
  schemaBlocks : Nat
  /-- The largest cyclomatic complexity, or zero if no chunk has one. -/
  maxComplexity : Nat
  deriving Repr, DecidableEq, Inhabited

namespace Stats

def ofChunks (chunks : List Chunk) : Stats where
  totalChunks := chunks.length
  totalLines := chunks.foldl (fun lines chunk => lines + chunk.lineCount) 0
  symbolChunks := chunks.countP (·.metadata.kind.isSymbol)
  templateChunks := chunks.countP (·.metadata.kind == .template)
  blockChunks := chunks.countP (·.metadata.kind == .block)
  schemaBlocks := chunks.countP (·.metadata.symbolType == some (.block .schema))
  maxComplexity := (chunks.filterMap (·.metadata.complexity)).foldl max 0

def report (s : Stats) : String :=
  "\n".intercalate
    ["Chunking Statistics:",
     "  Total chunks: " ++ toString s.totalChunks,
     "  Total lines: " ++ toString s.totalLines,
     "  Symbol chunks: " ++ toString s.symbolChunks,
     "  Template chunks: " ++ toString s.templateChunks,
     "  Block chunks: " ++ toString s.blockChunks,
     "  Max complexity: " ++ toString s.maxComplexity]

end Stats

end SourceChunks
