-- SUMMARY: The chunks of a Liquid template: blocks, and the text around them.
import SourceChunks.Template.Block
import SourceChunks.Template.Mask

/-!
# Liquid templates

A template becomes chunks without being parsed: its schema, style and script blocks, and runs of
the remaining lines, which carry the names of the templates they refer to. This never fails.
-/

namespace SourceChunks.Template

/-- The tag and the file extension of Liquid templates. -/
def tag : String := "liquid"

/-- The references in a text to other templates, each with its line. -/
def references (text : String) : List (Nat × String) :=
  (occurrences reference? text).map fun found => (Text.lineAt text found.span.start, found.value)

def blockChunks (lines : List String) (file : String) (options : Options) (block : Block) :
    List Chunk :=
  (LineRange.windows options block.lines).map fun window =>
    { content := Text.sliceLines lines window.first window.last
      metadata :=
        { file
          startLine := window.first
          endLine := window.last
          kind := .block
          language := tag
          symbolName := block.name
          symbolType := some (.block block.kind) } }

/-- The chunks of a run of template lines, all with the names of the templates that the run refers
to. -/
def templateChunks (lines : List String) (file : String) (options : Options)
    (references : List (Nat × String)) (run : LineRange) : List Chunk :=
  let names := ((references.filter (run.contains ·.1)).map (·.2)).eraseDups
  (LineRange.windows options run).map fun window =>
    { content := Text.sliceLines lines window.first window.last
      metadata :=
        { file
          startLine := window.first
          endLine := window.last
          kind := .template
          language := tag
          imports := if names.isEmpty then none else some names } }

/-- For each line, whether it belongs to blocks only: a block reaches it, and outside of blocks it
is blank. -/
def coveredLines (count : Nat) (blocks : List Block) (outsideLines : List String) : List Bool :=
  (List.range' 1 count).map fun line =>
    blocks.any (·.lines.contains line)
      && (outsideLines[line - 1]?).all Text.isBlankText

/-- The chunks of a template, in the order of their first lines, blocks before template text. A
blank template has none. -/
def chunks (text file : String) (options : Options) : List Chunk :=
  if Text.isBlankText text then []
  else
    let blocks := blocks text
    let outside := mask (blocks.map (·.span)) text
    let visible := mask (comments text) outside
    let lines := Text.lines text
    let runs := LineRange.uncovered lines (coveredLines lines.length blocks (Text.lines outside))
    Chunk.sorted
      (blocks.flatMap (blockChunks lines file options)
        ++ runs.flatMap (templateChunks lines file options (references visible)))

end SourceChunks.Template
