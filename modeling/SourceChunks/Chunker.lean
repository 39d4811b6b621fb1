-- SUMMARY: Chunking files: options checked once, the language chosen by path or by tag.
import SourceChunks.Chunk.OfTree
import SourceChunks.Language.Registry
import SourceChunks.Template

/-!
# The chunker

Chunks files with checked options. The language of a file is found by the extension of its path, or
given as a tag; Liquid templates are chunked without a syntax tree.
-/

namespace SourceChunks

/-- A chunker: options that are valid. -/
structure Chunker where
  options : Options
  valid : options.validate = .ok options

namespace Chunker

/-- A chunker with the given options, unless they are invalid. -/
def new (options : Options) : Except Error Chunker :=
  match h : options.validate with
  | .ok checked => .ok ⟨options, by
      rw [h]
      unfold Options.validate at h
      split at h
      · cases h
      · split at h
        · cases h
        · simpa using h.symm⟩
  | .error error => .error error

/-- The chunks of a parsed file; a blank file has none. -/
def parsedChunks (chunker : Chunker) (language : Language) (tree : Option Node)
    (content file : String) : Except Error (List Chunk) :=
  if Text.isBlankText content then .ok []
  else match tree with
    | some root => .ok (Chunk.ofTree language root content file chunker.options)
    | none => .error (.parse "Failed to parse source code")

def isTemplatePath (path : String) : Bool :=
  (Path.extension? path).any (Text.sameLetters · Template.tag)

/-- The chunks of a file whose language is found by its path. -/
def chunk (chunker : Chunker) (content file : String) (tree : Option Node) :
    Except Error (List Chunk) :=
  if isTemplatePath file then .ok (Template.chunks content file chunker.options)
  else do chunker.parsedChunks (← Language.ofPath file) tree content file

/-- The chunks of a file whose language is given by a tag. -/
def chunkWithLanguage (chunker : Chunker) (content file tag : String) (tree : Option Node) :
    Except Error (List Chunk) :=
  if Text.sameLetters tag Template.tag then .ok (Template.chunks content file chunker.options)
  else do chunker.parsedChunks (← Language.ofTag tag) tree content file

end Chunker

end SourceChunks
