-- SUMMARY: Blanking out parts of a text without moving the rest.
import SourceChunks.Template.Tag

/-!
# Masked texts

A masked text has spaces in place of some ranges of bytes. Byte offsets and lines stay where they
are: each character gives way to as many spaces as it has bytes, and line feeds are kept.
-/

namespace SourceChunks.Template

/-- A masked text that begins at a byte offset. -/
def maskFrom (spans : List Span) (offset : Nat) : List Char → List Char
  | [] => []
  | c :: cs =>
    (if c ≠ '\n' ∧ spans.any (·.contains offset) then List.replicate c.utf8Size ' ' else [c])
      ++ maskFrom spans (offset + c.utf8Size) cs

/-- A text with spaces in place of the given ranges, line feeds apart. -/
def mask (spans : List Span) (text : String) : String :=
  .ofList (maskFrom spans 0 text.toList)

end SourceChunks.Template
