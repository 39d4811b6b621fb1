-- SUMMARY: Blocks of Liquid templates: opening tags paired with the closing tags after them.
import SourceChunks.Json.Reader
import SourceChunks.Template.Tag
import SourceChunks.Text.Lines

/-!
# Blocks

Schema, style and script blocks stand apart from the text of a template. An opening tag makes a
block with the first closing tag after it, if that one is of its kind; otherwise it is ordinary
text. Tags inside comments do not count.
-/

namespace SourceChunks.Template

structure Block where
  kind : BlockKind
  span : Span
  lines : LineRange
  /-- The name that a schema gives itself. -/
  name : Option String
  deriving Repr, DecidableEq, Inhabited

/-- The occurrences that do not start inside one of the given ranges. -/
def outside (spans : List Span) (found : List (Occurrence α)) : List (Occurrence α) :=
  found.filter fun tag => !spans.any (·.contains tag.span.start)

/-- The name in a schema, if it is a JSON object with a text under `name`. -/
def schemaName? (body : String) : Option String :=
  ((Json.parse? (Text.trim body)).bind (·.get? "name")).bind (·.toText?)

/-- The block between an opening and a closing tag. -/
def Block.between (text : String) (opener closer : Occurrence BlockKind) : Block where
  kind := opener.value
  span := ⟨opener.span.start, closer.span.stop⟩
  lines := ⟨Text.lineAt text opener.span.start, Text.lineAt text closer.span.stop⟩
  name :=
    if opener.value = .schema then
      schemaName? (Text.slice text opener.span.stop closer.span.start)
    else none

/-- Pairs opening tags from a byte offset on with the first closing tags after them. -/
def pairFrom (text : String) (closers : List (Occurrence BlockKind)) (offset : Nat) :
    List (Occurrence BlockKind) → List Block
  | [] => []
  | opener :: rest =>
    if opener.span.start < offset then pairFrom text closers offset rest
    else match closers.find? (opener.span.stop ≤ ·.span.start) with
      | none => pairFrom text closers opener.span.stop rest
      | some closer =>
        if closer.value = opener.value then
          .between text opener closer :: pairFrom text closers closer.span.stop rest
        else pairFrom text closers opener.span.stop rest

/-- The blocks of a template, in source order. -/
def blocks (text : String) : List Block :=
  let comments := comments text
  pairFrom text (outside comments (occurrences closing? text)) 0
    (outside comments (occurrences opening? text))

end SourceChunks.Template
