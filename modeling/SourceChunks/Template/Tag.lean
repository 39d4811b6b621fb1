-- SUMMARY: Tags of Liquid templates: their forms, and where they occur in a text.
import SourceChunks.Chunk
import SourceChunks.Text.Blank

/-!
# Tags

The tags that matter for chunking: those that open and close the blocks that stand apart, those
around comments, and those that refer to other templates. A tag may have a hyphen inside its
delimiters and white space around its word.
-/

namespace SourceChunks.Template

/-! ## Forms -/

/-- What follows one optional hyphen. -/
def afterHyphen : List Char → List Char
  | '-' :: cs => cs
  | cs => cs

/-- What follows the opening delimiter of a tag and the white space after it. -/
def afterOpening? : List Char → Option (List Char)
  | '\x7b' :: '%' :: cs => some ((afterHyphen cs).dropWhile Text.isBlank)
  | _ => none

/-- What follows the closing delimiter of a tag, with white space in front of it. -/
def afterClosing? (cs : List Char) : Option (List Char) :=
  match afterHyphen (cs.dropWhile Text.isBlank) with
  | '%' :: '\x7d' :: rest => some rest
  | _ => none

/-- What follows a tag that consists of one word. -/
def afterTag? (word : String) (cs : List Char) : Option (List Char) := do
  let rest ← afterOpening? cs
  let rest ← word.toList.isPrefixOf? rest
  afterClosing? rest

/-- The kinds of blocks with the words that open them. -/
def blockWords : List (BlockKind × String) :=
  [(.schema, "schema"), (.style, "style"), (.javascript, "javascript")]

/-- A tag that opens a block, with what follows it. -/
def opening? (cs : List Char) : Option (BlockKind × List Char) :=
  blockWords.findSome? fun (kind, word) => (afterTag? word cs).map (kind, ·)

/-- A tag that closes a block, with what follows it. -/
def closing? (cs : List Char) : Option (BlockKind × List Char) :=
  blockWords.findSome? fun (kind, word) => (afterTag? ("end" ++ word) cs).map (kind, ·)

/-- What follows the end of a comment whose inside begins here; without an end tag the comment
reaches to the end of the text. -/
def afterComment : List Char → List Char
  | [] => []
  | c :: cs => (afterTag? "endcomment" (c :: cs)).getD (afterComment cs)

def comment? (cs : List Char) : Option (Unit × List Char) :=
  (afterTag? "comment" cs).map fun rest => ((), afterComment rest)

/-- The quotation marks around the name of a template. -/
def isNameQuote (c : Char) : Bool :=
  c == '\x22' || c == '\x27'

/-- The words of tags that refer to other templates. -/
def referenceWords : List String := ["render", "include", "section"]

/-- The name in quotation marks after the word of a reference, with what follows it. -/
def quotedName? (cs : List Char) : Option (String × List Char) :=
  match cs.dropWhile Text.isBlank with
  | quote :: rest =>
    let name := rest.takeWhile (!isNameQuote ·)
    match rest.dropWhile (!isNameQuote ·) with
    | _ :: rest =>
      if cs.head?.any Text.isBlank && isNameQuote quote && !name.isEmpty then
        some (.ofList name, rest)
      else none
    | [] => none
  | [] => none

/-- The start of a tag that refers to another template, up to the name of that template, with what
follows it. -/
def reference? (cs : List Char) : Option (String × List Char) := do
  let rest ← afterOpening? cs
  referenceWords.findSome? fun word => (word.toList.isPrefixOf? rest).bind quotedName?

/-! ## Occurrences -/

/-- A range of bytes, the end excluded. -/
structure Span where
  start : Nat
  stop : Nat
  deriving Repr, DecidableEq, Inhabited

def Span.contains (span : Span) (offset : Nat) : Bool :=
  span.start ≤ offset && offset < span.stop

/-- A form found in a text. -/
structure Occurrence (α : Type) where
  span : Span
  value : α
  deriving Repr, DecidableEq, Inhabited

/-- The occurrences of a form in a text that begins at a byte offset, from the left, none
overlapping the one before; `skip` characters belong to the occurrence before. -/
def occurrencesFrom (form : List Char → Option (α × List Char)) (offset skip : Nat) :
    List Char → List (Occurrence α)
  | [] => []
  | c :: cs =>
    if 0 < skip then occurrencesFrom form (offset + c.utf8Size) (skip - 1) cs
    else match form (c :: cs) with
      | some (value, rest) =>
        let length := (c :: cs).length - rest.length
        ⟨⟨offset, offset + Text.byteLength ((c :: cs).take length)⟩, value⟩
          :: occurrencesFrom form (offset + c.utf8Size) (length - 1) cs
      | none => occurrencesFrom form (offset + c.utf8Size) 0 cs

/-- The occurrences of a form in a text, from the left, none overlapping the one before. -/
def occurrences (form : List Char → Option (α × List Char)) (text : String) :
    List (Occurrence α) :=
  occurrencesFrom form 0 0 text.toList

def comments (text : String) : List Span :=
  (occurrences comment? text).map (·.span)

end SourceChunks.Template
