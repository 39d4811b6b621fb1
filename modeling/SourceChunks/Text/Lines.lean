-- SUMMARY: Lines of a text, byte offsets into it, and the line and column of an offset.
import SourceChunks.Text.Blank

/-!
# Lines and offsets

A text seen as lines, and as UTF-8 bytes addressed by offsets. A line ends at a line feed; one
carriage return in front of it belongs to the line end. A text that ends in a line feed has no
empty line after it.
-/

namespace SourceChunks.Text

/-! ## Lines -/

/-- A line without the carriage return that belonged to its line end. -/
def dropReturn (line : List Char) : List Char :=
  match line.reverse with
  | '\r' :: rest => rest.reverse
  | _ => line

/-- Drops the line ends: each piece that a line feed closed loses one carriage return, and the
piece after the last line feed counts only if it is not empty. -/
def closeLines : List (List Char) → List (List Char)
  | [] => []
  | [last] => if last.isEmpty then [] else [last]
  | line :: rest => dropReturn line :: closeLines rest

/-- The lines of a text, without their ends. -/
def lines (s : String) : List String :=
  (closeLines (piecesBetween (· == '\n') s.toList)).map .ofList

/-- Lines `first` to `last`, counted from one, joined by line feeds; lines that do not exist are
left out. -/
def sliceLines (lines : List String) (first last : Nat) : String :=
  "\n".intercalate ((lines.take last).drop (first - 1))

/-! ## Offsets -/

def byteLength : List Char → Nat
  | [] => 0
  | c :: cs => c.utf8Size + byteLength cs

/-- The characters from byte `n` on. -/
def dropBytes : Nat → List Char → List Char
  | 0, cs => cs
  | _ + 1, [] => []
  | n + 1, c :: cs => dropBytes (n + 1 - c.utf8Size) cs

/-- The characters that lie wholly in the first `n` bytes. -/
def takeBytes : Nat → List Char → List Char
  | _, [] => []
  | n, c :: cs => if c.utf8Size ≤ n then c :: takeBytes (n - c.utf8Size) cs else []

/-- The text from byte `start` up to byte `stop`. -/
def slice (s : String) (start stop : Nat) : String :=
  .ofList (takeBytes (stop - start) (dropBytes start s.toList))

/-- Line feeds in the first `n` bytes. -/
def breaksBefore : Nat → List Char → Nat
  | 0, _ => 0
  | _ + 1, [] => 0
  | n + 1, c :: cs => (if c = '\n' then 1 else 0) + breaksBefore (n + 1 - c.utf8Size) cs

/-- Bytes between the last line feed in the first `n` bytes and byte `n`; `column` counts those
seen so far. -/
def bytesSinceBreak (column : Nat) : Nat → List Char → Nat
  | 0, _ => column
  | _ + 1, [] => column
  | n + 1, c :: cs =>
    bytesSinceBreak (if c = '\n' then 0 else column + c.utf8Size) (n + 1 - c.utf8Size) cs

/-- The row of a byte offset: the number of line feeds before it. -/
def rowAt (s : String) (offset : Nat) : Nat :=
  breaksBefore offset s.toList

/-- The column of a byte offset: the number of bytes since the last line feed before it. -/
def columnAt (s : String) (offset : Nat) : Nat :=
  bytesSinceBreak 0 offset s.toList

/-- The line of a byte offset, counted from one. -/
def lineAt (s : String) (offset : Nat) : Nat :=
  rowAt s offset + 1

end SourceChunks.Text
