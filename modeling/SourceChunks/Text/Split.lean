-- SUMMARY: Taking texts apart: leading text, first and last occurrence of a separator, pieces.
import SourceChunks.Text.Blank

/-!
# Taking texts apart

Leading and separating pieces of text. The work is done on lists of characters; the functions on
texts say the same of their characters.
-/

namespace SourceChunks.Text

/-! ## Leading text -/

def beginsWith (lead s : String) : Bool :=
  lead.toList.isPrefixOf s.toList

/-- What follows `lead` in a text that begins with it. -/
def after? (lead s : String) : Option String :=
  (lead.toList.isPrefixOf? s.toList).map .ofList

/-- Removes `lead` from the start as often as it stands there. -/
def dropLeads (lead cs : List Char) : List Char :=
  match lead.isPrefixOf? cs with
  | some rest => if rest.length < cs.length then dropLeads lead rest else cs
  | none => cs
termination_by cs.length

/-- A text without the copies of `lead` at its start. -/
def dropAll (lead s : String) : String :=
  .ofList (dropLeads lead.toList s.toList)

/-! ## Separators -/

/-- What stands before and after the first occurrence of `sep`. -/
def cutFirst? (sep : List Char) : List Char → Option (List Char × List Char)
  | [] => none
  | c :: cs =>
    match sep.isPrefixOf? (c :: cs) with
    | some rest => some ([], rest)
    | none => (cutFirst? sep cs).map fun (before, rest) => (c :: before, rest)

/-- What stands before and after the last occurrence of `sep`. -/
def cutLast? (sep : List Char) : List Char → Option (List Char × List Char)
  | [] => none
  | c :: cs =>
    match cutLast? sep cs with
    | some (before, rest) => some (c :: before, rest)
    | none => (sep.isPrefixOf? (c :: cs)).map fun rest => ([], rest)

def splitFirst? (sep s : String) : Option (String × String) :=
  (cutFirst? sep.toList s.toList).map fun (a, b) => (.ofList a, .ofList b)

def splitLast? (sep s : String) : Option (String × String) :=
  (cutLast? sep.toList s.toList).map fun (a, b) => (.ofList a, .ofList b)

def holds (piece s : String) : Bool :=
  piece.isEmpty || (cutFirst? piece.toList s.toList).isSome

/-- The pieces of a text between the occurrences of one character, empty pieces included. -/
def splitAt (sep : Char) (s : String) : List String :=
  (piecesBetween (· == sep) s.toList).map .ofList

/-! ## Letter case and quotes -/

/-- Equality of texts up to the case of ASCII letters. -/
def sameLetters (s t : String) : Bool :=
  s.toList.map Char.toLower == t.toList.map Char.toLower

/-- The quotation marks of string literals: double, single and back quote. -/
def isQuote (c : Char) : Bool :=
  c == '\x22' || c == '\x27' || c == '\x60'

/-- A string literal without the white space and then the quotation marks around it. -/
def unquote (s : String) : String :=
  .ofList (dropBothWhile isQuote (trim s).toList)

end SourceChunks.Text
