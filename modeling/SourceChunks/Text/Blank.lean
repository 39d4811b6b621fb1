-- SUMMARY: White space: which characters are blank, trimming, and the words of a text.

/-!
# Blank characters

Which characters count as white space, and the operations on texts that depend on nothing else:
trimming, testing for blankness and cutting into words. The class is the Unicode property
`White_Space`.
-/

namespace SourceChunks.Text

/-! ## The class -/

/-- White space: the characters with the Unicode property `White_Space`. -/
def isBlank (c : Char) : Bool :=
  let n := c.toNat
  (9 ≤ n && n ≤ 13) || n == 32 || n == 0x85 || n == 0xA0 || n == 0x1680
    || (0x2000 ≤ n && n ≤ 0x200A) || n == 0x2028 || n == 0x2029 || n == 0x202F
    || n == 0x205F || n == 0x3000

/-- A text without any character that is not white space. -/
def isBlankText (s : String) : Bool :=
  s.toList.all isBlank

/-! ## Trimming -/

/-- Removes the longest run at the start of a list whose members satisfy `p`, and the one at its end. -/
def dropBothWhile (p : Char → Bool) (cs : List Char) : List Char :=
  ((cs.dropWhile p).reverse.dropWhile p).reverse

/-- A text without the characters at its start that satisfy `p`. -/
def dropStartWhile (p : Char → Bool) (s : String) : String :=
  .ofList (s.toList.dropWhile p)

/-- A text without the characters at its end that satisfy `p`. -/
def dropEndWhile (p : Char → Bool) (s : String) : String :=
  .ofList (s.toList.reverse.dropWhile p).reverse

def trimStart (s : String) : String :=
  dropStartWhile isBlank s

def trimEnd (s : String) : String :=
  dropEndWhile isBlank s

def trim (s : String) : String :=
  .ofList (dropBothWhile isBlank s.toList)

theorem trim_eq (s : String) : trim s = trimEnd (trimStart s) := by
  simp [trim, trimEnd, trimStart, dropBothWhile, dropStartWhile, dropEndWhile]

/-! ## Words -/

/-- The pieces of a list between the members that satisfy `p`, empty pieces included. -/
def piecesBetween (p : Char → Bool) : List Char → List (List Char)
  | [] => [[]]
  | c :: cs =>
    if p c then [] :: piecesBetween p cs
    else match piecesBetween p cs with
      | [] => [[c]]
      | piece :: rest => (c :: piece) :: rest

theorem piecesBetween_ne_nil (p : Char → Bool) (cs : List Char) : piecesBetween p cs ≠ [] := by
  cases cs with
  | nil => simp [piecesBetween]
  | cons c cs => unfold piecesBetween; split <;> (try split) <;> simp

/-- The words of a text: its longest pieces without white space. -/
def words (s : String) : List String :=
  ((piecesBetween isBlank s.toList).filter (!·.isEmpty)).map .ofList

/-- A text with every run of white space written as one space, and none around it. -/
def collapse (s : String) : String :=
  " ".intercalate (words s)

/-- A text with all its white space removed. -/
def squeeze (s : String) : String :=
  String.join (words s)

end SourceChunks.Text
