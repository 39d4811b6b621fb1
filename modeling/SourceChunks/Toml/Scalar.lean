-- SUMMARY: Reading the parts of TOML documents: white space, keys, strings, numbers, dates and times.
import SourceChunks.Toml

/-!
# Scalars in TOML texts

Each function reads one form at the start of a text and gives what it stands for together with the
rest of the text, or nothing if the text does not begin with that form.
-/

namespace SourceChunks.Toml

/-! ## White space, comments and line ends -/

def isSpace (c : Char) : Bool := c == ' ' || c == '\t'

def skipSpaces (cs : List Char) : List Char := cs.dropWhile isSpace

/-- Characters that may stand in comments and strings: all but control characters, tabs apart. -/
def isPlain (c : Char) : Bool :=
  c == '\t' || (0x20 ≤ c.toNat && c.toNat != 0x7F)

def afterLineEnd? : List Char → Option (List Char)
  | '\n' :: cs => some cs
  | '\r' :: '\n' :: cs => some cs
  | _ => none

/-- What follows a comment, if there is one. -/
def skipComment : List Char → List Char
  | '#' :: cs => cs.dropWhile isPlain
  | cs => cs

/-- The next line, if nothing but white space and a comment stands before it; the end of the text
counts as an empty line. -/
def nextLine? (cs : List Char) : Option (List Char) :=
  match skipComment (skipSpaces cs) with
  | [] => some []
  | rest => afterLineEnd? rest

/-- Skips spaces, line ends and comments, of which there are at most `fuel`. -/
def skipLines : (fuel : Nat) → List Char → List Char
  | 0, cs => cs
  | fuel + 1, cs =>
    let rest := skipComment (skipSpaces cs)
    match afterLineEnd? rest with
    | some rest => skipLines fuel rest
    | none => rest

def skipBlank (cs : List Char) : List Char := skipLines (cs.length + 1) cs

/-! ## Strings -/

def hexValue? (c : Char) : Option Nat :=
  if c.isDigit then some (c.toNat - '0'.toNat)
  else if 'a' ≤ c ∧ c ≤ 'f' then some (c.toNat - 'a'.toNat + 10)
  else if 'A' ≤ c ∧ c ≤ 'F' then some (c.toNat - 'A'.toNat + 10)
  else none

/-- The character with the code point that `count` hexadecimal digits give. -/
def hexChar? (count : Nat) (cs : List Char) : Option (Char × List Char) := do
  let digits ← (cs.take count).mapM hexValue?
  let code := digits.foldl (fun n digit => 16 * n + digit) 0
  if digits.length = count ∧ code.isValidChar then some (Char.ofNat code, cs.drop count) else none

def escape? : List Char → Option (Char × List Char)
  | 'b' :: cs => some ('\x08', cs)
  | 't' :: cs => some ('\t', cs)
  | 'n' :: cs => some ('\n', cs)
  | 'f' :: cs => some ('\x0c', cs)
  | 'r' :: cs => some ('\r', cs)
  | '\x22' :: cs => some ('\x22', cs)
  | '\\' :: cs => some ('\\', cs)
  | 'u' :: cs => hexChar? 4 cs
  | 'U' :: cs => hexChar? 8 cs
  | _ => none

/-- The rest of a string on one line between double quotes; `read` holds its characters so far from
the last one on. -/
def basicRest? : (fuel : Nat) → (read : List Char) → List Char → Option (String × List Char)
  | 0, _, _ => none
  | _, _, [] => none
  | fuel + 1, read, c :: cs =>
    if c == '\x22' then some (.ofList read.reverse, cs)
    else if c == '\\' then
      match escape? cs with
      | some (char, rest) => basicRest? fuel (char :: read) rest
      | none => none
    else if isPlain c then basicRest? fuel (c :: read) cs
    else none

/-- The rest of a string on one line between single quotes. -/
def literalRest? (cs : List Char) : Option (String × List Char) :=
  let isInside := fun c => isPlain c && c != '\x27'
  match cs.dropWhile isInside with
  | '\x27' :: rest => some (.ofList (cs.takeWhile isInside), rest)
  | _ => none

/-- What follows the spaces, tabs and line ends at the start. -/
def skipBlankLines : List Char → List Char
  | '\r' :: '\n' :: cs => skipBlankLines cs
  | c :: cs => if isSpace c || c == '\n' then skipBlankLines cs else c :: cs
  | [] => []

/-- What follows a backslash that ends a line, and the blank lines and spaces after it. -/
def afterContinuation? (cs : List Char) : Option (List Char) :=
  (afterLineEnd? (skipSpaces cs)).map skipBlankLines

/-- The rest of a string on several lines that three quotes close. Up to two more quotes in front
of those belong to the string. Double quotes admit escape sequences. -/
def multilineRest? (quote : Char) :
    (fuel : Nat) → (read : List Char) → List Char → Option (String × List Char)
  | 0, _, _ => none
  | _, _, [] => none
  | fuel + 1, read, c :: cs =>
    if c == quote then
      let count := min ((c :: cs).takeWhile (· == quote)).length 5
      if 3 ≤ count then
        some (.ofList (List.replicate (count - 3) quote ++ read).reverse, (c :: cs).drop count)
      else multilineRest? quote fuel (c :: read) cs
    else if c == '\\' && quote == '\x22' then
      match escape? cs with
      | some (char, rest) => multilineRest? quote fuel (char :: read) rest
      | none =>
        match afterContinuation? cs with
        | some rest => multilineRest? quote fuel read rest
        | none => none
    else match afterLineEnd? (c :: cs) with
      | some rest => multilineRest? quote fuel ('\n' :: read) rest
      | none => if isPlain c then multilineRest? quote fuel (c :: read) cs else none

/-- A string after its opening quotes on several lines; a line end directly after those does not
count. -/
def multiline? (quote : Char) (cs : List Char) : Option (String × List Char) :=
  multilineRest? quote (cs.length + 1) [] ((afterLineEnd? cs).getD cs)

/-- A string of any of the four forms. -/
def string? : List Char → Option (String × List Char)
  | '\x22' :: '\x22' :: '\x22' :: cs => multiline? '\x22' cs
  | '\x27' :: '\x27' :: '\x27' :: cs => multiline? '\x27' cs
  | '\x22' :: cs => basicRest? (cs.length + 1) [] cs
  | '\x27' :: cs => literalRest? cs
  | _ => none

/-! ## Keys -/

def isBareKeyChar (c : Char) : Bool :=
  c.isAlphanum || c == '-' || c == '_'

/-- One part of a key: bare, or a string on one line. -/
def simpleKey? : List Char → Option (String × List Char)
  | '\x22' :: cs => basicRest? (cs.length + 1) [] cs
  | '\x27' :: cs => literalRest? cs
  | cs =>
    let key := cs.takeWhile isBareKeyChar
    if key.isEmpty then none else some (.ofList key, cs.dropWhile isBareKeyChar)

/-- The parts of a key with dots between them and white space around them. -/
def keyParts? : (fuel : Nat) → List Char → Option (List String × List Char)
  | 0, _ => none
  | fuel + 1, cs => do
    let (part, rest) ← simpleKey? (skipSpaces cs)
    match skipSpaces rest with
    | '.' :: rest =>
      let (parts, rest) ← keyParts? fuel rest
      some (part :: parts, rest)
    | rest => some ([part], rest)

/-- The largest depth of keys and values. -/
def maxDepth : Nat := 79

/-- A key, dotted or not: the parts in front of the last one, and the last one. -/
def key? (cs : List Char) : Option ((List String × String) × List Char) := do
  let (parts, rest) ← keyParts? (cs.length + 1) cs
  let last ← parts.getLast?
  if maxDepth < parts.length then none else some ((parts.dropLast, last), rest)

/-! ## Numbers -/

/-- Digits with single underscores between them, at least one, without the underscores. -/
def digitRun? (isDigit : Char → Bool) : List Char → Option (List Char × List Char)
  | [] => none
  | c :: cs =>
    if isDigit c then
      match cs with
      | '_' :: rest =>
        match digitRun? isDigit rest with
        | some (digits, rest) => some (c :: digits, rest)
        | none => some ([c], cs)
      | cs =>
        match digitRun? isDigit cs with
        | some (digits, rest) => some (c :: digits, rest)
        | none => some ([c], cs)
    else none

/-- The number that digits of a base stand for. -/
def valueIn (base : Nat) (digits : List Char) : Nat :=
  digits.foldl (fun n c => base * n + (hexValue? c).getD 0) 0

/-- An optional sign: whether it is a minus sign. -/
def sign : List Char → Bool × List Char
  | '-' :: cs => (true, cs)
  | '+' :: cs => (false, cs)
  | cs => (false, cs)

/-- Decimal digits without a leading zero. -/
def decimal? (cs : List Char) : Option (List Char × List Char) :=
  match cs with
  | '0' :: rest => some (['0'], rest)
  | cs => digitRun? Char.isDigit cs

/-- The number of integers of 64 bits with a minus sign. -/
def signBit : Nat := 0x8000000000000000

/-- An integer of 64 bits with a sign: decimal with an optional sign, or hexadecimal, octal or binary
without one. -/
def integer? (cs : List Char) : Option (Int × List Char) := do
  let based := fun (base : Nat) (isDigit : Char → Bool) (cs : List Char) => do
    let (digits, rest) ← digitRun? isDigit cs
    if valueIn base digits < signBit then some ((valueIn base digits : Int), rest) else none
  match cs with
  | '0' :: 'x' :: cs => based 16 (fun c => (hexValue? c).isSome) cs
  | '0' :: 'o' :: cs => based 8 (fun c => '0' ≤ c && c ≤ '7') cs
  | '0' :: 'b' :: cs => based 2 (fun c => c == '0' || c == '1') cs
  | cs =>
    let (negative, cs) := sign cs
    let (digits, rest) ← decimal? cs
    let value := valueIn 10 digits
    if negative then if value ≤ signBit then some (-(value : Int), rest) else none
    else if value < signBit then some ((value : Int), rest) else none

def exponent? : List Char → Option (Int × List Char)
  | mark :: cs =>
    if mark == 'e' || mark == 'E' then do
      let (negative, cs) := sign cs
      let (digits, rest) ← digitRun? Char.isDigit cs
      let value : Int := valueIn 10 digits
      some (if negative then -value else value, rest)
    else none
  | [] => none

/-- A number of decimal digits, of which `places` stand after the point, times a power of ten; no
positive number out of range. -/
def scaled? (negative : Bool) (digits : List Char) (places : Nat) (exponent : Int) :
    Option Float :=
  let shift := exponent - places
  -- Beyond this the result is zero or infinite for any digits, so the power need not be exact.
  let bound : Int := 400 + digits.length
  let shift := max (-bound) (min shift bound)
  let magnitude := Float.ofScientific (valueIn 10 digits) (shift < 0) shift.natAbs
  if !negative && magnitude.isInf then none
  else some (if negative then -magnitude else magnitude)

/-- A floating-point number: with a fraction, an exponent or both, or a word for infinity or for no
number. -/
def float? (cs : List Char) : Option (Float × List Char) := do
  let (negative, cs) := sign cs
  match cs with
  | 'i' :: 'n' :: 'f' :: rest => some (if negative then -1 / 0 else 1 / 0, rest)
  | 'n' :: 'a' :: 'n' :: rest => some (0 / 0, rest)
  | cs =>
    let (whole, rest) ← decimal? cs
    match rest with
    | '.' :: rest =>
      let (fraction, rest) ← digitRun? Char.isDigit rest
      let (exponent, rest) := (exponent? rest).getD (0, rest)
      (scaled? negative (whole ++ fraction) fraction.length exponent).map (·, rest)
    | rest =>
      let (exponent, rest) ← exponent? rest
      (scaled? negative whole 0 exponent).map (·, rest)

/-! ## Dates and times -/

/-- A number of exactly `count` digits between two bounds. -/
def fixedDigits? (count low high : Nat) (cs : List Char) : Option (Nat × List Char) :=
  let digits := cs.take count
  let value := valueIn 10 digits
  if digits.length = count ∧ digits.all Char.isDigit ∧ low ≤ value ∧ value ≤ high then
    some (value, cs.drop count)
  else none

def afterChar? (char : Char) : List Char → Option (List Char)
  | [] => none
  | c :: cs => if c == char then some cs else none

def daysIn (year month : Nat) : Nat :=
  if month = 2 then
    if year % 4 = 0 ∧ (year % 100 ≠ 0 ∨ year % 400 = 0) then 29 else 28
  else if month = 4 ∨ month = 6 ∨ month = 9 ∨ month = 11 then 30
  else 31

def afterDate? (cs : List Char) : Option (List Char) := do
  let (year, cs) ← fixedDigits? 4 0 9999 cs
  let (month, cs) ← fixedDigits? 2 1 12 (← afterChar? '-' cs)
  let (_, cs) ← fixedDigits? 2 1 (daysIn year month) (← afterChar? '-' cs)
  return cs

def skipFraction : List Char → List Char
  | '.' :: c :: cs => if c.isDigit then cs.dropWhile Char.isDigit else '.' :: c :: cs
  | cs => cs

/-- What follows a time of day. A minute may have a leap second. -/
def afterTime? (cs : List Char) : Option (List Char) := do
  let (_, cs) ← fixedDigits? 2 0 23 cs
  let (_, cs) ← fixedDigits? 2 0 59 (← afterChar? ':' cs)
  let (_, cs) ← fixedDigits? 2 0 60 (← afterChar? ':' cs)
  return skipFraction cs

/-- What follows an offset from universal time. -/
def afterOffset? : List Char → Option (List Char)
  | 'Z' :: cs | 'z' :: cs => some cs
  | c :: cs =>
    if c == '+' || c == '-' then do
      let (_, cs) ← fixedDigits? 2 0 23 cs
      let (_, cs) ← fixedDigits? 2 0 59 (← afterChar? ':' cs)
      return cs
    else none
  | [] => none

/-- What follows a time after a date, with the mark between them and perhaps an offset. -/
def afterDayTime? : List Char → Option (List Char)
  | mark :: cs =>
    if mark == 'T' || mark == 't' || mark == ' ' then
      (afterTime? cs).map fun rest => (afterOffset? rest).getD rest
    else none
  | [] => none

def dateTime? (cs : List Char) : Option (String × List Char) :=
  let rest := match afterDate? cs with
    | some rest => some ((afterDayTime? rest).getD rest)
    | none => afterTime? cs
  rest.map fun rest => (.ofList (cs.take (cs.length - rest.length)), rest)

end SourceChunks.Toml
