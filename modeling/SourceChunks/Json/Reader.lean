-- SUMMARY: Reading JSON texts: tokens, and values built from tokens.
import SourceChunks.Json.Number

/-!
# Reading JSON texts

A text is cut into tokens, and values are built from the tokens with a stack of the containers that
are still open. The format is strict: four characters of white space between tokens, no control
characters in strings, no comma before a closing bracket, one value and nothing after it. Values
that are kept nest up to a limit, hold no number out of range, and have surrogates in pairs only;
values that are only skimmed know none of these limits, but the keys that are looked at do.
-/

namespace SourceChunks.Json

/-! ## Tokens -/

inductive Token where
  | openObject
  | closeObject
  | openArray
  | closeArray
  | comma
  | colon
  /-- A string, a number or one of the three words. -/
  | scalar (value : Json)
  /-- A string with an unpaired surrogate, which stands for no text and can be skimmed only. -/
  | brokenString
  deriving Inhabited

/-- White space between tokens. -/
def isSpace (c : Char) : Bool :=
  c == ' ' || c == '\t' || c == '\n' || c == '\r'

/-- The token that a single character is. -/
def punctuation? (c : Char) : Option Token :=
  if c == '\x7b' then some .openObject
  else if c == '\x7d' then some .closeObject
  else if c == '[' then some .openArray
  else if c == ']' then some .closeArray
  else if c == ',' then some .comma
  else if c == ':' then some .colon
  else none

/-- What is asked of a text: to keep its values, or only to skim them. -/
inductive Reading where
  | keep
  | skim
  deriving Repr, DecidableEq, Inhabited

/-- The value of a run of other characters: one of the three words, or a number. A number out of
range can be skimmed only, and leaves nothing. -/
def wordValue? (reading : Reading) (word : List Char) : Option Json :=
  if word == "null".toList then some .null
  else if word == "true".toList then some (.bool true)
  else if word == "false".toList then some (.bool false)
  else (Numeral.ofText? word).bind fun numeral =>
    numeral.value? <|> if reading = .skim then some .null else none

def hexDigit? (c : Char) : Option Nat :=
  if c.isDigit then some (c.toNat - '0'.toNat)
  else if 'a' ≤ c ∧ c ≤ 'f' then some (c.toNat - 'a'.toNat + 10)
  else if 'A' ≤ c ∧ c ≤ 'F' then some (c.toNat - 'A'.toNat + 10)
  else none

def hexNumber? (a b c d : Char) : Option Nat := do
  return (((← hexDigit? a) * 16 + (← hexDigit? b)) * 16 + (← hexDigit? c)) * 16 + (← hexDigit? d)

/-- The character of an escape sequence of one letter. -/
def escaped? (c : Char) : Option Char :=
  if c == '\x22' || c == '\\' || c == '/' then some c
  else if c == 'b' then some '\x08'
  else if c == 'f' then some '\x0c'
  else if c == 'n' then some '\n'
  else if c == 'r' then some '\r'
  else if c == 't' then some '\t'
  else none

/-- The character that two surrogates stand for. -/
def surrogatePair? (high low : Nat) : Option Char :=
  if 0xD800 ≤ high ∧ high < 0xDC00 ∧ 0xDC00 ≤ low ∧ low < 0xE000 then
    some (Char.ofNat (0x10000 + (high - 0xD800) * 0x400 + (low - 0xDC00)))
  else none

/-- The character that a surrogate stands for together with the escape sequence after it. -/
def pairedWith? (high : Nat) : List Char → Option Char
  | '\\' :: 'u' :: a :: b :: c :: d :: _ => (hexNumber? a b c d).bind (surrogatePair? high)
  | _ => none

/-- A character that is no surrogate. -/
def codePoint? (n : Nat) : Option Char :=
  if 0xD800 ≤ n ∧ n < 0xE000 then none else some (Char.ofNat n)

/-- Where a reader of tokens stands. -/
inductive Mode where
  | between
  /-- In a word or number, whose characters so far are given from the last one on. -/
  | word (read : List Char)
  /-- In a string, whose characters so far are given from the last one on; `broken` says that it has
  had an unpaired surrogate. -/
  | string (read : List Char) (broken : Bool)
  deriving Inhabited

def stringToken (read : List Char) (broken : Bool) : Token :=
  if broken then .brokenString else .scalar (.string (.ofList read.reverse))

/-- The tokens of a text, where `tokens` are those read so far, from the last one on. -/
def tokensFrom (reading : Reading) (tokens : List Token) : Mode → List Char → Option (List Token)
  | .between, [] => some tokens.reverse
  | .between, c :: cs =>
    if isSpace c then tokensFrom reading tokens .between cs
    else if c == '\x22' then tokensFrom reading tokens (.string [] false) cs
    else match punctuation? c with
      | some token => tokensFrom reading (token :: tokens) .between cs
      | none => tokensFrom reading tokens (.word [c]) cs
  | .word read, [] => (wordValue? reading read.reverse).map fun value => (.scalar value :: tokens).reverse
  | .word read, c :: cs =>
    if isSpace c then
      match wordValue? reading read.reverse with
      | some value => tokensFrom reading (.scalar value :: tokens) .between cs
      | none => none
    else match punctuation? c with
      | some token =>
        match wordValue? reading read.reverse with
        | some value => tokensFrom reading (token :: .scalar value :: tokens) .between cs
        | none => none
      | none => tokensFrom reading tokens (.word (c :: read)) cs
  | .string _ _, [] => none
  | .string read broken, '\\' :: 'u' :: a :: b :: c :: d :: cs =>
    match hexNumber? a b c d with
    | none => none
    | some unit =>
      match codePoint? unit, pairedWith? unit cs with
      | some char, _ => tokensFrom reading tokens (.string (char :: read) broken) cs
      | none, some char => tokensFrom reading tokens (.string (char :: read) broken) (cs.drop 6)
      | none, none =>
        if reading = .skim then tokensFrom reading tokens (.string read true) cs else none
  | .string read broken, '\\' :: c :: cs =>
    match escaped? c with
    | some char => tokensFrom reading tokens (.string (char :: read) broken) cs
    | none => none
  | .string read broken, c :: cs =>
    if c == '\x22' then tokensFrom reading (stringToken read broken :: tokens) .between cs
    else if c == '\\' || c.toNat < 0x20 then none
    else tokensFrom reading tokens (.string (c :: read) broken) cs
termination_by _ cs => cs.length

/-! ## Values -/

/-- A container that is still open, with what it holds so far from the last item on. -/
inductive Frame where
  | array (items : List Json)
  /-- An object in which a value for `key` is being read. -/
  | object (members : List (String × Json)) (key : String)
  deriving Inhabited

/-- What may come next. -/
inductive Expected where
  | value
  /-- A value, or the end of the array just opened. -/
  | valueOrEnd
  /-- A key of the object with these members. -/
  | key (members : List (String × Json))
  /-- A key, or the end of the object just opened. -/
  | keyOrEnd
  | colon (members : List (String × Json)) (key : String)
  /-- A comma or the end of the innermost container, after a value in it. -/
  | commaOrEnd (last : Json)
  deriving Inhabited

/-- A reader of values: the open containers, the innermost first, and what may come next. -/
structure ReaderState where
  frames : List Frame := []
  expected : Expected := .value
  deriving Inhabited

/-- The largest number of containers that may be open in a value that is kept. -/
def maxDepth : Nat := 127

/-- Whether one more container may be opened inside `depth` others. -/
def Reading.admits (reading : Reading) (depth : Nat) : Bool :=
  reading == .skim || depth < maxDepth

/-- Takes a token where a value may stand. -/
def ReaderState.value? (reading : Reading) (frames : List Frame) (token : Token) : Option ReaderState :=
  match token with
  | .scalar value => some ⟨frames, .commaOrEnd value⟩
  | .brokenString => some ⟨frames, .commaOrEnd .null⟩
  | .openArray =>
    if reading.admits frames.length then some ⟨.array [] :: frames, .valueOrEnd⟩ else none
  | .openObject =>
    if reading.admits frames.length then some ⟨.object [] "" :: frames, .keyOrEnd⟩ else none
  | _ => none

/-- Takes a key that stands for no text. The keys of the outermost object are looked at, and may not
be such keys; further inside they are only skimmed. -/
def ReaderState.skippedKey? (frames : List Frame) (members : List (String × Json)) :
    Option ReaderState :=
  if 1 < frames.length then some ⟨frames, .colon members ""⟩ else none

def ReaderState.step? (reading : Reading) (state : ReaderState) (token : Token) : Option ReaderState :=
  match state.expected, state.frames, token with
  | .value, frames, token => value? reading frames token
  | .valueOrEnd, _ :: frames, .closeArray => some ⟨frames, .commaOrEnd (.array [])⟩
  | .valueOrEnd, frames, token => value? reading frames token
  | .keyOrEnd, _ :: frames, .closeObject => some ⟨frames, .commaOrEnd (.object [])⟩
  | .keyOrEnd, frames, .scalar (.string key) => some ⟨frames, .colon [] key⟩
  | .key members, frames, .scalar (.string key) => some ⟨frames, .colon members key⟩
  | .keyOrEnd, frames, .brokenString => skippedKey? frames []
  | .key members, frames, .brokenString => skippedKey? frames members
  | .colon members key, _ :: frames, .colon => some ⟨.object members key :: frames, .value⟩
  | .commaOrEnd last, .array items :: frames, .comma => some ⟨.array (last :: items) :: frames, .value⟩
  | .commaOrEnd last, .array items :: frames, .closeArray =>
    some ⟨frames, .commaOrEnd (.array (last :: items).reverse)⟩
  | .commaOrEnd last, .object members key :: frames, .comma =>
    some ⟨.object [] "" :: frames, .key ((key, last) :: members)⟩
  | .commaOrEnd last, .object members key :: frames, .closeObject =>
    some ⟨frames, .commaOrEnd (.object ((key, last) :: members).reverse)⟩
  | _, _, _ => none

/-- The value that has been read, if nothing is open any more. -/
def ReaderState.result? (state : ReaderState) : Option Json :=
  match state.frames, state.expected with
  | [], .commaOrEnd value => some value
  | _, _ => none

/-- The value of a JSON text, as far as it is asked for. -/
def read? (reading : Reading) (text : String) : Option Json := do
  let tokens ← tokensFrom reading [] .between text.toList
  let state ← tokens.foldlM (ReaderState.step? reading) ({} : ReaderState)
  state.result?

def parse? (text : String) : Option Json := read? .keep text

/-- The value of a JSON text of which not all is used. -/
def skim? (text : String) : Option Json := read? .skim text

end SourceChunks.Json
