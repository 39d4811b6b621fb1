-- SUMMARY: Chunking options: window size and overlap in lines, their limits, and options from settings.
import SourceChunks.Error
import SourceChunks.Text.Blank

/-!
# Chunking options

How many lines a chunk has where a block must be split, and how many of them it shares with the
next. Options can be validated, and they can be read from two settings given as texts, which never
fails.
-/

namespace SourceChunks

/-- The largest number of lines or bytes that is told apart: larger ones are reported as this one. -/
def maxCount : Nat := 0xFFFFFFFFFFFFFFFF

/-- Line-based chunking options. -/
structure Options where
  /-- The number of lines of a window of a split block. -/
  chunkSize : Nat := 75
  /-- The number of lines that consecutive windows share. -/
  chunkOverlap : Nat := 10
  deriving Repr, DecidableEq, Inhabited

namespace Options

/-- A block is split only if it has more lines than this many windows. -/
def splitFactor : Nat := 3

/-- The largest window size that settings can ask for. -/
def maxChunkSize : Nat := 10000

/-- The number of lines above which a block is split. -/
def splitThreshold (o : Options) : Nat :=
  min (o.chunkSize * splitFactor) maxCount

/-- The distance between the first lines of consecutive windows. -/
def windowStep (o : Options) : Nat :=
  max (o.chunkSize - o.chunkOverlap) 1

theorem windowStep_pos (o : Options) : 0 < o.windowStep := by
  unfold windowStep
  omega

/-- Windows have lines, and share fewer than all of them. -/
def validate (o : Options) : Except Error Options :=
  if o.chunkSize = 0 then .error (.invalidOptions .emptySize)
  else if o.chunkSize ≤ o.chunkOverlap then
    .error (.invalidOptions (.overlapTooLarge o.chunkOverlap o.chunkSize))
  else .ok o

/-! ## Settings -/

/-- The number that decimal digits stand for, read from the left. -/
def digitsValue (digits : List Char) : Nat :=
  digits.foldl (fun n c => 10 * n + (c.toNat - '0'.toNat)) 0

/-- Reads a count: decimal digits with an optional plus sign, at most `maxCount`. -/
def count? (s : String) : Option Nat :=
  let digits := match s.toList with
    | '+' :: rest => rest
    | cs => cs
  if digits.isEmpty || digits.any (!·.isDigit) || maxCount < digitsValue digits then none
  else some (digitsValue digits)

/-- Reads a setting, which may have white space around it; one that is missing or cannot be read
leaves the default. -/
def settingOr (default : Nat) (raw : Option String) : Nat :=
  (raw.bind fun s => count? (Text.trim s)).getD default

/-- Options from two settings. The size is brought into its limits, and an overlap that does not
fit the size is replaced by none. -/
def ofSettings (size overlap : Option String) : Options :=
  let defaults : Options := {}
  let chunkSize := min (max (settingOr defaults.chunkSize size) 1) maxChunkSize
  let options : Options := ⟨chunkSize, settingOr defaults.chunkOverlap overlap⟩
  match options.validate with
  | .ok valid => valid
  | .error _ => ⟨chunkSize, 0⟩

end Options

end SourceChunks
