-- SUMMARY: Line ranges: windows of an oversized block, and runs of lines that no block covers.
import SourceChunks.Options
import SourceChunks.Text.Lines

/-!
# Windows and runs

Two ways in which lines become chunks. A block of too many lines is cut into windows that share
lines with their neighbours. Lines outside all blocks form runs, which lose the blank lines at
their ends.
-/

namespace SourceChunks

/-- A range of lines, counted from one, both ends included. -/
structure LineRange where
  first : Nat
  last : Nat
  deriving Repr, DecidableEq, Inhabited

namespace LineRange

def contains (range : LineRange) (line : Nat) : Bool :=
  range.first ≤ line && line ≤ range.last

/-! ## Windows -/

/-- Windows of `size` lines from `first` on, each `step` lines after the one before, up to the one
that reaches `last`. -/
def windowsFrom (size step last : Nat) (hstep : 0 < step) (first : Nat) : List LineRange :=
  if last ≤ first + size - 1 then [⟨first, last⟩]
  else ⟨first, first + size - 1⟩ :: windowsFrom size step last hstep (first + step)
termination_by last + 1 - first
decreasing_by omega

/-- The windows of a block of lines: the block itself unless it has more lines than the threshold
for splitting. -/
def windows (o : Options) (block : LineRange) : List LineRange :=
  let last := max block.last block.first
  if last - block.first + 1 ≤ o.splitThreshold ∨ o.chunkSize = 0 then [⟨block.first, last⟩]
  else windowsFrom o.chunkSize o.windowStep last o.windowStep_pos block.first

/-! ## Runs -/

/-- A run that has been read up to `line`, which is not blank. -/
def extendTo (run : Option LineRange) (line : Nat) : LineRange :=
  match run with
  | some run => ⟨run.first, line⟩
  | none => ⟨line, line⟩

/-- The runs in the lines from number `line` on, where `run` spans the lines that are not blank
since the last covered line. -/
def runsFrom (line : Nat) (run : Option LineRange) : List String → List Bool → List LineRange
  | [], _ => run.toList
  | text :: rest, covered =>
    if covered.headD false then run.toList ++ runsFrom (line + 1) none rest covered.tail
    else if Text.isBlankText text then runsFrom (line + 1) run rest covered.tail
    else runsFrom (line + 1) (some (extendTo run line)) rest covered.tail

/-- The longest runs of lines that are not covered, without the blank lines at their ends; runs of
blank lines only are left out. A line without a flag is not covered. -/
def uncovered (lines : List String) (covered : List Bool) : List LineRange :=
  runsFrom 1 none lines covered

end LineRange

end SourceChunks
