-- SUMMARY: Numbers of JSON texts: their grammar, and the integers or floating-point numbers they stand for.
import SourceChunks.Json

/-!
# Numbers in JSON texts

A number is an optional minus sign, digits without a leading zero, and optionally a fraction and an
exponent. Without fraction and exponent it is an integer if it fits 64 bits. Otherwise it is a
floating-point number: as many leading digits as fit 64 bits, scaled by a power of ten. A number
beyond the range of floating-point numbers is none.
-/

namespace SourceChunks.Json

/-- The parts of a number as it is written. -/
structure Numeral where
  negative : Bool
  whole : List Char
  /-- The digits after the point, if there is a point. -/
  fraction : Option (List Char)
  /-- The exponent, if there is one: whether it is negative, and its digits. -/
  exponent : Option (Bool × List Char)
  deriving Repr, DecidableEq, Inhabited

namespace Numeral

/-- The digits at the start of a text, at least one, and the rest. -/
def digits? (cs : List Char) : Option (List Char × List Char) :=
  let digits := cs.takeWhile Char.isDigit
  if digits.isEmpty then none else some (digits, cs.dropWhile Char.isDigit)

/-- The exponent that a text consists of, or none if the text is empty. -/
def exponent? : List Char → Option (Option (Bool × List Char))
  | [] => some none
  | mark :: rest =>
    if mark == 'e' || mark == 'E' then
      let (negative, rest) := match rest with
        | '-' :: rest => (true, rest)
        | '+' :: rest => (false, rest)
        | rest => (false, rest)
      match digits? rest with
      | some (digits, []) => some (some (negative, digits))
      | _ => none
    else none

def ofText? (cs : List Char) : Option Numeral :=
  let (negative, cs) := match cs with
    | '-' :: rest => (true, rest)
    | cs => (false, cs)
  (digits? cs).bind fun (whole, rest) =>
    if whole.head? == some '0' && whole.length != 1 then none
    else match rest with
      | '.' :: rest =>
        (digits? rest).bind fun (fraction, rest) =>
          (exponent? rest).map fun exponent => ⟨negative, whole, some fraction, exponent⟩
      | rest => (exponent? rest).map fun exponent => ⟨negative, whole, none, exponent⟩

/-! ## Floating-point value -/

/-- Appends decimal digits to a number as long as it fits 64 bits; gives the number and how many
digits were taken. -/
def takeDigits (n : Nat) : List Char → Nat × Nat
  | [] => (n, 0)
  | c :: cs =>
    let next := 10 * n + (c.toNat - '0'.toNat)
    if next ≤ maxCount then
      let (result, taken) := takeDigits next cs
      (result, taken + 1)
    else (n, 0)

/-- The largest power of ten that is a floating-point number. -/
def maxPower : Nat := 308

def powerOfTen (n : Nat) : Float := Float.ofScientific 1 false n

/-- Divides by a power of ten, in steps if the power is too large. -/
def scaleDown (x : Float) (n : Nat) : Float :=
  if n ≤ maxPower then x / powerOfTen n
  else if x == 0 then x
  else scaleDown (x / powerOfTen maxPower) (n - maxPower)
termination_by n
decreasing_by
  simp only [maxPower] at *
  omega

/-- A number times a power of ten, unless it is out of range. -/
def scale? (x : Float) (exponent : Int) : Option Float :=
  if exponent < 0 then some (scaleDown x exponent.natAbs)
  else if exponent.natAbs ≤ maxPower then
    let scaled := x * powerOfTen exponent.natAbs
    if scaled.isInf then none else some scaled
  else if x == 0 then some x
  else none

/-- The floating-point number that a numeral stands for, unless it is out of range. -/
def toReal? (numeral : Numeral) : Option Float :=
  let (leading, takenWhole) := takeDigits 0 numeral.whole
  let (significand, takenFraction) := takeDigits leading (numeral.fraction.getD [])
  let exponent : Int := match numeral.exponent with
    | some (true, digits) => -(Options.digitsValue digits : Int)
    | some (false, digits) => Options.digitsValue digits
    | none => 0
  (scale? (Float.ofNat significand)
    (exponent + (numeral.whole.length - takenWhole : Nat) - takenFraction)).map fun x =>
      if numeral.negative then -x else x

/-- The value of a numeral. A negative zero and integers that do not fit 64 bits are floating-point
numbers. -/
def value? (numeral : Numeral) : Option Json :=
  let whole := Options.digitsValue numeral.whole
  if numeral.fraction.isNone && numeral.exponent.isNone then
    if numeral.negative then
      if 0 < whole && whole ≤ 0x8000000000000000 then some (.integer (-whole))
      else numeral.toReal?.map .real
    else if whole ≤ maxCount then some (.integer whole)
    else numeral.toReal?.map .real
  else numeral.toReal?.map .real

end Numeral

end SourceChunks.Json
