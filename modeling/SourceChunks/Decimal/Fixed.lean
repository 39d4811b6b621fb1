-- SUMMARY: Floating-point numbers as decimals with a fixed number of places.

/-!
# Decimals with fixed places

The decimal with a given number of places that is nearest to a floating-point number, by exact
integer arithmetic. Of two equally near decimals the one with the even last digit is taken.
-/

namespace SourceChunks.Decimal

/-- The integer nearest to a quotient; of two equally near ones the even one. -/
def roundDiv (num den : Nat) : Nat :=
  let quotient := num / den
  let remainder := num % den
  if den < 2 * remainder || (2 * remainder == den && quotient % 2 == 1) then quotient + 1
  else quotient

/-- The leading bit of a significand, which is not stored. -/
def hiddenBit : Nat := 0x10000000000000

/-- The magnitude of a finite floating-point number as `m * 2 ^ e`. -/
def magnitude (x : Float) : Nat × Int :=
  let bits := x.toBits.toNat
  let fraction : Nat := bits % hiddenBit
  let exponent : Nat := bits / hiddenBit % 0x800
  if exponent = 0 then (fraction, -1074) else (hiddenBit + fraction, (exponent : Int) - 1075)

def isNegative (x : Float) : Bool :=
  x.toBits.toNat / 0x8000000000000000 == 1

/-- The number of units of the last of `places` places that is nearest to the magnitude of a
floating-point number. -/
def units (places : Nat) (x : Float) : Nat :=
  let (m, e) := magnitude x
  if 0 ≤ e then m * Nat.pow 2 e.natAbs * Nat.pow 10 places
  else roundDiv (m * Nat.pow 10 places) (Nat.pow 2 e.natAbs)

/-- A number as text, with zeros in front up to a width. -/
def padded (width n : Nat) : String :=
  let digits := toString n
  String.ofList (List.replicate (width - digits.length) '0') ++ digits

/-- A finite floating-point number with `places` places after the point. -/
def fixed (places : Nat) (x : Float) : String :=
  let n := units places x
  (if isNegative x then "-" else "") ++ toString (n / Nat.pow 10 places) ++ "."
    ++ padded places (n % Nat.pow 10 places)

end SourceChunks.Decimal
