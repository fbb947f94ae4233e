/-!
# Decimal numbers

A number that is written in decimal is a sign, an integer of any length and a power of ten.  Its value in binary64 is
the nearest one, and a number beyond the largest finite value is infinite.
-/
namespace TableAccess

/-- The number `digits * 10 ^ exponent`, with a sign. -/
structure Decimal where
  negative : Bool
  digits   : Nat
  exponent : Int
  deriving DecidableEq, Repr

namespace Decimal

def natOfDigits (ds : List Char) : Nat := ds.foldl (fun n c => 10 * n + (c.toNat - '0'.toNat)) 0

def fits (n : Int) : Bool := decide (-0x8000000000000000 ≤ n) && decide (n ≤ 0x7FFFFFFFFFFFFFFF)

def splitSign : List Char → Bool × List Char
  | '-' :: cs => (true, cs)
  | '+' :: cs => (false, cs)
  | cs => (false, cs)

def ofParts (negative : Bool) (whole fraction : List Char) (exponent : Int) : Decimal :=
  ⟨negative, natOfDigits (whole ++ fraction), exponent - fraction.length⟩

/-- How many digits stand before the point when the number is written out; negative when zeros follow the point. -/
def magnitude (d : Decimal) : Int := (Nat.toDigits 10 d.digits).length + d.exponent

/-- The nearest binary64 value.  No finite value has more than 310 digits before its point, and a number that begins
330 places after the point is nearest to zero. -/
def toFloat (d : Decimal) : Float :=
  let size :=
    if d.digits = 0 || d.magnitude < -330 then 0.0
    else if d.magnitude > 310 then 1.0 / 0.0
    else Float.ofScientific d.digits (d.exponent < 0) d.exponent.natAbs
  if d.negative then -size else size

end Decimal
end TableAccess
