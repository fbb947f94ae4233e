import TableAccess.Decimal.Shortest
/-!
# Numbers written out

A binary64 number is written with the fewest digits that are read as it, always positionally: there is no exponent
however large or small the number is, and a whole number has no point.  Zero keeps its sign.
-/
namespace TableAccess
namespace Decimal

/-- The digits of an integer times a power of ten, written out with no zero at the end of the fraction. -/
def writtenOut (digits : Nat) (exponent : Int) : String :=
  let ds := Nat.toDigits 10 digits
  if 0 ≤ exponent then String.ofList (ds ++ List.replicate exponent.toNat '0')
  else
    let places := (-exponent).toNat
    let padded := List.replicate (places + 1 - ds.length) '0' ++ ds
    let whole := padded.take (padded.length - places)
    let fraction := ((padded.drop (padded.length - places)).reverse.dropWhile (· == '0')).reverse
    String.ofList (if fraction.isEmpty then whole else whole ++ '.' :: fraction)

def floatText (x : Float) : String :=
  if x.isNaN then "NaN"
  else
    let negative := x.toBits >>> 63 == 1
    let size :=
      if x.isInf then "inf"
      else if x == 0.0 then "0"
      else
        let (digits, exponent) := (Binary.ofBits x.toBits).shortest
        writtenOut digits exponent
    if negative then "-" ++ size else size

end Decimal
end TableAccess
