/-!
# The shortest decimal of a binary number

A finite binary64 value is `m * 2 ^ q`.  The numbers that are read as this value form an interval around it, and among
the decimals in the interval those with the fewest digits are sought; of two, the nearer one, and on a tie the larger.

The search looks at the value's two neighbours on the grid of one digit, of two, and so on.  All comparisons are
between natural numbers, so nothing is rounded.
-/
namespace TableAccess
namespace Decimal

/-- The value `m * 2 ^ q` of a finite, positive binary64 number. -/
structure Binary where
  m : Nat
  q : Int
  /-- The gap to the next smaller number is half the gap to the next larger one. -/
  narrowBelow : Bool
  deriving DecidableEq, Repr

namespace Binary

def ofBits (bits : UInt64) : Binary :=
  let e := ((bits >>> 52) &&& 0x7FF).toNat
  let f := (bits &&& 0xFFFFFFFFFFFFF).toNat
  if e = 0 then ⟨f, -1074, false⟩ else ⟨0x10000000000000 + f, (e : Int) - 1075, f == 0 && e > 1⟩

def compareScaled (d : Nat) (k : Int) (n : Nat) (j : Int) : Ordering :=
  compare (d * Nat.pow 10 k.toNat * Nat.pow 2 (-j).toNat) (n * Nat.pow 2 j.toNat * Nat.pow 10 (-k).toNat)

/-- Whether `d * 10 ^ k` is read as the value: it lies no further than half way to either neighbour, and half way
itself belongs to the number whose `m` is even. -/
def readsBack (x : Binary) (d : Nat) (k : Int) : Bool :=
  let low := compareScaled d k (4 * x.m - if x.narrowBelow then 1 else 2) (x.q - 2)
  let high := compareScaled d k (4 * x.m + 2) (x.q - 2)
  let even := x.m % 2 == 0
  (low == .gt || (even && low == .eq)) && (high == .lt || (even && high == .eq))

def floorAt (x : Binary) (k : Int) : Nat :=
  x.m * Nat.pow 2 x.q.toNat * Nat.pow 10 (-k).toNat / (Nat.pow 2 (-x.q).toNat * Nat.pow 10 k.toNat)

/-- The least power of ten above the value.  The value is a positive multiple of `10 ^ -1074`. -/
def scale (x : Binary) : Int := (Nat.toDigits 10 (x.floorAt (-1074))).length - 1074

/-- The neighbour on the grid of `10 ^ k` that is read as the value, the nearer if both are. -/
def atGrid? (x : Binary) (k : Int) : Option Nat :=
  let d := x.floorAt k
  match x.readsBack d k, x.readsBack (d + 1) k with
  | true, true => some (if compareScaled (2 * d + 1) k (2 * x.m) x.q == .gt then d else d + 1)
  | true, false => some d
  | false, true => some (d + 1)
  | false, false => none

/-- The shortest decimal that is read as the value, as an integer and a power of ten. -/
def shortest (x : Binary) : Nat × Int :=
  let found := (List.range 17).findSome? fun (i : Nat) =>
    let k := x.scale - (i + 1)
    (x.atGrid? k).map fun d => (d, k)
  found.getD (x.floorAt (-1074), -1074)

end Binary
end Decimal
end TableAccess
