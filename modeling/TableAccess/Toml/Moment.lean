/-!
# Dates and times of a TOML document

A moment is a date, a time, or both with an offset from the common time or without.  It has one written form, whatever
letters and separators it was given with: `T` between date and time, `Z` for no offset, and no zeros at the end of a
fraction of a second, of which nine places count.

A day must exist in its month, and a second may be a leap second.
-/
namespace TableAccess
namespace Toml

/-- How far a clock is from the common time. -/
inductive Offset where
  | zero
  | minutes (negative : Bool) (n : Nat)
  deriving DecidableEq, Repr

structure Date where
  year  : Nat
  month : Nat
  day   : Nat
  deriving DecidableEq, Repr

structure Time where
  hour     : Nat
  minute   : Nat
  second   : Option Nat
  fraction : Option (List Char)
  deriving DecidableEq, Repr

structure Moment where
  date   : Option Date
  time   : Option Time
  offset : Option Offset
  deriving DecidableEq, Repr

def daysInMonth (year month : Nat) : Nat :=
  if month == 2 then if year % 4 == 0 && (year % 100 != 0 || year % 400 == 0) then 29 else 28
  else if month == 4 || month == 6 || month == 9 || month == 11 then 30
  else 31

def twoDigits? (a b : Char) (most : Nat) : Option Nat :=
  if a.isDigit && b.isDigit then
    let n := 10 * (a.toNat - '0'.toNat) + (b.toNat - '0'.toNat)
    if n ≤ most then some n else none
  else none

def date? : List Char → Option (Date × List Char)
  | a :: b :: c :: d :: '-' :: e :: f :: '-' :: g :: h :: cs => do
    let year := 100 * (← twoDigits? a b 99) + (← twoDigits? c d 99)
    let month ← twoDigits? e f 12
    let day ← twoDigits? g h (daysInMonth year month)
    guard (1 ≤ month && 1 ≤ day)
    some (⟨year, month, day⟩, cs)
  | _ => none

def seconds? : List Char → Option (Option Nat × Option (List Char) × List Char)
  | ':' :: a :: b :: '.' :: cs => do
    let second ← twoDigits? a b 60
    let ds := cs.takeWhile Char.isDigit
    guard !ds.isEmpty
    some (some second, some (ds.take 9), cs.dropWhile Char.isDigit)
  | ':' :: a :: b :: cs => (twoDigits? a b 60).map fun second => (some second, none, cs)
  | ':' :: _ => none
  | cs => some (none, none, cs)

def time? : List Char → Option (Time × List Char)
  | a :: b :: ':' :: c :: d :: cs => do
    let hour ← twoDigits? a b 23
    let minute ← twoDigits? c d 59
    let (second, fraction, rest) ← seconds? cs
    some (⟨hour, minute, second, fraction⟩, rest)
  | _ => none

def offset? : List Char → Option (Option Offset)
  | [] => some none
  | ['Z'] => some (some .zero)
  | ['z'] => some (some .zero)
  | [s, a, b, ':', c, d] => do
    guard (s == '+' || s == '-')
    let n := 60 * (← twoDigits? a b 23) + (← twoDigits? c d 59)
    some (some (.minutes (s == '-' && n != 0) n))
  | _ => none

def moment? (cs : List Char) : Option Moment :=
  match date? cs with
  | some (date, []) => some ⟨some date, none, none⟩
  | some (date, c :: rest) => do
    guard (c == 'T' || c == 't' || c == ' ')
    let (time, rest) ← time? rest
    some ⟨some date, some time, ← offset? rest⟩
  | none =>
    match time? cs with
    | some (time, []) => some ⟨none, some time, none⟩
    | _ => none

def padded (width n : Nat) : List Char :=
  let ds := Nat.toDigits 10 n
  List.replicate (width - ds.length) '0' ++ ds

def Date.text (d : Date) : List Char := padded 4 d.year ++ '-' :: padded 2 d.month ++ '-' :: padded 2 d.day

/-- The written form of a fraction of a second: no zeros at its end, but one digit at least. -/
def fractionText (ds : List Char) : List Char :=
  match (ds.reverse.dropWhile (· == '0')).reverse with
  | [] => ['.', '0']
  | ds => '.' :: ds

def Time.text (t : Time) : List Char :=
  padded 2 t.hour ++ ':' :: padded 2 t.minute ++ (t.second.map fun s => ':' :: padded 2 s).getD [] ++
    (t.fraction.map fractionText).getD []

def Offset.text : Offset → List Char
  | .zero => ['Z']
  | .minutes negative n => (if negative then '-' else '+') :: padded 2 (n / 60) ++ ':' :: padded 2 (n % 60)

def Moment.text (m : Moment) : String :=
  let date := (m.date.map Date.text).getD []
  let time := (m.time.map Time.text).getD []
  let mark := if m.date.isSome && m.time.isSome then ['T'] else []
  String.ofList (date ++ mark ++ time ++ (m.offset.map Offset.text).getD [])

end Toml
end TableAccess
