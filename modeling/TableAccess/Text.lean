/-!
# Texts

Names are compared without regard to the case of the letters A to Z; every other character stands for itself.  The
folded form of a text decides the comparison: two texts name the same thing when they fold alike.

Numbers and the names of settings are written in ASCII: digits of a base up to sixteen, of which the letters may have
either case, and the letters, digits, underscores and dashes of a name.  Blanks are those of every script.

Permissions and scopes are written as short texts.  A text outside the grammar is refused, and the refusal quotes it
unchanged.
-/
namespace TableAccess
namespace Text

/-! ## Letter case -/

/-- A text with the letters A to Z in lower case and every other character kept. -/
def lower (s : String) : String := String.ofList (s.toList.map Char.toLower)

def sameFolded (s t : String) : Bool := lower s == lower t

theorem toList_lower (s : String) : (lower s).toList = s.toList.map Char.toLower := by simp [lower]

theorem sameFolded_iff (s t : String) :
    sameFolded s t = true ↔ s.toList.map Char.toLower = t.toList.map Char.toLower := by
  rw [sameFolded, beq_iff_eq, ← String.toList_inj, toList_lower, toList_lower]

/-! ## Digits and names -/

def digit? (base : Nat) (c : Char) : Option Nat :=
  let n :=
    if '0' ≤ c && c ≤ '9' then c.toNat - '0'.toNat
    else if 'a' ≤ c && c ≤ 'f' then c.toNat - 'a'.toNat + 10
    else if 'A' ≤ c && c ≤ 'F' then c.toNat - 'A'.toNat + 10
    else base
  if n < base then some n else none

/-- A character of a name that is written without quotes. -/
def isNameChar (c : Char) : Bool := c.isAlphanum || c == '_' || c == '-'

/-! ## Blanks -/

/-- The space, the controls that move the carriage, and the spaces and separators of other writing. -/
def isBlank (c : Char) : Bool :=
  let n := c.toNat
  (9 ≤ n && n ≤ 13) || n == 0x20 || n == 0x85 || n == 0xA0 || n == 0x1680 || (0x2000 ≤ n && n ≤ 0x200A) ||
    n == 0x2028 || n == 0x2029 || n == 0x202F || n == 0x205F || n == 0x3000

def skipBlank (cs : List Char) : List Char := cs.dropWhile isBlank

def dropEnd (cs : List Char) : List Char := (cs.reverse.dropWhile isBlank).reverse

end Text

/-! ## Texts that name nothing -/

inductive TextError where
  | permission (text : String)
  | scope (text : String)
  deriving DecidableEq, Repr

def TextError.message : TextError → String
  | .permission text => "unknown table permission '" ++ text ++ "'"
  | .scope text => "invalid scope '" ++ text ++ "'"

end TableAccess
