/-! Number literals as stories write them. A literal is an integer or a float by its
text alone: a float shows a point or an exponent, and an integer shows neither.

A floating point number is a sign, a mantissa and a power of two, as its 64 bits describe it.
Its text is the shortest decimal that reads back as the number, and of those the nearest one.
All arithmetic is exact: a number and the interval of reals that round to it are compared with
a grid of decimals over a common denominator. -/
namespace ScopeTyping

/-- A number of the binary 64-bit format; a finite one is mantissa times two to the
exponent. -/
inductive Binary64 where
  | nan
  | infinite (negative : Bool)
  | finite (negative : Bool) (mantissa : Nat) (exponent : Int)
  deriving DecidableEq

namespace Binary64

/-- How many bits of a mantissa are written down. -/
def fractionBits : Nat := 52

/-- The leading bit of a mantissa, which is not written down. -/
def leadingBit : Nat := Nat.pow 2 fractionBits

/-- The exponent of the smallest numbers, which lie on an even grid around zero. -/
def leastExponent : Int := -1074

/-- The number that 64 bits describe: one of sign, eleven of exponent, the rest fraction. -/
def ofBits (bits : Nat) : Binary64 :=
  let negative := bits.testBit 63
  let exponent : Nat := bits / leadingBit % Nat.pow 2 11
  let fraction := bits % leadingBit
  if exponent = 2047 then
    if fraction = 0 then .infinite negative else .nan
  else if exponent = 0 then .finite negative fraction leastExponent
  else .finite negative (leadingBit + fraction) (leastExponent + (exponent - 1 : Nat))

end Binary64

/-- The decimal `0.d₁d₂… · 10 ^ point`. -/
structure Decimal where
  digits : List Char
  point : Int
  deriving DecidableEq

namespace Binary64

/-- How many quarters of a unit in the last place lie between a number and the lower
end of the reals that round to it: half as many below a power of two, where the
grid of the numbers gets finer. -/
def gapBelow (mantissa : Nat) (exponent : Int) : Nat :=
  if mantissa = leadingBit ∧ leastExponent < exponent then 1 else 2

/-- How many digits a positive number has in front of the decimal point, counting
below zero for the zeros behind it. No positive number is as small as `10 ^ -330`. -/
def magnitude (mantissa : Nat) (exponent : Int) : Int :=
  let enlarged := mantissa * Nat.pow 2 exponent.toNat * Nat.pow 10 330 / Nat.pow 2 (-exponent).toNat
  (Nat.toDigits 10 enlarged).length - 330

/-- The multiple of `10 ^ grid` that reads back as the number, if there is one; of two
the nearer, and the larger if they are equally near. Only the two neighbours of the
number have to be looked at, since the interval holds the number. -/
def onGrid? (mantissa : Nat) (exponent grid : Int) : Option Nat :=
  let step := Nat.pow 10 grid.toNat * Nat.pow 2 (2 - exponent).toNat
  let quarter := Nat.pow 2 (exponent - 2).toNat * Nat.pow 10 (-grid).toNat
  let value := 4 * mantissa * quarter
  let lowest := (4 * mantissa - gapBelow mantissa exponent) * quarter
  let highest := (4 * mantissa + 2) * quarter
  let readsBack (count : Nat) : Bool :=
    if mantissa % 2 = 0 then lowest ≤ count * step && count * step ≤ highest
    else lowest < count * step && count * step < highest
  let below := value / step
  let above := below + 1
  match readsBack below, readsBack above with
  | true, true => if value - below * step < above * step - value then some below else some above
  | true, false => some below
  | false, true => some above
  | false, false => none

/-- The shortest decimal that reads back as a positive number: the first grid with a
hit, from one digit on. Seventeen digits always suffice. -/
def shortest (mantissa : Nat) (exponent : Int) : Decimal :=
  let before := magnitude mantissa exponent
  let hit? (index : Nat) : Option Decimal :=
    let grid := before - (index + 1)
    (onGrid? mantissa exponent grid).map fun count =>
      let digits := Nat.toDigits 10 count
      ⟨(digits.reverse.dropWhile (· == '0')).reverse, digits.length + grid⟩
  ((List.range 17).findSome? hit?).getD ⟨[], 0⟩

end Binary64

/-- A decimal without an exponent: zeros fill the places between the digits and the point. -/
def Decimal.positional (decimal : Decimal) : String :=
  let zeros (count : Int) : List Char := List.replicate count.toNat '0'
  let shown : List Char :=
    if decimal.point ≤ 0 then '0' :: '.' :: (zeros (-decimal.point) ++ decimal.digits)
    else if decimal.digits.length ≤ decimal.point then
      decimal.digits ++ zeros (decimal.point - decimal.digits.length)
    else decimal.digits.take decimal.point.toNat ++ '.' :: decimal.digits.drop decimal.point.toNat
  String.ofList shown

/-- A floating point number in the fewest digits that read back, never with an exponent. -/
def Binary64.text : Binary64 → String
  | .nan => "NaN"
  | .infinite negative => (if negative then "-" else "") ++ "inf"
  | .finite negative mantissa exponent =>
    (if negative then "-" else "") ++
      (if mantissa = 0 then "0" else (shortest mantissa exponent).positional)

namespace Literal

/-- Whether a number literal is written as a float. -/
def isFloat (text : String) : Bool := text.toList.any fun c => c == '.' || c == 'e' || c == 'E'

/-- The literal of an integer. -/
def ofInt (value : Int) : String := toString value

/-- The literal of a floating point number; `.0` marks one that would read as an integer. -/
def ofBinary64 (value : Binary64) : String :=
  if isFloat value.text then value.text else value.text ++ ".0"

/-- The literal of a string: its text between quotation marks. -/
def ofString (text : String) : String := "\"" ++ text ++ "\""

/-- The literal of a truth value. -/
def ofBool (value : Bool) : String := if value then "true" else "false"

/-- The literal of a regular expression: its pattern between slashes. -/
def ofPattern (pattern : String) : String := "/" ++ pattern ++ "/"

theorem isFloat_ofBinary64 (value : Binary64) : isFloat (ofBinary64 value) = true := by
  unfold ofBinary64
  split
  · assumption
  · simp [isFloat]

end Literal

end ScopeTyping
