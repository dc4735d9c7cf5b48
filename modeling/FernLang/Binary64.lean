/-!
Binary floating-point numbers of 64 bits, held exactly: a finite one is a significand below
`2 ^ 53` times a power of two from `2 ^ (-1074)` to `2 ^ 971`. Decimals are rounded to the nearest
of them, a tie going to the even significand. Written out, a number has the fewest digits
that no other number of this kind is nearer to.
-/

namespace FernLang

inductive Binary64 where
  | finite (negative : Bool) (significand : Nat) (exponent : Int)
  | infinite (negative : Bool)
  | nan
deriving DecidableEq

namespace Binary64

/-- The quotient rounded to the nearest whole number, a tie to the even one. -/
def roundQuotient (numerator denominator : Nat) : Nat :=
  let quotient := numerator / denominator
  let twice := 2 * (numerator % denominator)
  if denominator < twice || (twice == denominator && quotient % 2 == 1) then quotient + 1
  else quotient

def scaled (numerator denominator : Nat) (exponent : Int) : Nat × Nat :=
  if 0 ≤ exponent then (numerator, denominator * Nat.pow 2 exponent.toNat)
  else (numerator * Nat.pow 2 (-exponent).toNat, denominator)

/-- The exponent at which a positive fraction has a significand of 53 bits, or the least one. -/
def exponentFor (numerator denominator : Nat) : Int :=
  let low := max ((numerator.log2 : Int) - denominator.log2 - 53) (-1074)
  let (top, bottom) := scaled numerator denominator low
  if Nat.pow 2 53 ≤ top / bottom then low + 1 else low

def ofFraction (negative : Bool) (numerator denominator : Nat) : Binary64 :=
  let exponent := exponentFor numerator denominator
  let (top, bottom) := scaled numerator denominator exponent
  let significand := roundQuotient top bottom
  let (significand, exponent) :=
    if significand == Nat.pow 2 53 then (Nat.pow 2 52, exponent + 1) else (significand, exponent)
  if 971 < exponent then .infinite negative else .finite negative significand exponent

def ofDecimal (negative : Bool) (digits : Nat) (exponent : Int) : Binary64 :=
  let size := (Nat.toDigits 10 digits).length + exponent
  if digits == 0 || size < -400 then .finite negative 0 (-1074)
  else if 400 < size then .infinite negative
  else if 0 ≤ exponent then ofFraction negative (digits * Nat.pow 10 exponent.toNat) 1
  else ofFraction negative digits (Nat.pow 10 (-exponent).toNat)

def truncate (negative : Bool) (significand : Nat) (exponent : Int) : Int :=
  let size : Nat :=
    if 0 ≤ exponent then significand * Nat.pow 2 exponent.toNat
    else significand / Nat.pow 2 (-exponent).toNat
  if negative then -(size : Int) else size

def isZero : Binary64 → Bool
  | .finite _ significand _ => significand == 0
  | _ => false

def powerOfTen (exponent : Int) : Nat × Nat :=
  if 0 ≤ exponent then (Nat.pow 10 exponent.toNat, 1) else (1, Nat.pow 10 (-exponent).toNat)

def leadingExponent (numerator denominator : Nat) : Nat → Int → Int
  | 0, start => start
  | steps + 1, start =>
      let (top, bottom) := powerOfTen start
      if top * denominator ≤ numerator * bottom then start
      else leadingExponent numerator denominator steps (start - 1)

/-- The shortest decimal of a positive number: its digits as a whole number and the power of ten
of the last digit. All four quarters of the significand's unit are whole, so the ends of the
interval of reals that round to the number are too. -/
def shortest (significand : Nat) (exponent : Int) : Nat × Int :=
  let (unitTop, unitBottom) := scaled 1 1 (2 - exponent)
  let value := 4 * significand
  let below := if significand == Nat.pow 2 52 && -1074 < exponent then value - 1 else value - 2
  let above := value + 2
  let inclusive := significand % 2 == 0
  let lead := leadingExponent (value * unitTop) unitBottom 640 309
  let inside (candidate : Nat) (power : Int) : Bool :=
    let (top, bottom) := powerOfTen power
    let point := candidate * top * unitBottom
    let low := below * unitTop * bottom
    let high := above * unitTop * bottom
    if inclusive then low ≤ point && point ≤ high else low < point && point < high
  let attempt (count : Nat) : Option (Nat × Int) :=
    let power := lead - count
    let (top, bottom) := powerOfTen power
    let numerator := value * unitTop * bottom
    let denominator := unitBottom * top
    let near := roundQuotient numerator denominator
    let floor := numerator / denominator
    let far := if near == floor then floor + 1 else floor
    if inside near power then some (near, power)
    else if inside far power then some (far, power)
    else none
  ((List.range 17).findSome? attempt).getD (0, 0)

def trimZeros (digits : List Char) : List Char × Nat :=
  let kept := (digits.reverse.dropWhile (· == '0')).reverse
  (kept, digits.length - kept.length)

/-- Digits with a point after the first `point` of them; numbers from `10 ^ (-4)` to below `10 ^ 16`
are written in full, others with an exponent of at least two digits. -/
def layout (digits : List Char) (point : Int) : List Char :=
  if -4 < point && point ≤ 16 then
    if point ≤ 0 then
      '0' :: '.' :: (List.replicate (-point).toNat '0' ++ digits)
    else if digits.length ≤ point.toNat then
      digits ++ List.replicate (point.toNat - digits.length) '0' ++ ['.', '0']
    else digits.take point.toNat ++ '.' :: digits.drop point.toNat
  else
    let power := point - 1
    let sign := if power < 0 then '-' else '+'
    let size := Nat.toDigits 10 power.natAbs
    let size := if size.length < 2 then '0' :: size else size
    let rest := digits.drop 1
    digits.take 1 ++ (if rest.isEmpty then [] else '.' :: rest) ++ 'e' :: sign :: size

def text : Binary64 → String
  | .nan => "nan"
  | .infinite negative => if negative then "-inf" else "inf"
  | .finite negative significand exponent =>
      let unsigned :=
        if significand == 0 then ['0', '.', '0']
        else
          let (whole, power) := shortest significand exponent
          let row := Nat.toDigits 10 whole
          layout (trimZeros row).1 (row.length + power)
      String.ofList (if negative then '-' :: unsigned else unsigned)

end Binary64
end FernLang
