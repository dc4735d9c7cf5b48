import FernLang.Cause
import FernLang.Misuse
import FernLang.Operator
import FernLang.Value
import FernLang.Value.Bits

/-!
What the operators do. Equality is defined on all values; every other operator asks for two numbers
or two truth values. Division goes toward zero and the remainder has the sign of the dividend.
A power whose exponent times the length of its base exceeds `powerBits` is refused.
-/

namespace FernLang

/-- Why an operation has no value: for a cause of its own, because a message about it would hold
too long a number, because a list or an object stands in place of its sign, or because its operands
were not looked at before. -/
inductive Obstacle where
  | cause (cause : Cause)
  | numeral (error : Numeral.Error)
  | compoundSign
  | misused (misuse : Misuse)

namespace Operation

abbrev Result := Except Obstacle

def refuse {α : Type} (cause : Cause) : Result α := .error (.cause cause)

def numeral {α : Type} : Except Numeral.Error α → Result α
  | .ok value => .ok value
  | .error error => .error (.numeral error)

def badFirst {α : Type} (symbol : String) (first : Value) : Result α := do
  refuse (.firstOperand symbol (← numeral first.text))

def badSecond {α : Type} (symbol : String) (second : Value) : Result α := do
  refuse (.secondOperand symbol (← numeral second.text))

def badBoth {α : Type} (symbol : String) (first second : Value) : Result α := do
  let shown ← numeral first.text
  refuse (.bothOperands symbol shown (← numeral second.text))

def check (symbol : String) (kind : Value.Kind) (a b : Value) : Result Unit :=
  if a.kind = kind then
    if b.kind = kind then .ok () else badSecond symbol b
  else if b.kind = kind then badFirst symbol a
  else badBoth symbol a b

def part {α : Type} : Option α → Result α
  | some value => .ok value
  | none => .error (.misused .absentPart)

def numbers (symbol : String) (a b : Value) : Result (Int × Int) := do
  check symbol .num a b
  return (← part a.number?, ← part b.number?)

def truths (symbol : String) (a b : Value) : Result (Bool × Bool) := do
  check symbol .bool a b
  return (← part a.truth?, ← part b.truth?)

def quotient (a b : Int) : Int :=
  let size : Int := a.natAbs / b.natAbs
  if (a < 0) = (b < 0) then size else -size

def remainder (a b : Int) : Int := a - b * quotient a b

def divide? (a b : Int) : Option (Int × Int) :=
  if b = 0 then none else some (quotient a b, remainder a b)

/-- Division asks for a divisor other than zero, which has to be made sure of before. -/
def divide (a b : Int) : Result (Int × Int) :=
  match divide? a b with
  | some parts => .ok parts
  | none => .error (.misused .zeroDivisor)

def powerBits : Nat := 65536

/-- The power of a base at most one in size needs no multiplication. -/
def power (base : Int) (exponent : Nat) : Int :=
  if 1 < base.natAbs then Int.pow base exponent
  else if exponent = 0 then 1
  else if base = -1 ∧ exponent % 2 = 0 then 1
  else base

def power? (base exponent : Int) : Option Int :=
  if exponent < 0 then none else some (power base exponent.toNat)

def raise (a b : Int) : Result Int :=
  if b < 0 then do refuse (.negativeExponent (← numeral (Numeral.write b)))
  else if 1 < a.natAbs ∧ powerBits < b * Bits.length a then do
    refuse (.largeExponent (← numeral (Numeral.write b)))
  else
    match power? a b with
    | some value => .ok value
    | none => .error (.misused .negativeExponent)

def apply (operator : Operator) (a b : Value) : Result Value :=
  match operator with
  | .eq => .ok (.bool (a.equal b))
  | .ne => .ok (.bool (!a.equal b))
  | .and => do let (x, y) ← truths operator.symbol a b; return .bool (x && y)
  | .or => do let (x, y) ← truths operator.symbol a b; return .bool (x || y)
  | .lt => do let (x, y) ← numbers operator.symbol a b; return .bool (x < y)
  | .gt => do let (x, y) ← numbers operator.symbol a b; return .bool (y < x)
  | .le => do let (x, y) ← numbers operator.symbol a b; return .bool (x ≤ y)
  | .ge => do let (x, y) ← numbers operator.symbol a b; return .bool (y ≤ x)
  | .add => do let (x, y) ← numbers operator.symbol a b; return .num (x + y)
  | .sub => do let (x, y) ← numbers operator.symbol a b; return .num (x - y)
  | .mul => do let (x, y) ← numbers operator.symbol a b; return .num (x * y)
  | .bitAnd => do let (x, y) ← numbers operator.symbol a b; return .num (Bits.and x y)
  | .bitOr => do let (x, y) ← numbers operator.symbol a b; return .num (Bits.or x y)
  | .bitXor => do let (x, y) ← numbers operator.symbol a b; return .num (Bits.xor x y)
  | .pow => do let (x, y) ← numbers operator.symbol a b; return .num (← raise x y)
  | .div => do
      let (x, y) ← numbers operator.symbol a b
      if y = 0 then refuse .divisionByZero else return .num (← divide x y).1
  | .mod => do
      let (x, y) ← numbers operator.symbol a b
      if y = 0 then refuse .moduloByZero else return .num (← divide x y).2

def operator? : Json → Option Operator
  | .text symbol => Operator.ofSymbol? symbol
  | _ => none

def applySign (sign : Json) (a b : Value) : Result Value :=
  match operator? sign with
  | some operator => apply operator a b
  | none =>
      match sign with
      | .list _ | .object _ => .error .compoundSign
      | _ => do refuse (.unknownOperator (← numeral sign.label))

end Operation
end FernLang
