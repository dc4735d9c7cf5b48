/-!
The binary operators of the language: their symbols, the names of their tokens, and how tightly
they bind. A greater power binds tighter; all operators but the power group to the left.
-/

namespace FernLang

inductive Operator where
  | or | and
  | bitOr | bitXor | bitAnd
  | eq | ne
  | lt | gt | le | ge
  | add | sub
  | mul | div | mod
  | pow
deriving DecidableEq

namespace Operator

def symbol : Operator → String
  | .or => "||"
  | .and => "&&"
  | .bitOr => "|"
  | .bitXor => "^"
  | .bitAnd => "&"
  | .eq => "=="
  | .ne => "!="
  | .lt => "<"
  | .gt => ">"
  | .le => "<="
  | .ge => ">="
  | .add => "+"
  | .sub => "-"
  | .mul => "*"
  | .div => "/"
  | .mod => "%"
  | .pow => "**"

def label : Operator → String
  | .or => "OROR"
  | .and => "ANDAND"
  | .bitOr => "PIPE"
  | .bitXor => "CARET"
  | .bitAnd => "AMP"
  | .eq => "EQEQ"
  | .ne => "NOTEQ"
  | .lt => "LT"
  | .gt => "GT"
  | .le => "LTEQ"
  | .ge => "GTEQ"
  | .add => "PLUS"
  | .sub => "MINUS"
  | .mul => "STAR"
  | .div => "SLASH"
  | .mod => "PERCENT"
  | .pow => "POW"

def all : List Operator :=
  [.or, .and, .bitOr, .bitXor, .bitAnd, .eq, .ne, .lt, .gt, .le, .ge, .add, .sub, .mul, .div,
   .mod, .pow]

def ofSymbol? (text : String) : Option Operator := all.find? (·.symbol == text)

def power : Operator → Nat
  | .or => 1
  | .and => 2
  | .bitOr => 3
  | .bitXor => 4
  | .bitAnd => 5
  | .eq | .ne => 6
  | .lt | .gt | .le | .ge => 7
  | .add | .sub => 8
  | .mul | .div | .mod => 9
  | .pow => 10

/-- The power that what stands to the right of an operator has to exceed. -/
def rightPower : Operator → Nat
  | .pow => 9
  | operator => operator.power

end Operator

def callPower : Nat := 11

/-- The operand of a leading minus binds tighter than a product. -/
def negationPower : Nat := Operator.mul.power

end FernLang
