import FernLang.Text.Blank
import FernLang.Text.Quoted

/-!
Decimal numerals of whole numbers. A numeral of more than `Numeral.limit` digits is neither
written nor read. A text is read as a whole number when it is, blanks at its ends aside, a sign or
none and digits with single underscores between them at most.
-/

namespace FernLang

namespace Numeral

def limit : Nat := 4300

inductive Error where
  | tooLongToWrite
  | tooLongToRead (digits : Nat)
  | notWhole (text : String)
deriving DecidableEq

private def advice : String := "use sys.set_int_max_str_digits() to increase the limit"

/-- A text that is no numeral is shown in quotes, cut after 200 characters. -/
def Error.message : Error → String
  | .tooLongToWrite =>
      s!"Exceeds the limit ({limit} digits) for integer string conversion; {advice}"
  | .tooLongToRead digits =>
      s!"Exceeds the limit ({limit} digits) for integer string conversion: " ++
        s!"value has {digits} digits; {advice}"
  | .notWhole text =>
      "invalid literal for int() with base 10: " ++
        String.ofList ((Text.quoted text).toList.take 200)

def bound : Nat := Nat.pow 10 limit

def write (value : Int) : Except Error String :=
  if value.natAbs < bound then .ok (toString value) else .error .tooLongToWrite

def ofDigits (digits : List Nat) : Nat := digits.foldl (fun value digit => 10 * value + digit) 0

/-- Blanks around a numeral: those of ASCII proper, or any blank beyond ASCII. -/
def isMargin (c : Char) : Bool :=
  Text.isBlank c && !(0x1c ≤ c.toNat && c.toNat ≤ 0x1f)

def wellSeparated : List (Option Nat) → Bool
  | [] => false
  | [last] => last.isSome
  | none :: _ => false
  | some _ :: none :: rest => wellSeparated rest
  | some _ :: some digit :: rest => wellSeparated (some digit :: rest)

def figure? (c : Char) : Option (Option Nat) :=
  if c == '_' then some none else (Text.digitValue? c).map some

def figures : List Char → List (Option Nat) × List Char
  | [] => ([], [])
  | c :: text =>
      match figure? c with
      | some figure => (figure :: (figures text).1, (figures text).2)
      | none => ([], c :: text)

def splitSign : List Char → Bool × List Char
  | '-' :: text => (true, text)
  | '+' :: text => (false, text)
  | text => (false, text)

/-- A misplaced underscore is found before too many digits, and those before stray characters. -/
def read (text : String) : Except Error Int :=
  let (negative, unsigned) := splitSign (text.toList.dropWhile isMargin)
  let (row, rest) := figures unsigned
  let digits := row.filterMap id
  if !wellSeparated row then .error (.notWhole text)
  else if limit < digits.length then .error (.tooLongToRead digits.length)
  else if !rest.all isMargin then .error (.notWhole text)
  else .ok (if negative then -(ofDigits digits : Int) else (ofDigits digits : Int))

end Numeral
end FernLang
