import FernLang.Json

/-!
Reading JSON. Beside the standard the words NaN, Infinity and -Infinity are numbers. Of two
fields of one name the later value counts, at the place of the earlier. A whole number has at most
`Numeral.limit` digits, and lists and objects nest at most as deep as the reader has room for. The
first fault in reading order is the one reported.
-/

namespace FernLang.Json

inductive ReadError where
  | malformed
  | numeral (error : Numeral.Error)
  | tooDeep
deriving DecidableEq

abbrev Reading := StateT (List Char) (Except ReadError)

namespace Reading

def isSpace (c : Char) : Bool := c == ' ' || c == '\t' || c == '\n' || c == '\r'

def isDigit (c : Char) : Bool := '0' ≤ c && c ≤ '9'

def skip : Reading Unit := modify (·.dropWhile isSpace)

def malformed {α : Type} : Reading α := throw .malformed

def take (c : Char) : Reading Unit := do
  match ← get with
  | d :: rest => if d == c then set rest else malformed
  | [] => malformed

def hexValue? (c : Char) : Option Nat :=
  if isDigit c then some (c.toNat - 48)
  else if 'a' ≤ c && c ≤ 'f' then some (c.toNat - 87)
  else if 'A' ≤ c && c ≤ 'F' then some (c.toNat - 55)
  else none

def hexCode? : List Char → Option (Nat × List Char)
  | a :: b :: c :: d :: rest => do
      let a ← hexValue? a
      let b ← hexValue? b
      let c ← hexValue? c
      let d ← hexValue? d
      return (((a * 16 + b) * 16 + c) * 16 + d, rest)
  | _ => none

def isHigh (code : Nat) : Bool := 0xd800 ≤ code && code ≤ 0xdbff

def isLow (code : Nat) : Bool := 0xdc00 ≤ code && code ≤ 0xdfff

/-- The character of a code after `\u`; two halves of a pair make one character, and half a pair
alone is replaced. -/
def unicode (code : Nat) (rest : List Char) : Char × List Char :=
  let pair? := do
    guard (isHigh code)
    let (second, after) ← match rest with
      | '\\' :: 'u' :: tail => hexCode? tail
      | _ => none
    guard (isLow second)
    return (Char.ofNat (0x10000 + (code - 0xd800) * 0x400 + (second - 0xdc00)), after)
  match pair? with
  | some answer => answer
  | none => (if isHigh code || isLow code then '�' else Char.ofNat code, rest)

def simpleEscape? (c : Char) : Option Char :=
  if c == '\x22' || c == '\\' || c == '/' then some c
  else if c == 'n' then some '\n'
  else if c == 'r' then some '\r'
  else if c == 't' then some '\t'
  else if c == 'b' then some '\x08'
  else if c == 'f' then some '\x0c'
  else none

def textChar : Reading (Option Char) := do
  match ← get with
  | [] => malformed
  | '\x22' :: rest => set rest; return none
  | '\\' :: 'u' :: rest =>
      match hexCode? rest with
      | some (code, rest) =>
          let (c, rest) := unicode code rest
          set rest
          return some c
      | none => malformed
  | '\\' :: c :: rest =>
      match simpleEscape? c with
      | some d => set rest; return some d
      | none => malformed
  | c :: rest => if c.toNat < 0x20 || c == '\\' then malformed else set rest; return some c

def textFrom : Nat → List Char → Reading String
  | 0, _ => malformed
  | steps + 1, done => do
      match ← textChar with
      | none => return String.ofList done.reverse
      | some c => textFrom steps (c :: done)

def text : Reading String := do textFrom ((← get).length + 1) []

def digits : Reading (List Char) := do
  let row := (← get).takeWhile isDigit
  modify (·.dropWhile isDigit)
  return row

def value (row : List Char) : Nat := Numeral.ofDigits (row.map (·.toNat - 48))

/-- The digits of a whole number: a zero alone, or a row that starts with none. -/
def wholeDigits : Reading (List Char) := do
  match ← get with
  | '0' :: rest => set rest; return ['0']
  | c :: _ => if isDigit c then digits else malformed
  | [] => malformed

def fraction? : Reading (Option (List Char)) := do
  match ← get with
  | '.' :: c :: rest => if isDigit c then set (c :: rest); return some (← digits) else return none
  | _ => return none

def exponent? : Reading (Option Int) := do
  match ← get with
  | mark :: rest =>
      let (negative, tail) := Numeral.splitSign rest
      if (mark == 'e' || mark == 'E') && (tail.head?.any isDigit) then
        set tail
        let size : Int := value (← digits)
        return some (if negative then -size else size)
      else return none
  | [] => return none

def number (negative : Bool) : Reading Json := do
  let row ← wholeDigits
  let fraction ← fraction?
  let exponent ← exponent?
  if fraction.isNone && exponent.isNone then
    if Numeral.limit < row.length then throw (.numeral (.tooLongToRead row.length))
    let size : Int := value row
    return .whole (if negative then -size else size)
  else
    let after := fraction.getD []
    return .real (.ofDecimal negative (value (row ++ after)) (exponent.getD 0 - after.length))

def items (item : Reading Json) : Nat → Reading (List Json)
  | 0 => malformed
  | steps + 1 => do
      skip
      let first ← item
      skip
      match ← get with
      | ']' :: rest => set rest; return [first]
      | ',' :: rest => set rest; return first :: (← items item steps)
      | _ => malformed

def fields (item : Reading Json) : Nat → Reading (List (String × Json))
  | 0 => malformed
  | steps + 1 => do
      skip
      take '\x22'
      let name ← text
      skip
      take ':'
      skip
      let first ← item
      skip
      match ← get with
      | '\x7d' :: rest => set rest; return [(name, first)]
      | ',' :: rest => set rest; return (name, first) :: (← fields item steps)
      | _ => malformed

def element : Nat → Reading Json
  | 0 => throw .tooDeep
  | room + 1 => do
      match ← get with
      | '\x22' :: rest => set rest; return .text (← text)
      | '[' :: rest =>
          set rest
          skip
          match ← get with
          | ']' :: rest => set rest; return .list []
          | rest => return .list (← items (element room) (rest.length + 1))
      | '\x7b' :: rest =>
          set rest
          skip
          match ← get with
          | '\x7d' :: rest => set rest; return .object []
          | rest => return .object (Bindings.ofPairs (← fields (element room) (rest.length + 1)))
      | 'n' :: 'u' :: 'l' :: 'l' :: rest => set rest; return .null
      | 't' :: 'r' :: 'u' :: 'e' :: rest => set rest; return .bool true
      | 'f' :: 'a' :: 'l' :: 's' :: 'e' :: rest => set rest; return .bool false
      | 'N' :: 'a' :: 'N' :: rest => set rest; return .real .nan
      | 'I' :: 'n' :: 'f' :: 'i' :: 'n' :: 'i' :: 't' :: 'y' :: rest =>
          set rest; return .real (.infinite false)
      | '-' :: 'I' :: 'n' :: 'f' :: 'i' :: 'n' :: 'i' :: 't' :: 'y' :: rest =>
          set rest; return .real (.infinite true)
      | '-' :: rest => set rest; number true
      | _ => number false

end Reading

def read (room : Nat) (source : String) : Except ReadError Json := do
  let (value, rest) ← (do Reading.skip; Reading.element room).run source.toList
  if (rest.dropWhile Reading.isSpace).isEmpty then return value else throw .malformed

end FernLang.Json
