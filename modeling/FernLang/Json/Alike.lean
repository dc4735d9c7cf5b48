import FernLang.Json

/-!
Two JSON values are alike when they say the same: a number is alike a number of the same size in
any form, where true and false count as one and zero, and the order of an object's fields does not
matter. Each value has a key, and alike values are those with one key.
-/

namespace FernLang

/-- A number that is whole has the key of that whole number. -/
def Binary64.key : Binary64 → String
  | .finite negative significand exponent =>
      if 0 ≤ exponent || significand % Nat.pow 2 (-exponent).toNat == 0 then
        toString (Binary64.truncate negative significand exponent)
      else (if negative then "-" else "") ++ s!"{significand}p{exponent}"
  | .infinite negative => if negative then "-inf" else "inf"
  | .nan => "nan"

namespace Json

def noLater : List Char → List Char → Bool
  | [], _ => true
  | _ :: _, [] => false
  | c :: rest, d :: others => if c = d then noLater rest others else c.toNat.ble d.toNat

def inOrder (texts : List String) : List String :=
  texts.mergeSort fun a b => noLater a.toList b.toList

mutual

def key : Json → String
  | .null => "null"
  | .bool value => if value then "1" else "0"
  | .whole value => toString value
  | .real value => value.key
  | .text value => Text.quoted value
  | .list items => "[" ++ ",".intercalate (itemKeys items) ++ "]"
  | .object fields => "\x7b" ++ ",".intercalate (inOrder (fieldKeys fields)) ++ "\x7d"

def itemKeys : List Json → List String
  | [] => []
  | item :: items => key item :: itemKeys items

def fieldKeys : List (String × Json) → List String
  | [] => []
  | (name, value) :: fields => (Text.quoted name ++ ":" ++ key value) :: fieldKeys fields

end

def alike (a b : Json) : Bool := a.key == b.key

end Json
end FernLang
