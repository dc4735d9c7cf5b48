import FernLang.Binary64
import FernLang.Bindings
import FernLang.Numeral

/-!
JSON values. Whole and real numbers are told apart, and an object keeps its fields in order.
-/

namespace FernLang

inductive Json where
  | null
  | bool (value : Bool)
  | whole (value : Int)
  | real (value : Binary64)
  | text (value : String)
  | list (items : List Json)
  | object (fields : List (String × Json))

namespace Json

instance : Inhabited Json := ⟨.null⟩

/-- Whether a value counts as true: all do but null, false, zero and what is empty. -/
def isTruthy : Json → Bool
  | .null => false
  | .bool value => value
  | .whole value => value != 0
  | .real value => !value.isZero
  | .text value => !value.isEmpty
  | .list items => !items.isEmpty
  | .object fields => !fields.isEmpty

def truthName (value : Bool) : String := if value then "True" else "False"

mutual

def named : Json → Except Numeral.Error String
  | .null => .ok "None"
  | .bool value => .ok (truthName value)
  | .whole value => Numeral.write value
  | .real value => .ok value.text
  | .text value => .ok (Text.quoted value)
  | .list items => do return "[" ++ ", ".intercalate (← namedItems items) ++ "]"
  | .object fields => do return "\x7b" ++ ", ".intercalate (← namedFields fields) ++ "\x7d"

def namedItems : List Json → Except Numeral.Error (List String)
  | [] => .ok []
  | item :: items => do return (← named item) :: (← namedItems items)

def namedFields : List (String × Json) → Except Numeral.Error (List String)
  | [] => .ok []
  | (name, value) :: fields => do
      return (Text.quoted name ++ ": " ++ (← named value)) :: (← namedFields fields)

end

/-- How a value is named in a message: a text by itself, without quotes. -/
def label : Json → Except Numeral.Error String
  | .text value => .ok value
  | value => named value

end Json
end FernLang
