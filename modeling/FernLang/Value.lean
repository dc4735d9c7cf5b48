import FernLang.Expr.Alike
import FernLang.Numeral
import FernLang.Scope

/-!
Values, their texts and their equality. Closures are equal when their parameters are, their
bodies are alike, and their scopes give the same names like values in any order.
-/

namespace FernLang

inductive Value where
  | num (value : Int)
  | bool (value : Bool)
  | closure (params : List String) (body : Expr) (scope : Scope Value)
  | data (tag : String) (fields : List Value)

namespace Value

instance : Inhabited Value := ⟨.num 0⟩

inductive Kind where
  | num | bool | closure | data
deriving DecidableEq

def kind : Value → Kind
  | .num _ => .num
  | .bool _ => .bool
  | .closure .. => .closure
  | .data .. => .data

def number? : Value → Option Int
  | .num value => some value
  | _ => none

def truth? : Value → Option Bool
  | .bool value => some value
  | _ => none

def closure? : Value → Option (List String × Expr × Scope Value)
  | .closure params body scope => some (params, body, scope)
  | _ => none

def lambdaText (params : List String) : String := "<lambda(" ++ ", ".intercalate params ++ ")>"

mutual

def text : Value → Except Numeral.Error String
  | .num value => Numeral.write value
  | .bool value => .ok (if value then "true" else "false")
  | .closure params _ _ => .ok (lambdaText params)
  | .data tag fields => do
      let texts ← textAll fields
      return if texts.isEmpty then tag else tag ++ "(" ++ ", ".intercalate texts ++ ")"

def textAll : List Value → Except Numeral.Error (List String)
  | [] => .ok []
  | value :: values => do return (← text value) :: (← textAll values)

end

mutual

/-- A value as it is shown to those who look inside: with its kind, and tags in quotes. -/
def inspect : Value → Except Numeral.Error String
  | .num value => do return "NumVal(" ++ (← Numeral.write value) ++ ")"
  | .bool value => .ok (if value then "BoolVal(True)" else "BoolVal(False)")
  | .closure params _ _ => .ok (lambdaText params)
  | .data tag fields => do
      return "DataVal(" ++ Text.quoted tag ++ ", [" ++ ", ".intercalate (← inspectAll fields) ++ "])"

def inspectAll : List Value → Except Numeral.Error (List String)
  | [] => .ok []
  | value :: values => do return (← inspect value) :: (← inspectAll values)

end

/-- Whether a scope of tests and a scope of values have the same names, and each value passes the
test of its name. -/
def passes (tests : Scope (Value → Bool)) (scope : Scope Value) : Bool :=
  tests.size == scope.size &&
    tests.items.all fun entry => (scope.get? entry.1).any entry.2

mutual

def alike : Value → Value → Bool
  | .num value, other => match other with
    | .num again => value == again
    | _ => false
  | .bool value, other => match other with
    | .bool again => value == again
    | _ => false
  | .closure params body scope, other => match other with
    | .closure again body' scope' =>
        params == again && body.alike body' && passes (alikeScope scope) scope'
    | _ => false
  | .data tag fields, other => match other with
    | .data again fields' => tag == again && alikeAll fields fields'
    | _ => false

def alikeAll : List Value → List Value → Bool
  | [], others => others.isEmpty
  | value :: values, others => match others with
    | other :: others => alike value other && alikeAll values others
    | [] => false

def alikeScope : Scope Value → Scope (Value → Bool)
  | ⟨layers⟩ => ⟨alikeLayers layers⟩

def alikeLayers : List (List (String × Value)) → List (List (String × (Value → Bool)))
  | [] => []
  | layer :: layers => alikeLayer layer :: alikeLayers layers

def alikeLayer : List (String × Value) → List (String × (Value → Bool))
  | [] => []
  | (name, value) :: layer => (name, alike value) :: alikeLayer layer

end

/-- Equality of scopes: the same names with values that are alike. -/
def equalScopes (first second : Scope Value) : Bool := passes (alikeScope first) second

mutual

/-- Equality goes into data itself; other values of one kind are equal when they are alike. -/
def equal : Value → Value → Bool
  | .data tag fields, other => match other with
    | .data again fields' => tag == again && equalAll fields fields'
    | _ => false
  | value, other => value.kind == other.kind && value.alike other

def equalAll : List Value → List Value → Bool
  | [], others => others.isEmpty
  | value :: values, others => match others with
    | other :: others => equal value other && equalAll values others
    | [] => false

end

def inspectScope (scope : Scope Value) : Except Numeral.Error String := do
  let entries ← scope.items.mapM fun entry => do return entry.1 ++ "=" ++ (← entry.2.inspect)
  return "Environment(" ++ ", ".intercalate entries ++ ")"

end Value
end FernLang
