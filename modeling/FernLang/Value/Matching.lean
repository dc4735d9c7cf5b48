import FernLang.Value

/-!
Matching values against patterns. A match binds the names of the pattern in order of first
mention; a name that stands twice is bound to what its last place matched.
-/

namespace FernLang.Pattern

mutual

def bindings? : Pattern → Value → Option (Bindings Value)
  | .bool value, .bool found => if found = value then some [] else none
  | .number value, .num found => if found = value then some [] else none
  | .var name, found => if name = "_" then some [] else some [(name, found)]
  | .data tag fields, .data found values =>
      if found = tag then bindingsAll? fields values else none
  | _, _ => none

def bindingsAll? : List Pattern → List Value → Option (Bindings Value)
  | [], [] => some []
  | pattern :: patterns, value :: values => do
      let first ← bindings? pattern value
      let rest ← bindingsAll? patterns values
      return first.update rest
  | _, _ => none

end

end FernLang.Pattern
