/-!
Named values in the order of their first mention. Giving a name a value again changes the value
in place and leaves the order alone.
-/

namespace FernLang

abbrev Bindings (α : Type) := List (String × α)

namespace Bindings

variable {α : Type}

/-- Of two values for one name the later counts. -/
def get? (name : String) : Bindings α → Option α
  | [] => none
  | (other, value) :: rest => (get? name rest).or (if other = name then some value else none)

def insert (name : String) (value : α) : Bindings α → Bindings α
  | [] => [(name, value)]
  | (other, old) :: rest =>
      if other = name then (name, value) :: rest else (other, old) :: insert name value rest

def update (self other : Bindings α) : Bindings α :=
  other.foldl (fun bindings entry => insert entry.1 entry.2 bindings) self

def ofPairs (pairs : List (String × α)) : Bindings α := update [] pairs

def names (self : Bindings α) : List String := self.map Prod.fst

end Bindings
end FernLang
