import FernLang.Bindings

/-!
Scopes are chains of layers of bindings, the innermost layer first. A name means what the
innermost layer that has it says. A scope is never changed: extending it or joining another to it
puts a layer on top, so whoever holds the old one goes on seeing what it saw.
-/

namespace FernLang

structure Scope (α : Type) where
  layers : List (List (String × α))

namespace Scope

variable {α : Type}

def empty : Scope α := ⟨[]⟩

def ofBindings (bindings : Bindings α) : Scope α := ⟨[bindings]⟩

def push (bindings : Bindings α) (scope : Scope α) : Scope α := ⟨bindings :: scope.layers⟩

def extend (name : String) (value : α) (scope : Scope α) : Scope α := scope.push [(name, value)]

def get? (name : String) (scope : Scope α) : Option α :=
  scope.layers.findSome? (Bindings.get? name)

def contains (name : String) (scope : Scope α) : Bool := (scope.get? name).isSome

def isEmpty (scope : Scope α) : Bool := scope.layers.all List.isEmpty

/-- All names with the values they mean, ordered by first mention from the outermost layer in. -/
def items (scope : Scope α) : Bindings α :=
  scope.layers.foldr (fun layer outer => Bindings.update outer layer) []

def size (scope : Scope α) : Nat := scope.items.length

/-- What joining two scopes comes to: one of them as it is, when the other is empty, or a new
layer. -/
inductive Join where
  | keepFirst
  | keepSecond
  | layer
deriving DecidableEq

def join (first second : Scope α) : Join :=
  if second.isEmpty then .keepFirst
  else if first.isEmpty then .keepSecond
  else .layer

def union (first second : Scope α) : Scope α :=
  match first.join second with
  | .keepFirst => first
  | .keepSecond => second
  | .layer => first.push second.items

end Scope
end FernLang
