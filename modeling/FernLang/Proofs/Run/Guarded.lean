import FernLang.Eval

/-!
Operations behind their guards. Division, powers, the parts of values and the entries of scopes are
asked for only where a look has shown that they are there. So evaluation comes to the same as if each
look and what follows it were one step, and in that form no operation can be misused.
-/

namespace FernLang

namespace Operation

variable {β : Type} {symbol : String} {a b : Value}

theorem badFirst_bind {α : Type} (next : α → Result β) :
    (badFirst symbol a >>= next) = badFirst symbol a := by
  unfold badFirst
  cases a.text <;> rfl

theorem badSecond_bind {α : Type} (next : α → Result β) :
    (badSecond symbol b >>= next) = badSecond symbol b := by
  unfold badSecond
  cases b.text <;> rfl

theorem badBoth_bind {α : Type} (next : α → Result β) :
    (badBoth symbol a b >>= next) = badBoth symbol a b := by
  unfold badBoth
  cases a.text <;> cases b.text <;> rfl

theorem check_bind (kind : Value.Kind) (next : Unit → Result β) :
    (check symbol kind a b >>= next) =
      if a.kind = kind then if b.kind = kind then next () else badSecond symbol b
      else if b.kind = kind then badFirst symbol a else badBoth symbol a b := by
  unfold check
  by_cases first : a.kind = kind
  · rw [if_pos first, if_pos first]
    by_cases second : b.kind = kind
    · rw [if_pos second, if_pos second]
      rfl
    · rw [if_neg second, if_neg second, badSecond_bind]
  · rw [if_neg first, if_neg first]
    by_cases second : b.kind = kind
    · rw [if_pos second, if_pos second, badFirst_bind]
    · rw [if_neg second, if_neg second, badBoth_bind]

theorem numbers_eq (symbol : String) (a b : Value) : numbers symbol a b =
    match a, b with
    | .num x, .num y => .ok (x, y)
    | .num _, second => badSecond symbol second
    | first, .num _ => badFirst symbol first
    | first, second => badBoth symbol first second := by
  rw [numbers, check_bind]
  cases a <;> cases b <;> rfl

theorem truths_eq (symbol : String) (a b : Value) : truths symbol a b =
    match a, b with
    | .bool x, .bool y => .ok (x, y)
    | .bool _, second => badSecond symbol second
    | first, .bool _ => badFirst symbol first
    | first, second => badBoth symbol first second := by
  rw [truths, check_bind]
  cases a <;> cases b <;> rfl

theorem divide_eq {x y : Int} (divisor : y ≠ 0) : divide x y = .ok (quotient x y, remainder x y) := by
  rw [divide, divide?, if_neg divisor]

theorem raise_eq (x y : Int) : raise x y =
    if y < 0 then (do refuse (.negativeExponent (← numeral (Numeral.write y))))
    else if 1 < x.natAbs ∧ powerBits < y * Bits.length x then
      (do refuse (.largeExponent (← numeral (Numeral.write y))))
    else .ok (power x y.toNat) := by
  unfold raise
  by_cases negative : y < 0
  · rw [if_pos negative, if_pos negative]
  · rw [if_neg negative, if_neg negative, power?, if_neg negative]

end Operation

namespace Eval

/-- What a name means: its binding in scope, or else the function of that name. -/
def meaning? (setting : Setting) (scope : Scope Value) (name : String) : Option Value :=
  (scope.get? name).or (setting.functions.get? name)

variable (setting : Setting) (scope : Scope Value) (stack : Stack)

theorem lookUp_eq (name : String) (span : Span) : lookUp setting name span scope stack =
    match meaning? setting scope name with
    | some value => return value
    | none => raise (.unbound name) span scope stack := by
  unfold lookUp meaning? item Scope.contains
  cases scope.get? name with
  | some value => rfl
  | none =>
      cases setting.functions.get? name <;> rfl

theorem branches_cons (eval : Expr → Eval Value) (otherwise : Expr) (choice : Expr × Expr)
    (rest : List (Expr × Expr)) :
    branches setting eval scope stack otherwise (choice :: rest) = (do
      let value ← eval choice.1
      match value with
      | .bool holds =>
          trace setting.level (.tested value)
          if holds then eval choice.2 else branches setting eval scope stack otherwise rest
      | _ => raise (.condition (← written value.text)) choice.1.span scope stack) := by
  rw [branches]
  congr 1
  funext value
  cases value <;> rfl

theorem call_eq (eval : Expr → Scope Value → Stack → Eval Value) (callee : Expr) (args : List Expr)
    (span : Span) : call setting eval callee args span scope stack = (do
      let function ← eval callee scope stack
      match function with
      | .closure params body captured =>
          if params.length ≠ args.length then
            raise (.arity params.length args.length) span scope stack
          else
            let values ← args.mapM (eval · scope stack)
            let arguments := Bindings.ofPairs (params.zip values)
            trace setting.level (.called (calleeName callee) arguments stack.length)
            let inner := Scope.ofBindings arguments
            let calls := stack ++ [⟨span, inner⟩]
            withinRoom ⟨.tooDeep, span, scope, calls⟩ (eval body (captured.union inner) calls)
      | _ => raise (.notFunction (← written function.text)) span scope stack) := by
  rw [call]
  congr 1
  funext function
  cases function <;> rfl

end Eval
end FernLang
