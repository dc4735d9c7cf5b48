import FernLang.Eval.Fault
import FernLang.Eval.Trace
import FernLang.Value.Matching
import FernLang.Value.Operation

/-!
Evaluation. An expression is evaluated in a scope, under a table of functions, within a number of
nested frames: each expression inside another takes one, and each call one more. The lines traced so
far are kept when evaluation fails.
-/

namespace FernLang

abbrev Eval := EStateM Fault (Array String)

structure Setting where
  functions : Scope Value
  level : Nat

namespace Eval

variable {α : Type}

def raise (cause : Cause) (span : Span) (scope : Scope Value) (stack : Stack) : Eval α :=
  throw (.raised ⟨cause, span, scope, stack⟩)

def written : Except Numeral.Error α → Eval α
  | .ok value => return value
  | .error error => throw (.numeral error)

def trace (level : Nat) (event : Event) : Eval Unit := do
  if event.level ≤ level then
    let line ← written event.line
    modify (·.push line)

/-- Blames an error on `error` where evaluation ran out of room. -/
def withinRoom (error : RuntimeError) (eval : Eval α) : Eval α := fun lines =>
  match eval lines with
  | .error .outOfRoom lines => .error (.raised error) lines
  | answer => answer

def item (scope : Scope Value) (name : String) : Eval Value :=
  match scope.get? name with
  | some value => return value
  | none => throw (.misused (.absentName name))

/-- A name means its binding in scope, or else the function of that name. -/
def lookUp (setting : Setting) (name : String) (span : Span) (scope : Scope Value)
    (stack : Stack) : Eval Value :=
  if scope.contains name then item scope name
  else if setting.functions.contains name then item setting.functions name
  else raise (.unbound name) span scope stack

def part : Option α → Eval α
  | some value => return value
  | none => throw (.misused .absentPart)

def branches (setting : Setting) (eval : Expr → Eval Value) (scope : Scope Value) (stack : Stack)
    (otherwise : Expr) : List (Expr × Expr) → Eval Value
  | [] => eval otherwise
  | (condition, body) :: rest => do
      let value ← eval condition
      if value.kind ≠ .bool then
        raise (.condition (← written value.text)) condition.span scope stack
      else
        trace setting.level (.tested value)
        if ← part value.truth? then eval body
        else branches setting eval scope stack otherwise rest

def selectArm (value : Value) (index : Nat) :
    List (Pattern × Expr) → Option (Nat × Bindings Value × Expr)
  | [] => none
  | (pattern, body) :: arms =>
      match pattern.bindings? value with
      | some bindings => some (index, bindings, body)
      | none => selectArm value (index + 1) arms

def calleeName : Expr → String
  | .var name _ => name
  | _ => "lambda"

/-- A call: the callee, its kind and arity, the arguments from left to right, then the body. -/
def call (setting : Setting) (eval : Expr → Scope Value → Stack → Eval Value) (callee : Expr)
    (args : List Expr) (span : Span) (scope : Scope Value) (stack : Stack) : Eval Value := do
  let function ← eval callee scope stack
  if function.kind ≠ .closure then
    raise (.notFunction (← written function.text)) span scope stack
  else
    let (params, body, captured) ← part function.closure?
    if params.length ≠ args.length then
      raise (.arity params.length args.length) span scope stack
    else
      let values ← args.mapM (eval · scope stack)
      let arguments := Bindings.ofPairs (params.zip values)
      trace setting.level (.called (calleeName callee) arguments stack.length)
      let inner := Scope.ofBindings arguments
      let calls := stack ++ [⟨span, inner⟩]
      withinRoom ⟨.tooDeep, span, scope, calls⟩ (eval body (captured.union inner) calls)

end Eval

open Eval in
def evaluate (setting : Setting) : Nat → Expr → Scope Value → Stack → Eval Value
  | 0, _, _, _ => throw .outOfRoom
  | room + 1, expr, scope, stack =>
      match expr with
      | .number value _ => return .num value
      | .bool value _ => return .bool value
      | .var name span => lookUp setting name span scope stack
      | .letIn name binding body _ => do
          let value ← evaluate setting room binding scope stack
          evaluate setting room body (scope.extend name value) stack
      | .binary sign left right span => do
          let first ← evaluate setting room left scope stack
          let second ← evaluate setting room right scope stack
          match Operation.applySign sign first second with
          | .ok value => return value
          | .error (.cause cause) => raise cause span scope stack
          | .error (.numeral error) => throw (.numeral error)
          | .error .compoundSign => throw .compoundSign
          | .error (.misused misuse) => throw (.misused misuse)
      | .lambda params body _ => return .closure params body scope
      | .call callee args span =>
          match room with
          | 0 => throw .outOfRoom
          | room + 1 => call setting (evaluate setting room) callee args span scope stack
      | .cond choices otherwise _ =>
          branches setting (evaluate setting room · scope stack) scope stack otherwise choices
      | .construct tag fields _ => do
          return .data tag (← fields.mapM (evaluate setting room · scope stack))
      | .matching scrutinee arms span => do
          let value ← evaluate setting room scrutinee scope stack
          match selectArm value 0 arms with
          | some (index, bindings, body) =>
              trace setting.level (.chose value index)
              evaluate setting room body (scope.union (.ofBindings bindings)) stack
          | none => raise (.unmatched (← written value.text)) span scope stack
      | .letTop _ _ span => raise .innerLet span scope stack
      | .function _ _ _ span => raise .innerFunction span scope stack
      | .dataType _ _ span => raise .innerData span scope stack
      | .row _ => throw .bareRow

end FernLang
