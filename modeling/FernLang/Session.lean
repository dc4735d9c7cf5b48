import FernLang.Eval

/-!
Sessions. A session keeps the bindings of top-level lets and the functions declared so far. Running
a program first adds its functions and constructors, wherever they stand, then goes through
its items in order. What a run changed before it failed stays.
-/

namespace FernLang

structure Session where
  globals : Scope Value
  functions : Scope Value

namespace Session

def fresh : Session := ⟨.empty, .empty⟩

/-- The functions of a program, then its constructors; a later one hides an earlier of its name. -/
def functionTable (program : List Expr) : Scope Value :=
  .ofBindings <| Bindings.ofPairs <| (program ++ Expr.builders program).filterMap fun
    | .function name params body _ => some (name, .closure params body .empty)
    | _ => none

structure Progress where
  globals : Scope Value
  lines : Array String

abbrev Run := EStateM Fault Progress

def evaluating {α : Type} (eval : Eval α) : Run α := fun progress =>
  match eval progress.lines with
  | .ok value lines => .ok value { progress with lines := lines }
  | .error fault lines => .error fault { progress with lines := lines }

def topLevel (room : Nat) (setting : Setting) (expr : Expr) (span : Span) : Run Value := do
  let globals := (← get).globals
  evaluating <| Eval.withinRoom ⟨.tooDeep, span, globals, .root⟩ <|
    evaluate setting room expr globals .root

/-- Runs an item, which gives a value unless it is a let or a declaration. -/
def runItem (room : Nat) (setting : Setting) : Expr → Run (Option Value)
  | .letTop name binding span => do
      let value ← topLevel room setting binding span
      modify fun progress => { progress with globals := progress.globals.extend name value }
      evaluating (Eval.trace setting.level (.bound name value))
      return none
  | .letIn _ _ _ span => do
      evaluating (Eval.raise .outerLet span (← get).globals .root)
  | .function .. | .dataType .. => return none
  | item => do
      let value ← topLevel room setting item item.span
      evaluating (Eval.trace setting.level (.valued value))
      return some value

def runItems (room : Nat) (setting : Setting) : List Expr → Run (List Value)
  | [] => return []
  | item :: items => do
      let value ← runItem room setting item
      let values ← runItems room setting items
      return value.toList ++ values

structure Outcome where
  result : Except Fault (List Value)
  session : Session
  lines : Array String

def run (session : Session) (room level : Nat) (program : List Expr) : Outcome :=
  let functions := session.functions.union (functionTable program)
  match runItems room ⟨functions, level⟩ program ⟨session.globals, #[]⟩ with
  | .ok values progress => ⟨.ok values, ⟨progress.globals, functions⟩, progress.lines⟩
  | .error fault progress => ⟨.error fault, ⟨progress.globals, functions⟩, progress.lines⟩

def frameLimit : Nat := 1000

end Session
end FernLang
