import Mathlib.Data.List.Induction
import FernLang.Proofs.Run.CallStack
import FernLang.Proofs.Run.Tables

/-!
What a session remembers. Whatever programs it has run, and however those runs ended, a run adds to its
globals the lets before the first item that fails, each with the value of its binding, and nothing else.
A name means the function that the latest program to declare it gave it, also when that program failed
before it came to the declaration.
-/

namespace FernLang
namespace Session

variable {room : Nat} {table globals after : Scope Value}

def evaluated (room : Nat) (table globals : Scope Value) (tree : Expr) : Except Fault Value :=
  match evaluate ⟨table, 0⟩ room tree globals .root #[] with
  | .ok value _ => .ok value
  | .error fault _ => .error fault

/-- An item that fails: a scoped let does, and so does an item whose subject has no value. -/
inductive Fails (room : Nat) (table globals : Scope Value) : Expr → Prop
  | scopedLet (name : String) (binding body : Expr) (span : Span) :
      Fails room table globals (.letIn name binding body span)
  | subject {item expr : Expr} {fault : Fault} (subject : item.subject? = some expr)
      (failed : evaluated room table globals expr = .error fault) : Fails room table globals item

/-- Items none of which fails, with the globals before and after them: a let adds its name with the
value of its binding, and the others add nothing. -/
inductive Passes (room : Nat) (table : Scope Value) : Scope Value → List Expr → Scope Value → Prop
  | nil (globals : Scope Value) : Passes room table globals [] globals
  | bound {globals after : Scope Value} {name : String} {binding : Expr} {span : Span} {value : Value}
      {items : List Expr} (known : evaluated room table globals binding = .ok value)
      (rest : Passes room table (globals.extend name value) items after) :
      Passes room table globals (.letTop name binding span :: items) after
  | valued {globals after : Scope Value} {item : Expr} {value : Value} {items : List Expr}
      (subject : item.subject? = some item) (known : evaluated room table globals item = .ok value)
      (rest : Passes room table globals items after) : Passes room table globals (item :: items) after
  | function {globals after : Scope Value} {name : String} {params : List String} {body : Expr}
      {span : Span} {items : List Expr} (rest : Passes room table globals items after) :
      Passes room table globals (.function name params body span :: items) after
  | dataType {globals after : Scope Value} {name : String} {variants : List (String × List String)}
      {span : Span} {items : List Expr} (rest : Passes room table globals items after) :
      Passes room table globals (.dataType name variants span :: items) after

theorem trace_zero (event : Event) : Eval.trace 0 event = pure () := by
  cases event <;> rfl

theorem evaluated_lines (room : Nat) (table globals : Scope Value) (tree : Expr)
    (lines : Array String) :
    evaluated room table globals tree = match evaluate ⟨table, 0⟩ room tree globals .root lines with
      | .ok value _ => .ok value
      | .error fault _ => .error fault := by
  have alike := evaluate_ignoresStack ⟨table, 0⟩ room tree globals .root .root #[] lines
  unfold evaluated
  generalize evaluate ⟨table, 0⟩ room tree globals .root #[] = ended at alike ⊢
  generalize evaluate ⟨table, 0⟩ room tree globals .root lines = again at alike ⊢
  cases alike with
  | value value => rfl
  | fault _ _ same => cases same <;> rfl

theorem topLevel_untraced (room : Nat) (table : Scope Value) (expr : Expr) (span : Span)
    (progress : Progress) :
    match topLevel room ⟨table, 0⟩ expr span progress with
    | .ok value after => after.globals = progress.globals ∧
        evaluated room table progress.globals expr = .ok value
    | .error _ after => after.globals = progress.globals ∧
        ∃ fault, evaluated room table progress.globals expr = .error fault := by
  have step : topLevel room ⟨table, 0⟩ expr span progress =
      evaluating (Eval.withinRoom ⟨.tooDeep, span, progress.globals, .root⟩
        (evaluate ⟨table, 0⟩ room expr progress.globals .root)) progress := rfl
  rw [step, evaluated_lines room table progress.globals expr progress.lines]
  unfold evaluating Eval.withinRoom
  cases evaluate ⟨table, 0⟩ room expr progress.globals .root progress.lines with
  | ok value lines => exact ⟨rfl, rfl⟩
  | error fault lines => cases fault <;> exact ⟨rfl, _, rfl⟩

theorem runItem_untraced (room : Nat) (table : Scope Value) (item : Expr) (progress : Progress) :
    match runItem room ⟨table, 0⟩ item progress with
    | .ok _ next => ∀ items after, Passes room table next.globals items after →
        Passes room table progress.globals (item :: items) after
    | .error _ next => next.globals = progress.globals ∧ Fails room table progress.globals item := by
  have valued (subject : item.subject? = some item) :
      match (do
          let value ← topLevel room ⟨table, 0⟩ item item.span
          evaluating (Eval.trace 0 (.valued value))
          return some value : Run (Option Value)) progress with
      | .ok _ next => ∀ items after, Passes room table next.globals items after →
          Passes room table progress.globals (item :: items) after
      | .error _ next => next.globals = progress.globals ∧
          Fails room table progress.globals item := by
    have here := topLevel_untraced room table item item.span progress
    rw [bind_steps]
    cases ended : topLevel room ⟨table, 0⟩ item item.span progress with
    | error fault next =>
        rw [ended] at here
        obtain ⟨same, found, failed⟩ := here
        exact ⟨same, .subject subject failed⟩
    | ok value next =>
        rw [ended] at here
        dsimp only
        rw [trace_zero]
        intro items after rest
        exact .valued subject here.2 (here.1 ▸ rest)
  cases item with
  | letTop name binding span =>
      have here := topLevel_untraced room table binding span progress
      rw [runItem, bind_steps]
      cases ended : topLevel room ⟨table, 0⟩ binding span progress with
      | error fault next =>
          rw [ended] at here
          obtain ⟨same, found, failed⟩ := here
          exact ⟨same, .subject rfl failed⟩
      | ok value next =>
          rw [ended] at here
          dsimp only
          rw [trace_zero]
          intro items after rest
          exact .bound here.2 (here.1 ▸ rest)
  | letIn name binding body span => exact ⟨rfl, .scopedLet name binding body span⟩
  | function => exact fun _ _ rest => .function rest
  | dataType => exact fun _ _ rest => .dataType rest
  | _ => exact valued rfl

theorem runItems_passes {items : List Expr} {values : List Value} {progress next : Progress}
    (passed : runItems room ⟨table, 0⟩ items progress = .ok values next) :
    Passes room table progress.globals items next.globals := by
  induction items generalizing progress values with
  | nil =>
      cases passed
      exact .nil _
  | cons item items ih =>
      have here := runItem_untraced room table item progress
      rw [runItems, bind_steps] at passed
      cases first : runItem room ⟨table, 0⟩ item progress with
      | error fault last =>
          rw [first] at passed
          cases passed
      | ok value middle =>
          rw [first] at here
          simp only [first] at passed
          rw [bind_steps] at passed
          cases others : runItems room ⟨table, 0⟩ items middle with
          | error fault last =>
              rw [others] at passed
              cases passed
          | ok rest last =>
              rw [others] at passed
              cases passed
              exact here items _ (ih others)

theorem run_grows (session : Session) (room : Nat) (program : List Expr) :
    ∃ done rest, program = done ++ rest ∧
      Passes room (session.run room 0 program).session.functions session.globals done
        (session.run room 0 program).session.globals ∧
      ((rest = [] ∧ ∃ values, (session.run room 0 program).result = .ok values) ∨
        ∃ item more fault, rest = item :: more ∧
          Fails room (session.run room 0 program).session.functions
            (session.run room 0 program).session.globals item ∧
          (session.run room 0 program).result = .error fault) := by
  cases ended : runItems room (session.setting 0 program) program ⟨session.globals, #[]⟩ with
  | ok values progress =>
      rw [run_ok ended]
      exact ⟨program, [], by simp, runItems_passes ended, .inl ⟨rfl, values, rfl⟩⟩
  | error fault progress =>
      rw [run_error ended]
      obtain ⟨before, item, rest, values, middle, split, passed, stopped⟩ := runItems_error ended
      have here := runItem_untraced room (session.setting 0 program).functions item middle
      have stop : runItem room ⟨(session.setting 0 program).functions, 0⟩ item middle =
          .error fault progress := stopped
      rw [stop] at here
      refine ⟨before, item :: rest, split, ?_, .inr ⟨item, rest, fault, rfl, ?_, rfl⟩⟩
      · dsimp only
        rw [here.1]
        exact runItems_passes passed
      · dsimp only
        rw [here.1]
        exact here.2

def afterRuns (room : Nat) (programs : List (List Expr)) : Session :=
  programs.foldl (fun session program => (session.run room 0 program).session) .fresh

theorem afterRuns_concat (room : Nat) (programs : List (List Expr)) (program : List Expr) :
    afterRuns room (programs ++ [program]) =
      ((afterRuns room programs).run room 0 program).session := by
  unfold afterRuns
  rw [List.foldl_concat]

def declaring? (name : String) (programs : List (List Expr)) : Option (List Expr) :=
  programs.reverse.find? fun program => decide (name ∈ program.flatMap Expr.declares)

theorem declaring?_concat (name : String) (programs : List (List Expr)) (program : List Expr) :
    declaring? name (programs ++ [program]) =
      if name ∈ program.flatMap Expr.declares then some program else declaring? name programs := by
  unfold declaring?
  rw [List.reverse_append, List.reverse_singleton, List.singleton_append, List.find?_cons]
  by_cases declared : name ∈ program.flatMap Expr.declares
  · rw [if_pos declared, decide_eq_true declared]
  · rw [if_neg declared, decide_eq_false declared]

theorem get?_afterRuns (room : Nat) (programs : List (List Expr)) (name : String) :
    (afterRuns room programs).functions.get? name =
      (declaring? name programs).bind fun program => (functionTable program).get? name := by
  induction programs using List.reverseRecOn with
  | nil => rfl
  | append_singleton programs program ih =>
      rw [afterRuns_concat, functions_run, setting, Scope.get?_union, ih, declaring?_concat]
      by_cases declared : name ∈ program.flatMap Expr.declares
      · have present := (contains_functionTable program name).2 declared
        obtain ⟨value, found⟩ := Option.isSome_iff_exists.1 present
        rw [if_pos declared, Option.bind_some, found]
        rfl
      · rw [if_neg declared, get?_functionTable_eq_none declared, Option.none_or]

theorem contains_afterRuns (room : Nat) (programs : List (List Expr)) (name : String) :
    (afterRuns room programs).functions.contains name ↔
      ∃ program ∈ programs, name ∈ program.flatMap Expr.declares := by
  induction programs using List.reverseRecOn with
  | nil => simp [afterRuns, fresh, Scope.contains, Scope.get?_empty]
  | append_singleton programs program ih =>
      rw [afterRuns_concat, functions_run, setting, Scope.contains_union, ih, contains_functionTable]
      simp only [List.mem_append, List.mem_singleton, or_and_right, exists_or, exists_eq_left]

end Session

/-- After any programs, the next one adds to the globals its lets before the first item that fails, and
a name is looked up in the table of the latest program that declares it, failed or not. -/
theorem session_history (room : Nat) (programs : List (List Expr)) (program : List Expr) :
    (∃ done rest, program = done ++ rest ∧
      Session.Passes room (Session.afterRuns room (programs ++ [program])).functions
        (Session.afterRuns room programs).globals done
        (Session.afterRuns room (programs ++ [program])).globals ∧
      ((rest = [] ∧ ∃ values,
          ((Session.afterRuns room programs).run room 0 program).result = .ok values) ∨
        ∃ item more fault, rest = item :: more ∧
          Session.Fails room (Session.afterRuns room (programs ++ [program])).functions
            (Session.afterRuns room (programs ++ [program])).globals item ∧
          ((Session.afterRuns room programs).run room 0 program).result = .error fault)) ∧
    ∀ name,
      (Session.afterRuns room (programs ++ [program])).functions.get? name =
        ((Session.declaring? name (programs ++ [program])).bind fun step =>
          (Session.functionTable step).get? name) ∧
      ((Session.afterRuns room (programs ++ [program])).functions.contains name ↔
        ∃ step ∈ programs ++ [program], name ∈ step.flatMap Expr.declares) := by
  constructor
  · rw [Session.afterRuns_concat]
    exact Session.run_grows (Session.afterRuns room programs) room program
  · intro name
    exact ⟨Session.get?_afterRuns room _ name, Session.contains_afterRuns room _ name⟩

/-- A let, a let that fails, one that is not reached, and a function behind them. -/
example :
    let program : List Expr :=
      [ .letTop "a" (.number 1 .origin) .origin,
        .letTop "b" (.call (.var "f" .origin) [.var "c" .origin] .origin) .origin,
        .letTop "c" (.number 2 .origin) .origin,
        .function "f" ["x"] (.var "x" .origin) .origin ]
    (Session.afterRuns 20 [program]).globals.items.names = ["a"] ∧
      (Session.afterRuns 20 [program]).functions.contains "f" := by
  decide +kernel

end FernLang
