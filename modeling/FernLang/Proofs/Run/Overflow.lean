import Mathlib.Order.Defs.Unbundled
import FernLang.Proofs.Run.Items

/-!
Running out of frames. How many frames a run may nest shows in one way only: a run that needs more than
it has is stopped, and the error that says so passes every call and every item on its way out. What the
run did up to there is how a run with more frames begins, and a run that is not stopped is the same with
any more frames.
-/

namespace FernLang

def Fault.TooDeep (fault : Fault) : Prop := ∃ error, fault = .raised error ∧ error.cause = .tooDeep

/-- Too many nested frames, whether or not an error says so yet. -/
def Fault.Overflow (fault : Fault) : Prop := fault = .outOfRoom ∨ fault.TooDeep

section

variable {σ α β : Type}

def ending : EStateM.Result Fault σ α → σ
  | .ok _ after | .error _ after => after

/-- A step with few frames beside the same step with many. With many, the state moves on. With few, the
step ends in the same way, or it is lost in a state that the other one comes past. -/
def Confined (earlier : σ → σ → Prop) (lost : Fault → Prop) (narrow wide : EStateM Fault σ α) : Prop :=
  ∀ before, earlier before (ending (wide before)) ∧
    (narrow before = wide before ∨
      ∃ fault after, narrow before = .error fault after ∧ lost fault ∧
        earlier after (ending (wide before)))

variable {earlier : σ → σ → Prop} {lost : Fault → Prop} {narrow wide : EStateM Fault σ α}

theorem confined_self {step : EStateM Fault σ α}
    (moves : ∀ before, earlier before (ending (step before))) : Confined earlier lost step step :=
  fun before => ⟨moves before, .inl rfl⟩

theorem Confined.mono {other : Fault → Prop} (confined : Confined earlier lost narrow wide)
    (weaker : ∀ fault, lost fault → other fault) : Confined earlier other narrow wide := by
  intro before
  obtain ⟨moved, ended⟩ := confined before
  refine ⟨moved, ended.imp_right ?_⟩
  rintro ⟨fault, after, stopped, gone, passed⟩
  exact ⟨fault, after, stopped, weaker fault gone, passed⟩

theorem Confined.stopped (confined : Confined earlier lost narrow wide) {fault : Fault}
    (gone : lost fault) : Confined earlier lost (throw fault) wide :=
  fun before => ⟨(confined before).1, .inr ⟨fault, before, rfl, gone, (confined before).1⟩⟩

variable [IsPreorder σ earlier]

theorem confined_pure (value : α) : Confined earlier lost (pure value) (pure value) :=
  confined_self fun before => refl_of earlier before

theorem confined_throw (fault : Fault) :
    Confined earlier lost (throw fault : EStateM Fault σ α) (throw fault) :=
  confined_self fun before => refl_of earlier before

theorem Confined.bind {next next' : α → EStateM Fault σ β} (early : Confined earlier lost narrow wide)
    (late : ∀ value, Confined earlier lost (next value) (next' value)) :
    Confined earlier lost (narrow >>= next) (wide >>= next') := by
  intro before
  obtain ⟨moved, ended⟩ := early before
  have onward : earlier (ending (wide before)) (ending ((wide >>= next') before)) := by
    rw [bind_steps]
    cases wide before with
    | ok value after => exact (late value after).1
    | error fault after => exact refl_of earlier after
  refine ⟨trans_of earlier moved onward, ?_⟩
  rcases ended with same | ⟨fault, after, stopped, gone, passed⟩
  · rw [bind_steps, bind_steps, same]
    cases wide before with
    | ok value after => exact (late value after).2
    | error fault after => exact .inl rfl
  · refine .inr ⟨fault, after, ?_, gone, trans_of earlier passed onward⟩
    rw [bind_steps, stopped]

theorem confined_mapM {entries : List β} {narrow wide : β → EStateM Fault σ α}
    (each : ∀ entry ∈ entries, Confined earlier lost (narrow entry) (wide entry)) :
    Confined earlier lost (entries.mapM narrow) (entries.mapM wide) := by
  induction entries with
  | nil =>
      rw [List.mapM_nil, List.mapM_nil]
      exact confined_pure []
  | cons entry entries ih =>
      rw [List.mapM_cons, List.mapM_cons]
      apply (each entry List.mem_cons_self).bind
      intro value
      apply (ih fun other member => each other (List.mem_cons_of_mem _ member)).bind
      intro values
      exact confined_pure (value :: values)

end

namespace Eval

variable {α : Type}

def Earlier (lines lines' : Array String) : Prop := lines.toList <+: lines'.toList

instance : IsPreorder (Array String) Earlier where
  refl lines := List.prefix_refl lines.toList
  trans _ _ _ := List.IsPrefix.trans

abbrev Shallower (narrow wide : Eval α) : Prop := Confined Earlier Fault.Overflow narrow wide

theorem shallower_written (text : Except Numeral.Error α) :
    Shallower (written text) (written text) := by
  cases text with
  | ok value => exact confined_pure value
  | error error => exact confined_throw (.numeral error)

theorem shallower_quoting {cause : String → Cause} (text : Except Numeral.Error String) (span : Span)
    (scope : Scope Value) (stack : Stack) :
    Shallower (do raise (cause (← written text)) span scope stack : Eval α)
      (do raise (cause (← written text)) span scope stack) :=
  (shallower_written text).bind fun shown => confined_throw (.raised ⟨cause shown, span, scope, stack⟩)

theorem confined_trace {lost : Fault → Prop} (level : Nat) (event : Event) :
    Confined Earlier lost (trace level event) (trace level event) := by
  apply confined_self
  intro lines
  unfold trace
  split
  · cases event.line with
    | error error => exact refl_of Earlier lines
    | ok line =>
        change lines.toList <+: (lines.push line).toList
        rw [Array.toList_push]
        exact List.prefix_append _ _
  · exact refl_of Earlier lines

theorem ending_withinRoom (error : RuntimeError) (eval : Eval α) (lines : Array String) :
    ending (withinRoom error eval lines) = ending (eval lines) := by
  unfold withinRoom
  cases eval lines with
  | ok value after => rfl
  | error fault after => cases fault <;> rfl

/-- An error is blamed on the nesting where frames run out, and one that was blamed on it further in
is passed on. -/
theorem Shallower.withinRoom {narrow wide : Eval α} (inside : Shallower narrow wide)
    (error : RuntimeError) (deep : error.cause = .tooDeep) :
    Confined Earlier Fault.TooDeep (withinRoom error narrow) (withinRoom error wide) := by
  intro lines
  obtain ⟨moved, ended⟩ := inside lines
  rw [ending_withinRoom]
  refine ⟨moved, ?_⟩
  rcases ended with same | ⟨fault, after, stopped, gone, passed⟩
  · unfold Eval.withinRoom
    exact .inl (by rw [same])
  · right
    rcases gone with rfl | ⟨inner, rfl, also⟩
    · exact ⟨.raised error, after, by rw [Eval.withinRoom, stopped], ⟨error, rfl, deep⟩, passed⟩
    · exact ⟨.raised inner, after, by rw [Eval.withinRoom, stopped], ⟨inner, rfl, also⟩, passed⟩

variable (setting : Setting)

theorem shallower_branches {narrow wide : Expr → Eval Value}
    (inside : ∀ tree, Shallower (narrow tree) (wide tree)) (scope : Scope Value) (stack : Stack)
    (otherwise : Expr) (choices : List (Expr × Expr)) :
    Shallower (branches setting narrow scope stack otherwise choices)
      (branches setting wide scope stack otherwise choices) := by
  induction choices with
  | nil => exact inside otherwise
  | cons choice choices ih =>
      rw [branches_cons, branches_cons]
      apply (inside choice.1).bind
      intro value
      generalize value.text = text
      cases value with
      | bool holds =>
          apply (confined_trace _ _).bind
          intro _
          cases holds with
          | true => exact inside choice.2
          | false => exact ih
      | _ => exact shallower_quoting text _ _ _

theorem shallower_call {narrow wide : Expr → Scope Value → Stack → Eval Value}
    (inside : ∀ tree scope stack, Shallower (narrow tree scope stack) (wide tree scope stack))
    (callee : Expr) (args : List Expr) (span : Span) (scope : Scope Value) (stack : Stack) :
    Shallower (call setting narrow callee args span scope stack)
      (call setting wide callee args span scope stack) := by
  rw [call_eq, call_eq]
  apply (inside callee scope stack).bind
  intro function
  generalize function.text = text
  cases function with
  | closure params body captured =>
      dsimp only
      by_cases arity : params.length ≠ args.length
      · rw [if_pos arity, if_pos arity]
        exact confined_throw _
      · rw [if_neg arity, if_neg arity]
        apply (confined_mapM fun arg _ => inside arg scope stack).bind
        intro values
        apply (confined_trace _ _).bind
        intro _
        refine Confined.mono ?_ fun _ deep => .inr deep
        exact (inside body _ _).withinRoom _ rfl
  | _ => exact shallower_quoting text _ _ _

end Eval

open Eval in
/-- An evaluation with fewer frames ends as one with more, or it overflows. -/
theorem evaluate_shallower (setting : Setting) {room wide : Nat} (le : room ≤ wide) (tree : Expr)
    (scope : Scope Value) (stack : Stack) :
    Shallower (evaluate setting room tree scope stack) (evaluate setting wide tree scope stack) := by
  induction wide using Nat.strongRecOn generalizing room tree scope stack with
  | ind wide ih =>
      cases wide with
      | zero =>
          obtain rfl : room = 0 := by omega
          exact confined_throw .outOfRoom
      | succ wide =>
          have some (room : Nat) (le : room ≤ wide) :
              Shallower (evaluate setting (room + 1) tree scope stack)
                (evaluate setting (wide + 1) tree scope stack) := by
            have inner (tree : Expr) (scope : Scope Value) (stack : Stack) :=
              ih wide (Nat.lt_succ_self wide) le tree scope stack
            cases tree with
            | number | bool | lambda => exact confined_pure _
            | row | letTop | function | dataType => exact confined_throw _
            | var name span =>
                rw [evaluate, evaluate, lookUp_eq]
                cases meaning? setting scope name with
                | some value => exact confined_pure value
                | none => exact confined_throw _
            | letIn name binding body span =>
                apply (inner binding scope stack).bind
                intro value
                exact inner body _ stack
            | binary sign left right span =>
                apply (inner left scope stack).bind
                intro first
                apply (inner right scope stack).bind
                intro second
                cases Operation.applySign sign first second with
                | ok value => exact confined_pure value
                | error obstacle => cases obstacle <;> exact confined_throw _
            | call callee args span =>
                cases wide with
                | zero =>
                    obtain rfl : room = 0 := by omega
                    exact confined_throw _
                | succ wide =>
                    have called {room : Nat} (le : room ≤ wide) := shallower_call setting
                      (fun tree scope stack => ih wide (by omega) le tree scope stack) callee args span
                      scope stack
                    cases room with
                    | zero => exact (called (Nat.le_refl wide)).stopped (.inl rfl)
                    | succ room => exact called (by omega)
            | cond choices otherwise span =>
                exact shallower_branches setting (fun tree => inner tree scope stack) scope stack
                  otherwise choices
            | construct tag fields span =>
                apply (confined_mapM fun field _ => inner field scope stack).bind
                intro values
                exact confined_pure _
            | matching scrutinee arms span =>
                apply (inner scrutinee scope stack).bind
                intro value
                cases selectArm value 0 arms with
                | none => exact shallower_quoting _ _ _ _
                | some choice =>
                    apply (confined_trace _ _).bind
                    intro _
                    exact inner choice.2.2 _ stack
          cases room with
          | zero => exact (some wide (Nat.le_refl wide)).stopped (.inl rfl)
          | succ room => exact some room (by omega)

namespace Session

/-- The first progress is on the way to the second: lets are only added, and so are lines. -/
structure Progress.Earlier (progress progress' : Progress) : Prop where
  globals : progress.globals.layers <:+ progress'.globals.layers
  lines : Eval.Earlier progress.lines progress'.lines

instance : IsPreorder Progress Progress.Earlier where
  refl progress := ⟨List.suffix_refl _, refl_of Eval.Earlier progress.lines⟩
  trans _ _ _ early late := ⟨early.globals.trans late.globals, trans_of Eval.Earlier early.lines late.lines⟩

abbrev Shallower {α : Type} (narrow wide : Run α) : Prop :=
  Confined Progress.Earlier Fault.TooDeep narrow wide

theorem shallower_evaluating {α : Type} {narrow wide : Eval α}
    (inside : Confined Eval.Earlier Fault.TooDeep narrow wide) :
    Shallower (evaluating narrow) (evaluating wide) := by
  intro progress
  have ended (eval : Eval α) :
      ending (evaluating eval progress) = { progress with lines := ending (eval progress.lines) } := by
    unfold evaluating
    cases eval progress.lines <;> rfl
  obtain ⟨moved, same⟩ := inside progress.lines
  rw [ended]
  refine ⟨⟨List.suffix_refl _, moved⟩, ?_⟩
  rcases same with same | ⟨fault, after, stopped, gone, passed⟩
  · exact .inl (by rw [evaluating, evaluating, same])
  · refine .inr ⟨fault, { progress with lines := after }, ?_, gone, List.suffix_refl _, passed⟩
    rw [evaluating, stopped]

variable (setting : Setting) {room wide : Nat} (le : room ≤ wide)
include le

theorem shallower_topLevel (expr : Expr) (span : Span) :
    Shallower (topLevel room setting expr span) (topLevel wide setting expr span) := by
  intro progress
  have inside := (evaluate_shallower setting le expr progress.globals .root).withinRoom
    ⟨.tooDeep, span, progress.globals, .root⟩ rfl
  exact shallower_evaluating inside progress

theorem shallower_runItem (item : Expr) :
    Shallower (runItem room setting item) (runItem wide setting item) := by
  have traced (event : Event) : Shallower (evaluating (Eval.trace setting.level event))
      (evaluating (Eval.trace setting.level event)) :=
    shallower_evaluating (Eval.confined_trace setting.level event)
  have valued : Shallower
      (do
        let value ← topLevel room setting item item.span
        evaluating (Eval.trace setting.level (.valued value))
        return some value)
      (do
        let value ← topLevel wide setting item item.span
        evaluating (Eval.trace setting.level (.valued value))
        return some value) := by
    apply (shallower_topLevel setting le item item.span).bind
    intro value
    apply (traced (.valued value)).bind
    intro _
    exact confined_pure (some value)
  cases item with
  | letTop name binding span =>
      apply (shallower_topLevel setting le binding span).bind
      intro value
      have grown : Shallower
          (modify fun progress => { progress with globals := progress.globals.extend name value })
          (modify fun progress => { progress with globals := progress.globals.extend name value }) :=
        confined_self fun progress => ⟨List.suffix_cons _ _, refl_of Eval.Earlier progress.lines⟩
      apply grown.bind
      intro _
      apply (traced (.bound name value)).bind
      intro _
      exact confined_pure none
  | letIn name binding body span => exact confined_self fun progress => refl_of Progress.Earlier progress
  | function | dataType => exact confined_pure none
  | _ => exact valued

theorem shallower_runItems (items : List Expr) :
    Shallower (runItems room setting items) (runItems wide setting items) := by
  induction items with
  | nil => exact confined_pure []
  | cons item items ih =>
      apply (shallower_runItem setting le item).bind
      intro value
      apply ih.bind
      intro values
      exact confined_pure (value.toList ++ values)

omit le

theorem run_ending (session : Session) (room level : Nat) (program : List Expr) :
    let after := ending
      (runItems room (session.setting level program) program ⟨session.globals, #[]⟩)
    (session.run room level program).session.globals = after.globals ∧
      (session.run room level program).lines = after.lines := by
  dsimp only
  cases ended : runItems room (session.setting level program) program ⟨session.globals, #[]⟩ with
  | ok values progress =>
      rw [run_ok ended]
      exact ⟨rfl, rfl⟩
  | error fault progress =>
      rw [run_error ended]
      exact ⟨rfl, rfl⟩

def Outcome.Overflows (outcome : Outcome) : Prop :=
  ∃ error, outcome.result = .error (.raised error) ∧
    error.cause.message = "Maximum recursion depth exceeded"

end Session

/-- Overflow is final and otherwise invisible. A run that does not overflow is the same with any more
frames, so one that overflows with more frames does so with fewer; and what a run has done when it
overflows, its lets and its lines, is what a run with more frames does first. -/
theorem overflow_final (session : Session) (level : Nat) (program : List Expr) {room wide : Nat}
    (le : room ≤ wide) :
    (¬(session.run room level program).Overflows →
      session.run wide level program = session.run room level program) ∧
      ((session.run wide level program).Overflows → (session.run room level program).Overflows) ∧
      (session.run room level program).session.globals.layers <:+
        (session.run wide level program).session.globals.layers ∧
      (session.run room level program).lines.toList <+: (session.run wide level program).lines.toList := by
  obtain ⟨-, ended⟩ := Session.shallower_runItems (session.setting level program) le program
    ⟨session.globals, #[]⟩
  rcases ended with same | ⟨fault, after, stopped, ⟨error, rfl, deep⟩, passed⟩
  · have equal : session.run wide level program = session.run room level program := by
      unfold Session.setting at same
      rw [Session.run, Session.run, same]
    rw [equal]
    exact ⟨fun _ => rfl, id, List.suffix_refl _, List.prefix_refl _⟩
  · have overflows : (session.run room level program).Overflows := by
      rw [Session.run_error stopped]
      exact ⟨error, rfl, by rw [deep]; rfl⟩
    obtain ⟨globals, lines⟩ := session.run_ending wide level program
    rw [globals, lines, Session.run_error stopped]
    rw [Session.run_error stopped] at overflows
    exact ⟨fun fine => absurd overflows fine, fun _ => overflows, passed.globals, passed.lines⟩

/-- The tree of `function spend(a, b): if a: spend(b, false) else: a end end let t = true spend(t, t)`. -/
def spending : List Expr :=
  [ .function "spend" ["a", "b"]
      (.cond
        [(.var "a" (.ofWidth 25 1),
          .call (.var "spend" (.ofWidth 28 5)) [.var "b" (.ofWidth 34 1), .bool false (.ofWidth 37 5)]
            (.ofWidth 28 15))]
        (.var "a" (.ofWidth 50 1)) (.ofWidth 22 33))
      (.ofWidth 0 59),
    .letTop "t" (.bool true (.ofWidth 68 4)) (.ofWidth 60 12),
    .call (.var "spend" (.ofWidth 73 5)) [.var "t" (.ofWidth 79 1), .var "t" (.ofWidth 82 1)]
      (.ofWidth 73 11) ]

/-- Three nested calls need ten frames. With nine the last call is traced and its body is not reached;
the limit of frames gives what ten frames give. -/
theorem spending_overflow :
    (Session.fresh.run 9 3 spending).Overflows ∧ (Session.fresh.run 9 3 spending).lines.size = 6 ∧
      (Session.fresh.run 9 3 spending).lines.toList <+: (Session.fresh.run 10 3 spending).lines.toList ∧
      (Session.fresh.run 10 3 spending).result = .ok [.bool false] ∧
      (Session.fresh.run 10 3 spending).lines.size = 8 ∧
      Session.fresh.run Session.frameLimit 3 spending = Session.fresh.run 10 3 spending := by
  have finished : (Session.fresh.run 10 3 spending).result = .ok [.bool false] := rfl
  refine ⟨⟨_, rfl, rfl⟩, rfl, (overflow_final .fresh 3 spending (Nat.le_succ 9)).2.2.2, finished, rfl, ?_⟩
  apply (overflow_final .fresh 3 spending (by decide)).1
  intro overflows
  obtain ⟨error, failed, -⟩ := overflows
  rw [finished] at failed
  cases failed

end FernLang
