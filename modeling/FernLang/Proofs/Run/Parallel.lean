import FernLang.Proofs.Run.CallStack
import FernLang.Proofs.Value.Congruence

/-!
Runs in parallel. Two runs whose trees differ in spans only, and whose scopes and tables differ in
layers and order only, take the same steps: they end with the same values, or with errors of one cause
under equally many calls, and they trace the same lines on the way.
-/

namespace FernLang

section

variable {σ α β γ δ : Type}

/-- Two endings in related states, with related values or with related faults. -/
inductive Paired (state : σ → σ → Prop) (kind : α → β → Prop) (blame : Fault → Fault → Prop) :
    EStateM.Result Fault σ α → EStateM.Result Fault σ β → Prop
  | value {value : α} {value' : β} {after after' : σ} (same : kind value value')
      (states : state after after') : Paired state kind blame (.ok value after) (.ok value' after')
  | fault {fault fault' : Fault} {after after' : σ} (same : blame fault fault')
      (states : state after after') : Paired state kind blame (.error fault after) (.error fault' after')

theorem Paired.of_ok {state : σ → σ → Prop} {kind : α → β → Prop} {blame : Fault → Fault → Prop}
    {value : α} {after : σ} {other : EStateM.Result Fault σ β}
    (paired : Paired state kind blame (.ok value after) other) :
    ∃ value' after', other = .ok value' after' ∧ kind value value' ∧ state after after' := by
  cases paired with
  | value same states => exact ⟨_, _, rfl, same, states⟩

theorem Paired.of_error {state : σ → σ → Prop} {kind : α → β → Prop} {blame : Fault → Fault → Prop}
    {fault : Fault} {after : σ} {other : EStateM.Result Fault σ β}
    (paired : Paired state kind blame (.error fault after) other) :
    ∃ fault' after', other = .error fault' after' ∧ blame fault fault' ∧ state after after' := by
  cases paired with
  | fault same states => exact ⟨_, _, rfl, same, states⟩

def Parallel (state : σ → σ → Prop) (kind : α → β → Prop) (blame : Fault → Fault → Prop)
    (run : EStateM Fault σ α) (other : EStateM Fault σ β) : Prop :=
  ∀ before before', state before before' → Paired state kind blame (run before) (other before')

variable {state : σ → σ → Prop} {kind : α → β → Prop} {later : γ → δ → Prop}
  {blame : Fault → Fault → Prop}

theorem parallel_pure {value : α} {value' : β} (same : kind value value') :
    Parallel state kind blame (pure value) (pure value') :=
  fun _ _ states => .value same states

theorem parallel_throw {fault fault' : Fault} (same : blame fault fault') :
    Parallel state kind blame (throw fault) (throw fault') :=
  fun _ _ states => .fault same states

theorem Parallel.bind {run : EStateM Fault σ α} {other : EStateM Fault σ β}
    {next : α → EStateM Fault σ γ} {next' : β → EStateM Fault σ δ}
    (early : Parallel state kind blame run other)
    (late : ∀ value value', kind value value' →
      Parallel state later blame (next value) (next' value')) :
    Parallel state later blame (run >>= next) (other >>= next') := by
  intro before before' states
  have here := early before before' states
  rw [bind_steps, bind_steps]
  generalize run before = ended, other before' = ended' at here ⊢
  cases here with
  | value same states => exact late _ _ same _ _ states
  | fault same states => exact .fault same states

theorem parallel_mapM {entries : List γ} {entries' : List δ} {run : γ → EStateM Fault σ α}
    {other : δ → EStateM Fault σ β}
    (each : List.Forall₂ (fun entry entry' => Parallel state kind blame (run entry) (other entry'))
      entries entries') :
    Parallel state (List.Forall₂ kind) blame (entries.mapM run) (entries'.mapM other) := by
  induction each with
  | nil =>
      rw [List.mapM_nil, List.mapM_nil]
      exact parallel_pure .nil
  | cons here _ ih =>
      rw [List.mapM_cons, List.mapM_cons]
      apply here.bind
      intro value value' same
      apply ih.bind
      intro values values' others
      exact parallel_pure (.cons same others)

end

namespace Session

structure Progress.Related (globals : Scope Value → Scope Value → Prop)
    (lines : Array String → Array String → Prop) (progress progress' : Progress) : Prop where
  globals : globals progress.globals progress'.globals
  lines : lines progress.lines progress'.lines

theorem paired_evaluating {α β : Type} {kind : α → β → Prop} {blame : Fault → Fault → Prop}
    {same : Scope Value → Scope Value → Prop} {traced : Array String → Array String → Prop}
    {eval : Eval α} {other : Eval β} {progress progress' : Progress}
    (states : progress.Related same traced progress')
    (ended : Paired traced kind blame (eval progress.lines) (other progress'.lines)) :
    Paired (Progress.Related same traced) kind blame (evaluating eval progress)
      (evaluating other progress') := by
  unfold evaluating
  generalize eval progress.lines = first, other progress'.lines = second at ended ⊢
  cases ended with
  | value values lines => exact .value values ⟨states.globals, lines⟩
  | fault faults lines => exact .fault faults ⟨states.globals, lines⟩

variable {room : Nat} {setting setting' : Setting} {state : Progress → Progress → Prop}
  {kind : Value → Value → Prop} {blame : Fault → Fault → Prop}

theorem parallel_valued {item item' : Expr}
    (evaluated : Parallel state kind blame (topLevel room setting item item.span)
      (topLevel room setting' item' item'.span))
    (traced : ∀ value value', kind value value' →
      Parallel state Eq blame (evaluating (Eval.trace setting.level (.valued value)))
        (evaluating (Eval.trace setting'.level (.valued value')))) :
    Parallel state (Option.Rel kind) blame
      (do
        let value ← topLevel room setting item item.span
        evaluating (Eval.trace setting.level (.valued value))
        return some value)
      (do
        let value ← topLevel room setting' item' item'.span
        evaluating (Eval.trace setting'.level (.valued value))
        return some value) := by
  apply evaluated.bind
  intro value value' same
  apply (traced value value' same).bind
  intro _ _ _
  exact parallel_pure (.some same)

theorem parallel_bound {name : String} {binding binding' : Expr} {span span' : Span}
    (evaluated : Parallel state kind blame (topLevel room setting binding span)
      (topLevel room setting' binding' span'))
    (extended : ∀ value value' progress progress', kind value value' → state progress progress' →
      state { progress with globals := progress.globals.extend name value }
        { progress' with globals := progress'.globals.extend name value' })
    (traced : ∀ value value', kind value value' →
      Parallel state Eq blame (evaluating (Eval.trace setting.level (.bound name value)))
        (evaluating (Eval.trace setting'.level (.bound name value')))) :
    Parallel state (Option.Rel kind) blame (runItem room setting (.letTop name binding span))
      (runItem room setting' (.letTop name binding' span')) := by
  apply evaluated.bind
  intro value value' same
  have grown : Parallel state (fun (_ _ : Unit) => True) blame
      (modify fun progress => { progress with globals := progress.globals.extend name value })
      (modify fun progress => { progress with globals := progress.globals.extend name value' }) :=
    fun _ _ states => .value trivial (extended value value' _ _ same states)
  apply grown.bind
  intro _ _ _
  apply (traced value value' same).bind
  intro _ _ _
  exact parallel_pure .none

theorem parallel_runItems {items items' : List Expr}
    (each : List.Forall₂ (fun item item' => Parallel state (Option.Rel kind) blame
      (runItem room setting item) (runItem room setting' item')) items items') :
    Parallel state (List.Forall₂ kind) blame (runItems room setting items)
      (runItems room setting' items') := by
  induction each with
  | nil => exact parallel_pure .nil
  | cons here _ ih =>
      apply here.bind
      intro value value' first
      apply ih.bind
      intro values values' others
      apply parallel_pure
      cases first with
      | none => exact others
      | some same => exact .cons same others

end Session

open FernLang.Expr (Twin)

def Stack.Same : Stack → Stack → Prop :=
  List.Forall₂ fun frame frame' => frame.arguments.Same Twin frame'.arguments

theorem Stack.Same.root : Stack.Same .root .root := .cons .empty .nil

theorem Stack.Same.push {stack stack' : Stack} (same : stack.Same stack')
    {arguments arguments' : Scope Value} (inner : arguments.Same Twin arguments') (span span' : Span) :
    Stack.Same (stack ++ [⟨span, arguments⟩]) (stack' ++ [⟨span', arguments'⟩]) :=
  List.rel_append same (.cons inner .nil)

/-- What may be in the way of an operator: a cause, or a number that cannot be shown. -/
def Obstacle.Orderly : Obstacle → Prop
  | .cause _ | .numeral _ => True
  | .compoundSign | .misused _ => False

/-- Errors of one cause, in scopes that are the same and under the same calls; numbers that are too long
for one reason; or no room left. -/
inductive Fault.Same : Fault → Fault → Prop
  | raised (cause : Cause) (span span' : Span) {scope scope' : Scope Value} {stack stack' : Stack}
      (scopes : scope.Same Twin scope') (calls : stack.Same stack') :
      Same (.raised ⟨cause, span, scope, stack⟩) (.raised ⟨cause, span', scope', stack'⟩)
  | numeral (error : Numeral.Error) : Same (.numeral error) (.numeral error)
  | outOfRoom : Same .outOfRoom .outOfRoom

theorem Event.line_called_same {related : Expr → Expr → Prop} {arguments arguments' : Bindings Value}
    (same : arguments.Same related arguments') (name : String) (depth : Nat) :
    (Event.called name arguments depth).line = (Event.called name arguments' depth).line := by
  have texts : (arguments.mapM fun entry => do return entry.1 ++ "=" ++ (← entry.2.text) :
        Except Numeral.Error (List String)) =
      arguments'.mapM fun entry => do return entry.1 ++ "=" ++ (← entry.2.text) := by
    induction same with
    | nil => rfl
    | cons here _ ih => rw [List.mapM_cons, List.mapM_cons, ih, here.1, here.2.text]
  rw [Event.line, Event.line, texts]

namespace Eval

variable {α β : Type}

abbrev Abreast (kind : α → β → Prop) (eval : Eval α) (other : Eval β) : Prop :=
  Parallel Eq kind Fault.Same eval other

variable {kind : α → β → Prop} {scope scope' : Scope Value} {stack stack' : Stack}

theorem abreast_written (text : Except Numeral.Error α) :
    Abreast Eq (written text) (written text) := by
  cases text with
  | ok value => exact parallel_pure rfl
  | error error => exact parallel_throw (.numeral error)

theorem abreast_trace (level : Nat) {event event' : Event} (lines : event.line = event'.line)
    (levels : event.level = event'.level) :
    Abreast Eq (trace level event) (trace level event') := by
  unfold trace
  rw [levels, lines]
  split
  · apply (abreast_written event'.line).bind
    rintro line _ rfl before _ rfl
    exact .value rfl rfl
  · exact parallel_pure rfl

section

variable (scopes : scope.Same Twin scope') (calls : stack.Same stack')
include scopes calls

theorem abreast_raise (cause : Cause) (span span' : Span) :
    Abreast kind (raise cause span scope stack) (raise cause span' scope' stack') :=
  parallel_throw (.raised cause span span' scopes calls)

theorem abreast_quoting {cause : String → Cause} {text text' : Except Numeral.Error String}
    (texts : text = text') (span span' : Span) :
    Abreast kind (do raise (cause (← written text)) span scope stack)
      (do raise (cause (← written text')) span' scope' stack') := by
  subst texts
  apply (abreast_written text).bind
  rintro shown _ rfl
  exact abreast_raise scopes calls (cause shown) span span'

theorem abreast_applied (result : Operation.Result Value) (span span' : Span) :
    Operation.Answers Value.Plain Obstacle.Orderly result → Abreast (Value.Same Twin)
      (match result with
        | .ok value => return value
        | .error (.cause cause) => raise cause span scope stack
        | .error (.numeral error) => throw (.numeral error)
        | .error .compoundSign => throw .compoundSign
        | .error (.misused misuse) => throw (.misused misuse))
      (match result with
        | .ok value => return value
        | .error (.cause cause) => raise cause span' scope' stack'
        | .error (.numeral error) => throw (.numeral error)
        | .error .compoundSign => throw .compoundSign
        | .error (.misused misuse) => throw (.misused misuse)) := by
  intro plain
  cases result with
  | ok value =>
      cases plain with
      | num value => exact parallel_pure (.num value)
      | bool value => exact parallel_pure (.bool value)
  | error obstacle =>
      cases obstacle with
      | cause cause => exact abreast_raise scopes calls cause span span'
      | numeral error => exact parallel_throw (.numeral error)
      | compoundSign | misused => exact plain.elim

theorem Abreast.withinRoom {eval : Eval α} {other : Eval β} (inside : Abreast kind eval other)
    (span span' : Span) :
    Abreast kind (withinRoom ⟨.tooDeep, span, scope, stack⟩ eval)
      (withinRoom ⟨.tooDeep, span', scope', stack'⟩ other) := by
  intro lines lines' same
  have here := inside lines lines' same
  unfold Eval.withinRoom
  generalize eval lines = ended, other lines' = ended' at here ⊢
  cases here with
  | value values states => exact .value values states
  | fault faults states =>
      cases faults with
      | outOfRoom => exact .fault (.raised .tooDeep span span' scopes calls) states
      | raised cause place place' inner deeper =>
          exact .fault (.raised cause place place' inner deeper) states
      | numeral error => exact .fault (.numeral error) states

variable {setting setting' : Setting} (levels : setting.level = setting'.level)
include levels

theorem abreast_branches {eval eval' : Expr → Eval Value} {otherwise otherwise' : Expr}
    (last : Abreast (Value.Same Twin) (eval otherwise) (eval' otherwise'))
    {choices choices' : List (Expr × Expr)}
    (each : List.Forall₂
      (fun choice choice' => Abreast (Value.Same Twin) (eval choice.1) (eval' choice'.1) ∧
        Abreast (Value.Same Twin) (eval choice.2) (eval' choice'.2)) choices choices') :
    Abreast (Value.Same Twin) (branches setting eval scope stack otherwise choices)
      (branches setting' eval' scope' stack' otherwise' choices') := by
  induction each with
  | nil => exact last
  | cons here _ ih =>
      rw [branches_cons, branches_cons]
      apply here.1.bind
      intro value value' same
      have texts := same.text
      cases same with
      | bool holds =>
          dsimp only
          rw [levels]
          apply (abreast_trace _ rfl rfl).bind
          intro _ _ _
          cases holds with
          | true => exact here.2
          | false => exact ih
      | num | closure | data => exact abreast_quoting scopes calls texts _ _

end

/-- What is asked of two evaluators: given twins, they go in parallel. -/
def Respects (eval eval' : Expr → Scope Value → Stack → Eval Value) : Prop :=
  ∀ {tree tree' : Expr} {scope scope' : Scope Value} {stack stack' : Stack}, Twin tree tree' →
    scope.Same Twin scope' → stack.Same stack' →
      Abreast (Value.Same Twin) (eval tree scope stack) (eval' tree' scope' stack')

theorem calleeName_same {callee callee' : Expr} (twin : Twin callee callee') :
    calleeName callee = calleeName callee' := by
  cases twin.matched <;> rfl

section

variable {setting setting' : Setting} (levels : setting.level = setting'.level)
  {eval eval' : Expr → Scope Value → Stack → Eval Value} (respects : Respects eval eval')
  (scopes : scope.Same Twin scope') (calls : stack.Same stack')
include levels respects scopes calls

theorem abreast_matching {value value' : Value} (same : value.Same Twin value')
    {arms arms' : List (Pattern × Expr)}
    (each : List.Forall₂ (fun arm arm' => arm.1 = arm'.1 ∧ Twin arm.2 arm'.2) arms arms')
    (span span' : Span) :
    Abreast (Value.Same Twin)
      (match selectArm value 0 arms with
        | some (index, bindings, body) => do
            trace setting.level (.chose value index)
            eval body (scope.union (.ofBindings bindings)) stack
        | none => do raise (.unmatched (← written value.text)) span scope stack)
      (match selectArm value' 0 arms' with
        | some (index, bindings, body) => do
            trace setting'.level (.chose value' index)
            eval' body (scope'.union (.ofBindings bindings)) stack'
        | none => do raise (.unmatched (← written value'.text)) span' scope' stack') := by
  have selected := selectArm_same same 0 each
  generalize selectArm value 0 arms = found, selectArm value' 0 arms' = found' at selected ⊢
  cases selected with
  | none => exact abreast_quoting scopes calls same.text span span'
  | @some choice choice' chosen =>
      obtain ⟨index, bindings, body⟩ := choice
      obtain ⟨index', bindings', body'⟩ := choice'
      obtain ⟨rfl, bound, bodies⟩ := chosen
      dsimp only
      rw [levels]
      have lines : (Event.chose value index).line = (Event.chose value' index).line := by
        rw [Event.line, Event.line, same.text]
      apply (abreast_trace _ lines rfl).bind
      intro _ _ _
      exact respects bodies (scopes.union (.ofBindings bound)) calls

theorem abreast_call {callee callee' : Expr} (callees : Twin callee callee') {args args' : List Expr}
    (each : List.Forall₂ Twin args args') (span span' : Span) :
    Abreast (Value.Same Twin) (call setting eval callee args span scope stack)
      (call setting' eval' callee' args' span' scope' stack') := by
  rw [call_eq, call_eq]
  apply (respects callees scopes calls).bind
  intro function function' same
  have texts := same.text
  cases same with
  | @closure params body body' _ _ bodies names held =>
      have whole : Value.Same Twin (.closure params body _) (.closure params body' _) :=
        .closure bodies names held
      have captured := (Value.Same.closure_iff.1 whole).2.2
      dsimp only
      rw [each.length_eq]
      split
      · exact abreast_raise scopes calls _ span span'
      · apply (parallel_mapM (each.imp fun _ _ twin => respects twin scopes calls)).bind
        intro values values' given
        have arguments := (Bindings.Same.zip params given).ofPairs
        rw [levels, calleeName_same callees, calls.length_eq]
        apply (abreast_trace _ (Event.line_called_same arguments _ _) rfl).bind
        intro _ _ _
        have inner := Scope.Same.ofBindings arguments
        have deeper := calls.push inner span span'
        exact (respects bodies (captured.union inner) deeper).withinRoom scopes deeper span span'
  | num | bool | data => exact abreast_quoting scopes calls texts span span'

end

end Eval

theorem Operation.answers_text (symbol : String) (first second : Value) :
    Answers Value.Plain Obstacle.Orderly (applySign (.text symbol) first second) := by
  have answers := answers_applySign (.text symbol) first second
  cases result : applySign (.text symbol) first second with
  | ok value =>
      rw [result] at answers
      exact answers
  | error obstacle =>
      rw [result] at answers
      cases answers with
      | operand | unknown | long => trivial
      | compound unknown =>
          unfold applySign at result
          rw [unknown] at result
          generalize (Json.text symbol).label = shown at result
          cases shown <;> cases result

open Eval in
theorem evaluate_respects {table table' : Scope Value} (tables : table.Same Twin table')
    (level room : Nat) : Respects (evaluate ⟨table, level⟩ room) (evaluate ⟨table', level⟩ room) := by
  have levels : Setting.level ⟨table, level⟩ = Setting.level ⟨table', level⟩ := rfl
  induction room using Nat.strongRecOn with
  | ind room ih =>
      intro tree tree' scope scope' stack stack' twin scopes calls
      cases room with
      | zero => exact parallel_throw .outOfRoom
      | succ room =>
          have inner : Respects (evaluate ⟨table, level⟩ room) (evaluate ⟨table', level⟩ room) :=
            ih room (Nat.lt_succ_self room)
          cases twin.matched with
          | number value => exact parallel_pure (.num value)
          | bool value => exact parallel_pure (.bool value)
          | var name span span' =>
              have meaning := rel_or (scopes name) (tables name)
              rw [evaluate, evaluate, lookUp_eq, lookUp_eq, meaning?, meaning?]
              generalize (scope.get? name).or _ = found, (scope'.get? name).or _ = found' at meaning ⊢
              cases meaning with
              | some same => exact parallel_pure same
              | none => exact abreast_raise scopes calls _ span span'
          | letIn name _ _ bindings bodies =>
              apply (inner bindings scopes calls).bind
              intro value value' same
              exact inner bodies (scopes.extend name same) calls
          | binary symbol span span' lefts rights =>
              apply (inner lefts scopes calls).bind
              intro left left' firsts
              apply (inner rights scopes calls).bind
              intro right right' seconds
              rw [Operation.applySign_same (fun _ _ twin => twin.alike) firsts seconds]
              exact abreast_applied scopes calls _ span span' (Operation.answers_text symbol left' right')
          | lambda params _ _ bodies =>
              exact parallel_pure (Value.Same.closure_iff.2 ⟨rfl, bodies, scopes⟩)
          | call span span' callees each =>
              cases room with
              | zero => exact parallel_throw .outOfRoom
              | succ room =>
                  exact abreast_call levels (ih room (by omega)) scopes calls callees each span span'
          | cond _ _ each last =>
              refine abreast_branches scopes calls levels (inner last scopes calls) ?_
              exact each.imp fun _ _ twins => ⟨inner twins.1 scopes calls, inner twins.2 scopes calls⟩
          | construct tag _ _ each =>
              apply (parallel_mapM (each.imp fun _ _ twin => inner twin scopes calls)).bind
              intro fields fields' same
              exact parallel_pure (Value.Same.data_iff.2 ⟨rfl, same⟩)
          | matching span span' scrutinees each =>
              apply (inner scrutinees scopes calls).bind
              intro value value' same
              exact abreast_matching levels inner scopes calls same each span span'
          | letTop | function | dataType => exact abreast_raise scopes calls _ _ _

end FernLang
