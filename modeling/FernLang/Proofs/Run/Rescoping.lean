import FernLang.Proofs.Run.Parallel

/-!
One tree in two scopes. Evaluation asks a scope for what it says of names, so a tree evaluated in
scopes that answer alike comes to values that differ in the layers of scopes
only, or to faults at one place and for one cause. The stacks below may be different ones: they
show at the bottom of the stacks of errors and nowhere else.
-/

namespace FernLang

structure Frame.Same (frame frame' : Frame) : Prop where
  span : frame.span = frame'.span
  arguments : frame.arguments.Same Eq frame'.arguments

/-- Faults that differ in the layers of scopes and in what lies at the bottom of their stacks. -/
inductive Fault.Rescoped (first second : Stack) : Fault → Fault → Prop
  | raised (cause : Cause) (span : Span) {scope scope' : Scope Value} {calls calls' : Stack}
      (scopes : scope.Same Eq scope') (frames : List.Forall₂ Frame.Same calls calls') :
      Rescoped first second (.raised ⟨cause, span, scope, first ++ calls⟩)
        (.raised ⟨cause, span, scope', second ++ calls'⟩)
  | numeral (error : Numeral.Error) : Rescoped first second (.numeral error) (.numeral error)
  | bareRow : Rescoped first second .bareRow .bareRow
  | compoundSign : Rescoped first second .compoundSign .compoundSign
  | misused (misuse : Misuse) : Rescoped first second (.misused misuse) (.misused misuse)
  | outOfRoom : Rescoped first second .outOfRoom .outOfRoom

theorem Fault.Rescoped.pop {first second : Stack} {frame frame' : Frame} {fault fault' : Fault}
    (frames : frame.Same frame')
    (same : Rescoped (first ++ [frame]) (second ++ [frame']) fault fault') :
    Rescoped first second fault fault' := by
  cases same with
  | raised cause span scopes calls =>
      rw [List.append_assoc, List.append_assoc]
      exact .raised cause span scopes (.cons frames calls)
  | numeral error => exact .numeral error
  | bareRow => exact .bareRow
  | compoundSign => exact .compoundSign
  | misused misuse => exact .misused misuse
  | outOfRoom => exact .outOfRoom

namespace Eval

variable {α β : Type} {first second : Stack} {scope scope' : Scope Value}

abbrev Rescope (first second : Stack) (kind : α → β → Prop) (eval : Eval α) (other : Eval β) : Prop :=
  Parallel (fun _ _ => True) kind (Fault.Rescoped first second) eval other

theorem rescope_written (text : Except Numeral.Error α) :
    Rescope first second Eq (written text) (written text) := by
  cases text with
  | ok value => exact parallel_pure rfl
  | error error => exact parallel_throw (.numeral error)

theorem rescope_trace (level : Nat) {event event' : Event}
    (lines : event.line.map (fun _ => ()) = event'.line.map fun _ => ())
    (levels : event.level = event'.level) :
    Rescope first second Eq (trace level event) (trace level event') := by
  unfold trace
  rw [levels]
  split
  · generalize event.line = line, event'.line = line' at lines ⊢
    cases line with
    | ok text =>
        cases line' with
        | ok text' => exact fun _ _ _ => .value rfl trivial
        | error error => cases lines
    | error error =>
        cases line' with
        | ok text' => cases lines
        | error error' =>
            cases lines
            exact parallel_throw (.numeral error)
  · exact parallel_pure rfl

/-- Neither the layers of its arguments nor its depth decide whether a call has a line. -/
theorem line_called_rescoped {arguments arguments' : Bindings Value}
    (same : arguments.Same Eq arguments') (name : String) (depth depth' : Nat) :
    (Event.called name arguments depth).line.map (fun _ => ()) =
      (Event.called name arguments' depth').line.map fun _ => () := by
  obtain ⟨shown, line⟩ := line_called name arguments'
  rw [Event.line_called_same same, line, line]
  cases shown <;> rfl

theorem rescope_raise (scopes : scope.Same Eq scope') {kind : α → β → Prop} (cause : Cause)
    (span : Span) :
    Rescope first second kind (raise cause span scope first) (raise cause span scope' second) := by
  have same : Fault.Rescoped first second (.raised ⟨cause, span, scope, first ++ []⟩)
      (.raised ⟨cause, span, scope', second ++ []⟩) := .raised cause span scopes .nil
  rw [List.append_nil, List.append_nil] at same
  exact parallel_throw same

theorem rescope_quoting (scopes : scope.Same Eq scope') {kind : α → β → Prop} {cause : String → Cause}
    {text text' : Except Numeral.Error String} (texts : text = text') (span : Span) :
    Rescope first second kind (do raise (cause (← written text)) span scope first)
      (do raise (cause (← written text')) span scope' second) := by
  subst texts
  apply (rescope_written text).bind
  rintro shown _ rfl
  exact rescope_raise scopes (cause shown) span

theorem Rescope.withinRoom {kind : α → β → Prop} {eval : Eval α} {other : Eval β} {frame frame' : Frame}
    (scopes : scope.Same Eq scope') (frames : frame.Same frame')
    (inside : Rescope (first ++ [frame]) (second ++ [frame']) kind eval other) (span : Span) :
    Rescope first second kind (withinRoom ⟨.tooDeep, span, scope, first ++ [frame]⟩ eval)
      (withinRoom ⟨.tooDeep, span, scope', second ++ [frame']⟩ other) := by
  intro lines lines' states
  have here := inside lines lines' states
  unfold Eval.withinRoom
  generalize eval lines = ended, other lines' = ended' at here ⊢
  cases here with
  | value values states => exact .value values states
  | fault faults states =>
      cases faults with
      | outOfRoom => exact .fault (.raised .tooDeep span scopes (.cons frames .nil)) states
      | raised cause place inner calls =>
          exact .fault ((Fault.Rescoped.raised cause place inner calls).pop frames) states
      | numeral error => exact .fault (.numeral error) states
      | bareRow => exact .fault .bareRow states
      | compoundSign => exact .fault .compoundSign states
      | misused misuse => exact .fault (.misused misuse) states

theorem rescope_applied (scopes : scope.Same Eq scope') (result : Operation.Result Value)
    (span : Span) :
    Rescope first second (Value.Same Eq)
      (match result with
        | .ok value => return value
        | .error (.cause cause) => raise cause span scope first
        | .error (.numeral error) => throw (.numeral error)
        | .error .compoundSign => throw .compoundSign
        | .error (.misused misuse) => throw (.misused misuse))
      (match result with
        | .ok value => return value
        | .error (.cause cause) => raise cause span scope' second
        | .error (.numeral error) => throw (.numeral error)
        | .error .compoundSign => throw .compoundSign
        | .error (.misused misuse) => throw (.misused misuse)) := by
  cases result with
  | ok value => exact parallel_pure (.refl (fun _ => rfl) value)
  | error obstacle =>
      cases obstacle with
      | cause cause => exact rescope_raise scopes cause span
      | numeral error => exact parallel_throw (.numeral error)
      | compoundSign => exact parallel_throw .compoundSign
      | misused misuse => exact parallel_throw (.misused misuse)

theorem rescope_branches (scopes : scope.Same Eq scope') (setting : Setting)
    {eval eval' : Expr → Eval Value}
    (each : ∀ tree, Rescope first second (Value.Same Eq) (eval tree) (eval' tree))
    (otherwise : Expr) (choices : List (Expr × Expr)) :
    Rescope first second (Value.Same Eq) (branches setting eval scope first otherwise choices)
      (branches setting eval' scope' second otherwise choices) := by
  induction choices with
  | nil => exact each otherwise
  | cons choice choices ih =>
      rw [branches_cons, branches_cons]
      apply (each choice.1).bind
      intro value value' same
      have texts := same.text
      cases same with
      | bool holds =>
          apply (rescope_trace _ rfl rfl).bind
          intro _ _ _
          cases holds with
          | true => exact each choice.2
          | false => exact ih
      | num | closure | data => exact rescope_quoting scopes texts _

/-- What is asked of an evaluator: it asks a scope for its answers only. -/
def IgnoresLayers (eval : Expr → Scope Value → Stack → Eval Value) : Prop :=
  ∀ (tree : Expr) {scope scope' : Scope Value} (first second : Stack), scope.Same Eq scope' →
    Rescope first second (Value.Same Eq) (eval tree scope first) (eval tree scope' second)

theorem rescope_matching (setting : Setting) {eval : Expr → Scope Value → Stack → Eval Value}
    (ignores : IgnoresLayers eval) (scopes : scope.Same Eq scope') {value value' : Value}
    (same : value.Same Eq value') (arms : List (Pattern × Expr)) (span : Span) :
    Rescope first second (Value.Same Eq)
      (match selectArm value 0 arms with
        | some (index, bindings, body) => do
            trace setting.level (.chose value index)
            eval body (scope.union (.ofBindings bindings)) first
        | none => do raise (.unmatched (← written value.text)) span scope first)
      (match selectArm value' 0 arms with
        | some (index, bindings, body) => do
            trace setting.level (.chose value' index)
            eval body (scope'.union (.ofBindings bindings)) second
        | none => do raise (.unmatched (← written value'.text)) span scope' second) := by
  have arm : List.Forall₂ (fun (one other : Pattern × Expr) => one.1 = other.1 ∧ one.2 = other.2) arms arms :=
    List.forall₂_same.2 fun _ _ => ⟨rfl, rfl⟩
  have selected := selectArm_same same 0 arm
  generalize selectArm value 0 arms = found, selectArm value' 0 arms = found' at selected ⊢
  cases selected with
  | none => exact rescope_quoting scopes same.text span
  | @some choice choice' chosen =>
      obtain ⟨index, bindings, body⟩ := choice
      obtain ⟨index', bindings', body'⟩ := choice'
      obtain ⟨rfl, bound, rfl⟩ := chosen
      have lines : (Event.chose value index).line = (Event.chose value' index).line := by
        rw [Event.line, Event.line, same.text]
      apply (rescope_trace _ (congrArg _ lines) rfl).bind
      intro _ _ _
      exact ignores body first second (scopes.union (.ofBindings bound))

theorem rescope_call (setting : Setting) {eval : Expr → Scope Value → Stack → Eval Value}
    (ignores : IgnoresLayers eval) (scopes : scope.Same Eq scope') (callee : Expr) (args : List Expr)
    (span : Span) :
    Rescope first second (Value.Same Eq) (call setting eval callee args span scope first)
      (call setting eval callee args span scope' second) := by
  rw [call_eq, call_eq]
  apply (ignores callee first second scopes).bind
  intro function function' same
  have texts := same.text
  cases same with
  | @closure params body body' _ _ bodies names held =>
      have whole : Value.Same Eq (.closure params body _) (.closure params body' _) :=
        .closure bodies names held
      obtain ⟨-, rfl, captured⟩ := Value.Same.closure_iff.1 whole
      dsimp only
      split
      · exact rescope_raise scopes _ span
      · apply (parallel_mapM (List.forall₂_same.2 fun arg _ => ignores arg first second scopes)).bind
        intro values values' given
        have arguments := (Bindings.Same.zip params given).ofPairs
        apply (rescope_trace _ (line_called_rescoped arguments _ _ _) rfl).bind
        intro _ _ _
        have inner := Scope.Same.ofBindings arguments
        have frames : Frame.Same ⟨span, .ofBindings (.ofPairs (params.zip values))⟩
            ⟨span, .ofBindings (.ofPairs (params.zip values'))⟩ := ⟨rfl, inner⟩
        exact (ignores body _ _ (captured.union inner)).withinRoom scopes frames span
  | num | bool | data => exact rescope_quoting scopes texts span

end Eval

open Eval in
theorem evaluate_ignoresLayers (setting : Setting) (room : Nat) :
    IgnoresLayers (evaluate setting room) := by
  induction room using Nat.strongRecOn with
  | ind room ih =>
      intro tree scope scope' first second scopes
      cases room with
      | zero => exact parallel_throw .outOfRoom
      | succ room =>
          have inner : IgnoresLayers (evaluate setting room) := ih room (Nat.lt_succ_self room)
          cases tree with
          | number value span => exact parallel_pure (.num value)
          | bool value span => exact parallel_pure (.bool value)
          | var name span =>
              have meaning : Option.Rel (Value.Same Eq) (meaning? setting scope name)
                  (meaning? setting scope' name) :=
                rel_or (scopes name) (Scope.Same.of_get? (fun _ => rfl) (fun _ => rfl) name)
              rw [evaluate, evaluate, lookUp_eq, lookUp_eq]
              generalize meaning? setting scope name = found, meaning? setting scope' name = found'
                at meaning ⊢
              cases meaning with
              | some same => exact parallel_pure same
              | none => exact rescope_raise scopes _ span
          | letIn name binding body span =>
              apply (inner binding first second scopes).bind
              intro value value' same
              exact inner body first second (scopes.extend name same)
          | binary sign left right span =>
              apply (inner left first second scopes).bind
              intro value value' firsts
              apply (inner right first second scopes).bind
              intro other other' seconds
              rw [Operation.applySign_same (fun _ _ => .of_eq) firsts seconds]
              exact rescope_applied scopes _ span
          | lambda params body span =>
              exact parallel_pure (Value.Same.closure_iff.2 ⟨rfl, rfl, scopes⟩)
          | call callee args span =>
              cases room with
              | zero => exact parallel_throw .outOfRoom
              | succ room => exact rescope_call setting (ih room (by omega)) scopes callee args span
          | cond choices otherwise span =>
              exact rescope_branches scopes setting (fun tree => inner tree first second scopes)
                otherwise choices
          | construct tag fields span =>
              apply (parallel_mapM
                (List.forall₂_same.2 fun field _ => inner field first second scopes)).bind
              intro values values' same
              exact parallel_pure (Value.Same.data_iff.2 ⟨rfl, same⟩)
          | matching scrutinee arms span =>
              apply (inner scrutinee first second scopes).bind
              intro value value' same
              exact rescope_matching setting inner scopes same arms span
          | letTop | function | dataType => exact rescope_raise scopes _ _
          | row items => exact parallel_throw .bareRow

end FernLang
