import FernLang.Proofs.Run.Items

/-!
Call stacks. An error reports the calls that were really under way: its frames lead from the item that
failed to the node that is blamed, each through a call that is open in the body of the function
called before. Evaluation does not look at the stack it is given; another stack below it changes the
stack of an error and nothing else.
-/

namespace FernLang

namespace Expr

theorem defines_closed (program : List Expr) : Functions.Closed (Defines program) := by
  rintro params body ⟨item, member, owner, inside, owned⟩ names inner span exposed
  have within : Inside body item := Reached.trans (.part (mem_parts_of_owned owned)) inside
  exact ⟨item, member, _, exposed.inside.trans within, rfl⟩

theorem supported_defines (program : List Expr) : Supported (Defines program) program := by
  constructor
  · intro name params body span member
    exact ⟨_, member, _, .whole, rfl⟩
  · intro item member params body span exposed
    exact ⟨item, List.mem_append_left _ member, _, exposed.inside, rfl⟩

end Expr

theorem CallChain.ofSubject {functions : Functions} {item expr site : Expr} {frames : List Frame}
    (subject : item.subject? = some expr) (chain : CallChain functions site expr frames) :
    CallChain functions site item frames := by
  rcases Expr.subject?_cases subject with rfl | member
  · exact chain
  · exact chain.under member

/-- Two faults that differ in what lies at the bottom of their stacks and in nothing else. -/
inductive Fault.Restacked (first second : Stack) : Fault → Fault → Prop
  | raised (cause : Cause) (span : Span) (scope : Scope Value) (calls : Stack) :
      Restacked first second (.raised ⟨cause, span, scope, first ++ calls⟩)
        (.raised ⟨cause, span, scope, second ++ calls⟩)
  | numeral (error : Numeral.Error) : Restacked first second (.numeral error) (.numeral error)
  | bareRow : Restacked first second .bareRow .bareRow
  | compoundSign : Restacked first second .compoundSign .compoundSign
  | misused (misuse : Misuse) : Restacked first second (.misused misuse) (.misused misuse)
  | outOfRoom : Restacked first second .outOfRoom .outOfRoom

theorem Fault.Restacked.pop {first second : Stack} {frame : Frame} {fault other : Fault}
    (same : fault.Restacked (first ++ [frame]) (second ++ [frame]) other) :
    fault.Restacked first second other := by
  cases same with
  | raised cause span scope calls =>
      rw [List.append_assoc, List.append_assoc]
      exact .raised cause span scope ([frame] ++ calls)
  | numeral error => exact .numeral error
  | bareRow => exact .bareRow
  | compoundSign => exact .compoundSign
  | misused misuse => exact .misused misuse
  | outOfRoom => exact .outOfRoom

namespace Eval

variable {α β : Type}

inductive Alike (related : Fault → Fault → Prop) :
    EStateM.Result Fault (Array String) α → EStateM.Result Fault (Array String) α → Prop
  | value (value : α) (lines more : Array String) : Alike related (.ok value lines) (.ok value more)
  | fault {fault other : Fault} (lines more : Array String) (same : related fault other) :
      Alike related (.error fault lines) (.error other more)

def Agree (related : Fault → Fault → Prop) (eval other : Eval α) : Prop :=
  ∀ lines more, Alike related (eval lines) (other more)

variable {related : Fault → Fault → Prop}

theorem agree_pure (value : α) : Agree related (pure value) (pure value) :=
  fun lines more => .value value lines more

theorem agree_throw {fault other : Fault} (same : related fault other) :
    Agree related (throw fault : Eval α) (throw other) :=
  fun lines more => .fault lines more same

theorem Agree.bind {eval other : Eval α} {next after : α → Eval β} (early : Agree related eval other)
    (late : ∀ value, Agree related (next value) (after value)) :
    Agree related (eval >>= next) (other >>= after) := by
  intro lines more
  have here := early lines more
  rw [bind_steps, bind_steps]
  generalize eval lines = ended, other more = again at here ⊢
  cases here with
  | value value before behind => exact late value before behind
  | fault before behind same => exact .fault before behind same

theorem agree_mapM {items : List β} {eval other : β → Eval α}
    (each : ∀ item ∈ items, Agree related (eval item) (other item)) :
    Agree related (items.mapM eval) (items.mapM other) := by
  induction items with
  | nil =>
      rw [List.mapM_nil, List.mapM_nil]
      exact agree_pure []
  | cons item items ih =>
      rw [List.mapM_cons, List.mapM_cons]
      apply (each item List.mem_cons_self).bind
      intro value
      apply (ih fun next member => each next (List.mem_cons_of_mem _ member)).bind
      intro values
      exact agree_pure (value :: values)

variable {first second : Stack}

/-- What two stacks have in common on an evaluator that is given one or the other. -/
abbrev Restack (first second : Stack) (eval other : Eval α) : Prop :=
  Agree (Fault.Restacked first second) eval other

theorem restack_raise (cause : Cause) (span : Span) (scope : Scope Value) :
    Restack first second (raise cause span scope first : Eval α) (raise cause span scope second) := by
  apply agree_throw
  have same : (Fault.raised ⟨cause, span, scope, first ++ []⟩).Restacked first second
      (.raised ⟨cause, span, scope, second ++ []⟩) := .raised cause span scope []
  rwa [List.append_nil, List.append_nil] at same

theorem restack_written (text : Except Numeral.Error α) :
    Restack first second (written text) (written text) := by
  cases text with
  | ok value => exact agree_pure value
  | error error => exact agree_throw (.numeral error)

theorem restack_quoting {cause : String → Cause} (text : Except Numeral.Error String) (span : Span)
    (scope : Scope Value) :
    Restack first second (do raise (cause (← written text)) span scope first : Eval α)
      (do raise (cause (← written text)) span scope second) :=
  (restack_written text).bind fun shown => restack_raise (cause shown) span scope

theorem restack_trace (level : Nat) (event : Event) :
    Restack first second (trace level event) (trace level event) := by
  unfold trace
  split
  · apply (restack_written event.line).bind
    intro line lines more
    exact .value () _ _
  · exact agree_pure ()

/-- The depth of a call is put behind its arguments, so it does not decide whether there is a line. -/
theorem line_called (name : String) (arguments : Bindings Value) :
    ∃ shown : Except Numeral.Error (List String), ∀ depth,
      (Event.called name arguments depth).line = shown.map fun texts =>
        s!"call {name}(" ++ ", ".intercalate texts ++ s!") depth {depth}" := by
  refine ⟨arguments.mapM fun entry => do return entry.1 ++ "=" ++ (← entry.2.text), fun depth => ?_⟩
  rw [Event.line]
  generalize List.mapM (m := Except Numeral.Error) _ arguments = shown
  cases shown <;> rfl

theorem restack_trace_call (level : Nat) (name : String) (arguments : Bindings Value)
    (depth other : Nat) :
    Restack first second (trace level (.called name arguments depth))
      (trace level (.called name arguments other)) := by
  obtain ⟨shown, line⟩ := line_called name arguments
  unfold trace
  rw [line, line]
  by_cases asked : 2 ≤ level
  · have early : (Event.called name arguments depth).level ≤ level := asked
    have late : (Event.called name arguments other).level ≤ level := asked
    rw [if_pos early, if_pos late]
    cases shown with
    | ok texts =>
        intro lines more
        exact .value () _ _
    | error error => exact agree_throw (.numeral error)
  · have early : ¬(Event.called name arguments depth).level ≤ level := asked
    have late : ¬(Event.called name arguments other).level ≤ level := asked
    rw [if_neg early, if_neg late]
    exact agree_pure ()

theorem Agree.withinRoom {frame : Frame} {eval other : Eval α} {span : Span} {scope : Scope Value}
    (inside : Restack (first ++ [frame]) (second ++ [frame]) eval other) :
    Restack first second (withinRoom ⟨.tooDeep, span, scope, first ++ [frame]⟩ eval)
      (withinRoom ⟨.tooDeep, span, scope, second ++ [frame]⟩ other) := by
  intro lines more
  have here := inside lines more
  unfold Eval.withinRoom
  generalize eval lines = ended, other more = again at here ⊢
  cases here with
  | value value before after => exact .value value before after
  | fault before after same =>
      cases same with
      | outOfRoom => exact .fault before after (.raised .tooDeep span scope [frame])
      | raised cause span scope calls => exact .fault before after (Fault.Restacked.raised ..).pop
      | numeral error => exact .fault before after (.numeral error)
      | bareRow => exact .fault before after .bareRow
      | compoundSign => exact .fault before after .compoundSign
      | misused misuse => exact .fault before after (.misused misuse)

theorem restack_branches (setting : Setting) {eval other : Expr → Eval Value} (scope : Scope Value)
    {otherwise : Expr} (last : Restack first second (eval otherwise) (other otherwise))
    {choices : List (Expr × Expr)}
    (conditions : ∀ choice ∈ choices, Restack first second (eval choice.1) (other choice.1))
    (bodies : ∀ choice ∈ choices, Restack first second (eval choice.2) (other choice.2)) :
    Restack first second (branches setting eval scope first otherwise choices)
      (branches setting other scope second otherwise choices) := by
  induction choices with
  | nil => exact last
  | cons choice choices ih =>
      have rest := ih (fun next member => conditions next (List.mem_cons_of_mem _ member))
        fun next member => bodies next (List.mem_cons_of_mem _ member)
      rw [branches_cons, branches_cons]
      apply (conditions choice List.mem_cons_self).bind
      intro value
      generalize value.text = text
      cases value with
      | bool holds =>
          apply (restack_trace _ _).bind
          intro _
          cases holds with
          | true => exact bodies choice List.mem_cons_self
          | false => exact rest
      | _ => exact restack_quoting text _ _

/-- What is asked of an evaluator: the stack it is given shows in errors only. -/
def IgnoresStack (eval : Expr → Scope Value → Stack → Eval Value) : Prop :=
  ∀ (tree : Expr) (scope : Scope Value) (first second : Stack),
    Restack first second (eval tree scope first) (eval tree scope second)

theorem restack_call (setting : Setting) {eval : Expr → Scope Value → Stack → Eval Value}
    (ignores : IgnoresStack eval) (callee : Expr) (args : List Expr) (span : Span)
    (scope : Scope Value) (first second : Stack) :
    Restack first second (call setting eval callee args span scope first)
      (call setting eval callee args span scope second) := by
  rw [call_eq, call_eq]
  apply (ignores callee scope first second).bind
  intro function
  generalize function.text = text
  cases function with
  | closure params body captured =>
      dsimp only
      split
      · exact restack_raise _ _ _
      · apply (agree_mapM fun arg _ => ignores arg scope first second).bind
        intro values
        apply (restack_trace_call _ _ _ _ _).bind
        intro _
        exact (ignores body _ _ _).withinRoom
  | _ => exact restack_quoting text _ _

theorem restack_applied (result : Operation.Result Value) (span : Span) (scope : Scope Value) :
    Restack first second
      (match result with
        | .ok value => return value
        | .error (.cause cause) => raise cause span scope first
        | .error (.numeral error) => throw (.numeral error)
        | .error .compoundSign => throw .compoundSign
        | .error (.misused misuse) => throw (.misused misuse))
      (match result with
        | .ok value => return value
        | .error (.cause cause) => raise cause span scope second
        | .error (.numeral error) => throw (.numeral error)
        | .error .compoundSign => throw .compoundSign
        | .error (.misused misuse) => throw (.misused misuse)) := by
  cases result with
  | ok value => exact agree_pure value
  | error obstacle =>
      cases obstacle with
      | cause cause => exact restack_raise cause span scope
      | numeral error => exact agree_throw (.numeral error)
      | compoundSign => exact agree_throw .compoundSign
      | misused misuse => exact agree_throw (.misused misuse)

end Eval

open Eval in
theorem evaluate_ignoresStack (setting : Setting) (room : Nat) :
    IgnoresStack (evaluate setting room) := by
  induction room using Nat.strongRecOn with
  | ind room ih =>
      intro tree scope first second
      cases room with
      | zero => exact agree_throw .outOfRoom
      | succ room =>
          have inner : IgnoresStack (evaluate setting room) := ih room (Nat.lt_succ_self room)
          cases tree with
          | number value span => exact agree_pure _
          | bool value span => exact agree_pure _
          | var name span =>
              rw [evaluate, evaluate, lookUp_eq, lookUp_eq]
              cases meaning? setting scope name with
              | some value => exact agree_pure value
              | none => exact restack_raise _ _ _
          | letIn name binding body span =>
              apply (inner binding scope first second).bind
              intro value
              exact inner body _ first second
          | binary sign left right span =>
              apply (inner left scope first second).bind
              intro value
              apply (inner right scope first second).bind
              intro other
              exact restack_applied _ _ _
          | lambda params body span => exact agree_pure _
          | call callee args span =>
              cases room with
              | zero => exact agree_throw .outOfRoom
              | succ room =>
                  exact restack_call setting (ih room (by omega)) callee args span scope first second
          | cond choices otherwise span =>
              exact restack_branches setting scope (inner otherwise scope first second)
                (fun choice _ => inner choice.1 scope first second)
                fun choice _ => inner choice.2 scope first second
          | construct tag fields span =>
              apply (agree_mapM fun field _ => inner field scope first second).bind
              intro values
              exact agree_pure _
          | matching scrutinee arms span =>
              apply (inner scrutinee scope first second).bind
              intro value
              cases selectArm value 0 arms with
              | none => exact restack_quoting _ _ _
              | some choice =>
                  apply (restack_trace _ _).bind
                  intro _
                  exact inner choice.2.2 _ first second
          | letTop | function | dataType => exact restack_raise _ _ _
          | row items => exact agree_throw .bareRow

/-- The stack of an error is the root frame and then a chain of calls from the item that failed to
the node whose span the error has. The stack that an evaluation starts from is the bottom of the
stack of its error, and shows nowhere else. -/
theorem error_stack_callChain (room level : Nat) (program : List Expr) :
    (∀ error : RuntimeError,
      (Session.fresh.run room level program).result = .error (.raised error) →
        error.cause ≠ .tooDeep →
          ∃ item ∈ program, ∃ frames site,
            Session.fresh.StopsAt room level program item (.raised error) ∧
              error.stack = Stack.root ++ frames ∧ error.span = site.span ∧
                CallChain (Expr.Defines program) site item frames) ∧
      ∀ (setting : Setting) (room : Nat) (tree : Expr) (scope : Scope Value)
        (first second : Stack) (lines more : Array String),
          Eval.Alike (Fault.Restacked first second) (evaluate setting room tree scope first lines)
            (evaluate setting room tree scope second more) := by
  constructor
  · intro error failed shallow
    obtain ⟨item, member, stopped, stops⟩ := Session.run_stops (Session.made_fresh _)
      (Expr.supported_defines program) (Expr.defines_closed program) failed
    refine ⟨item, member, ?_⟩
    cases stops with
    | arisen subject arises caught =>
        cases arises with
        | raised chain inner defect => exact ⟨_, _, stopped, rfl, rfl, chain.ofSubject subject⟩
        | tooDeep chain => exact absurd rfl shallow
    | outerLet same => exact ⟨[], item, stopped, rfl, rfl, .here .whole⟩
    | tooDeep => exact absurd rfl shallow
  · intro setting room tree scope first second lines more
    exact evaluate_ignoresStack setting room tree scope first second lines more

/-- A function that calls what it is given, a let that binds a closure made by another one, and a call
that brings the two together; the closure divides by what it captured. -/
def escapingClosure : List Expr :=
  [ .function "apply" ["f", "x"]
      (.call (.var "f" (.ofWidth 22 1)) [.var "x" (.ofWidth 24 1)] (.ofWidth 22 4)) (.ofWidth 0 30),
    .letTop "by"
      (.lambda ["n"]
        (.lambda ["m"]
          (.binary (.text "/") (.var "m" (.ofWidth 64 1)) (.var "n" (.ofWidth 68 1)) (.ofWidth 64 5))
          (.ofWidth 53 20))
        (.ofWidth 40 37))
      (.ofWidth 31 46),
    .call (.var "apply" (.ofWidth 78 5))
      [.call (.var "by" (.ofWidth 84 2)) [.number 0 (.ofWidth 87 1)] (.ofWidth 84 5),
        .number 7 (.ofWidth 91 1)]
      (.ofWidth 78 15) ]

theorem escapingClosure_callChain :
    ∃ error : RuntimeError,
      (Session.fresh.run 20 0 escapingClosure).result = .error (.raised error) ∧
        error.cause = .divisionByZero ∧ error.stack.map (·.span) =
          [.origin, .ofWidth 78 15, .ofWidth 22 4] ∧
        ∃ item ∈ escapingClosure, ∃ frames site,
          Session.fresh.StopsAt 20 0 escapingClosure item (.raised error) ∧
            error.stack = Stack.root ++ frames ∧ error.span = site.span ∧
              CallChain (Expr.Defines escapingClosure) site item frames :=
  ⟨_, rfl, rfl, rfl, (error_stack_callChain 20 0 escapingClosure).1 _ rfl (by decide)⟩

end FernLang
