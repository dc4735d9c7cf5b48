import FernLang.Proofs.Run.Constructors
import FernLang.Proofs.Run.Overflow
import FernLang.Proofs.Run.Rescoping

/-!
Three ways to bind a name. A let, a call of a function of one parameter and a match with one
variable as its pattern evaluate the same tree and then the same body, in scopes that are layered
differently and answer alike. So they come to equal values or fail alike; the call leaves its frame in
the stacks of errors from the body. What a call binds is also shown when calls are traced, and a number
that is too long to be shown stops it there.
-/

namespace FernLang

namespace Eval

/-- Two evaluations that come to equal values; or to errors with one message and span, in equal scopes
and under calls that are alike above `first` and `second`; or to one fault that is no error; or both to
too many nested frames. -/
inductive EndsAlike (first second : Stack) :
    EStateM.Result Fault (Array String) Value → EStateM.Result Fault (Array String) Value → Prop
  | values {value value' : Value} {after after' : Array String} (equal : value.equal value' = true) :
      EndsAlike first second (.ok value after) (.ok value' after')
  | errors {error error' : RuntimeError} {calls calls' : Stack} {after after' : Array String}
      (messages : error.cause.message = error'.cause.message) (spans : error.span = error'.span)
      (scopes : Value.equalScopes error.scope error'.scope = true)
      (stack : error.stack = first ++ calls) (stack' : error'.stack = second ++ calls')
      (frames : List.Forall₂ (fun frame frame' => frame.span = frame'.span ∧
        Value.equalScopes frame.arguments frame'.arguments = true) calls calls') :
      EndsAlike first second (.error (.raised error) after) (.error (.raised error') after')
  | stopped {fault : Fault} {after after' : Array String} (foreign : ∀ error, fault ≠ .raised error) :
      EndsAlike first second (.error fault after) (.error fault after')
  | overflow {fault fault' : Fault} {after after' : Array String} (deep : fault.Overflow)
      (deep' : fault'.Overflow) : EndsAlike first second (.error fault after) (.error fault' after')

end Eval

theorem Scope.Same.equal {scope scope' : Scope Value} (same : scope.Same Eq scope') :
    Value.equalScopes scope scope' = true := by
  rw [Value.equalScopes_iff_same]
  exact same.mono fun _ _ => .of_eq

namespace Eval

variable {first second : Stack} {scope scope' : Scope Value}

theorem EndsAlike.of_paired {ended ended' : EStateM.Result Fault (Array String) Value}
    (paired : Paired (fun _ _ => True) (Value.Same Eq) (Fault.Rescoped first second) ended ended') :
    EndsAlike first second ended ended' := by
  cases paired with
  | value same => exact .values ((Value.equal_iff _ _).2 (same.mono fun _ _ => .of_eq))
  | fault same =>
      cases same with
      | raised cause span scopes frames =>
          exact .errors rfl rfl scopes.equal rfl rfl
            (frames.imp fun _ _ here => ⟨here.span, here.arguments.equal⟩)
      | numeral | bareRow | compoundSign | misused | outOfRoom => exact .stopped nofun

/-- A call on the other side says so when its body runs out of room. -/
theorem EndsAlike.withinRoom {ended : EStateM.Result Fault (Array String) Value} {eval : Eval Value}
    {lines : Array String} (alike : EndsAlike first second ended (eval lines)) {error : RuntimeError}
    (deep : error.cause = .tooDeep) : EndsAlike first second ended (withinRoom error eval lines) := by
  unfold Eval.withinRoom
  generalize eval lines = inner at alike ⊢
  cases alike with
  | values equal => exact .values equal
  | errors messages spans scopes stack stack' frames =>
      exact .errors messages spans scopes stack stack' frames
  | @stopped fault _ _ foreign =>
      cases fault with
      | outOfRoom => exact .overflow (.inl rfl) (.inr ⟨error, rfl, deep⟩)
      | raised error => exact absurd rfl (foreign error)
      | numeral | bareRow | compoundSign | misused => exact .stopped foreign
  | @overflow _ fault' _ _ gone gone' =>
      cases fault' with
      | outOfRoom => exact .overflow gone (.inr ⟨error, rfl, deep⟩)
      | raised | numeral | bareRow | compoundSign | misused => exact .overflow gone gone'

end Eval

/-- A name put on top of a scope and a scope of that one name laid over it answer alike. -/
theorem Scope.extend_same_union (scope : Scope Value) (name : String) (value : Value) :
    (scope.extend name value).Same Eq (scope.union (.ofBindings [(name, value)])) := by
  apply Scope.Same.of_get? (fun _ => rfl)
  intro asked
  rw [get?_extend, get?_union, get?_ofBindings, Bindings.get?_cons]
  by_cases same : name = asked
  · rw [if_pos same, if_pos same]
    rfl
  · rw [if_neg same, if_neg same]
    rfl

namespace Eval

variable (setting : Setting) (room : Nat) (name : String) (bound body : Expr) (scope : Scope Value)
  (stack : Stack)

theorem evaluate_letIn (span : Span) :
    evaluate setting (room + 1) (.letIn name bound body span) scope stack = (do
      let value ← evaluate setting room bound scope stack
      evaluate setting room body (scope.extend name value) stack) := by
  rw [evaluate]

theorem evaluate_matchOne (named : name ≠ "_") (span : Span) :
    evaluate setting (room + 1) (.matching bound [(.var name, body)] span) scope stack = (do
      let value ← evaluate setting room bound scope stack
      trace setting.level (.chose value 0)
      evaluate setting room body (scope.union (.ofBindings [(name, value)])) stack) := by
  have selected (value : Value) :
      selectArm value 0 [(.var name, body)] = some (0, [(name, value)], body) := by
    rw [selectArm, Pattern.bindings?, if_neg named]
  rw [evaluate]
  simp only [selected]

theorem evaluate_callOne (function site : Span) :
    evaluate setting (room + 2) (.call (.lambda [name] body function) [bound] site) scope stack = (do
      let value ← evaluate setting room bound scope stack
      trace setting.level (.called "lambda" [(name, value)] stack.length)
      withinRoom ⟨.tooDeep, site, scope, stack ++ [⟨site, .ofBindings [(name, value)]⟩]⟩
        (evaluate setting room body (scope.union (.ofBindings [(name, value)]))
          (stack ++ [⟨site, .ofBindings [(name, value)]⟩]))) := by
  cases room with
  | zero => rfl
  | succ room =>
      rw [evaluate, call_eq, evaluate, pure_bind]
      dsimp only
      rw [if_neg (by simp), List.mapM_cons, List.mapM_nil, bind_assoc]
      rfl

theorem yields_trace_chose {value : Value}
    (writable : setting.level < 2 ∨ ∃ text, value.text = .ok text) (index : Nat) :
    Yields (trace setting.level (.chose value index)) () := by
  apply yields_trace
  refine writable.imp (fun low => Nat.lt_succ_of_lt low) ?_
  rintro ⟨text, shown⟩
  exact ⟨_, by rw [Event.line, shown]; rfl⟩

theorem yields_trace_called {value : Value}
    (writable : setting.level < 2 ∨ ∃ text, value.text = .ok text) (function : String) (depth : Nat) :
    Yields (trace setting.level (.called function [(name, value)] depth)) () := by
  apply yields_trace
  refine writable.imp_right fun shown => line_called_ok ?_ _ _
  intro entry member
  rw [List.mem_singleton.1 member]
  exact shown

end Eval

/-- Where the bound tree fails, a let, a call and a match fail as it does. Where it has a value, they end
alike, with the frame of the call below the calls of the body. A call takes one frame more than the other
two, and is given one more. Where calls are traced, the value must be one that can be written. -/
theorem binders_agree {name : String} (named : name ≠ "_") (setting : Setting) (room : Nat)
    (bound body : Expr) (scope : Scope Value) (stack : Stack) (lines : Array String)
    (whole function site choice : Span) :
    (∀ fault after, evaluate setting room bound scope stack lines = .error fault after →
      evaluate setting (room + 1) (.letIn name bound body whole) scope stack lines = .error fault after ∧
        evaluate setting (room + 2) (.call (.lambda [name] body function) [bound] site) scope stack
          lines = .error fault after ∧
        evaluate setting (room + 1) (.matching bound [(.var name, body)] choice) scope stack lines =
          .error fault after) ∧
      ∀ value after, evaluate setting room bound scope stack lines = .ok value after →
        setting.level < 2 ∨ (∃ text, value.text = .ok text) →
          Eval.EndsAlike stack (stack ++ [⟨site, .ofBindings [(name, value)]⟩])
              (evaluate setting (room + 1) (.letIn name bound body whole) scope stack lines)
              (evaluate setting (room + 2) (.call (.lambda [name] body function) [bound] site) scope stack
                lines) ∧
            Eval.EndsAlike stack stack
              (evaluate setting (room + 1) (.letIn name bound body whole) scope stack lines)
              (evaluate setting (room + 1) (.matching bound [(.var name, body)] choice) scope stack
                lines) := by
  rw [Eval.evaluate_letIn, Eval.evaluate_callOne,
    Eval.evaluate_matchOne setting room name bound body scope stack named, bind_steps, bind_steps, bind_steps]
  constructor
  · intro fault after failed
    rw [failed]
    exact ⟨rfl, rfl, rfl⟩
  · intro value after given writable
    rw [given]
    dsimp only
    obtain ⟨called, announced⟩ :=
      Eval.yields_trace_called setting name writable "lambda" stack.length after
    obtain ⟨chosen, selected⟩ := Eval.yields_trace_chose setting writable 0 after
    rw [bind_steps, bind_steps, announced, selected]
    have scopes := scope.extend_same_union name value
    have ignores : Eval.IgnoresLayers (evaluate setting room) := evaluate_ignoresLayers setting room
    exact ⟨(Eval.EndsAlike.of_paired (ignores body stack _ scopes after called trivial)).withinRoom rfl,
      .of_paired (ignores body stack stack scopes after chosen trivial)⟩

def truthSum : Expr :=
  .binary (.text "+") (.var "x" (.ofWidth 13 1)) (.number 1 (.ofWidth 17 1)) (.ofWidth 13 5)

theorem truthSum_agree :
    "x" ≠ "_" ∧
      evaluate ⟨.empty, 3⟩ 2 (.bool true (.ofWidth 8 4)) .empty .root #[] = .ok (.bool true) #[] ∧
      Eval.EndsAlike .root (Stack.root ++ [⟨.ofWidth 0 22, .ofBindings [("x", .bool true)]⟩])
        (evaluate ⟨.empty, 3⟩ 3 (.letIn "x" (.bool true (.ofWidth 8 4)) truthSum (.ofWidth 0 22)) .empty
          .root #[])
        (evaluate ⟨.empty, 3⟩ 4 (.call (.lambda ["x"] truthSum (.ofWidth 0 22))
          [.bool true (.ofWidth 8 4)] (.ofWidth 0 22)) .empty .root #[]) ∧
      Eval.EndsAlike .root .root
        (evaluate ⟨.empty, 3⟩ 3 (.letIn "x" (.bool true (.ofWidth 8 4)) truthSum (.ofWidth 0 22)) .empty
          .root #[])
        (evaluate ⟨.empty, 3⟩ 3 (.matching (.bool true (.ofWidth 8 4)) [(.var "x", truthSum)]
          (.ofWidth 0 22)) .empty .root #[]) :=
  have named : "x" ≠ "_" := by decide
  ⟨named, rfl, (binders_agree named ⟨.empty, 3⟩ 2 _ truthSum _ _ _ _ _ _ _).2 _ _ rfl
    (.inr ⟨"true", rfl⟩)⟩

/-- The body of `(lambda(x): 10 ** 4300 && true end)(1)`. -/
def longOperand : Expr :=
  .binary (.text "&&") (longPower 12) (.bool true (.ofWidth 26 4)) (.ofWidth 12 18)

theorem longOperand_stops (setting : Setting) (room : Nat) (scope : Scope Value) (stack : Stack) :
    evaluate setting (room + 3) longOperand scope stack = throw (.numeral .tooLongToWrite) := by
  obtain ⟨number, text, power⟩ := longPower_number
  have refused : Operation.applySign (.text "&&") (.num number) (.bool true) =
      .error (.numeral .tooLongToWrite) := by
    change (Operation.truths "&&" (.num number) (.bool true) >>= _) = _
    rw [Operation.truths_eq]
    change (Operation.badFirst "&&" (.num number) >>= _) = _
    rw [Operation.badFirst, text]
    rfl
  rw [longOperand, evaluate, power, evaluate, pure_bind, pure_bind, refused]

/-- A number that is too long to be written stops the call `(lambda(x): 1 end)(10 ** 4300)` where calls
are traced, and the let is not stopped. An error that would show such a number is none, whichever way a
name is bound. -/
theorem longPower_binds_apart :
    (evaluate ⟨.empty, 2⟩ 3 (.letIn "x" (longPower 19) (.number 1 (.ofWidth 12 1)) (.ofWidth 1 29)) .empty
        .root #[] = .ok (.num 1) #[] ∧
      evaluate ⟨.empty, 2⟩ 4 (.call (.lambda ["x"] (.number 1 (.ofWidth 12 1)) (.ofWidth 1 16))
        [longPower 19] (.ofWidth 1 29)) .empty .root #[] = .error (.numeral .tooLongToWrite) #[]) ∧
      evaluate ⟨.empty, 0⟩ 4 (.letIn "x" (.number 1 (.ofWidth 36 1)) longOperand (.ofWidth 1 37)) .empty
        .root #[] = .error (.numeral .tooLongToWrite) #[] ∧
      evaluate ⟨.empty, 0⟩ 5 (.call (.lambda ["x"] longOperand (.ofWidth 1 33))
        [.number 1 (.ofWidth 36 1)] (.ofWidth 1 37)) .empty .root #[] =
          .error (.numeral .tooLongToWrite) #[] ∧
      evaluate ⟨.empty, 0⟩ 4 (.matching (.number 1 (.ofWidth 36 1)) [(.var "x", longOperand)]
        (.ofWidth 1 37)) .empty .root #[] = .error (.numeral .tooLongToWrite) #[] := by
  obtain ⟨number, text, power⟩ := longPower_number
  have among : ("x", Value.num number) ∈ [("x", Value.num number)] := List.mem_cons_self
  have untold := Event.line_called_long among text "lambda" Stack.root.length
  refine ⟨⟨?_, ?_⟩, ?_, ?_, ?_⟩
  · rw [Eval.evaluate_letIn, power, pure_bind]
    rfl
  · rw [Eval.evaluate_callOne, power, pure_bind, bind_steps, Eval.trace_stops (Nat.le_refl 2) untold]
  · rw [Eval.evaluate_letIn, evaluate, pure_bind, longOperand_stops]
    rfl
  · rw [Eval.evaluate_callOne, evaluate, pure_bind, longOperand_stops]
    rfl
  · rw [Eval.evaluate_matchOne _ _ _ _ _ _ _ (by decide), evaluate, pure_bind, longOperand_stops]
    rfl

end FernLang
