import FernLang.Proofs.Run.Parallel

/-!
Tracing. The level of a run says how much of it is reported and nothing else: at two levels a run takes
the same steps, with the same values and the same fault, and the lines of the lower level stand in this
order among those of the higher one. A line can matter in one way only, when a number in it is too long
to be shown. The higher level asks for every line that the lower one asks for, so it is the higher one
that may stop early, and where it does, nothing is said about the lower one.
-/

namespace FernLang

section

variable {σ α β : Type} {state : σ → σ → Prop}

/-- From related states, the second one stops at a number too long to be shown, or both end alike. -/
def Quieter (state : σ → σ → Prop) (run other : EStateM Fault σ α) : Prop :=
  ∀ before before', state before before' →
    (∃ error after, other before' = .error (.numeral error) after) ∨
      Paired state Eq Eq (run before) (other before')

theorem Parallel.quieter {run other : EStateM Fault σ α} (parallel : Parallel state Eq Eq run other) :
    Quieter state run other :=
  fun before before' states => .inr (parallel before before' states)

theorem quieter_pure (value : α) : Quieter state (pure value) (pure value) :=
  (parallel_pure rfl).quieter

theorem quieter_throw (fault : Fault) :
    Quieter state (throw fault : EStateM Fault σ α) (throw fault) :=
  (parallel_throw rfl).quieter

theorem Quieter.bind {run other : EStateM Fault σ α} {next next' : α → EStateM Fault σ β}
    (early : Quieter state run other) (late : ∀ value, Quieter state (next value) (next' value)) :
    Quieter state (run >>= next) (other >>= next') := by
  intro before before' states
  rw [bind_steps, bind_steps]
  rcases early before before' states with ⟨error, after, stopped⟩ | here
  · rw [stopped]
    exact .inl ⟨error, after, rfl⟩
  · generalize run before = ended, other before' = ended' at here ⊢
    cases here with
    | value same between =>
        subst same
        exact late _ _ _ between
    | fault same between => exact .inr (.fault same between)

theorem quieter_mapM {entries : List β} {run other : β → EStateM Fault σ α}
    (each : ∀ entry ∈ entries, Quieter state (run entry) (other entry)) :
    Quieter state (entries.mapM run) (entries.mapM other) := by
  induction entries with
  | nil =>
      rw [List.mapM_nil, List.mapM_nil]
      exact quieter_pure []
  | cons entry entries ih =>
      rw [List.mapM_cons, List.mapM_cons]
      apply (each entry List.mem_cons_self).bind
      intro value
      apply (ih fun next member => each next (List.mem_cons_of_mem _ member)).bind
      intro values
      exact quieter_pure (value :: values)

end

namespace Eval

variable {α : Type} {low high : Nat}

def Fewer (lines lines' : Array String) : Prop := lines.toList.Sublist lines'.toList

theorem quieter_written (text : Except Numeral.Error α) :
    Quieter Fewer (written text) (written text) := by
  cases text with
  | ok value => exact quieter_pure value
  | error error => exact quieter_throw (.numeral error)

theorem quieter_quoting {cause : String → Cause} (text : Except Numeral.Error String) (span : Span)
    (scope : Scope Value) (stack : Stack) :
    Quieter Fewer (do raise (cause (← written text)) span scope stack : Eval α)
      (do raise (cause (← written text)) span scope stack) :=
  (quieter_written text).bind fun shown => quieter_throw (.raised ⟨cause shown, span, scope, stack⟩)

/-- Of an event, both levels report the same line, or the higher one alone does, or neither. -/
theorem quieter_trace (le : low ≤ high) (event : Event) :
    Quieter Fewer (trace low event) (trace high event) := by
  unfold trace
  by_cases asked : event.level ≤ high
  · rw [if_pos asked]
    intro lines lines' fewer
    cases event.line with
    | error error => exact .inl ⟨error, lines', rfl⟩
    | ok line =>
        right
        by_cases early : event.level ≤ low
        · rw [if_pos early]
          have both : Fewer (lines.push line) (lines'.push line) := by
            unfold Fewer
            rw [Array.toList_push, Array.toList_push]
            exact fewer.append_right [line]
          exact .value rfl both
        · rw [if_neg early]
          have more : Fewer lines (lines'.push line) := by
            unfold Fewer
            rw [Array.toList_push]
            exact fewer.trans (List.sublist_append_left _ _)
          exact .value rfl more
  · have early : ¬event.level ≤ low := by omega
    rw [if_neg asked, if_neg early]
    exact quieter_pure ()

theorem quieter_withinRoom {eval other : Eval α} (inside : Quieter Fewer eval other)
    (error : RuntimeError) : Quieter Fewer (withinRoom error eval) (withinRoom error other) := by
  intro lines lines' fewer
  unfold Eval.withinRoom
  rcases inside lines lines' fewer with ⟨long, after, stopped⟩ | here
  · rw [stopped]
    exact .inl ⟨long, after, rfl⟩
  · right
    generalize eval lines = ended, other lines' = ended' at here ⊢
    cases here with
    | value same states => exact .value same states
    | @fault fault _ _ _ same states =>
        subst same
        cases fault <;> exact .fault rfl states

section

variable {functions : Scope Value} (le : low ≤ high)
include le

theorem quieter_branches {eval other : Expr → Eval Value} (scope : Scope Value) (stack : Stack)
    {otherwise : Expr} (last : Quieter Fewer (eval otherwise) (other otherwise))
    {choices : List (Expr × Expr)}
    (conditions : ∀ choice ∈ choices, Quieter Fewer (eval choice.1) (other choice.1))
    (bodies : ∀ choice ∈ choices, Quieter Fewer (eval choice.2) (other choice.2)) :
    Quieter Fewer (branches ⟨functions, low⟩ eval scope stack otherwise choices)
      (branches ⟨functions, high⟩ other scope stack otherwise choices) := by
  induction choices with
  | nil => exact last
  | cons choice choices ih =>
      have rest := ih (fun next member => conditions next (List.mem_cons_of_mem _ member))
        fun next member => bodies next (List.mem_cons_of_mem _ member)
      rw [branches_cons, branches_cons]
      apply (conditions choice List.mem_cons_self).bind
      intro value
      generalize value.text = text
      cases value with
      | bool holds =>
          apply (quieter_trace le _).bind
          intro _
          cases holds with
          | true => exact bodies choice List.mem_cons_self
          | false => exact rest
      | _ => exact quieter_quoting text _ _ _

theorem quieter_call {eval other : Expr → Scope Value → Stack → Eval Value}
    (inside : ∀ tree scope stack, Quieter Fewer (eval tree scope stack) (other tree scope stack))
    (callee : Expr) (args : List Expr) (span : Span) (scope : Scope Value) (stack : Stack) :
    Quieter Fewer (call ⟨functions, low⟩ eval callee args span scope stack)
      (call ⟨functions, high⟩ other callee args span scope stack) := by
  rw [call_eq, call_eq]
  apply (inside callee scope stack).bind
  intro function
  generalize function.text = text
  cases function with
  | closure params body captured =>
      dsimp only
      by_cases arity : params.length ≠ args.length
      · rw [if_pos arity, if_pos arity]
        exact quieter_throw _
      · rw [if_neg arity, if_neg arity]
        apply (quieter_mapM fun arg _ => inside arg scope stack).bind
        intro values
        apply (quieter_trace le _).bind
        intro _
        exact quieter_withinRoom (inside body _ _) _
  | _ => exact quieter_quoting text _ _ _

end

end Eval

open Eval in
theorem evaluate_quieter (functions : Scope Value) {low high : Nat} (le : low ≤ high) (room : Nat)
    (tree : Expr) (scope : Scope Value) (stack : Stack) :
    Quieter Fewer (evaluate ⟨functions, low⟩ room tree scope stack)
      (evaluate ⟨functions, high⟩ room tree scope stack) := by
  induction room using Nat.strongRecOn generalizing tree scope stack with
  | ind room ih =>
      cases room with
      | zero => exact quieter_throw .outOfRoom
      | succ room =>
          have inner := ih room (Nat.lt_succ_self room)
          cases tree with
          | number value span => exact quieter_pure _
          | bool value span => exact quieter_pure _
          | lambda params body span => exact quieter_pure _
          | row items => exact quieter_throw _
          | letTop | function | dataType => exact quieter_throw _
          | var name span =>
              rw [evaluate, evaluate, lookUp_eq, lookUp_eq, meaning?, meaning?]
              cases (scope.get? name).or (functions.get? name) with
              | some value => exact quieter_pure value
              | none => exact quieter_throw _
          | letIn name binding body span =>
              apply (inner binding scope stack).bind
              intro value
              exact inner body _ stack
          | binary sign left right span =>
              apply (inner left scope stack).bind
              intro value
              apply (inner right scope stack).bind
              intro other
              cases Operation.applySign sign value other with
              | ok result => exact quieter_pure result
              | error obstacle => cases obstacle <;> exact quieter_throw _
          | call callee args span =>
              cases room with
              | zero => exact quieter_throw _
              | succ room => exact quieter_call le (ih room (by omega)) callee args span scope stack
          | cond choices otherwise span =>
              exact quieter_branches le scope stack (inner otherwise scope stack)
                (fun choice _ => inner choice.1 scope stack) fun choice _ => inner choice.2 scope stack
          | construct tag fields span =>
              apply (quieter_mapM fun field _ => inner field scope stack).bind
              intro values
              exact quieter_pure _
          | matching scrutinee arms span =>
              apply (inner scrutinee scope stack).bind
              intro value
              cases selectArm value 0 arms with
              | none => exact quieter_quoting _ _ _ _
              | some choice =>
                  apply (quieter_trace le _).bind
                  intro _
                  exact inner choice.2.2 _ stack

namespace Session

abbrev Progress.Quieter : Progress → Progress → Prop := Progress.Related Eq Eval.Fewer

theorem quieter_evaluating {α : Type} {eval other : Eval α} (inside : Quieter Eval.Fewer eval other) :
    Quieter Progress.Quieter (evaluating eval) (evaluating other) := by
  intro progress progress' states
  rcases inside progress.lines progress'.lines states.lines with ⟨error, after, stopped⟩ | here
  · left
    refine ⟨error, { progress' with lines := after }, ?_⟩
    rw [evaluating, stopped]
  · exact .inr (paired_evaluating states here)

section

variable (room : Nat) (functions : Scope Value) {low high : Nat} (le : low ≤ high)
include le

theorem quieter_topLevel (expr : Expr) (span : Span) :
    Quieter Progress.Quieter (topLevel room ⟨functions, low⟩ expr span)
      (topLevel room ⟨functions, high⟩ expr span) := by
  intro progress progress' states
  have inside := Eval.quieter_withinRoom
    (evaluate_quieter functions le room expr progress.globals .root)
    ⟨.tooDeep, span, progress.globals, .root⟩
  have here := quieter_evaluating inside progress progress' states
  unfold topLevel
  rw [bind_steps, bind_steps]
  dsimp only [get, getThe, MonadStateOf.get, EStateM.get]
  rwa [← states.globals]

theorem quieter_runItem (item : Expr) :
    Quieter Progress.Quieter (runItem room ⟨functions, low⟩ item)
      (runItem room ⟨functions, high⟩ item) := by
  have traced (event : Event) := quieter_evaluating (Eval.quieter_trace le event)
  have valued : Quieter Progress.Quieter
      (do
        let value ← topLevel room ⟨functions, low⟩ item item.span
        evaluating (Eval.trace low (.valued value))
        return some value)
      (do
        let value ← topLevel room ⟨functions, high⟩ item item.span
        evaluating (Eval.trace high (.valued value))
        return some value) := by
    apply (quieter_topLevel room functions le item item.span).bind
    intro value
    apply (traced (.valued value)).bind
    intro _
    exact quieter_pure (some value)
  cases item with
  | letTop name binding span =>
      apply (quieter_topLevel room functions le binding span).bind
      intro value
      have grown : Quieter Progress.Quieter
          (modify fun progress => { progress with globals := progress.globals.extend name value })
          (modify fun progress => { progress with globals := progress.globals.extend name value }) := by
        intro progress progress' states
        exact .inr (.value rfl ⟨congrArg (·.extend name value) states.globals, states.lines⟩)
      apply grown.bind
      intro _
      apply (traced (.bound name value)).bind
      intro _
      exact quieter_pure none
  | letIn name binding body span =>
      intro progress progress' states
      refine .inr (.fault ?_ states)
      rw [states.globals]
  | function | dataType => exact quieter_pure none
  | _ => exact valued

theorem quieter_runItems (items : List Expr) :
    Quieter Progress.Quieter (runItems room ⟨functions, low⟩ items)
      (runItems room ⟨functions, high⟩ items) := by
  induction items with
  | nil => exact quieter_pure []
  | cons item items ih =>
      apply (quieter_runItem room functions le item).bind
      intro value
      apply ih.bind
      intro values
      exact quieter_pure (value.toList ++ values)

end

end Session

/-- Tracing is transparent. Unless the run at the higher level stops at a number too long to be shown,
the run at the lower level has the same values or the same fault and leaves the same session, and its
lines stand in order among those of the other. -/
theorem tracing_transparent (session : Session) (room : Nat) {low high : Nat} (le : low ≤ high)
    (program : List Expr)
    (shown : ∀ error, (session.run room high program).result ≠ .error (.numeral error)) :
    (session.run room low program).result = (session.run room high program).result ∧
      (session.run room low program).session = (session.run room high program).session ∧
        (session.run room low program).lines.toList.Sublist
          (session.run room high program).lines.toList := by
  have ended := Session.quieter_runItems room
    (session.functions.union (Session.functionTable program)) le program ⟨session.globals, #[]⟩
    ⟨session.globals, #[]⟩ ⟨rfl, List.Sublist.refl _⟩
  unfold Session.run at shown ⊢
  dsimp only at shown ⊢
  rcases ended with ⟨error, after, stopped⟩ | here
  · rw [stopped] at shown
    exact absurd rfl (shown error)
  · generalize Session.runItems room ⟨_, low⟩ program _ = first at here ⊢
    generalize Session.runItems room ⟨_, high⟩ program _ = second at here ⊢
    cases here with
    | value same states =>
        subst same
        exact ⟨rfl, congrArg (Session.mk · _) states.globals, states.lines⟩
    | fault same states =>
        subst same
        exact ⟨rfl, congrArg (Session.mk · _) states.globals, states.lines⟩

/-- The tree of `function flip(b): if b: b else: flip(true) end end let t = false match flip(t) case
true: gone end`. -/
def flipping : List Expr :=
  [ .function "flip" ["b"]
      (.cond [(.var "b" (.ofWidth 21 1), .var "b" (.ofWidth 24 1))]
        (.call (.var "flip" (.ofWidth 32 4)) [.bool true (.ofWidth 37 4)] (.ofWidth 32 10))
        (.ofWidth 18 28))
      (.ofWidth 0 50),
    .letTop "t" (.bool false (.ofWidth 59 5)) (.ofWidth 51 13),
    .matching
      (.call (.var "flip" (.ofWidth 71 4)) [.var "t" (.ofWidth 76 1)] (.ofWidth 71 7))
      [(.bool true, .var "gone" (.ofWidth 90 4))] (.ofWidth 65 33) ]

/-- Two calls and a let are reported on level two, and on level three also two conditions and the choice
of an arm; both runs fail at the same name. -/
theorem flipping_transparent :
    ∃ error, (Session.fresh.run 20 3 flipping).result = .error (.raised error) ∧
      error.cause = .unbound "gone" ∧ (Session.fresh.run 20 2 flipping).lines.size = 3 ∧
        (Session.fresh.run 20 3 flipping).lines.size = 6 ∧
      (Session.fresh.run 20 2 flipping).result = (Session.fresh.run 20 3 flipping).result ∧
        (Session.fresh.run 20 2 flipping).session = (Session.fresh.run 20 3 flipping).session ∧
          (Session.fresh.run 20 2 flipping).lines.toList.Sublist
            (Session.fresh.run 20 3 flipping).lines.toList := by
  obtain ⟨error, raised, cause⟩ :
      ∃ error, (Session.fresh.run 20 3 flipping).result = .error (.raised error) ∧
        error.cause = .unbound "gone" := ⟨_, rfl, rfl⟩
  refine ⟨error, raised, cause, rfl, rfl, tracing_transparent _ 20 (by decide) flipping ?_⟩
  intro long failed
  rw [raised] at failed
  cases failed

end FernLang
