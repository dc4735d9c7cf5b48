import FernLang.Proofs.Run.Parallel

/-!
Representation does not matter. Programs that are alike, run by sessions that are equal, give equal
values or the same error and leave equal sessions, wherever their nodes stood in a source and however
the scopes of the sessions are layered and ordered.
-/

namespace FernLang

open FernLang.Expr (Twin)

abbrev Functions.ofNodes : Functions := .every (·.isNode = true)

section

variable {scope scope' : Scope Value}

theorem Value.Same.twin {value value' : Value} (same : value.Same Expr.IsAlike value')
    (made : value.Made .ofNodes) (made' : value'.Made .ofNodes) : value.Same Twin value' := by
  induction same with
  | num value => exact .num value
  | bool value => exact .bool value
  | closure bodies names _ ih =>
      cases made with
      | closure known captured =>
          cases made' with
          | closure known' captured' =>
              refine .closure ⟨known, known', bodies⟩ names ?_
              intro name value value' found found'
              exact ih name value value' found found' (Scope.Holds.get? captured found)
                (Scope.Holds.get? captured' found')
  | data lengths _ ih =>
      refine .data lengths fun field field' member => ?_
      obtain ⟨left, right⟩ := List.of_mem_zip member
      exact ih field field' member (made.fields _ _ field left) (made'.fields _ _ field' right)

theorem Scope.same_of_equalScopes (equals : Value.equalScopes scope scope' = true)
    (made : scope.Holds (Value.Made .ofNodes)) (made' : scope'.Holds (Value.Made .ofNodes)) :
    scope.Same Twin scope' := by
  intro name
  obtain ⟨present, each⟩ := rel_iff.1 (Value.equalScopes_iff_same.1 equals name)
  refine rel_iff.2 ⟨present, fun value value' found found' => ?_⟩
  exact (each value value' found found').twin (made.get? found) (made'.get? found')

theorem Scope.Same.equalScopes (same : scope.Same Twin scope') :
    Value.equalScopes scope scope' = true := by
  rw [Value.equalScopes_iff_same]
  intro name
  obtain ⟨present, each⟩ := rel_iff.1 (same name)
  exact rel_iff.2 ⟨present, fun value value' found found' =>
    (each value value' found found').mono fun _ _ twin => twin.alike⟩

end

namespace Expr

theorem alikeAll_vars (fields : List String) (span span' : Span) :
    alikeAll (fields.map (.var · span)) (fields.map (.var · span')) = true := by
  induction fields with
  | nil => rw [List.map_nil, List.map_nil, alikeAll, List.isEmpty_nil]
  | cons field fields ih => simp [alikeAll, alike, ih]

theorem every_builder (tag : String) (fields : List String) (span : Span) :
    (builder tag fields span).Every (·.isNode = true) := by
  refine every_iff.2 ⟨rfl, List.forall_mem_singleton.2 (every_iff.2 ⟨rfl, List.forall_mem_map.2 ?_⟩)⟩
  intro field _
  exact every_iff.2 ⟨rfl, by simp [parts]⟩

theorem twin_builder (tag : String) (fields : List String) (span span' : Span) :
    Twin (builder tag fields span) (builder tag fields span') := by
  refine ⟨every_builder tag fields span, every_builder tag fields span', ?_⟩
  simp [builder, IsAlike, alike, alikeAll_vars]

theorem twin_builders {program program' : List Expr} (twins : List.Forall₂ Twin program program') :
    List.Forall₂ Twin (builders program) (builders program') := by
  refine List.rel_flatMap twins fun item item' twin => ?_
  cases twin.matched with
  | dataType name variants span span' =>
      exact List.forall₂_map_left_iff.2 (List.forall₂_map_right_iff.2 (List.forall₂_same.2
        fun variant _ => twin_builder variant.1 variant.2 span span'))
  | _ => exact .nil

end Expr

namespace Session

theorem functionTable_same {program program' : List Expr}
    (twins : List.Forall₂ Twin program program') :
    (functionTable program).Same Twin (functionTable program') := by
  have all := List.rel_append twins (Expr.twin_builders twins)
  refine .ofBindings (.ofPairs (List.rel_filterMap (fun item item' twin => ?_) all))
  cases twin.matched with
  | function name params _ _ bodies =>
      exact .some ⟨rfl, Value.Same.closure_iff.2 ⟨rfl, bodies, .empty⟩⟩
  | _ => exact .none

abbrev Progress.Same : Progress → Progress → Prop := Progress.Related (Scope.Same Twin) Eq

theorem parallel_traced (level : Nat) {event event' : Event} (lines : event.line = event'.line)
    (levels : event.level = event'.level) :
    Parallel Progress.Same Eq Fault.Same (evaluating (Eval.trace level event))
      (evaluating (Eval.trace level event')) :=
  fun _ _ same => paired_evaluating same (Eval.abreast_trace level lines levels _ _ same.lines)

section

variable (room level : Nat) {table table' : Scope Value} (tables : table.Same Twin table')
include tables

theorem parallel_topLevel {expr expr' : Expr} (twin : Twin expr expr') (span span' : Span) :
    Parallel Progress.Same (Value.Same Twin) Fault.Same (topLevel room ⟨table, level⟩ expr span)
      (topLevel room ⟨table', level⟩ expr' span') := by
  intro progress progress' same
  have inside := evaluate_respects tables level room twin same.globals .root
  exact paired_evaluating same (inside.withinRoom same.globals .root span span' _ _ same.lines)

theorem parallel_runItem {item item' : Expr} (twin : Twin item item') :
    Parallel Progress.Same (Option.Rel (Value.Same Twin)) Fault.Same
      (runItem room ⟨table, level⟩ item) (runItem room ⟨table', level⟩ item') := by
  cases twin.matched with
  | letTop name span span' bindings =>
      refine parallel_bound (parallel_topLevel room level tables bindings span span') ?_ ?_
      · intro value value' progress progress' same states
        exact ⟨states.globals.extend name same, states.lines⟩
      · intro value value' same
        exact parallel_traced level (by rw [Event.line, Event.line, same.text]) rfl
  | letIn name span span' =>
      intro progress progress' same
      exact paired_evaluating same
        (Eval.abreast_raise same.globals .root .outerLet span span' _ _ same.lines)
  | function | dataType => exact parallel_pure .none
  | number | bool | var | binary | lambda | call | cond | construct | matching =>
      refine parallel_valued (parallel_topLevel room level tables twin _ _) ?_
      intro value value' same
      exact parallel_traced level (by rw [Event.line, Event.line, same.text]) rfl

end

structure Equal (session session' : Session) : Prop where
  globals : Value.equalScopes session.globals session'.globals = true
  functions : Value.equalScopes session.functions session'.functions = true

/-- Results of runs that agree: equal values, errors with one message under equally many calls, or
numbers too long for one reason. -/
inductive ResultsAgree : Except Fault (List Value) → Except Fault (List Value) → Prop
  | values {values values' : List Value} (equals : Value.equalAll values values' = true) :
      ResultsAgree (.ok values) (.ok values')
  | raised {error error' : RuntimeError} (messages : error.cause.message = error'.cause.message)
      (depths : error.stack.length = error'.stack.length) :
      ResultsAgree (.error (.raised error)) (.error (.raised error'))
  | numeral (error : Numeral.Error) : ResultsAgree (.error (.numeral error)) (.error (.numeral error))

end Session

inductive Fault.SameMessage : Fault → Fault → Prop
  | raised {error error' : RuntimeError} (messages : error.cause.message = error'.cause.message) :
      SameMessage (.raised error) (.raised error')
  | numeral (error : Numeral.Error) : SameMessage (.numeral error) (.numeral error)
  | outOfRoom : SameMessage .outOfRoom .outOfRoom

theorem Expr.supported_nodes {program : List Expr}
    (nodes : ∀ item ∈ program, item.Every (·.isNode = true)) : Supported .ofNodes program := by
  apply supported_every
  · exact fun item member => (every_iff.1 (nodes item member)).2
  · intro name variants span _ variant _
    exact (every_builder variant.1 variant.2 span).inside (.part List.mem_cons_self)

theorem Expr.twins_of_alikeAll {program program' : List Expr}
    (nodes : ∀ item ∈ program, item.Every (·.isNode = true))
    (nodes' : ∀ item ∈ program', item.Every (·.isNode = true))
    (programs : alikeAll program program' = true) : List.Forall₂ Twin program program' :=
  forall₂_members (alikeAll_forall programs) fun item member item' member' alike =>
    ⟨nodes item member, nodes' item' member', alike⟩

theorem Value.Same.equal {value value' : Value} (same : value.Same Twin value') :
    value.equal value' = true :=
  (equal_iff value value').2 (same.mono fun _ _ twin => twin.alike)

/-- Evaluating twins from any stacks: their own calls do not depend on what lies below. -/
theorem evaluate_sameMessage {table table' : Scope Value} (tables : table.Same Twin table')
    (level room : Nat) {tree tree' : Expr} (twin : Twin tree tree') {scope scope' : Scope Value}
    (scopes : scope.Same Twin scope') (stack stack' : Stack) (lines lines' : Array String) :
    Paired (fun _ _ => True) (fun value value' => value.equal value' = true) Fault.SameMessage
      (evaluate ⟨table, level⟩ room tree scope stack lines)
      (evaluate ⟨table', level⟩ room tree' scope' stack' lines') := by
  -- Both are compared with an evaluation from the root, where the stacks agree.
  have left := evaluate_ignoresStack ⟨table, level⟩ room tree scope stack .root lines #[]
  have middle := evaluate_respects tables level room twin scopes .root #[] #[] rfl
  have right := evaluate_ignoresStack ⟨table', level⟩ room tree' scope' .root stack' #[] lines'
  generalize evaluate ⟨table, level⟩ room tree scope stack lines = ended at left ⊢
  generalize evaluate ⟨table, level⟩ room tree scope .root #[] = first at left middle
  generalize evaluate ⟨table', level⟩ room tree' scope' .root #[] = second at middle right
  generalize evaluate ⟨table', level⟩ room tree' scope' stack' lines' = ended' at right ⊢
  cases middle with
  | value same states =>
      cases left
      cases right
      exact .value same.equal trivial
  | fault same states =>
      cases left with
      | fault _ _ restacked =>
          cases right with
          | fault _ _ restacked' =>
              refine .fault ?_ trivial
              cases same <;> cases restacked <;> cases restacked'
              · exact .raised rfl
              · exact .numeral _
              · exact .outOfRoom

/-- Programs that are alike, run by sessions that are equal, end alike and leave equal sessions. More
generally, trees that are alike, evaluated in equal scopes under equal tables, have equal values or
faults that read the same. -/
theorem run_representation {session session' : Session} (sessions : session.Equal session')
    (made : session.Made .ofNodes) (made' : session'.Made .ofNodes) {program program' : List Expr}
    (programs : Expr.alikeAll program program' = true)
    (nodes : ∀ item ∈ program, item.Every (·.isNode = true))
    (nodes' : ∀ item ∈ program', item.Every (·.isNode = true)) (room level : Nat) :
    (Session.ResultsAgree (session.run room level program).result
        (session'.run room level program').result ∧
      (session.run room level program).session.Equal (session'.run room level program').session ∧
        (session.run room level program).lines = (session'.run room level program').lines) ∧
    ∀ (tree tree' : Expr) (scope scope' : Scope Value) (stack stack' : Stack)
      (lines lines' : Array String), Twin tree tree' → Value.equalScopes scope scope' = true →
        scope.Holds (Value.Made .ofNodes) → scope'.Holds (Value.Made .ofNodes) →
          Paired (fun _ _ => True) (fun value value' => value.equal value' = true) Fault.SameMessage
            (evaluate ⟨session.functions, level⟩ room tree scope stack lines)
            (evaluate ⟨session'.functions, level⟩ room tree' scope' stack' lines') := by
  have globals := Scope.same_of_equalScopes sessions.globals made.globals made'.globals
  have functions := Scope.same_of_equalScopes sessions.functions made.functions made'.functions
  have twins := Expr.twins_of_alikeAll nodes nodes' programs
  constructor
  · have tables := functions.union (Session.functionTable_same twins)
    have each := twins.imp fun item item' => Session.parallel_runItem room level tables
    have ended := Session.parallel_runItems each ⟨session.globals, #[]⟩ ⟨session'.globals, #[]⟩
      ⟨globals, rfl⟩
    have stops := fun fault => @Session.run_stops _ session program made (Expr.supported_nodes nodes)
      Functions.every_closed room level fault
    unfold Session.run at stops ⊢
    dsimp only at stops ⊢
    generalize Session.runItems room ⟨session.functions.union _, level⟩ program _ = first at ended stops ⊢
    generalize Session.runItems room ⟨session'.functions.union _, level⟩ program' _ = second at ended ⊢
    cases ended with
    | value same states =>
        have equals := Value.equalAll_iff.2 (same.imp fun _ _ one => one.equal)
        exact ⟨.values equals, ⟨states.globals.equalScopes, tables.equalScopes⟩, states.lines⟩
    | fault same states =>
        refine ⟨?_, ⟨states.globals.equalScopes, tables.equalScopes⟩, states.lines⟩
        obtain ⟨item, _, _, stopped⟩ := stops _ rfl
        cases same with
        | raised cause _ _ scopes calls => exact .raised rfl calls.length_eq
        | numeral error => exact .numeral error
        | outOfRoom => exact absurd rfl stopped.caught
  · intro tree tree' scope scope' stack stack' lines lines' twin scopes held held'
    have inside := Scope.same_of_equalScopes scopes held held'
    exact evaluate_sameMessage functions level room twin inside stack stack' lines lines'

def divider (place : Span) (scope : Scope Value) : Value :=
  .closure ["y"] (.binary (.text "/") (.var "x" place) (.var "y" place) place) scope

def quotients (index : Nat) : List Expr :=
  [ .letTop "q" (.var "x" (.ofWidth (index + 8) 1)) (.ofWidth index 9),
    .call (.var "f" (.ofWidth (index + 10) 1)) [.var "q" (.ofWidth (index + 12) 1)]
      (.ofWidth (index + 10) 4),
    .call (.var "f" (.ofWidth (index + 15) 1)) [.number 0 (.ofWidth (index + 17) 1)]
      (.ofWidth (index + 15) 4) ]

/-- Globals in layers, and a closure one layer of whose scope hides a name of another. -/
def layeredSession : Session :=
  ⟨⟨[[("f", divider (.ofWidth 4 5) ⟨[[("x", .num 6)], [("x", .num 1)]]⟩)], [("x", .num 3)]]⟩, .empty⟩

def flatSession : Session :=
  ⟨⟨[[("x", .num 3), ("f", divider .origin ⟨[[("x", .num 6)]]⟩)]]⟩, ⟨[[]]⟩⟩

theorem divider_made (place : Span) {scope : Scope Value} (held : scope.Holds (Value.Made .ofNodes)) :
    (divider place scope).Made .ofNodes := by
  refine .closure (Expr.every_iff.2 ⟨rfl, List.forall_mem_cons.2 ⟨?_, List.forall_mem_singleton.2 ?_⟩⟩) held
  · exact Expr.every_leaf rfl rfl
  · exact Expr.every_leaf rfl rfl

theorem layeredSession_made : layeredSession.Made .ofNodes := by
  have captured : (⟨[[("x", .num 6)], [("x", .num 1)]]⟩ : Scope Value).Holds (Value.Made .ofNodes) := by
    simp [Scope.Holds, Value.Made.num]
  refine ⟨?_, Scope.holds_empty _⟩
  simp [Scope.Holds, layeredSession, Value.Made.num, divider_made _ captured]

theorem flatSession_made : flatSession.Made .ofNodes := by
  have captured : (⟨[[("x", .num 6)]]⟩ : Scope Value).Holds (Value.Made .ofNodes) := by
    simp [Scope.Holds, Value.Made.num]
  refine ⟨Scope.holds_ofBindings ?_, by simp [flatSession, Scope.Holds]⟩
  exact List.forall_mem_cons.2 ⟨.num 3, List.forall_mem_singleton.2 (divider_made _ captured)⟩

theorem quotients_nodes (index : Nat) : ∀ item ∈ quotients index, item.Every (·.isNode = true) := by
  have calls {argument : Expr} (node : argument.Every (·.isNode = true)) (place span : Span) :
      (Expr.call (.var "f" place) [argument] span).Every (·.isNode = true) :=
    Expr.every_iff.2 ⟨rfl, List.forall_mem_cons.2
      ⟨Expr.every_leaf rfl rfl, List.forall_mem_singleton.2 node⟩⟩
  refine List.forall_mem_cons.2 ⟨?_, List.forall_mem_cons.2 ⟨?_, List.forall_mem_singleton.2 ?_⟩⟩
  · exact Expr.every_iff.2 ⟨rfl, List.forall_mem_singleton.2 (Expr.every_leaf rfl rfl)⟩
  · exact calls (Expr.every_leaf rfl rfl) _ _
  · exact calls (Expr.every_leaf rfl rfl) _ _

theorem quotients_representation :
    (∃ error, (layeredSession.run 20 0 (quotients 0)).result = .error (.raised error) ∧
      error.cause = .divisionByZero) ∧
    Session.ResultsAgree (layeredSession.run 20 0 (quotients 0)).result
        (flatSession.run 20 0 (quotients 7)).result ∧
      (layeredSession.run 20 0 (quotients 0)).session.Equal
        (flatSession.run 20 0 (quotients 7)).session ∧
        (layeredSession.run 20 0 (quotients 0)).lines = (flatSession.run 20 0 (quotients 7)).lines :=
  ⟨⟨_, rfl, rfl⟩, (run_representation ⟨by decide +kernel, by decide +kernel⟩ layeredSession_made
    flatSession_made (by decide +kernel) (quotients_nodes 0) (quotients_nodes 7) 20 0).1⟩

end FernLang
