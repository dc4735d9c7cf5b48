import FernLang.Proofs.Message
import FernLang.Proofs.Run.Endings
import FernLang.Proofs.Scope.WellScoped

/-!
Scope safety. Evaluating a tree in a scope that supplies its names gives a safe value or fails for
another reason than a missing variable, whatever calls, closures and matches it goes through. Hence
no run of a well scoped program fails to find a variable.
-/

namespace FernLang

def Fault.Bound : Fault → Prop
  | .raised error => error.cause.isUnbound = false
  | _ => True

theorem Obstacle.Of.bound {sign : Json} {cause : Cause} (obstacle : Of sign (.cause cause)) :
    cause.isUnbound = false := by
  cases obstacle with
  | operand operand => cases cause <;> first | rfl | cases operand
  | unknown shown unknown => rfl

theorem Value.Plain.safe {declared : List String} {value : Value} (plain : value.Plain) :
    value.Safe declared := by
  cases plain with
  | num value => exact .num value
  | bool value => exact .bool value

theorem Value.Safe.fields {declared : List String} (tag : String) (values : List Value)
    (safe : (Value.data tag values).Safe declared) : ∀ value ∈ values, value.Safe declared := by
  cases safe with
  | data each => exact each

namespace Eval

variable {declared : List String}

theorem meaning?_isSome {setting : Setting} (table : setting.functions.Declares declared)
    {scope : Scope Value} {name : String} (bound : scope.contains name ∨ name ∈ declared) :
    (meaning? setting scope name).isSome := by
  rw [meaning?, Option.isSome_or, Bool.or_eq_true]
  exact bound.imp id (table.present name)

/-- What is asked of an evaluator: a tree whose names a scope supplies has a safe value there. -/
def Sound (declared : List String) (eval : Expr → Scope Value → Stack → Eval Value) : Prop :=
  ∀ {expr : Expr} {scope : Scope Value} {locals globals : List String} (stack : Stack),
    expr.boundIn locals globals = true → scope.Supplies declared locals globals →
      Ends (Value.Safe declared) Fault.Bound (eval expr scope stack)

theorem supplies_call {params : List String} {body : Expr} {captured : Scope Value}
    (safe : (Value.closure params body captured).Safe declared) {arguments : Bindings Value}
    (named : ∀ name ∈ params, name ∈ arguments.names)
    (each : ∀ entry ∈ arguments, entry.2.Safe declared) :
    ∃ locals globals, body.boundIn locals globals = true ∧
      (captured.union (.ofBindings arguments)).Supplies declared locals globals := by
  cases safe with
  | @closure _ _ _ locals globals inside bound held =>
      refine ⟨locals, globals, inside, ?_, Scope.Holds.union held (Scope.holds_ofBindings each)⟩
      intro name mentioned
      rw [Scope.contains_union, Scope.contains_ofBindings]
      rcases bound name mentioned with param | old | known
      · exact .inl (.inr (named name param))
      · exact .inl (.inl old)
      · exact .inr known

theorem ends_sound_call (setting : Setting) {eval : Expr → Scope Value → Stack → Eval Value}
    (sound : Sound declared eval) {callee : Expr} {args : List Expr} (span : Span)
    {scope : Scope Value} (stack : Stack) {locals globals : List String}
    (head : callee.boundIn locals globals = true)
    (each : ∀ arg ∈ args, arg.boundIn locals globals = true)
    (supplies : scope.Supplies declared locals globals) :
    Ends (Value.Safe declared) Fault.Bound (call setting eval callee args span scope stack) := by
  refine ends_call trivial setting (sound stack head supplies)
    (fun arg member => sound stack (each arg member) supplies) (fun _ => rfl) (fun _ _ => rfl) ?_
  intro params body captured values safe same all inner bound
  subst bound
  have named : ∀ name ∈ params, name ∈ (Bindings.ofPairs (params.zip values)).names :=
    fun name => (Bindings.mem_names_ofPairs_zip same name).2
  obtain ⟨locals, globals, inside, enough⟩ :=
    supplies_call safe named fun entry member => all _ (Bindings.mem_ofPairs_zip member)
  exact (sound _ inside enough).withinRoom rfl fun _ _ bound => bound

theorem ends_sound_var {setting : Setting} (table : setting.functions.Declares declared)
    {scope : Scope Value} (held : scope.Holds (Value.Safe declared)) {name : String} (span : Span)
    (stack : Stack) (bound : scope.contains name ∨ name ∈ declared) :
    Ends (Value.Safe declared) Fault.Bound (lookUp setting name span scope stack) := by
  have known := meaning?_isSome table bound
  rw [lookUp_eq]
  cases found : meaning? setting scope name with
  | some value => exact ends_pure (meaning?_holds table.safe held found)
  | none => simp [found] at known

end Eval

open Eval in
theorem evaluate_sound {declared : List String} (setting : Setting)
    (table : setting.functions.Declares declared) (room : Nat) :
    Sound declared (evaluate setting room) := by
  induction room using Nat.strongRecOn with
  | ind room ih =>
      intro expr scope locals globals stack bound supplies
      cases room with
      | zero => exact ends_throw trivial
      | succ room =>
          have inner : Sound declared (evaluate setting room) := ih room (Nat.lt_succ_self room)
          cases expr with
          | number value span => exact ends_pure (.num value)
          | bool value span => exact ends_pure (.bool value)
          | var name span =>
              simp only [Expr.boundIn, Bool.or_eq_true, List.contains_iff_mem] at bound
              exact ends_sound_var table supplies.safe span stack (supplies.bound name bound)
          | letIn name binding body span =>
              rw [Expr.boundIn, Bool.and_eq_true] at bound
              apply (inner stack bound.1 supplies).bind
              intro value safe
              exact inner stack bound.2 (supplies.extend safe name)
          | binary sign left right span =>
              rw [Expr.boundIn, Bool.and_eq_true] at bound
              apply (inner stack bound.1 supplies).bind
              intro first _
              apply (inner stack bound.2 supplies).bind
              intro second _
              exact ends_applied trivial (Operation.answers_applySign sign first second)
                (fun _ => Value.Plain.safe) (fun _ => Obstacle.Of.bound) fun _ => trivial
          | lambda params body span => exact ends_pure (supplies.closure bound)
          | call callee args span =>
              rw [Expr.boundIn, Bool.and_eq_true, Expr.boundInAll_eq, List.all_eq_true] at bound
              cases room with
              | zero => exact ends_throw trivial
              | succ room =>
                  exact ends_sound_call setting (ih room (by omega)) span stack bound.1 bound.2 supplies
          | cond choices otherwise span =>
              rw [Expr.boundIn, Bool.and_eq_true, Expr.boundInBranches_eq, List.all_eq_true] at bound
              have both {choice : Expr × Expr} (member : choice ∈ choices) :=
                Bool.and_eq_true_iff.1 (bound.1 choice member)
              exact ends_branches trivial setting (inner stack bound.2 supplies)
                (fun choice member => inner stack (both member).1 supplies)
                (fun choice member => inner stack (both member).2 supplies) fun _ _ _ => rfl
          | construct tag fields span =>
              rw [Expr.boundIn, Expr.boundInAll_eq, List.all_eq_true] at bound
              apply (ends_mapM fun field member => inner stack (bound field member) supplies).bind
              intro values ⟨_, all⟩
              exact ends_pure (.data all)
          | matching scrutinee arms span =>
              rw [Expr.boundIn, Bool.and_eq_true, Expr.boundInArms_eq, List.all_eq_true] at bound
              apply (inner stack bound.1 supplies).bind
              intro value safe
              refine ends_matching trivial setting ?_ fun _ => rfl
              intro pattern body bindings member fits
              exact inner stack (bound.2 _ member) (supplies.union (Pattern.bindings?_names fits)
                (Pattern.bindings?_kind Value.Safe.fields fits safe))
          | letTop | function | dataType => exact ends_raise rfl
          | row items => exact ends_throw trivial

namespace Session

theorem mem_functionTable_names {program : List Expr} {name : String} {params : List String}
    {body : Expr} {span : Span}
    (member : .function name params body span ∈ program ++ Expr.builders program) :
    (functionTable program).contains name := by
  rw [functionTable, Scope.contains_ofBindings, Bindings.ofPairs, Bindings.mem_names_update]
  right
  exact List.mem_map.2 ⟨_, List.mem_filterMap.2 ⟨_, member, rfl⟩, rfl⟩

theorem functionTable_present (program : List Expr) :
    ∀ name ∈ program.flatMap Expr.declares, (functionTable program).contains name := by
  intro name member
  obtain ⟨item, inside, declared⟩ := List.mem_flatMap.1 member
  cases item with
  | function other params body span =>
      cases List.mem_singleton.1 declared
      exact mem_functionTable_names (List.mem_append_left _ inside)
  | dataType other variants span =>
      obtain ⟨variant, one, rfl⟩ := List.mem_map.1 declared
      apply mem_functionTable_names
      apply List.mem_append_right
      exact List.mem_flatMap.2 ⟨_, inside, List.mem_map.2 ⟨variant, one, rfl⟩⟩
  | _ => cases declared

theorem boundIn_builder (tag : String) (fields : List String) (span : Span) :
    (Expr.construct tag (fields.map (.var · span)) span).boundIn fields [] = true := by
  simp [Expr.boundIn, Expr.boundInAll_eq]

theorem closure_safe {declared locals params : List String} {body : Expr}
    (inside : body.boundIn locals [] = true)
    (bound : ∀ name ∈ locals, name ∈ params ∨ name ∈ declared) :
    (Value.closure params body .empty).Safe declared := by
  refine .closure inside ?_ (Scope.holds_empty _)
  rintro name (member | absurd)
  · exact (bound name member).imp id .inr
  · cases absurd

theorem functionTable_safe {program : List Expr} (lexical : Expr.wellScoped program = true) :
    (functionTable program).Holds (Value.Safe (program.flatMap Expr.declares)) := by
  apply functionTable_holds
  intro name params body span member
  rcases List.mem_append.1 member with written | built
  · obtain ⟨seen, bound⟩ := Expr.boundIn_of_mem lexical _ written
    exact closure_safe bound fun name => List.mem_append.1
  · obtain ⟨item, _, one⟩ := List.mem_flatMap.1 built
    cases item with
    | dataType name variants span =>
        obtain ⟨variant, _, same⟩ := List.mem_map.1 one
        cases same
        exact closure_safe (boundIn_builder _ _ _) fun name => .inl
    | _ => cases one

theorem functionTable_declares {program : List Expr} (lexical : Expr.wellScoped program = true) :
    (fresh.functions.union (functionTable program)).Declares (program.flatMap Expr.declares) := by
  refine ⟨?_, (Scope.holds_empty _).union (functionTable_safe lexical)⟩
  intro name member
  rw [Scope.contains_union]
  exact .inr (functionTable_present program name member)

variable {declared : List String}

abbrev Leaves {α : Type} (kind : α → Scope Value → Prop) : Run α → Scope Value → Prop :=
  Leads kind fun fault _ => fault.Bound

theorem boundIn_subject {item expr : Expr} {names : List String}
    (bound : item.boundIn declared names = true) (subject : item.subject? = some expr) :
    expr.boundIn declared names = true := by
  cases item with
  | letTop name binding span =>
      cases subject
      exact bound
  | letIn | function | dataType => cases subject
  | _ =>
      cases subject
      exact bound

theorem leaves_runItem (room : Nat) {setting : Setting}
    (table : setting.functions.Declares declared) {item : Expr} {names : List String}
    (bound : item.boundIn declared names = true) {globals : Scope Value}
    (supplies : globals.Supplies declared declared names) :
    Leaves (fun _ after => after.Supplies declared declared (item.introduces ++ names))
      (runItem room setting item) globals := by
  have evaluated (expr : Expr) (subject : item.subject? = some expr) :
      Eval.Ends (Value.Safe declared) Fault.Bound
        (Eval.withinRoom ⟨.tooDeep, item.span, globals, .root⟩
          (evaluate setting room expr globals .root)) := by
    have ends := evaluate_sound setting table room .root (boundIn_subject bound subject) supplies
    exact ends.withinRoom rfl fun _ _ bound => bound
  refine leads_item room setting evaluated ?_ ?_ (fun _ _ _ _ _ => rfl) (fun _ _ _ _ => trivial)
  · intro kept
    cases item with
    | letTop name binding span => exact absurd rfl (kept name binding span)
    | _ => exact supplies
  · rintro name binding span value rfl safe
    exact supplies.extendGlobal safe name

theorem leaves_runItems (room : Nat) {setting : Setting}
    (table : setting.functions.Declares declared) {items : List Expr} {names : List String}
    (bound : Expr.boundInItems declared names items = true) {globals : Scope Value}
    (supplies : globals.Supplies declared declared names) :
    Leaves (fun _ _ => True) (runItems room setting items) globals := by
  induction items generalizing names globals with
  | nil => exact leads_pure trivial
  | cons item items ih =>
      rw [Expr.boundInItems, Bool.and_eq_true] at bound
      apply (leaves_runItem room table bound.1 supplies).bind
      intro value after enough
      apply (ih bound.2 enough).bind
      intro values last _
      exact leads_pure trivial

theorem supplies_fresh (declared : List String) :
    fresh.globals.Supplies declared declared [] := by
  refine ⟨?_, Scope.holds_empty _⟩
  rintro name (member | absurd)
  · exact .inr member
  · cases absurd

theorem run_bound (room level : Nat) {program : List Expr}
    (lexical : Expr.wellScoped program = true) {fault : Fault}
    (failed : (fresh.run room level program).result = .error fault) : fault.Bound := by
  have table : (Setting.mk (fresh.functions.union (functionTable program)) level).functions.Declares
      (program.flatMap Expr.declares) := functionTable_declares lexical
  have leaves := leaves_runItems room table lexical (supplies_fresh _) #[]
  dsimp only [run] at failed
  split at failed
  · cases failed
  · rename_i ended
    rw [ended] at leaves
    cases failed
    exact leaves

end Session

theorem wellScoped_never_unbound (room level : Nat) (program : List Expr)
    (lexical : Expr.wellScoped program = true) (error : RuntimeError)
    (failed : (Session.fresh.run room level program).result = .error (.raised error))
    (tail : String) :
    error.cause.message ≠ "Couldn't find var in environment" ++ tail := by
  intro starts
  have bound : error.cause.isUnbound = false := Session.run_bound room level lexical failed
  rw [Cause.isUnbound_of_message starts] at bound
  cases bound

/-- A function whose body is a match, an arm that calls a closure over what the arm binds, and a
top-level let; the run goes through all of them and ends in a division by zero. -/
def vanishingRatio : List Expr :=
  [ .dataType "Pair" [("Pair", ["left", "right"])] .origin,
    .letTop "same" (.number 3 .origin) .origin,
    .call (.var "ratio" .origin) [.var "same" .origin] .origin,
    .function "ratio" ["x"]
      (.matching (.call (.var "Pair" .origin) [.var "x" .origin, .var "x" .origin] .origin)
        [(.data "Pair" [.var "a", .var "b"],
          .call
            (.lambda ["d"] (.binary (.text "/") (.var "a" .origin) (.var "d" .origin) .origin)
              .origin)
            [.binary (.text "-") (.var "a" .origin) (.var "b" .origin) .origin] .origin)] .origin)
      .origin ]

theorem vanishingRatio_never_unbound :
    Expr.wellScoped vanishingRatio = true ∧
      ∃ error, (Session.fresh.run 100 0 vanishingRatio).result = .error (.raised error) ∧
        ∀ tail, error.cause.message ≠ "Couldn't find var in environment" ++ tail :=
  ⟨by decide, _, rfl, wellScoped_never_unbound 100 0 vanishingRatio (by decide) _ rfl⟩

end FernLang
