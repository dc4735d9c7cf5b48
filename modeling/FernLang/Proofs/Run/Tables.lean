import FernLang.Proofs.Run.Items
import FernLang.Proofs.Scope.Lookup
import FernLang.Proofs.Scope.Safety

/-!
What a run asks of the table of functions. Evaluation looks up in it only names that variables have, and
the body of a builder finds all its names among the arguments. So two tables that agree on all other
names than some hidden ones are as good as each other for what has no variable of a hidden name.
-/

namespace FernLang

variable {hidden : String → Prop}

def Expr.Apart (hidden : String → Prop) (node : Expr) : Prop :=
  ∀ name span, node = .var name span → ¬hidden name

/-- The functions that look up no hidden name: those without a variable of one, and those that build a
variant of their parameters. -/
def Functions.apart (hidden : String → Prop) : Functions := fun params body =>
  body.Every (·.Apart hidden) ∨ ∃ tag span, body = .construct tag (params.map (.var · span)) span

theorem Functions.apart_closed : (Functions.apart hidden).Closed := by
  rintro params body (every | ⟨tag, span, rfl⟩) names inner place exposed
  · exact .inl (every.inside (Expr.Reached.trans (.part List.mem_cons_self) exposed.inside))
  · -- The parts of such a body are variables, and no lambda is inside a variable.
    cases exposed with
    | under member rest =>
        obtain ⟨field, _, rfl⟩ := List.mem_map.1 member
        cases rest with
        | under nothing => cases nothing

theorem Expr.covered_apart {tree : Expr} (every : tree.Every (·.Apart hidden)) :
    tree.Covered (.apart hidden) :=
  fun _ _ _ exposed => .inl (every.inside (Reached.trans (.part List.mem_cons_self) exposed.inside))

namespace Eval

variable {α β : Type}

theorem Ends.bind_congr {kind : α → Prop} {blame : Fault → Prop} {first : Eval α}
    {next next' : α → Eval β} (ends : Ends kind blame first)
    (same : ∀ value, kind value → next value = next' value) : first >>= next = first >>= next' := by
  funext lines
  have here := ends lines
  rw [bind_steps, bind_steps]
  cases ended : first lines with
  | error fault after => rfl
  | ok value after =>
      rw [ended] at here
      dsimp only
      rw [same value here]

theorem mapM_congr {items : List β} {eval eval' : β → Eval α}
    (same : ∀ item ∈ items, eval item = eval' item) : items.mapM eval = items.mapM eval' := by
  induction items with
  | nil => rw [List.mapM_nil, List.mapM_nil]
  | cons item items ih =>
      rw [List.mapM_cons, List.mapM_cons, same item List.mem_cons_self,
        ih fun other member => same other (List.mem_cons_of_mem _ member)]

theorem branches_congr {table table' : Scope Value} (level : Nat) {eval eval' : Expr → Eval Value}
    (scope : Scope Value) (stack : Stack) {otherwise : Expr} (last : eval otherwise = eval' otherwise)
    {choices : List (Expr × Expr)} (conditions : ∀ choice ∈ choices, eval choice.1 = eval' choice.1)
    (bodies : ∀ choice ∈ choices, eval choice.2 = eval' choice.2) :
    branches ⟨table, level⟩ eval scope stack otherwise choices =
      branches ⟨table', level⟩ eval' scope stack otherwise choices := by
  induction choices with
  | nil => exact last
  | cons choice choices ih =>
      have rest := ih (fun other member => conditions other (List.mem_cons_of_mem _ member))
        fun other member => bodies other (List.mem_cons_of_mem _ member)
      rw [branches_cons, branches_cons, conditions choice List.mem_cons_self, bodies choice List.mem_cons_self,
        rest]

/-- A call does as another evaluator does, when callee and arguments do and every body that it may come
to does. -/
theorem call_congr {table table' : Scope Value} (level : Nat)
    {eval eval' : Expr → Scope Value → Stack → Eval Value} {kind : Value → Prop}
    {blame : Fault → Prop} {callee : Expr} {args : List Expr} {span : Span} {scope : Scope Value}
    {stack : Stack} (head : Ends kind blame (eval callee scope stack))
    (each : ∀ arg ∈ args, Ends kind blame (eval arg scope stack))
    (callees : eval callee scope stack = eval' callee scope stack)
    (arguments : ∀ arg ∈ args, eval arg scope stack = eval' arg scope stack)
    (bodies : ∀ params body captured values, kind (.closure params body captured) →
      values.length = params.length → (∀ value ∈ values, kind value) → ∀ inner calls,
        inner = Scope.ofBindings (Bindings.ofPairs (params.zip values)) →
          eval body (captured.union inner) calls = eval' body (captured.union inner) calls) :
    call ⟨table, level⟩ eval callee args span scope stack =
      call ⟨table', level⟩ eval' callee args span scope stack := by
  rw [call_eq, call_eq]
  rw [← callees]
  refine head.bind_congr fun function known => ?_
  cases function with
  | closure params body captured =>
      dsimp only
      split
      · rfl
      · rename_i fits
        rw [← mapM_congr arguments]
        refine (ends_mapM each).bind_congr ?_
        rintro values ⟨same, all⟩
        have enough : values.length = params.length := by omega
        rw [bodies params body captured values known enough all _ _ rfl]
  | _ => rfl

theorem evaluate_bound (setting setting' : Setting) (room : Nat) {name : String} (span : Span)
    {scope : Scope Value} (bound : scope.contains name) (stack : Stack) :
    evaluate setting room (.var name span) scope stack =
      evaluate setting' room (.var name span) scope stack := by
  obtain ⟨value, found⟩ := Option.isSome_iff_exists.1 bound
  cases room with
  | zero => rfl
  | succ room =>
      rw [evaluate, evaluate, lookUp_eq, lookUp_eq, meaning?, meaning?, found]
      rfl

theorem evaluate_builder (setting setting' : Setting) (room : Nat) (tag : String)
    {fields : List String} (span : Span) {scope : Scope Value}
    (bound : ∀ field ∈ fields, scope.contains field) (stack : Stack) :
    evaluate setting room (.construct tag (fields.map (.var · span)) span) scope stack =
      evaluate setting' room (.construct tag (fields.map (.var · span)) span) scope stack := by
  cases room with
  | zero => rfl
  | succ room =>
      rw [evaluate, evaluate, mapM_congr]
      intro tree member
      obtain ⟨field, inside, rfl⟩ := List.mem_map.1 member
      exact evaluate_bound setting setting' room span (bound field inside) stack

end Eval

section

variable {table table' : Scope Value} (held : table.Holds (Value.Made (.apart hidden)))
include held

theorem evaluate_apart (level room : Nat) {tree : Expr} (every : tree.Every (·.Apart hidden))
    {scope : Scope Value} (inside : scope.Holds (Value.Made (.apart hidden))) (stack : Stack) :
    Eval.Ends (Value.Made (.apart hidden)) (fun _ => True)
      (evaluate ⟨table, level⟩ room tree scope stack) :=
  (evaluate_traces ⟨table, level⟩ Functions.apart_closed held room stack (Expr.covered_apart every)
    inside).mono (fun _ made => made) fun _ _ => trivial

open Eval in
/-- What is apart from hidden names is evaluated alike under tables that agree on all other names. -/
theorem evaluate_tables (agree : ∀ name, ¬hidden name → table.get? name = table'.get? name)
    (level room : Nat) {tree : Expr} (every : tree.Every (·.Apart hidden)) {scope : Scope Value}
    (inside : scope.Holds (Value.Made (.apart hidden))) (stack : Stack) :
    evaluate ⟨table, level⟩ room tree scope stack = evaluate ⟨table', level⟩ room tree scope stack := by
  induction room using Nat.strongRecOn generalizing tree scope stack with
  | ind room ih =>
      have below := (Expr.every_iff.1 every).2
      cases room with
      | zero => rfl
      | succ room =>
          have lower (part : Expr) (member : part ∈ tree.parts) {inner : Scope Value}
              (good : inner.Holds (Value.Made (.apart hidden))) :
              evaluate ⟨table, level⟩ room part inner stack =
                evaluate ⟨table', level⟩ room part inner stack :=
            ih room (Nat.lt_succ_self room) (below part member) good stack
          cases tree with
          | number | bool | lambda | letTop | function | dataType | row => rfl
          | var name span =>
              rw [evaluate, evaluate, lookUp_eq, lookUp_eq, meaning?, meaning?,
                agree name (every.here name span rfl)]
          | letIn name binding body span =>
              rw [evaluate, evaluate, ← lower binding (by simp [Expr.parts]) inside]
              refine (evaluate_apart held level room (below binding (by simp [Expr.parts])) inside
                stack).bind_congr fun value made => ?_
              exact lower body (by simp [Expr.parts]) (inside.extend made name)
          | binary sign left right span =>
              rw [evaluate, evaluate, lower left (by simp [Expr.parts]) inside,
                lower right (by simp [Expr.parts]) inside]
          | call callee args span =>
              cases room with
              | zero => rfl
              | succ room =>
                  have ends (part : Expr) (member : part ∈ (Expr.call callee args span).parts) :=
                    evaluate_apart held level room (below part member) inside stack
                  have alike (part : Expr) (member : part ∈ (Expr.call callee args span).parts) :=
                    ih room (by omega) (below part member) inside stack
                  refine call_congr level (ends callee List.mem_cons_self)
                    (fun arg member => ends arg (List.mem_cons_of_mem _ member))
                    (alike callee List.mem_cons_self)
                    (fun arg member => alike arg (List.mem_cons_of_mem _ member)) ?_
                  intro params body captured values made same all inner calls bound
                  obtain ⟨holds, named⟩ := arguments_made same all bound
                  cases made with
                  | closure known captures =>
                      rcases known with free | ⟨tag, place, rfl⟩
                      · exact ih room (by omega) free (Scope.Holds.union captures holds) calls
                      · refine evaluate_builder _ _ room tag place (fun field member => ?_) calls
                        rw [Scope.contains_union]
                        exact .inr ((named field).2 member)
          | cond choices otherwise span =>
              refine branches_congr level scope stack (lower otherwise List.mem_cons_self inside) ?_ ?_
              · intro choice member
                exact lower choice.1 (List.mem_cons_of_mem _
                  (List.mem_flatMap.2 ⟨choice, member, by simp⟩)) inside
              · intro choice member
                exact lower choice.2 (List.mem_cons_of_mem _
                  (List.mem_flatMap.2 ⟨choice, member, by simp⟩)) inside
          | construct tag fields span =>
              have each : ∀ field ∈ fields, evaluate ⟨table, level⟩ room field scope stack =
                  evaluate ⟨table', level⟩ room field scope stack :=
                fun field member => lower field member inside
              rw [evaluate, evaluate, mapM_congr each]
          | matching scrutinee arms span =>
              rw [evaluate, evaluate, ← lower scrutinee List.mem_cons_self inside]
              refine (evaluate_apart held level room (below scrutinee List.mem_cons_self) inside
                stack).bind_congr fun value made => ?_
              cases selected : selectArm value 0 arms with
              | none => rfl
              | some choice =>
                  obtain ⟨pattern, member, fits⟩ := selectArm_mem selected
                  have bound := Pattern.bindings?_kind Value.Made.fields fits made
                  dsimp only
                  rw [lower choice.2.2 (List.mem_cons_of_mem _ (List.mem_map.2 ⟨_, member, rfl⟩))
                    (inside.union (Scope.holds_ofBindings bound))]

end

theorem evaluate_congr {table table' : Scope Value}
    (agree : ∀ name, table.get? name = table'.get? name) (level room : Nat) :
    evaluate ⟨table, level⟩ room = evaluate ⟨table', level⟩ room := by
  -- Nothing is hidden here, so every tree and every value will do.
  have every (tree : Expr) : tree.Every (·.Apart fun _ => False) := fun _ _ _ _ _ nothing => nothing
  have made (scope : Scope Value) : scope.Holds (Value.Made (.apart fun _ => False)) :=
    fun _ _ entry _ => entry.2.made_of_all fun _ body => .inl (every body)
  funext tree scope stack
  exact evaluate_tables (made table) (fun name _ => agree name) level room (every tree) (made scope) stack

def Expr.entry? : Expr → Option (String × Value)
  | .function name params body _ => some (name, .closure params body .empty)
  | _ => none

namespace Session

variable {first second : List Expr}

/-- A constructor hides a function of its name. -/
theorem get?_functionTable (program : List Expr) (name : String) :
    (functionTable program).get? name =
      (Bindings.get? name ((Expr.builders program).filterMap Expr.entry?)).or
        (Bindings.get? name (program.filterMap Expr.entry?)) := by
  have same : functionTable program =
      .ofBindings (.ofPairs ((program ++ Expr.builders program).filterMap Expr.entry?)) := rfl
  rw [same, Scope.get?_ofBindings, Bindings.get?_ofPairs, List.filterMap_append, Bindings.get?_append]

theorem contains_functionTable (program : List Expr) (name : String) :
    (functionTable program).contains name ↔ name ∈ program.flatMap Expr.declares := by
  refine ⟨fun inside => ?_, functionTable_present program name⟩
  rw [functionTable, Scope.contains_ofBindings, Bindings.ofPairs, Bindings.mem_names_update] at inside
  rcases inside with nothing | inside
  · cases nothing
  obtain ⟨entry, member, rfl⟩ := List.mem_map.1 inside
  obtain ⟨item, among, made⟩ := List.mem_filterMap.1 member
  cases item with
  | function name params body span =>
      cases made
      rcases List.mem_append.1 among with written | built
      · exact List.mem_flatMap.2 ⟨_, written, List.mem_singleton_self name⟩
      · obtain ⟨item, declared, one⟩ := List.mem_flatMap.1 built
        cases item with
        | dataType type variants place =>
            obtain ⟨variant, listed, same⟩ := List.mem_map.1 one
            cases same
            exact List.mem_flatMap.2 ⟨_, declared, List.mem_map.2 ⟨variant, listed, rfl⟩⟩
        | _ => cases one
  | _ => cases made

theorem get?_functionTable_eq_none {program : List Expr} {name : String}
    (undeclared : name ∉ program.flatMap Expr.declares) : (functionTable program).get? name = none := by
  rw [← contains_functionTable] at undeclared
  exact Option.not_isSome_iff_eq_none.1 undeclared

/-- Where two programs declare no name together, their tables may be joined. -/
theorem get?_functionTable_append
    (apart : ∀ name ∈ second.flatMap Expr.declares, name ∉ first.flatMap Expr.declares)
    (name : String) :
    (functionTable (first ++ second)).get? name =
      ((functionTable second).get? name).or ((functionTable first).get? name) := by
  have built : Expr.builders (first ++ second) = Expr.builders first ++ Expr.builders second :=
    List.flatMap_append
  rw [get?_functionTable, built, List.filterMap_append, List.filterMap_append, Bindings.get?_append,
    Bindings.get?_append]
  by_cases declared : name ∈ second.flatMap Expr.declares
  · have missing := get?_functionTable_eq_none (apart name declared)
    rw [missing, Option.or_none, get?_functionTable]
    rw [get?_functionTable, Option.or_eq_none_iff] at missing
    rw [missing.1, missing.2, Option.or_none, Option.or_none]
  · have missing := get?_functionTable_eq_none declared
    rw [missing, Option.none_or, get?_functionTable]
    rw [get?_functionTable, Option.or_eq_none_iff] at missing
    rw [missing.1, missing.2, Option.none_or, Option.none_or]

end Session
end FernLang
