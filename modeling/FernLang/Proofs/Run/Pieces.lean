import FernLang.Proofs.Run.Parallel
import FernLang.Proofs.Run.Tables

/-!
Programs in pieces. A program may be given to a fresh session in two pieces, one run after the other,
when the first piece neither declares nor mentions what the second one declares: the values, the
globals and the functions are those of the program run at once, and so is the error.
-/

namespace FernLang

variable {hidden : String → Prop}

/-- The second of two pieces declares no name that the first one declares or has a variable of. -/
structure Expr.Separate (first second : List Expr) : Prop where
  declared : ∀ name ∈ second.flatMap declares, name ∉ first.flatMap declares
  unmentioned : ∀ name ∈ second.flatMap declares, ∀ item ∈ first, ∀ span,
    ¬(Expr.var name span).Inside item

namespace Expr.Separate

variable {first second : List Expr} (separate : Separate first second)
include separate

theorem apart : ∀ item ∈ first, item.Every (·.Apart (· ∈ second.flatMap declares)) := by
  rintro item member _ inside name span rfl declared
  exact separate.unmentioned name declared item member span inside

theorem supported : Supported (.apart (· ∈ second.flatMap declares)) first := by
  constructor
  · intro name params body span member
    rcases List.mem_append.1 member with written | built
    · exact .inl ((separate.apart _ written).inside (.part List.mem_cons_self))
    · obtain ⟨item, _, one⟩ := List.mem_flatMap.1 built
      cases item with
      | dataType type variants place =>
          obtain ⟨variant, _, same⟩ := List.mem_map.1 one
          cases same
          exact .inr ⟨variant.1, span, rfl⟩
      | _ => cases one
  · exact fun item member => covered_apart (separate.apart item member)

end Expr.Separate

namespace Eval

theorem parallel_lines {α : Type} {stack : Stack} {eval : Eval α} (same : Restack stack stack eval eval)
    {kind : α → Prop} (ends : Ends kind (fun _ => True) eval) :
    Parallel (fun _ _ => True) (fun value value' => value = value' ∧ kind value) Eq eval eval := by
  intro lines lines' _
  have good := ends lines
  have here := same lines lines'
  generalize eval lines = ended, eval lines' = ended' at here good ⊢
  cases here with
  | value value => exact .value ⟨rfl, good⟩ trivial
  | fault _ _ faults => cases faults <;> exact .fault rfl trivial

theorem parallel_trace (level : Nat) (event : Event) :
    Parallel (fun _ _ => True) Eq Eq (trace level event) (trace level event) := by
  have ends : Ends (fun _ => True) (fun _ => True) (trace level event) :=
    ends_trace trivial level event
  have same : Restack [] [] (trace level event) (trace level event) := restack_trace level event
  intro lines lines' states
  have here := parallel_lines same ends lines lines' states
  generalize trace level event lines = ended, trace level event lines' = ended' at here ⊢
  cases here with
  | value same => exact .value same.1 trivial
  | fault same => exact .fault same trivial

theorem parallel_withinRoom {α : Type} {kind : α → α → Prop} {eval other : Eval α}
    (inside : Parallel (fun _ _ => True) kind Eq eval other) (error : RuntimeError) :
    Parallel (fun _ _ => True) kind Eq (withinRoom error eval) (withinRoom error other) := by
  intro lines lines' states
  have here := inside lines lines' states
  unfold withinRoom
  generalize eval lines = ended, other lines' = ended' at here ⊢
  cases here with
  | value same states => exact .value same states
  | @fault fault _ _ _ same states =>
      subst same
      cases fault <;> exact .fault rfl states

end Eval

namespace Session

abbrev Progress.SameApart (hidden : String → Prop) : Progress → Progress → Prop :=
  Progress.Related (fun globals globals' => globals = globals' ∧
    globals.Holds (Value.Made (.apart hidden))) fun _ _ => True

section

variable {table table' : Scope Value} (held : table.Holds (Value.Made (.apart hidden)))
  (agree : ∀ name, ¬hidden name → table.get? name = table'.get? name) (room level : Nat)
include held agree

theorem parallel_topLevel_tables {expr : Expr} (every : expr.Every (·.Apart hidden)) (span : Span) :
    Parallel (Progress.SameApart hidden)
      (fun value value' => value = value' ∧ value.Made (.apart hidden)) Eq
      (topLevel room ⟨table, level⟩ expr span) (topLevel room ⟨table', level⟩ expr span) := by
  rintro ⟨globals, lines⟩ ⟨_, lines'⟩ ⟨⟨rfl, inside⟩, _⟩
  have ends := evaluate_apart held level room every inside .root
  have lined := Eval.parallel_lines (evaluate_ignoresStack ⟨table, level⟩ room expr globals .root .root)
    ends
  have tables := evaluate_tables held agree level room every inside .root
  have whole := Eval.parallel_withinRoom lined ⟨.tooDeep, span, globals, .root⟩ lines lines' trivial
  refine paired_evaluating ⟨⟨rfl, inside⟩, trivial⟩ ?_
  dsimp only
  rw [← tables]
  exact whole

/-- An item that is apart from hidden names is run alike under tables that agree on all others. -/
theorem parallel_runItem_tables {item : Expr} (every : item.Every (·.Apart hidden)) :
    Parallel (Progress.SameApart hidden)
      (Option.Rel fun value value' => value = value' ∧ value.Made (.apart hidden)) Eq
      (runItem room ⟨table, level⟩ item) (runItem room ⟨table', level⟩ item) := by
  have traced (event : Event) : Parallel (Progress.SameApart hidden) Eq Eq
      (evaluating (Eval.trace level event)) (evaluating (Eval.trace level event)) :=
    fun _ _ states => paired_evaluating states (Eval.parallel_trace level event _ _ trivial)
  have valued := parallel_valued (parallel_topLevel_tables held agree room level every item.span)
    (by
      rintro value _ ⟨rfl, _⟩
      exact traced (.valued value))
  cases item with
  | letTop name binding span =>
      have below := (Expr.every_iff.1 every).2 binding List.mem_cons_self
      refine parallel_bound (parallel_topLevel_tables held agree room level below span) ?_ ?_
      · rintro value _ ⟨globals, lines⟩ ⟨_, lines'⟩ ⟨rfl, made⟩ ⟨⟨rfl, inside⟩, _⟩
        exact ⟨⟨rfl, inside.extend made name⟩, trivial⟩
      · rintro value _ ⟨rfl, _⟩
        exact traced (.bound name value)
  | letIn name binding body span =>
      rintro ⟨globals, lines⟩ ⟨_, lines'⟩ ⟨⟨rfl, inside⟩, _⟩
      exact .fault rfl ⟨⟨rfl, inside⟩, trivial⟩
  | function | dataType => exact parallel_pure .none
  | _ => exact valued

theorem paired_runItems_tables {items : List Expr}
    (every : ∀ item ∈ items, item.Every (·.Apart hidden)) {globals : Scope Value}
    (inside : globals.Holds (Value.Made (.apart hidden))) (lines lines' : Array String) :
    Paired (fun progress progress' => progress.globals = progress'.globals) Eq Eq
      (runItems room ⟨table, level⟩ items ⟨globals, lines⟩)
      (runItems room ⟨table', level⟩ items ⟨globals, lines'⟩) := by
  have whole : Parallel (Progress.SameApart hidden)
      (List.Forall₂ fun value value' => value = value' ∧ value.Made (.apart hidden)) Eq
      (runItems room ⟨table, level⟩ items) (runItems room ⟨table', level⟩ items) :=
    parallel_runItems (List.forall₂_same.2 fun item member =>
      parallel_runItem_tables held agree room level (every item member))
  have ended := whole ⟨globals, lines⟩ ⟨globals, lines'⟩ ⟨⟨rfl, inside⟩, trivial⟩
  generalize runItems room ⟨table, level⟩ items ⟨globals, lines⟩ = first at ended ⊢
  generalize runItems room ⟨table', level⟩ items ⟨globals, lines'⟩ = second at ended ⊢
  cases ended with
  | value same states =>
      have equal := same.imp fun _ _ (one : _ ∧ _) => one.1
      rw [List.forall₂_eq_eq_eq] at equal
      exact .value equal states.globals.1
  | fault same states => exact .fault same states.globals.1

end

def FailsAfter (session : Session) (room level : Nat) (before : List Expr) (item : Expr)
    (rest : List Expr) (fault : Fault) : Prop :=
  ∃ values progress after,
    runItems room (session.setting level (before ++ item :: rest)) before ⟨session.globals, #[]⟩ =
      .ok values progress ∧
    runItem room (session.setting level (before ++ item :: rest)) item progress = .error fault after

section

variable {first second : List Expr} (separate : Expr.Separate first second)
include separate

theorem setting_first (level : Nat) (name : String) (undeclared : name ∉ second.flatMap Expr.declares) :
    (fresh.setting level first).functions.get? name =
      (fresh.setting level (first ++ second)).functions.get? name := by
  unfold setting
  rw [Scope.get?_union, Scope.get?_union, get?_functionTable_append separate.declared,
    get?_functionTable_eq_none undeclared, Option.none_or]

theorem setting_second (level : Nat) (globals : Scope Value) (name : String) :
    (setting ⟨globals, (fresh.setting level first).functions⟩ level second).functions.get? name =
      (fresh.setting level (first ++ second)).functions.get? name := by
  unfold setting
  rw [Scope.get?_union, Scope.get?_union, Scope.get?_union,
    get?_functionTable_append separate.declared, Option.or_assoc]

theorem paired_first (room level : Nat) :
    Paired (fun progress progress' => progress.globals = progress'.globals) Eq Eq
      (runItems room (fresh.setting level first) first ⟨.empty, #[]⟩)
      (runItems room (fresh.setting level (first ++ second)) first ⟨.empty, #[]⟩) :=
  paired_runItems_tables (setting_made (made_fresh _) separate.supported level)
    (fun name => setting_first separate level name) room level separate.apart (Scope.holds_empty _) _ _

theorem paired_second (room level : Nat) (globals : Scope Value) (lines lines' : Array String) :
    Paired (fun progress progress' => progress.globals = progress'.globals) Eq Eq
      (runItems room (setting ⟨globals, (fresh.setting level first).functions⟩ level second) second
        ⟨globals, lines⟩)
      (runItems room (fresh.setting level (first ++ second)) second ⟨globals, lines'⟩) := by
  have every (tree : Expr) : tree.Every (·.Apart fun _ => False) := fun _ _ _ _ _ nothing => nothing
  have made (value : Value) : value.Made (.apart fun _ => False) :=
    value.made_of_all fun _ body => .inl (every body)
  exact paired_runItems_tables (fun _ _ entry _ => made entry.2)
    (fun name _ => setting_second separate level globals name) room level (fun item _ => every item)
    (fun _ _ entry _ => made entry.2) lines lines'

variable {room level : Nat}

theorem whole_of_first_error {fault : Fault} {after : Progress}
    (piece : runItems room (fresh.setting level first) first ⟨.empty, #[]⟩ = .error fault after) :
    (fresh.run room level (first ++ second)).result = .error fault ∧
      ∃ before item rest, first = before ++ item :: rest ∧
        fresh.FailsAfter room level before item (rest ++ second) fault := by
  have early := paired_first separate room level
  rw [piece] at early
  obtain ⟨_, after', failed, rfl, _⟩ := early.of_error
  constructor
  · have whole : runItems room (fresh.setting level (first ++ second)) (first ++ second)
        ⟨.empty, #[]⟩ = .error fault after' := by
      rw [runItems_append, bind_steps, failed]
    rw [run_error whole]
  · obtain ⟨before, item, rest, values, middle, rfl, reached, stopped⟩ := runItems_error failed
    rw [List.append_assoc, List.cons_append] at reached stopped
    exact ⟨before, item, rest, rfl, values, middle, after', reached, stopped⟩

variable {values : List Value} {middle : Progress}
  (piece : runItems room (fresh.setting level first) first ⟨.empty, #[]⟩ = .ok values middle)
include piece

theorem whole_of_first_ok :
    ∃ lines, runItems room (fresh.setting level (first ++ second)) first ⟨.empty, #[]⟩ =
        .ok values ⟨middle.globals, lines⟩ ∧
      Paired (fun progress progress' => progress.globals = progress'.globals) Eq Eq
        (runItems room ((fresh.run room level first).session.setting level second) second
          ⟨middle.globals, #[]⟩)
        (runItems room (fresh.setting level (first ++ second)) second ⟨middle.globals, lines⟩) := by
  have early := paired_first separate room level
  rw [piece] at early
  obtain ⟨_, ⟨globals, lines⟩, passed, rfl, rfl⟩ := early.of_ok
  refine ⟨lines, passed, ?_⟩
  rw [run_ok piece]
  exact paired_second separate room level middle.globals #[] lines

theorem whole_of_second_error {fault : Fault} {after : Progress}
    (late : runItems room ((fresh.run room level first).session.setting level second) second
      ⟨middle.globals, #[]⟩ = .error fault after) :
    (fresh.run room level (first ++ second)).result = .error fault ∧
      ∃ before item rest, second = before ++ item :: rest ∧
        fresh.FailsAfter room level (first ++ before) item rest fault := by
  obtain ⟨lines, passed, further⟩ := whole_of_first_ok separate piece
  rw [late] at further
  obtain ⟨_, after', failed, rfl, _⟩ := further.of_error
  constructor
  · have whole : runItems room (fresh.setting level (first ++ second)) (first ++ second)
        ⟨.empty, #[]⟩ = .error fault after' := by
      rw [runItems_append, bind_steps, passed]
      dsimp only
      rw [bind_steps, failed]
    rw [run_error whole]
  · obtain ⟨before, item, rest, others, place, rfl, reached, stopped⟩ := runItems_error failed
    refine ⟨before, item, rest, rfl, values ++ others, place, after', ?_, ?_⟩
    · rw [List.append_assoc, runItems_append, bind_steps]
      have start : (fresh.globals : Scope Value) = .empty := rfl
      rw [start, passed]
      dsimp only
      rw [bind_steps, reached]
      rfl
    · rw [List.append_assoc]
      exact stopped

theorem whole_of_second_ok {others : List Value} {after : Progress}
    (late : runItems room ((fresh.run room level first).session.setting level second) second
      ⟨middle.globals, #[]⟩ = .ok others after) :
    (fresh.run room level (first ++ second)).result = .ok (values ++ others) ∧
      (fresh.run room level (first ++ second)).session.globals = after.globals := by
  obtain ⟨lines, passed, further⟩ := whole_of_first_ok separate piece
  rw [late] at further
  obtain ⟨_, after', done, rfl, same⟩ := further.of_ok
  have whole : runItems room (fresh.setting level (first ++ second)) (first ++ second)
      ⟨.empty, #[]⟩ = .ok (values ++ others) after' := by
    rw [runItems_append, bind_steps, passed]
    dsimp only
    rw [bind_steps, done]
    rfl
  rw [run_ok whole]
  exact ⟨rfl, same.symm⟩

end

end Session

/-- A program given to a fresh session in two pieces, the second of which declares no name that the first
one declares or has a variable of, comes to what it comes to at once. -/
theorem run_pieces {first second : List Expr} (separate : Expr.Separate first second)
    (room level : Nat) :
    match (Session.fresh.run room level (first ++ second)).result with
    | .ok values => ∃ early late,
        (Session.fresh.run room level first).result = .ok early ∧
        ((Session.fresh.run room level first).session.run room level second).result = .ok late ∧
        values = early ++ late ∧
        (Session.fresh.run room level (first ++ second)).session.globals.items =
          ((Session.fresh.run room level first).session.run room level second).session.globals.items ∧
        ∀ name, (Session.fresh.run room level (first ++ second)).session.functions.get? name =
          ((Session.fresh.run room level first).session.run room level second).session.functions.get? name
    | .error fault => ∃ before item rest, first ++ second = before ++ item :: rest ∧
        Session.fresh.FailsAfter room level before item rest fault ∧
        (before.length < first.length →
          (Session.fresh.run room level first).result = .error fault) ∧
        (first.length ≤ before.length →
          (∃ early, (Session.fresh.run room level first).result = .ok early) ∧
          ((Session.fresh.run room level first).session.run room level second).result =
            .error fault) := by
  cases piece : Session.runItems room (Session.fresh.setting level first) first ⟨.empty, #[]⟩ with
  | error fault after =>
      obtain ⟨whole, before, item, rest, rfl, fails⟩ := Session.whole_of_first_error separate piece
      rw [whole, Session.run_error piece]
      refine ⟨before, item, rest ++ second, by simp, fails, fun _ => rfl, ?_⟩
      intro beyond
      simp at beyond
  | ok values middle =>
      have early := Session.run_ok piece
      have globals : (Session.fresh.run room level first).session.globals = middle.globals := by
        rw [early]
      cases late : Session.runItems room
          ((Session.fresh.run room level first).session.setting level second) second
          ⟨middle.globals, #[]⟩ with
      | error fault after =>
          obtain ⟨whole, before, item, rest, rfl, fails⟩ :=
            Session.whole_of_second_error separate piece late
          rw [← globals] at late
          rw [whole, Session.run_error late]
          refine ⟨first ++ before, item, rest, by simp, fails, ?_, ?_⟩
          · intro within
            simp at within
          · intro _
            exact ⟨⟨values, by rw [early]⟩, rfl⟩
      | ok others after =>
          obtain ⟨whole, left⟩ := Session.whole_of_second_ok separate piece late
          rw [← globals] at late
          rw [whole, left]
          refine ⟨values, others, by rw [early], by rw [Session.run_ok late], rfl, ?_, ?_⟩
          · rw [Session.run_ok late]
          · intro name
            rw [Session.functions_run, Session.functions_run, early]
            exact (Session.setting_second separate level middle.globals name).symm

/-- A data type whose field has the name of a function that only comes later, and a value of it. -/
def boxes : List Expr :=
  [ .dataType "Box" [("box", ["open"])] (.ofWidth 0 24),
    .letTop "b" (.call (.var "box" (.ofWidth 33 3)) [.number 7 (.ofWidth 37 1)] (.ofWidth 33 6))
      (.ofWidth 25 14) ]

def openings : List Expr :=
  [ .call (.var "open" (.ofWidth 40 4)) [.var "b" (.ofWidth 45 1), .number 2 (.ofWidth 48 1)]
      (.ofWidth 40 10),
    .call (.var "open" (.ofWidth 51 4)) [.var "b" (.ofWidth 56 1), .number 0 (.ofWidth 59 1)]
      (.ofWidth 51 10),
    .function "open" ["c", "d"]
      (.matching (.var "c" (.ofWidth 87 1))
        [(.data "box" [.var "e"],
          .binary (.text "/") (.var "e" (.ofWidth 103 1)) (.var "d" (.ofWidth 107 1)) (.ofWidth 103 5))]
        (.ofWidth 81 27))
      (.ofWidth 62 55) ]

theorem boxes_separate : Expr.Separate boxes openings := by
  have every : ∀ item ∈ boxes, item.Every (·.Apart (· = "open")) := by
    refine List.forall_mem_cons.2 ⟨Expr.every_leaf rfl nofun, List.forall_mem_singleton.2 ?_⟩
    refine Expr.every_iff.2 ⟨nofun, List.forall_mem_singleton.2 (Expr.every_iff.2 ⟨nofun, ?_⟩)⟩
    refine List.forall_mem_cons.2 ⟨Expr.every_leaf rfl ?_,
      List.forall_mem_singleton.2 (Expr.every_leaf rfl nofun)⟩
    rintro _ _ ⟨⟩
    decide
  refine ⟨by decide, ?_⟩
  intro name declared item member span inside
  have named : name = "open" := List.mem_singleton.1 declared
  exact every item member _ inside name span rfl named

theorem boxes_pieces :
    Expr.Separate boxes openings ∧
      (Session.fresh.run 20 0 boxes).result.toOption.map List.length = some 0 ∧
      ∃ error : RuntimeError,
        (Session.fresh.run 20 0 (boxes ++ openings)).result = .error (.raised error) ∧
        error.cause = .divisionByZero ∧
        ∃ before item rest, boxes ++ openings = before ++ item :: rest ∧
          Session.fresh.FailsAfter 20 0 before item rest (.raised error) ∧
          (before.length < boxes.length →
            (Session.fresh.run 20 0 boxes).result = .error (.raised error)) ∧
          (boxes.length ≤ before.length →
            (∃ early, (Session.fresh.run 20 0 boxes).result = .ok early) ∧
            ((Session.fresh.run 20 0 boxes).session.run 20 0 openings).result =
              .error (.raised error)) :=
  ⟨boxes_separate, rfl, _, rfl, rfl, run_pieces boxes_separate 20 0⟩

end FernLang
