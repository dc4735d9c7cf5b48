import FernLang.Proofs.Run.Chain

/-!
From evaluations to runs. A run goes through the items of its program in order; it reaches an item
when all items before it were run, and it stops at the item whose fault it ends with. What a session
holds stays made of known functions, also when a run fails.
-/

namespace FernLang

structure Expr.Supported (functions : Functions) (program : List Expr) : Prop where
  declared : ∀ name params body span,
    .function name params body span ∈ program ++ builders program → functions params body
  covered : ∀ item ∈ program, item.Covered functions

/-- The faults that an item may stop a run with. -/
inductive Fault.Stops (functions : Functions) (item : Expr) : Fault → Prop
  | arisen {fault : Fault} {expr : Expr} (subject : item.subject? = some expr)
      (arises : fault.Arises functions expr .root) (caught : fault ≠ .outOfRoom) :
      Stops functions item fault
  | outerLet {name : String} {binding body : Expr} {span : Span} {scope : Scope Value}
      (same : item = .letIn name binding body span) :
      Stops functions item (.raised ⟨.outerLet, item.span, scope, .root⟩)
  | tooDeep {scope : Scope Value} :
      Stops functions item (.raised ⟨.tooDeep, item.span, scope, .root⟩)

theorem Fault.Stops.caught {functions : Functions} {item : Expr} {fault : Fault}
    (stops : fault.Stops functions item) : fault ≠ .outOfRoom := by
  cases stops with
  | arisen _ _ caught => exact caught
  | outerLet | tooDeep => simp

def Fault.StopsWith (functions : Functions) (item : Expr) (fault : Fault) (globals : Scope Value) :
    Prop :=
  globals.Holds (Value.Made functions) ∧ fault.Stops functions item

namespace Session

def setting (session : Session) (level : Nat) (program : List Expr) : Setting :=
  ⟨session.functions.union (functionTable program), level⟩

/-- A run comes to an item with some progress made by the items before it. -/
def Reaches (session : Session) (room level : Nat) (program : List Expr) (item : Expr)
    (progress : Progress) : Prop :=
  ∃ before rest values, program = before ++ item :: rest ∧
    runItems room (session.setting level program) before ⟨session.globals, #[]⟩ = .ok values progress

def StopsAt (session : Session) (room level : Nat) (program : List Expr) (item : Expr)
    (fault : Fault) : Prop :=
  ∃ progress after, session.Reaches room level program item progress ∧
    runItem room (session.setting level program) item progress = .error fault after

section

variable {session : Session} {room level : Nat} {program : List Expr} {progress : Progress}

theorem run_ok {values : List Value}
    (passed : runItems room (session.setting level program) program ⟨session.globals, #[]⟩ =
      .ok values progress) :
    session.run room level program =
      ⟨.ok values, ⟨progress.globals, (session.setting level program).functions⟩, progress.lines⟩ := by
  rw [setting] at passed
  simp only [run, passed, setting]

theorem run_error {fault : Fault}
    (failed : runItems room (session.setting level program) program ⟨session.globals, #[]⟩ =
      .error fault progress) :
    session.run room level program =
      ⟨.error fault, ⟨progress.globals, (session.setting level program).functions⟩, progress.lines⟩ := by
  rw [setting] at failed
  simp only [run, failed, setting]

end

theorem functions_run (session : Session) (room level : Nat) (program : List Expr) :
    (session.run room level program).session.functions = (session.setting level program).functions := by
  unfold run
  dsimp only
  split <;> rfl

theorem runItems_append (room : Nat) (setting : Setting) (before rest : List Expr) :
    runItems room setting (before ++ rest) = do
      let values ← runItems room setting before
      let others ← runItems room setting rest
      return values ++ others := by
  induction before with
  | nil => simp [runItems]
  | cons item before ih =>
      rw [List.cons_append, runItems, runItems, ih]
      simp only [bind_assoc, pure_bind, List.append_assoc]

section

variable {room : Nat} {setting : Setting} {items : List Expr} {progress after : Progress}
  {fault : Fault}

theorem runItems_error (failed : runItems room setting items progress = .error fault after) :
    ∃ before item rest values middle, items = before ++ item :: rest ∧
      runItems room setting before progress = .ok values middle ∧
        runItem room setting item middle = .error fault after := by
  induction items generalizing progress with
  | nil => cases failed
  | cons item items ih =>
      rw [runItems, bind_steps] at failed
      cases first : runItem room setting item progress with
      | error found last =>
          rw [first] at failed
          cases failed
          exact ⟨[], item, items, [], progress, rfl, rfl, first⟩
      | ok value middle =>
          simp only [first] at failed
          rw [bind_steps] at failed
          cases others : runItems room setting items middle with
          | ok values last =>
              rw [others] at failed
              cases failed
          | error found last =>
              rw [others] at failed
              cases failed
              obtain ⟨before, stop, rest, values, place, rfl, passed, stopped⟩ := ih others
              refine ⟨item :: before, stop, rest, value.toList ++ values, place, rfl, ?_, stopped⟩
              rw [runItems, bind_steps, first]
              dsimp only
              rw [bind_steps, passed]
              rfl

end

variable {functions : Functions} {globals : Scope Value}

section

variable (room : Nat) {setting : Setting} (closed : functions.Closed)
  (table : setting.functions.Holds (Value.Made functions))
include closed table

theorem leads_runItem {item : Expr} (covered : item.Covered functions)
    (held : globals.Holds (Value.Made functions)) :
    Leads (fun _ after => after.Holds (Value.Made functions)) (Fault.StopsWith functions item)
      (runItem room setting item) globals := by
  have evaluated (expr : Expr) (subject : item.subject? = some expr) :
      Eval.Ends (Value.Made functions) (Fault.StopsWith functions item · globals)
        (Eval.withinRoom ⟨.tooDeep, item.span, globals, .root⟩
          (evaluate setting room expr globals .root)) := by
    have inside : expr.Covered functions := by
      rcases Expr.subject?_cases subject with rfl | member
      · exact covered
      · exact covered.under member
    have ends := evaluate_traces setting closed table room .root inside held
    exact ends.withinRoom ⟨held, .tooDeep⟩ fun fault caught arises =>
      ⟨held, .arisen subject arises caught⟩
  refine leads_item room setting evaluated (fun _ => held) ?_ ?_ ?_
  · intro name binding span value _ made
    exact held.extend made name
  · intro name binding body span same
    exact ⟨held, .outerLet same⟩
  · intro expr subject after held
    exact ⟨held, .arisen subject .long (by simp)⟩

theorem leads_runItems {items : List Expr} (covered : ∀ item ∈ items, item.Covered functions)
    (held : globals.Holds (Value.Made functions)) :
    Leads (fun _ after => after.Holds (Value.Made functions))
      (fun _ after => after.Holds (Value.Made functions)) (runItems room setting items) globals := by
  induction items generalizing globals with
  | nil => exact leads_pure held
  | cons item items ih =>
      have first : Leads (fun _ after => after.Holds (Value.Made functions))
          (fun _ after => after.Holds (Value.Made functions)) (runItem room setting item) globals :=
        (leads_runItem room closed table (covered item List.mem_cons_self) held).mono
          (fun _ _ held => held) fun _ _ stops => stops.1
      apply first.bind
      intro value after held
      apply (ih (fun other member => covered other (List.mem_cons_of_mem _ member)) held).bind
      intro values last held
      exact leads_pure held

end

/-- A session whose values are all made of known functions. -/
structure Made (functions : Functions) (session : Session) : Prop where
  globals : session.globals.Holds (Value.Made functions)
  functions : session.functions.Holds (Value.Made functions)

theorem made_fresh (functions : Functions) : fresh.Made functions :=
  ⟨Scope.holds_empty _, Scope.holds_empty _⟩

theorem functionTable_made {program : List Expr} (supported : Expr.Supported functions program) :
    (functionTable program).Holds (Value.Made functions) :=
  functionTable_holds fun name params body span member =>
    .closure (supported.declared name params body span member) (Scope.holds_empty _)

section

variable {session : Session} {program : List Expr} (made : session.Made functions)
  (supported : Expr.Supported functions program)
include made supported

theorem setting_made (level : Nat) :
    (session.setting level program).functions.Holds (Value.Made functions) :=
  made.functions.union (functionTable_made supported)

theorem run_made (closed : functions.Closed) (room level : Nat) :
    (session.run room level program).session.Made functions := by
  have table := setting_made made supported level
  have leads := leads_runItems room closed table supported.covered made.globals #[]
  unfold run
  dsimp only
  split
  · rename_i ended
    rw [setting, ended] at leads
    exact ⟨leads, table⟩
  · rename_i ended
    rw [setting, ended] at leads
    exact ⟨leads, table⟩

theorem run_stops (closed : functions.Closed) {room level : Nat} {fault : Fault}
    (failed : (session.run room level program).result = .error fault) :
    ∃ item ∈ program, session.StopsAt room level program item fault ∧ fault.Stops functions item := by
  have table := setting_made made supported level
  unfold run at failed
  dsimp only at failed
  split at failed
  · cases failed
  · rename_i ended
    cases failed
    obtain ⟨before, item, rest, values, middle, split, passed, stopped⟩ := runItems_error ended
    have inside : item ∈ program := by simp [split]
    have each : ∀ other ∈ before, other.Covered functions :=
      fun other member => supported.covered other (by simp [split, member])
    have early := leads_runItems room closed table each made.globals #[]
    rw [setting, passed] at early
    have late := leads_runItem room closed table (supported.covered item inside) early middle.lines
    rw [setting, stopped] at late
    exact ⟨item, inside, ⟨middle, _, ⟨before, rest, values, split, passed⟩, stopped⟩, late.2⟩

end
end Session

def Functions.every (good : Expr → Prop) : Functions := fun _ body => body.Every good

section

variable {good : Expr → Prop}

theorem Functions.every_closed : (Functions.every good).Closed := by
  intro params body every names inner span exposed
  exact every.inside (Expr.Reached.trans (.part List.mem_cons_self) exposed.inside)

/-- From a good tree, calls of good functions lead to good nodes only: the site, and a call for each
frame. -/
theorem CallChain.every {site tree : Expr} {frames : List Frame}
    (chain : CallChain (Functions.every good) site tree frames) (whole : tree.Every good) :
    good site ∧ ∀ frame ∈ frames, ∃ call, good call ∧ call.span = frame.span := by
  induction chain with
  | here exposed => exact ⟨whole _ exposed.inside, by simp⟩
  | call exposed known bound rest ih =>
      obtain ⟨last, others⟩ := ih known
      refine ⟨last, List.forall_mem_cons.2 ⟨?_, others⟩⟩
      exact ⟨_, whole _ exposed.inside, rfl⟩

/-- A program is supported by good functions when everything right below its items is good, and
the builders of its variants are. -/
theorem Expr.supported_every {program : List Expr}
    (below : ∀ item ∈ program, ∀ part ∈ item.parts, part.Every good)
    (built : ∀ name variants span, .dataType name variants span ∈ program →
      ∀ variant ∈ variants,
        (Expr.construct variant.1 (variant.2.map (.var · span)) span).Every good) :
    Supported (Functions.every good) program := by
  constructor
  · intro name params body span member
    rcases List.mem_append.1 member with written | made
    · exact below _ written body List.mem_cons_self
    · obtain ⟨item, inside, one⟩ := List.mem_flatMap.1 made
      cases item with
      | dataType type variants place =>
          obtain ⟨variant, among, same⟩ := List.mem_map.1 one
          cases same
          exact built _ _ _ inside variant among
      | _ => cases one
  · intro item member params body span exposed
    cases exposed with
    | whole => exact below _ member body List.mem_cons_self
    | under inside rest =>
        have lower := below item member _ (mem_parts_of_open item _ inside)
        exact lower.inside (Reached.trans (.part List.mem_cons_self) rest.inside)

end
end FernLang
