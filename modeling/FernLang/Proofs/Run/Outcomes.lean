import Mathlib
import FernLang.Proofs.Grammar.Soundness
import FernLang.Proofs.Message
import FernLang.Proofs.Run.Items

/-!
What becomes of the items of a source. An item that is neither a declaration nor a scoped let ends as
the evaluation of its tree does. A scoped let is refused as an item although its tree has a value. A
source has such items: the parentheses around an expression leave no trace in its tree, and inside them
a let is a scoped one.
-/

namespace FernLang

namespace Expr

def isDeclaration : Expr → Bool
  | .letTop _ _ _ | .function _ _ _ _ | .dataType _ _ _ => true
  | _ => false

def isScopedLet : Expr → Bool
  | .letIn _ _ _ _ => true
  | _ => false

end Expr

/-- A tree that is written in parentheses somewhere among tokens. -/
def Grammar.Parenthesized (tokens : List Token) (tree : Expr) : Prop :=
  ∃ before start inner close after shape,
    tokens = before ++ ⟨.mark .leftParen, start⟩ :: (inner ++ ⟨.mark .rightParen, close⟩ :: after) ∧
      Phrase .table shape inner tree

namespace Parse

open Grammar

variable {room : Nat} {cursor after : Cursor} {tree : Expr}

theorem expression_scoped (read : expression room 0 true cursor = .ok tree after)
    (inner : tree.isScopedLet = true) :
    ∃ start tokens close shape,
      cursor.rest = ⟨.mark .leftParen, start⟩ :: (tokens ++ ⟨.mark .rightParen, close⟩ :: after.rest) ∧
        Phrase .table shape tokens tree := by
  obtain ⟨token, used, taken, item⟩ := expression_item read
  have rest := taken.rest
  generalize token :: used = tokens at item rest
  cases item with
  | function | dataType | letTop => cases inner
  | expression phrase =>
      cases tree with
      | letIn name binding body span =>
          cases phrase with
          | paren phrase => exact ⟨_, _, _, _, by simpa using rest, phrase⟩
          | letIn bound body apart =>
              obtain ⟨left, last⟩ := cursor
              dsimp only at rest
              rw [rest] at read
              obtain ⟨name, binding, span, other⟩ := expression_letTop read
              cases other
      | _ => cases inner

end Parse

theorem parseTokens_scoped {room : Nat} {tokens : List Token} {program : List Expr}
    (parsed : parseTokens room tokens = .ok program) :
    ∀ item ∈ program, item.isScopedLet = true → Grammar.Parenthesized tokens item := by
  refine Parse.parseTokens_run (fun tokens program => ∀ item ∈ program, item.isScopedLet = true →
    Grammar.Parenthesized tokens item) ?_ ?_ parsed
  · simp
  · intro cursor middle tree more read others item member inner
    obtain ⟨token, used, taken, _⟩ := Parse.expression_item read
    rcases List.mem_cons.1 member with rfl | later
    · obtain ⟨start, tokens, close, shape, rest, phrase⟩ := Parse.expression_scoped read inner
      exact ⟨[], start, tokens, close, middle.rest, shape, rest, phrase⟩
    · obtain ⟨before, start, tokens, close, behind, shape, rest, phrase⟩ := others item later inner
      refine ⟨token :: used ++ before, start, tokens, close, behind, shape, ?_, phrase⟩
      rw [taken.rest, rest, List.append_assoc]

namespace Session

/-- How an item ends when the evaluation of its tree ended in some way: with the same value or fault.
Running out of room is blamed on the item, and when lines are traced a value may be too long for one. -/
def EndsAs (level : Nat) (item : Expr) (globals : Scope Value) :
    EStateM.Result Fault (Array String) Value → EStateM.Result Fault Progress (Option Value) → Prop
  | .ok value lines, ended =>
      (∃ shown, ended = .ok (some value) ⟨globals, shown⟩) ∨
        0 < level ∧ ∃ error, value.text = .error error ∧ ended = .error (.numeral error) ⟨globals, lines⟩
  | .error .outOfRoom lines, ended =>
      ended = .error (.raised ⟨.tooDeep, item.span, globals, .root⟩) ⟨globals, lines⟩
  | .error fault lines, ended => ended = .error fault ⟨globals, lines⟩

section

variable {room level : Nat} {setting : Setting} {item : Expr} {progress : Progress}

theorem trace_valued (level : Nat) (value : Value) (progress : Progress) :
    (∃ shown, evaluating (Eval.trace level (.valued value)) progress =
        .ok () ⟨progress.globals, shown⟩) ∨
      0 < level ∧ ∃ error, value.text = .error error ∧
        evaluating (Eval.trace level (.valued value)) progress = .error (.numeral error) progress := by
  unfold Eval.trace
  by_cases asked : 1 ≤ level
  · have traced : (Event.valued value).level ≤ level := asked
    rw [if_pos traced, Event.line]
    cases value.text with
    | ok text => exact .inl ⟨_, rfl⟩
    | error error => exact .inr ⟨asked, error, rfl, rfl⟩
  · have silent : ¬(Event.valued value).level ≤ level := asked
    rw [if_neg silent]
    exact .inl ⟨_, rfl⟩

theorem runItem_endsAs (room : Nat) (setting : Setting) (progress : Progress)
    (undeclared : item.isDeclaration = false) (unscoped : item.isScopedLet = false) :
    EndsAs setting.level item progress.globals
      (evaluate setting room item progress.globals .root progress.lines)
      (runItem room setting item progress) := by
  have valued : EndsAs setting.level item progress.globals
      (evaluate setting room item progress.globals .root progress.lines)
      ((do
        let value ← topLevel room setting item item.span
        evaluating (Eval.trace setting.level (.valued value))
        return some value : Run (Option Value)) progress) := by
    have first : topLevel room setting item item.span progress =
        evaluating (Eval.withinRoom ⟨.tooDeep, item.span, progress.globals, .root⟩
          (evaluate setting room item progress.globals .root)) progress := rfl
    rw [bind_steps, first, evaluating, Eval.withinRoom]
    cases evaluate setting room item progress.globals .root progress.lines with
    | error fault lines =>
        cases fault with
        | _ => rfl
    | ok value lines =>
        dsimp only
        rw [bind_steps]
        rcases trace_valued setting.level value ⟨progress.globals, lines⟩ with
          ⟨shown, traced⟩ | ⟨asked, error, long, traced⟩
        · rw [traced]
          exact .inl ⟨shown, rfl⟩
        · rw [traced]
          exact .inr ⟨asked, error, long, rfl⟩
  cases item with
  | letTop | function | dataType => cases undeclared
  | letIn => cases unscoped
  | _ => exact valued

end

section

variable {session : Session} {room level : Nat} {program : List Expr} {item : Expr} {fault : Fault}

theorem run_of_stopsAt (stopped : session.StopsAt room level program item fault) :
    (session.run room level program).result = .error fault := by
  obtain ⟨progress, after, ⟨before, rest, values, same, passed⟩, failed⟩ := stopped
  have here : runItems room (session.setting level program) (item :: rest) progress =
      .error fault after := by
    rw [runItems, bind_steps, failed]
  have whole : runItems room (session.setting level program) program ⟨session.globals, #[]⟩ =
      .error fault after := by
    nth_rewrite 2 [same]
    rw [runItems_append, bind_steps, passed]
    dsimp only
    rw [bind_steps, here]
  rw [run_error whole]

theorem made_any (session : Session) : session.Made fun _ _ => True :=
  ⟨fun _ _ entry _ => entry.2.made_of_all fun _ _ => trivial,
    fun _ _ entry _ => entry.2.made_of_all fun _ _ => trivial⟩

theorem run_outerLet_iff :
    (∃ error, (session.run room level program).result = .error (.raised error) ∧
      error.cause = .outerLet) ↔
      ∃ item progress, session.Reaches room level program item progress ∧
        item.isScopedLet = true := by
  constructor
  · rintro ⟨error, failed, cause⟩
    have supported : Expr.Supported (fun _ _ => True) program :=
      ⟨fun _ _ _ _ _ => trivial, fun _ _ _ _ _ _ => trivial⟩
    have closed : Functions.Closed fun _ _ => True := fun _ _ _ _ _ _ _ => trivial
    obtain ⟨item, _, ⟨progress, after, reached, _⟩, stops⟩ :=
      run_stops session.made_any supported closed failed
    refine ⟨item, progress, reached, ?_⟩
    cases stops with
    | arisen subject arises caught =>
        cases arises with
        | raised chain inner defect => exact absurd cause inner
        | tooDeep chain => cases cause
    | outerLet same =>
        subst same
        rfl
    | tooDeep => cases cause
  · rintro ⟨item, progress, reached, inner⟩
    cases item with
    | letIn name binding body span =>
        exact ⟨_, run_of_stopsAt ⟨progress, _, reached, rfl⟩, rfl⟩
    | _ => cases inner

end
end Session

/-- In a run of a source, an item that is neither a declaration nor a scoped let ends as the evaluation
of its tree does. The run stops at a scoped let if it reaches one, and in the words for that at no other
item. Such an item is written in parentheses. -/
theorem item_outcomes (session : Session) (nesting room level : Nat) (source : String)
    (program : List Expr) (parsed : parseSource nesting source = .ok program) :
    (∀ item progress, session.Reaches room level program item progress →
      item.isDeclaration = false → item.isScopedLet = false →
        Session.EndsAs level item progress.globals
          (evaluate (session.setting level program) room item progress.globals .root progress.lines)
          (Session.runItem room (session.setting level program) item progress) ∧
        ∀ fault after,
          Session.runItem room (session.setting level program) item progress = .error fault after →
            (session.run room level program).result = .error fault) ∧
    ((∃ error, (session.run room level program).result = .error (.raised error) ∧
      error.cause.message = "Found scoped let instead of top-level let at top level") ↔
        ∃ item progress, session.Reaches room level program item progress ∧
          item.isScopedLet = true) ∧
    ∀ item ∈ program, item.isScopedLet = true →
      ∃ tokens, tokenize source = .ok tokens ∧ Grammar.Parenthesized tokens item := by
  refine ⟨?_, ?_, ?_⟩
  · intro item progress reached undeclared unscoped
    refine ⟨Session.runItem_endsAs room (session.setting level program) progress undeclared unscoped, ?_⟩
    intro fault after failed
    exact Session.run_of_stopsAt ⟨progress, after, reached, failed⟩
  · rw [← Session.run_outerLet_iff]
    constructor
    · rintro ⟨error, failed, words⟩
      exact ⟨error, failed, Cause.eq_outerLet_of_message words⟩
    · rintro ⟨error, failed, cause⟩
      exact ⟨error, failed, congrArg Cause.message cause⟩
  · intro item member inner
    obtain ⟨tokens, scanned, read⟩ := parseSource_ok parsed
    exact ⟨tokens, scanned, parseTokens_scoped read item member inner⟩

/-- A top-level let, an expression that uses it, a function, and a scoped let in parentheses. -/
def mixedItems : String := "let n = 7 n * 6 function f(): n end ((let a = n a end))"

def mixedProgram : List Expr :=
  [ .letTop "n" (.number 7 (.ofWidth 8 1)) (.ofWidth 0 9),
    .binary (.text "*") (.var "n" (.ofWidth 10 1)) (.number 6 (.ofWidth 14 1)) (.ofWidth 10 5),
    .function "f" [] (.var "n" (.ofWidth 30 1)) (.ofWidth 16 19),
    .letIn "a" (.var "n" (.ofWidth 46 1)) (.var "a" (.ofWidth 48 1)) (.ofWidth 38 15) ]

theorem mixedItems_outcomes :
    parseSource 10 mixedItems = .ok mixedProgram ∧
      (∃ item progress, Session.fresh.Reaches 20 0 mixedProgram item progress ∧
        item.isDeclaration = false ∧ item.isScopedLet = false ∧
          Session.EndsAs 0 item progress.globals (.ok (.num 42) #[])
            (Session.runItem 20 (Session.fresh.setting 0 mixedProgram) item progress)) ∧
      (∃ error, (Session.fresh.run 20 0 mixedProgram).result = .error (.raised error) ∧
        error.cause.message = "Found scoped let instead of top-level let at top level") ∧
      ∃ item ∈ mixedProgram, item.isScopedLet = true ∧
        ∃ tokens, tokenize mixedItems = .ok tokens ∧ Grammar.Parenthesized tokens item := by
  have parsed : parseSource 10 mixedItems = .ok mixedProgram := by cbv
  obtain ⟨plain, refused, written⟩ := item_outcomes .fresh 10 20 0 mixedItems mixedProgram parsed
  refine ⟨parsed, ?_, ?_, ?_⟩
  · have reached : Session.fresh.Reaches 20 0 mixedProgram _ _ := ⟨[_], [_, _], [], rfl, rfl⟩
    exact ⟨_, _, reached, rfl, rfl, (plain _ _ reached rfl rfl).1⟩
  · have reached : Session.fresh.Reaches 20 0 mixedProgram _ _ := ⟨[_, _, _], [], [.num 42], rfl, rfl⟩
    exact refused.2 ⟨_, _, reached, rfl⟩
  · have member : mixedProgram[3] ∈ mixedProgram := by simp [mixedProgram]
    exact ⟨_, member, rfl, written _ member rfl⟩

/-- The tree of a scoped let in parentheses has a value, but as an item it is refused. -/
theorem parenthesizedLet_refused :
    ∃ item, parseSource nestingLimit "(let a = 1 a + 1 end)" = .ok [item] ∧
      item.isDeclaration = false ∧
      evaluate (Session.fresh.setting 0 [item]) Session.frameLimit item .empty .root #[] =
        .ok (.num 2) #[] ∧
      ∃ error, (Session.fresh.run Session.frameLimit 0 [item]).result = .error (.raised error) ∧
        error.cause.message = "Found scoped let instead of top-level let at top level" := by
  have parsed : parseSource nestingLimit "(let a = 1 a + 1 end)" =
      .ok [.letIn "a" (.number 1 (.ofWidth 9 1))
        (.binary (.text "+") (.var "a" (.ofWidth 11 1)) (.number 1 (.ofWidth 15 1)) (.ofWidth 11 5))
        (.ofWidth 1 19)] := by cbv
  exact ⟨_, parsed, rfl, rfl, _, rfl, rfl⟩

end FernLang
