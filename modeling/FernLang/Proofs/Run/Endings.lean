import FernLang.Proofs.Run.Guarded
import FernLang.Proofs.Run.Parts
import FernLang.Proofs.Scope.Contents
import FernLang.Session

/-!
How the steps of a run end. A text is missing only for want of digits; an operation has a plain value
or an obstacle of its own kind; an evaluation ends with a value of some kind or with a fault that some
predicate allows. Each way to put steps together has a rule, so that what is claimed of whole runs
is claimed of their steps first.
-/

namespace FernLang

theorem mapM_ok {ε α β : Type} {items : List α} {step : α → Except ε β}
    (each : ∀ item ∈ items, ∃ value, step item = .ok value) :
    ∃ values, items.mapM step = .ok values := by
  induction items with
  | nil => exact ⟨[], rfl⟩
  | cons item items ih =>
      obtain ⟨value, first⟩ := each item List.mem_cons_self
      obtain ⟨values, rest⟩ := ih fun other member => each other (List.mem_cons_of_mem _ member)
      rw [List.mapM_cons, first, rest]
      exact ⟨value :: values, rfl⟩

theorem ok_of_bind {ε α β : Type} {first : Except ε α} {next : α → Except ε β} {result : β}
    (whole : first >>= next = .ok result) : ∃ value, first = .ok value ∧ next value = .ok result := by
  cases first with
  | error error => cases whole
  | ok value => exact ⟨value, rfl, whole⟩

theorem ok_of_mapM {ε α β : Type} {items : List α} {step : α → Except ε β} {values : List β}
    (whole : items.mapM step = .ok values) : ∀ item ∈ items, ∃ value, step item = .ok value := by
  induction items generalizing values with
  | nil => simp
  | cons item items ih =>
      rw [List.mapM_cons] at whole
      obtain ⟨value, first, whole⟩ := ok_of_bind whole
      obtain ⟨others, rest, _⟩ := ok_of_bind whole
      exact List.forall_mem_cons.2 ⟨⟨value, first⟩, ih rest⟩

namespace Numeral

variable {α β : Type}

/-- A text that is there unless a number in it has too many digits. -/
def Writes (text : Except Error α) : Prop := ∀ error, text = .error error → error = .tooLongToWrite

theorem writes_ok (value : α) : Writes (.ok value) := by
  intro error missing
  cases missing

theorem Writes.bind {first : Except Error α} {next : α → Except Error β} (early : Writes first)
    (late : ∀ value, Writes (next value)) : Writes (first >>= next) := by
  cases first with
  | ok value => exact late value
  | error found =>
      intro error missing
      cases missing
      exact early _ rfl

theorem writes_mapM {items : List β} {text : β → Except Error α}
    (each : ∀ item, Writes (text item)) : Writes (items.mapM text) := by
  induction items with
  | nil =>
      rw [List.mapM_nil]
      exact writes_ok []
  | cons item items ih =>
      rw [List.mapM_cons]
      exact (each item).bind fun first => ih.bind fun rest => writes_ok (first :: rest)

theorem writes_write (value : Int) : Writes (write value) := by
  intro error missing
  unfold write at missing
  split at missing
  · cases missing
  · cases missing
    rfl

end Numeral

open Numeral (Writes writes_ok writes_write writes_mapM)

namespace Value

mutual

theorem writes_text : ∀ value : Value, Writes value.text
  | .num value => by
      rw [text]
      exact writes_write value
  | .bool value => by
      rw [text]
      exact writes_ok _
  | .closure params body scope => by
      rw [text]
      exact writes_ok _
  | .data tag fields => by
      rw [text]
      exact (writes_textAll fields).bind fun _ => writes_ok _

theorem writes_textAll : ∀ values : List Value, Writes (textAll values)
  | [] => by
      rw [textAll]
      exact writes_ok _
  | value :: values => by
      rw [textAll]
      exact (writes_text value).bind fun _ => (writes_textAll values).bind fun _ => writes_ok _

end

inductive Plain : Value → Prop
  | num (value : Int) : Plain (.num value)
  | bool (value : Bool) : Plain (.bool value)

end Value

namespace Json

mutual

theorem writes_named : ∀ json : Json, Writes json.named
  | .null | .bool _ | .real _ | .text _ => by
      rw [named]
      exact writes_ok _
  | .whole value => by
      rw [named]
      exact writes_write value
  | .list items => by
      rw [named]
      exact (writes_namedItems items).bind fun _ => writes_ok _
  | .object fields => by
      rw [named]
      exact (writes_namedFields fields).bind fun _ => writes_ok _

theorem writes_namedItems : ∀ items : List Json, Writes (namedItems items)
  | [] => by
      rw [namedItems]
      exact writes_ok _
  | item :: items => by
      rw [namedItems]
      exact (writes_named item).bind fun _ => (writes_namedItems items).bind fun _ => writes_ok _

theorem writes_namedFields : ∀ fields : List (String × Json), Writes (namedFields fields)
  | [] => by
      rw [namedFields]
      exact writes_ok _
  | (name, value) :: fields => by
      rw [namedFields]
      exact (writes_named value).bind fun _ => (writes_namedFields fields).bind fun _ => writes_ok _

end

theorem writes_label (json : Json) : Writes json.label := by
  unfold label
  split
  · exact writes_ok _
  · exact writes_named json

end Json

theorem Event.writes_line (event : Event) : Writes event.line := by
  cases event with
  | bound name value => exact (value.writes_text).bind fun _ => writes_ok _
  | valued value => exact (value.writes_text).bind fun _ => writes_ok _
  | called name arguments depth =>
      refine (writes_mapM fun entry => ?_).bind fun _ => writes_ok _
      exact (entry.2.writes_text).bind fun _ => writes_ok _
  | tested value => exact (value.writes_text).bind fun _ => writes_ok _
  | chose value index => exact (value.writes_text).bind fun _ => writes_ok _

def Cause.isOperand : Cause → Bool
  | .firstOperand _ _ | .secondOperand _ _ | .bothOperands _ _ _ | .divisionByZero | .moduloByZero
  | .negativeExponent _ | .largeExponent _ => true
  | _ => false

/-- What may be in the way of the operation that a sign stands for. -/
inductive Obstacle.Of (sign : Json) : Obstacle → Prop
  | operand {cause : Cause} (operand : cause.isOperand = true) : Of sign (.cause cause)
  | unknown (shown : String) (unknown : Operation.operator? sign = none) :
      Of sign (.cause (.unknownOperator shown))
  | long : Of sign (.numeral .tooLongToWrite)
  | compound (unknown : Operation.operator? sign = none) : Of sign .compoundSign

namespace Operation

def Answers {α : Type} (kind : α → Prop) (blame : Obstacle → Prop) : Result α → Prop
  | .ok value => kind value
  | .error obstacle => blame obstacle

variable {α β : Type} {kind : α → Prop} {other : β → Prop} {blame : Obstacle → Prop} {sign : Json}

theorem Answers.bind {first : Result α} {next : α → Result β} (early : Answers kind blame first)
    (late : ∀ value, kind value → Answers other blame (next value)) :
    Answers other blame (first >>= next) := by
  cases first with
  | ok value => exact late value early
  | error obstacle => exact early

theorem answers_numeral {text : Except Numeral.Error α} (writes : Writes text) :
    Answers (fun _ => True) (Obstacle.Of sign) (numeral text) := by
  cases text with
  | ok value => trivial
  | error error =>
      cases writes error rfl
      exact Obstacle.Of.long

theorem answers_refuse {cause : Cause} (operand : cause.isOperand = true) :
    Answers kind (Obstacle.Of sign) (refuse cause) :=
  Obstacle.Of.operand operand

theorem answers_quoting {cause : String → Cause} {text : Except Numeral.Error String}
    (writes : Writes text) (operand : ∀ shown, (cause shown).isOperand = true) :
    Answers kind (Obstacle.Of sign) (do refuse (cause (← numeral text))) :=
  (answers_numeral writes).bind fun shown _ => answers_refuse (operand shown)

theorem answers_badBoth (symbol : String) (first second : Value) :
    Answers kind (Obstacle.Of sign) (badBoth symbol first second) :=
  (answers_numeral first.writes_text).bind fun _ _ => answers_quoting second.writes_text fun _ => rfl

theorem answers_numbers (symbol : String) (first second : Value) :
    Answers (fun _ => True) (Obstacle.Of sign) (numbers symbol first second) := by
  rw [numbers_eq]
  split
  · trivial
  · exact answers_quoting (Value.writes_text _) fun _ => rfl
  · exact answers_quoting (Value.writes_text _) fun _ => rfl
  · exact answers_badBoth symbol first second

theorem answers_truths (symbol : String) (first second : Value) :
    Answers (fun _ => True) (Obstacle.Of sign) (truths symbol first second) := by
  rw [truths_eq]
  split
  · trivial
  · exact answers_quoting (Value.writes_text _) fun _ => rfl
  · exact answers_quoting (Value.writes_text _) fun _ => rfl
  · exact answers_badBoth symbol first second

theorem answers_raise (base exponent : Int) :
    Answers (fun _ => True) (Obstacle.Of sign) (raise base exponent) := by
  have writes := writes_write exponent
  rw [raise_eq]
  generalize Numeral.write exponent = text at writes ⊢
  split
  · exact answers_quoting writes fun _ => rfl
  · split
    · exact answers_quoting writes fun _ => rfl
    · trivial

theorem answers_apply (operator : Operator) (first second : Value) :
    Answers Value.Plain (Obstacle.Of sign) (apply operator first second) := by
  have ofNumbers (next : Int × Int → Result Value)
      (plain : ∀ pair, Answers Value.Plain (Obstacle.Of sign) (next pair)) :
      Answers Value.Plain (Obstacle.Of sign) (numbers operator.symbol first second >>= next) :=
    (answers_numbers operator.symbol first second).bind fun pair _ => plain pair
  have ofTruths (next : Bool × Bool → Result Value)
      (plain : ∀ pair, Answers Value.Plain (Obstacle.Of sign) (next pair)) :
      Answers Value.Plain (Obstacle.Of sign) (truths operator.symbol first second >>= next) :=
    (answers_truths operator.symbol first second).bind fun pair _ => plain pair
  cases operator with
  | eq | ne => exact .bool _
  | and | or => exact ofTruths _ fun _ => .bool _
  | lt | gt | le | ge => exact ofNumbers _ fun _ => .bool _
  | add | sub | mul | bitAnd | bitOr | bitXor => exact ofNumbers _ fun _ => .num _
  | pow => exact ofNumbers _ fun pair => (answers_raise pair.1 pair.2).bind fun _ _ => .num _
  | div | mod =>
      apply ofNumbers
      intro pair
      dsimp only
      split
      · exact answers_refuse rfl
      · rename_i divisor
        rw [divide_eq divisor]
        exact .num _

theorem answers_applySign (sign : Json) (first second : Value) :
    Answers Value.Plain (Obstacle.Of sign) (applySign sign first second) := by
  unfold applySign
  split
  · exact answers_apply _ first second
  · rename_i unknown
    split
    · exact Obstacle.Of.compound unknown
    · exact Obstacle.Of.compound unknown
    · apply (answers_numeral (Json.writes_label _)).bind
      intro shown _
      exact Obstacle.Of.unknown shown unknown

end Operation

theorem bind_steps {ε σ α β : Type} (first : EStateM ε σ α) (next : α → EStateM ε σ β) (state : σ) :
    (first >>= next) state = match first state with
      | .ok value after => next value after
      | .error fault after => .error fault after := by
  change EStateM.bind first next state = _
  unfold EStateM.bind
  cases first state <;> rfl

namespace Eval

variable {α β : Type}

/-- However an evaluation ends, its value is of a kind, or its fault is allowed. -/
def Ends (kind : α → Prop) (blame : Fault → Prop) (eval : Eval α) : Prop :=
  ∀ lines, match eval lines with
    | .ok value _ => kind value
    | .error fault _ => blame fault

variable {kind : α → Prop} {other : β → Prop} {blame wider : Fault → Prop}

theorem ends_pure {value : α} (good : kind value) : Ends kind blame (pure value) :=
  fun _ => good

theorem ends_throw {fault : Fault} (allowed : blame fault) : Ends kind blame (throw fault) :=
  fun _ => allowed

theorem ends_raise {cause : Cause} {span : Span} {scope : Scope Value} {stack : Stack}
    (allowed : blame (.raised ⟨cause, span, scope, stack⟩)) :
    Ends kind blame (raise cause span scope stack) :=
  ends_throw allowed

theorem Ends.mono {eval : Eval α} {looser : α → Prop} (ends : Ends kind blame eval)
    (values : ∀ value, kind value → looser value) (faults : ∀ fault, blame fault → wider fault) :
    Ends looser wider eval := by
  intro lines
  have here := ends lines
  cases ended : eval lines with
  | ok value after =>
      rw [ended] at here
      exact values value here
  | error fault after =>
      rw [ended] at here
      exact faults fault here

theorem Ends.bind {first : Eval α} {next : α → Eval β} (early : Ends kind blame first)
    (late : ∀ value, kind value → Ends other blame (next value)) :
    Ends other blame (first >>= next) := by
  intro lines
  have here := early lines
  rw [bind_steps]
  cases ended : first lines with
  | ok value after =>
      rw [ended] at here
      exact late value here after
  | error fault after =>
      rw [ended] at here
      exact here

section

variable (long : blame (.numeral .tooLongToWrite))
include long

theorem ends_written {text : Except Numeral.Error α} (writes : Writes text) :
    Ends (fun _ => True) blame (written text) := by
  cases text with
  | ok value => exact ends_pure trivial
  | error error =>
      cases writes error rfl
      exact ends_throw long

theorem ends_quoting {cause : String → Cause} {text : Except Numeral.Error String}
    (writes : Writes text) {span : Span} {scope : Scope Value} {stack : Stack}
    (allowed : ∀ shown, blame (.raised ⟨cause shown, span, scope, stack⟩)) :
    Ends kind blame (do raise (cause (← written text)) span scope stack) :=
  (ends_written long writes).bind fun shown _ => ends_raise (allowed shown)

theorem ends_trace (level : Nat) (event : Event) :
    Ends (fun _ => True) blame (trace level event) := by
  unfold trace
  split
  · apply (ends_written long event.writes_line).bind
    intro line _ lines
    trivial
  · exact ends_pure trivial

end

theorem Ends.withinRoom {eval : Eval α} {error : RuntimeError} {inner : Fault → Prop}
    (inside : Ends kind inner eval) (deep : blame (.raised error))
    (faults : ∀ fault, fault ≠ .outOfRoom → inner fault → blame fault) :
    Ends kind blame (withinRoom error eval) := by
  intro lines
  have here := inside lines
  unfold Eval.withinRoom
  cases ended : eval lines with
  | ok value after =>
      rw [ended] at here
      exact here
  | error fault after =>
      rw [ended] at here
      cases fault with
      | outOfRoom => exact deep
      | _ => exact faults _ (by simp) here

theorem ends_mapM {items : List β} {eval : β → Eval α}
    (each : ∀ item ∈ items, Ends kind blame (eval item)) :
    Ends (fun values => values.length = items.length ∧ ∀ value ∈ values, kind value) blame
      (items.mapM eval) := by
  induction items with
  | nil =>
      rw [List.mapM_nil]
      exact ends_pure ⟨rfl, by simp⟩
  | cons item items ih =>
      rw [List.mapM_cons]
      apply (each item List.mem_cons_self).bind
      intro value good
      apply (ih fun other member => each other (List.mem_cons_of_mem _ member)).bind
      intro values ⟨same, all⟩
      apply ends_pure
      exact ⟨by rw [List.length_cons, List.length_cons, same], List.forall_mem_cons.2 ⟨good, all⟩⟩

theorem meaning?_holds {kind : Value → Prop} {setting : Setting} {scope : Scope Value}
    (table : setting.functions.Holds kind) (held : scope.Holds kind) {name : String} {value : Value}
    (found : meaning? setting scope name = some value) : kind value := by
  rcases Option.or_eq_some_iff.1 found with inside | ⟨_, outside⟩
  · exact held.get? inside
  · exact table.get? outside

theorem selectArm_mem {value : Value} {index found : Nat} {arms : List (Pattern × Expr)}
    {bindings : Bindings Value} {body : Expr}
    (selected : selectArm value index arms = some (found, bindings, body)) :
    ∃ pattern, (pattern, body) ∈ arms ∧ pattern.bindings? value = some bindings := by
  induction arms generalizing index with
  | nil => cases selected
  | cons arm arms ih =>
      rw [selectArm] at selected
      split at selected
      · rename_i fits
        cases selected
        exact ⟨arm.1, List.mem_cons_self, fits⟩
      · obtain ⟨pattern, member, fits⟩ := ih selected
        exact ⟨pattern, List.mem_cons_of_mem _ member, fits⟩

section

variable {kind : Value → Prop} {span : Span} {scope : Scope Value} {stack : Stack}
  (long : blame (.numeral .tooLongToWrite))
include long

theorem ends_applied {sign : Json} {result : Operation.Result Value}
    (answers : Operation.Answers Value.Plain (Obstacle.Of sign) result)
    (plain : ∀ value, value.Plain → kind value)
    (refused : ∀ cause, Obstacle.Of sign (.cause cause) → blame (.raised ⟨cause, span, scope, stack⟩))
    (compound : Operation.operator? sign = none → blame .compoundSign) :
    Ends kind blame (match result with
      | .ok value => return value
      | .error (.cause cause) => raise cause span scope stack
      | .error (.numeral error) => throw (.numeral error)
      | .error .compoundSign => throw .compoundSign
      | .error (.misused misuse) => throw (.misused misuse)) := by
  cases result with
  | ok value => exact ends_pure (plain value answers)
  | error obstacle =>
      cases obstacle with
      | cause cause => exact ends_raise (refused cause answers)
      | numeral error =>
          cases answers
          exact ends_throw long
      | compoundSign =>
          cases answers with
          | compound unknown => exact ends_throw (compound unknown)
      | misused misuse => cases answers

theorem ends_branches (setting : Setting) {eval : Expr → Eval Value} {otherwise : Expr}
    (last : Ends kind blame (eval otherwise)) {choices : List (Expr × Expr)}
    (conditions : ∀ choice ∈ choices, Ends kind blame (eval choice.1))
    (bodies : ∀ choice ∈ choices, Ends kind blame (eval choice.2))
    (refused : ∀ choice ∈ choices, ∀ shown,
      blame (.raised ⟨.condition shown, choice.1.span, scope, stack⟩)) :
    Ends kind blame (branches setting eval scope stack otherwise choices) := by
  induction choices with
  | nil => exact last
  | cons choice choices ih =>
      have rest := ih (fun other member => conditions other (List.mem_cons_of_mem _ member))
        (fun other member => bodies other (List.mem_cons_of_mem _ member))
        fun other member => refused other (List.mem_cons_of_mem _ member)
      rw [branches_cons]
      apply (conditions choice List.mem_cons_self).bind
      intro value _
      have shows := value.writes_text
      generalize value.text = text at shows ⊢
      cases value with
      | bool holds =>
          apply (ends_trace long _ _).bind
          intro _ _
          cases holds with
          | true => exact bodies choice List.mem_cons_self
          | false => exact rest
      | _ => exact ends_quoting long shows (refused choice List.mem_cons_self)

theorem ends_matching (setting : Setting) {eval : Expr → Scope Value → Stack → Eval Value}
    {value : Value} {arms : List (Pattern × Expr)}
    (bodies : ∀ pattern body bindings, (pattern, body) ∈ arms →
      pattern.bindings? value = some bindings →
        Ends kind blame (eval body (scope.union (.ofBindings bindings)) stack))
    (refused : ∀ shown, blame (.raised ⟨.unmatched shown, span, scope, stack⟩)) :
    Ends kind blame (match selectArm value 0 arms with
      | some (index, bindings, body) => do
          trace setting.level (.chose value index)
          eval body (scope.union (.ofBindings bindings)) stack
      | none => do raise (.unmatched (← written value.text)) span scope stack) := by
  cases selected : selectArm value 0 arms with
  | none => exact ends_quoting long value.writes_text refused
  | some choice =>
      obtain ⟨index, bindings, body⟩ := choice
      obtain ⟨pattern, member, fits⟩ := selectArm_mem selected
      apply (ends_trace long _ _).bind
      intro _ _
      exact bodies pattern body bindings member fits

/-- A call is refused at its own span on the caller's stack; its body runs on that stack with one
more frame, which holds the arguments. -/
theorem ends_call (setting : Setting) {eval : Expr → Scope Value → Stack → Eval Value}
    {function argument : Value → Prop} {callee : Expr} {args : List Expr}
    (head : Ends function blame (eval callee scope stack))
    (each : ∀ arg ∈ args, Ends argument blame (eval arg scope stack))
    (notFunction : ∀ shown, blame (.raised ⟨.notFunction shown, span, scope, stack⟩))
    (arity : ∀ wanted given, blame (.raised ⟨.arity wanted given, span, scope, stack⟩))
    (body : ∀ params body captured values, function (.closure params body captured) →
      values.length = params.length → (∀ value ∈ values, argument value) →
        ∀ inner, inner = Scope.ofBindings (Bindings.ofPairs (params.zip values)) →
          Ends kind blame (withinRoom ⟨.tooDeep, span, scope, stack ++ [⟨span, inner⟩]⟩
            (eval body (captured.union inner) (stack ++ [⟨span, inner⟩])))) :
    Ends kind blame (call setting eval callee args span scope stack) := by
  rw [call_eq]
  apply head.bind
  intro found known
  have shows := found.writes_text
  generalize found.text = text at shows ⊢
  cases found with
  | closure params inside captured =>
      dsimp only
      split
      · exact ends_raise (arity _ _)
      · rename_i fits
        apply (ends_mapM each).bind
        intro values ⟨same, all⟩
        apply (ends_trace long _ _).bind
        intro _ _
        have enough : values.length = params.length := by omega
        exact body params inside captured values known enough all _ rfl
  | _ => exact ends_quoting long shows notFunction

end

end Eval

namespace Session

variable {α β : Type}

/-- From some globals, a run that goes on has a value and leaves globals of a kind, and the fault of
one that stops is allowed with the globals it leaves. -/
def Leads (kind : α → Scope Value → Prop) (blame : Fault → Scope Value → Prop) (run : Run α)
    (globals : Scope Value) : Prop :=
  ∀ lines, match run ⟨globals, lines⟩ with
    | .ok value after => kind value after.globals
    | .error fault after => blame fault after.globals

variable {kind : α → Scope Value → Prop} {other : β → Scope Value → Prop}
  {blame : Fault → Scope Value → Prop} {globals : Scope Value}

theorem leads_pure {value : α} (good : kind value globals) : Leads kind blame (pure value) globals :=
  fun _ => good

theorem Leads.bind {first : Run α} {next : α → Run β} (early : Leads kind blame first globals)
    (late : ∀ value after, kind value after → Leads other blame (next value) after) :
    Leads other blame (first >>= next) globals := by
  intro lines
  have here := early lines
  rw [bind_steps]
  cases ended : first ⟨globals, lines⟩ with
  | ok value after =>
      rw [ended] at here
      exact late value after.globals here after.lines
  | error fault after =>
      rw [ended] at here
      exact here

theorem Leads.mono {run : Run α} {looser : α → Scope Value → Prop}
    {wider : Fault → Scope Value → Prop} (leads : Leads kind blame run globals)
    (values : ∀ value after, kind value after → looser value after)
    (faults : ∀ fault after, blame fault after → wider fault after) :
    Leads looser wider run globals := by
  intro lines
  have here := leads lines
  cases ended : run ⟨globals, lines⟩ with
  | ok value after =>
      rw [ended] at here
      exact values value after.globals here
  | error fault after =>
      rw [ended] at here
      exact faults fault after.globals here

theorem leads_evaluating {kind : α → Prop} {eval : Eval α}
    (ends : Eval.Ends kind (blame · globals) eval) :
    Leads (fun value after => kind value ∧ after = globals) blame (evaluating eval) globals := by
  intro lines
  have here := ends lines
  unfold evaluating
  cases ended : eval lines with
  | ok value after =>
      rw [ended] at here
      exact ⟨here, rfl⟩
  | error fault after =>
      rw [ended] at here
      exact here

section

variable {kind : Value → Prop} {post : Scope Value → Prop} (room : Nat) (setting : Setting)
  {item : Expr}
  (subject : ∀ expr, item.subject? = some expr →
    Eval.Ends kind (blame · globals) (Eval.withinRoom ⟨.tooDeep, item.span, globals, .root⟩
      (evaluate setting room expr globals .root)))
  (stays : (∀ name binding span, item ≠ .letTop name binding span) → post globals)
  (grows : ∀ name binding span value, item = .letTop name binding span → kind value →
    post (globals.extend name value))
  (outer : ∀ name binding body span, item = .letIn name binding body span →
    blame (.raised ⟨.outerLet, item.span, globals, .root⟩) globals)
  (long : ∀ expr, item.subject? = some expr → ∀ after, post after →
    blame (.numeral .tooLongToWrite) after)
include subject stays grows outer long

/-- An item, given what becomes of the expression that it has evaluated. Only a top-level let changes
the globals. -/
theorem leads_value :
    Leads (fun value after => (∀ found ∈ value, kind found) ∧ post after) blame
      (runItem room setting item) globals := by
  have evaluated {expr : Expr} (found : item.subject? = some expr) :
      Leads (fun value after => kind value ∧ after = globals) blame
        (topLevel room setting expr item.span) globals := by
    intro lines
    exact leads_evaluating (subject expr found) lines
  have traced {expr : Expr} (found : item.subject? = some expr) (event : Event)
      {after : Scope Value} (good : post after) :
      Leads (fun (_ : Unit) last => True ∧ last = after) blame
        (evaluating (Eval.trace setting.level event)) after :=
    leads_evaluating (Eval.ends_trace (long expr found after good) _ _)
  have valued (found : item.subject? = some item) (good : post globals) :
      Leads (fun value after => (∀ found ∈ value, kind found) ∧ post after) blame
        (do
          let value ← topLevel room setting item item.span
          evaluating (Eval.trace setting.level (.valued value))
          return some value) globals := by
    apply (evaluated found).bind
    rintro value after ⟨made, rfl⟩
    apply (traced found _ good).bind
    rintro _ last ⟨_, rfl⟩
    exact leads_pure ⟨by simpa using made, good⟩
  cases item with
  | letTop name binding span =>
      apply (evaluated rfl).bind
      rintro value after ⟨made, rfl⟩
      have extended : Leads (fun (_ : Unit) after => post after) blame
          (modify fun progress => { progress with globals := progress.globals.extend name value })
          after := fun _ => grows name binding span value rfl made
      apply extended.bind
      intro _ later good
      apply (traced rfl _ good).bind
      rintro _ last ⟨_, rfl⟩
      exact leads_pure ⟨by simp, good⟩
  | letIn name binding body span => exact fun _ => outer name binding body span rfl
  | function | dataType => exact leads_pure ⟨by simp, stays (by simp)⟩
  | _ => exact valued rfl (stays (by simp))

theorem leads_item :
    Leads (fun _ after => post after) blame (runItem room setting item) globals :=
  (leads_value room setting subject stays grows outer long).mono (fun _ _ good => good.2)
    fun _ _ allowed => allowed

end

theorem functionTable_holds {kind : Value → Prop} {program : List Expr}
    (each : ∀ name params body span,
      .function name params body span ∈ program ++ Expr.builders program →
        kind (.closure params body .empty)) :
    (functionTable program).Holds kind := by
  apply Scope.holds_ofBindings
  intro entry member
  rcases Bindings.mem_update member with none | member
  · cases none
  obtain ⟨item, inside, made⟩ := List.mem_filterMap.1 member
  cases item with
  | function name params body span =>
      cases made
      exact each name params body span inside
  | _ => cases made

end Session
end FernLang
