import FernLang.Proofs.Run.Tables
import FernLang.Proofs.Value.Matching

/-!
Constructors build what patterns take apart. The table of a program has the last variant of a name, or
else the last function of it. A variant's fields are the parameters of its constructor, so whatever
these names mean elsewhere, a call gives the data of its arguments in their order; matching takes this
data apart field by field, and comparing it compares the fields. Where calls are traced they show their
arguments, and one that is too long to be written stops the call.
-/

namespace FernLang

def lastNamed {α : Type} (name : String) (entries : List (String × α)) : Option α :=
  (entries.filter (·.1 = name)).getLast?.map Prod.snd

def Value.constructor (tag : String) (fields : List String) (span : Span) : Value :=
  .closure fields (.construct tag (fields.map (.var · span)) span) .empty

namespace Expr

def variants (program : List Expr) : List (String × List String × Span) :=
  program.flatMap fun
    | .dataType _ variants span => variants.map fun variant => (variant.1, variant.2, span)
    | _ => []

def definitions (program : List Expr) : List (String × List String × Expr) :=
  program.filterMap fun
    | .function name params body _ => some (name, params, body)
    | _ => none

theorem entries_builders (program : List Expr) :
    (builders program).filterMap entry? = (variants program).map fun variant =>
      (variant.1, Value.constructor variant.1 variant.2.1 variant.2.2) := by
  unfold builders variants
  rw [List.filterMap_flatMap, List.map_flatMap]
  congr 1
  funext item
  cases item with
  | dataType name variants span =>
      rw [List.filterMap_map, List.map_map, ← List.filterMap_eq_map]
      rfl
  | _ => rfl

theorem entries_definitions (program : List Expr) :
    program.filterMap entry? = (definitions program).map fun function =>
      (function.1, Value.closure function.2.1 function.2.2 .empty) := by
  rw [definitions, List.map_filterMap]
  congr 1
  funext item
  cases item <;> rfl

end Expr

theorem Bindings.get?_eq_lastNamed {α : Type} (name : String) (entries : Bindings α) :
    entries.get? name = lastNamed name entries := by
  induction entries with
  | nil => rfl
  | cons entry rest ih =>
      rw [get?_cons, ih, lastNamed, lastNamed]
      by_cases same : entry.1 = name
      · rw [if_pos same, List.filter_cons_of_pos (by simpa using same), List.getLast?_cons]
        cases (rest.filter (·.1 = name)).getLast? <;> rfl
      · rw [if_neg same, List.filter_cons_of_neg (by simpa using same), Option.or_none]

theorem Session.get?_functionTable_eq (program : List Expr) (name : String) :
    (functionTable program).get? name =
      ((lastNamed name (Expr.variants program)).map fun variant =>
        Value.constructor name variant.1 variant.2).or
        ((lastNamed name (Expr.definitions program)).map fun function =>
          .closure function.1 function.2 .empty) := by
  have built := Bindings.get?_mapValues name
    (fun tag (variant : List String × Span) => Value.constructor tag variant.1 variant.2)
    (Expr.variants program)
  have defined := Bindings.get?_mapValues name
    (fun _ (function : List String × Expr) => Value.closure function.1 function.2 .empty)
    (Expr.definitions program)
  rw [get?_functionTable, Expr.entries_builders, Expr.entries_definitions, built, defined,
    Bindings.get?_eq_lastNamed, Bindings.get?_eq_lastNamed]

/-- A call is not told of where an argument cannot be written. -/
theorem Event.line_called_long {arguments : Bindings Value} {entry : String × Value}
    (member : entry ∈ arguments) (long : entry.2.text = .error .tooLongToWrite) (name : String)
    (depth : Nat) : (Event.called name arguments depth).line = .error .tooLongToWrite := by
  cases told : (Event.called name arguments depth).line with
  | error error => rw [Event.writes_line _ error told]
  | ok line =>
      rw [Event.line] at told
      obtain ⟨texts, shown, _⟩ := ok_of_bind told
      obtain ⟨text, one⟩ := ok_of_mapM shown entry member
      rw [long] at one
      cases one

namespace Eval

variable {α β : Type}

/-- An evaluation comes to a value, whatever was traced before. -/
def Yields (eval : Eval α) (value : α) : Prop := ∀ lines, ∃ after, eval lines = .ok value after

def Halts (eval : Eval α) (fault : Fault) : Prop := ∀ lines, ∃ after, eval lines = .error fault after

theorem yields_pure (value : α) : Yields (pure value) value := fun lines => ⟨lines, rfl⟩

theorem Yields.bind {eval : Eval α} {next : α → Eval β} {value : α} {last : β}
    (early : Yields eval value) (late : Yields (next value) last) : Yields (eval >>= next) last := by
  intro lines
  obtain ⟨middle, first⟩ := early lines
  obtain ⟨after, second⟩ := late middle
  exact ⟨after, by rw [bind_steps, first]; exact second⟩

theorem Yields.halts {eval : Eval α} {next : α → Eval β} {value : α} {fault : Fault}
    (early : Yields eval value) (late : Halts (next value) fault) : Halts (eval >>= next) fault := by
  intro lines
  obtain ⟨middle, first⟩ := early lines
  obtain ⟨after, second⟩ := late middle
  exact ⟨after, by rw [bind_steps, first]; exact second⟩

theorem Halts.bind {eval : Eval α} {fault : Fault} (early : Halts eval fault) (next : α → Eval β) :
    Halts (eval >>= next) fault := by
  intro lines
  obtain ⟨after, first⟩ := early lines
  exact ⟨after, by rw [bind_steps, first]⟩

theorem yields_mapM {items : List β} {values : List α} {eval : β → Eval α}
    (each : List.Forall₂ (fun item value => Yields (eval item) value) items values) :
    Yields (items.mapM eval) values := by
  induction each with
  | nil =>
      rw [List.mapM_nil]
      exact yields_pure []
  | cons here _ ih =>
      rw [List.mapM_cons]
      exact here.bind (ih.bind (yields_pure _))

theorem Yields.withinRoom {eval : Eval α} {value : α} (inside : Yields eval value)
    (error : RuntimeError) : Yields (withinRoom error eval) value := by
  intro lines
  obtain ⟨after, ended⟩ := inside lines
  exact ⟨after, by rw [Eval.withinRoom, ended]⟩

/-- An event that is not asked for, or whose line can be written, does not get in the way. -/
theorem yields_trace {level : Nat} {event : Event}
    (writable : level < event.level ∨ ∃ line, event.line = .ok line) :
    Yields (trace level event) () := by
  unfold trace
  split
  · rename_i asked
    obtain silent | ⟨line, shown⟩ := writable
    · omega
    · intro lines
      exact ⟨lines.push line, by rw [shown]; rfl⟩
  · exact yields_pure ()

theorem line_called_ok {arguments : Bindings Value}
    (writable : ∀ entry ∈ arguments, ∃ text, entry.2.text = .ok text) (name : String) (depth : Nat) :
    ∃ line, (Event.called name arguments depth).line = .ok line := by
  obtain ⟨texts, shown⟩ : ∃ texts, (arguments.mapM fun entry => do
      return entry.1 ++ "=" ++ (← entry.2.text) : Except Numeral.Error (List String)) = .ok texts := by
    apply mapM_ok
    intro entry member
    obtain ⟨text, here⟩ := writable entry member
    exact ⟨entry.1 ++ "=" ++ text, by rw [here]; rfl⟩
  exact ⟨_, by rw [Event.line, shown]; rfl⟩

theorem trace_stops {level : Nat} {event : Event} {error : Numeral.Error}
    (asked : event.level ≤ level) (untold : event.line = .error error) (lines : Array String) :
    trace level event lines = .error (.numeral error) lines := by
  rw [trace, if_pos asked, untold]
  rfl

theorem yields_var (setting : Setting) (room : Nat) {name : String} (span : Span) {scope : Scope Value}
    {value : Value} (bound : scope.get? name = some value) (stack : Stack) :
    Yields (evaluate setting (room + 1) (.var name span) scope stack) value := by
  rw [evaluate, lookUp_eq, meaning?, bound]
  exact yields_pure value

section

variable {fields : List String} {values : List Value}

theorem get?_argument (distinct : fields.Nodup) (same : values.length = fields.length) {field : String}
    {value : Value} (member : (field, value) ∈ fields.zip values) :
    (Bindings.ofPairs (fields.zip values)).get? field = some value := by
  have named : Bindings.names (fields.zip values) = fields := List.map_fst_zip (Nat.le_of_eq same.symm)
  rw [Bindings.get?_ofPairs]
  exact Bindings.get?_of_mem (by rw [named]; exact distinct) member

theorem get?_arguments (distinct : fields.Nodup) (same : values.length = fields.length)
    (captured : Scope Value) :
    List.Forall₂ (fun field value =>
      (captured.union (.ofBindings (.ofPairs (fields.zip values)))).get? field = some value)
      fields values := by
  refine List.forall₂_iff_zip.2 ⟨same.symm, fun {field value} member => ?_⟩
  rw [Scope.get?_union, Scope.get?_ofBindings, get?_argument distinct same member]
  rfl

theorem mem_arguments (distinct : fields.Nodup) (same : values.length = fields.length) {value : Value}
    (member : value ∈ values) : ∃ field, (field, value) ∈ Bindings.ofPairs (fields.zip values) := by
  rw [← List.map_snd_zip (Nat.le_of_eq same)] at member
  obtain ⟨⟨field, value⟩, inside, rfl⟩ := List.mem_map.1 member
  exact ⟨field, Bindings.mem_of_get? (get?_argument distinct same inside)⟩

end

theorem yields_construct (setting : Setting) (room : Nat) (tag : String) {fields : List String}
    (span : Span) {scope : Scope Value} {values : List Value}
    (bound : List.Forall₂ (fun field value => scope.get? field = some value) fields values)
    (stack : Stack) :
    Yields (evaluate setting (room + 2) (.construct tag (fields.map (.var · span)) span) scope stack)
      (.data tag values) := by
  rw [evaluate]
  refine (yields_mapM (List.forall₂_map_left_iff.2 ?_)).bind (yields_pure _)
  exact bound.imp fun field value here => yields_var setting room span here stack

variable {table scope : Scope Value} {level room : Nat} {stack : Stack} {tag : String}
  {fields : List String} {place : Span}

theorem evaluate_constructor (known : table.get? tag = some (.constructor tag fields place))
    (hidden : scope.get? tag = none) {args : List Expr} (arity : args.length = fields.length)
    (site span : Span) :
    evaluate ⟨table, level⟩ (room + 4) (.call (.var tag site) args span) scope stack = (do
      let values ← args.mapM (evaluate ⟨table, level⟩ (room + 2) · scope stack)
      let arguments := Bindings.ofPairs (fields.zip values)
      trace level (.called tag arguments stack.length)
      let inner := Scope.ofBindings arguments
      let calls := stack ++ [⟨span, inner⟩]
      withinRoom ⟨.tooDeep, span, scope, calls⟩ (evaluate ⟨table, level⟩ (room + 2)
        (.construct tag (fields.map (.var · place)) place) (Scope.empty.union inner) calls)) := by
  have head : evaluate ⟨table, level⟩ (room + 2) (.var tag site) scope stack =
      pure (.constructor tag fields place) := by
    rw [evaluate, lookUp_eq, meaning?, hidden, known]
    rfl
  rw [evaluate, call_eq, head, pure_bind]
  dsimp only [Value.constructor]
  rw [if_neg (not_not_intro arity.symm)]
  rfl

section

variable {args : List Expr} {values : List Value}

theorem yields_constructor (known : table.get? tag = some (.constructor tag fields place))
    (hidden : scope.get? tag = none) (distinct : fields.Nodup) (arity : args.length = fields.length)
    (each : List.Forall₂
      (fun arg value => Yields (evaluate ⟨table, level⟩ (room + 2) arg scope stack) value) args values)
    (writable : level < 2 ∨ ∀ value ∈ values, ∃ text, value.text = .ok text) (site span : Span) :
    Yields (evaluate ⟨table, level⟩ (room + 4) (.call (.var tag site) args span) scope stack)
      (.data tag values) := by
  have same : values.length = fields.length := by rw [← each.length_eq, arity]
  have traced : level < 2 ∨
      ∃ line, (Event.called tag (.ofPairs (fields.zip values)) stack.length).line = .ok line :=
    writable.imp_right fun shown => line_called_ok
      (fun entry member => shown entry.2 (Bindings.mem_ofPairs_zip member)) _ _
  have gathered := get?_arguments distinct same .empty
  rw [evaluate_constructor known hidden arity]
  exact (yields_mapM each).bind ((yields_trace traced).bind
    ((yields_construct _ room tag place gathered _).withinRoom _))

/-- A call of a constructor that is traced stops at an argument which cannot be written. -/
theorem halts_constructor (known : table.get? tag = some (.constructor tag fields place))
    (hidden : scope.get? tag = none) (distinct : fields.Nodup) (arity : args.length = fields.length)
    (each : List.Forall₂
      (fun arg value => Yields (evaluate ⟨table, level⟩ (room + 2) arg scope stack) value) args values)
    (traced : 2 ≤ level) {value : Value} (member : value ∈ values)
    (long : value.text = .error .tooLongToWrite) (site span : Span) :
    Halts (evaluate ⟨table, level⟩ (room + 4) (.call (.var tag site) args span) scope stack)
      (.numeral .tooLongToWrite) := by
  have same : values.length = fields.length := by rw [← each.length_eq, arity]
  obtain ⟨field, among⟩ := mem_arguments distinct same member
  have untold := Event.line_called_long among long tag stack.length
  rw [evaluate_constructor known hidden arity]
  refine (yields_mapM each).halts (Halts.bind ?_ _)
  exact fun lines => ⟨lines, trace_stops traced untold lines⟩

end

end Eval

theorem Pattern.isSome_bindings?_data (tag : String) (patterns : List Pattern) (values : List Value) :
    ((Pattern.data tag patterns).bindings? (.data tag values)).isSome = true ↔
      List.Forall₂ (fun pattern value => (pattern.bindings? value).isSome = true) patterns values := by
  rw [bindings?, if_pos rfl, isSome_bindingsAll?]
  simp only [isSome_bindings?]

theorem Value.equal_data (tag : String) (values others : List Value) :
    (Value.data tag values).equal (.data tag others) = true ↔
      List.Forall₂ (fun value other => value.equal other = true) values others := by
  rw [equal, beq_self_eq_true, Bool.true_and, equalAll_iff]

/-- A name in the table of a program is its last variant, or else its last function. A call of such a
constructor, whose fields are different and whose name is not hidden, gives the data of the arguments,
unless calls are traced and one of them is too long to be written. The data matches field by field and is
equal field by field. -/
theorem constructors_build (program : List Expr) (tag : String) :
    (Session.functionTable program).get? tag =
        ((lastNamed tag (Expr.variants program)).map fun variant =>
          Value.constructor tag variant.1 variant.2).or
          ((lastNamed tag (Expr.definitions program)).map fun function =>
            .closure function.1 function.2 .empty) ∧
      ∀ (fields : List String) (place : Span),
        lastNamed tag (Expr.variants program) = some (fields, place) → fields.Nodup →
        ∀ (table scope : Scope Value) (level room : Nat) (stack : Stack) (args : List Expr)
          (values : List Value) (site span : Span),
          table.get? tag = (Session.functionTable program).get? tag → scope.get? tag = none →
          args.length = fields.length →
          List.Forall₂ (fun arg value =>
            Eval.Yields (evaluate ⟨table, level⟩ (room + 2) arg scope stack) value) args values →
            ((level < 2 ∨ ∀ value ∈ values, ∃ text, value.text = .ok text) →
              Eval.Yields (evaluate ⟨table, level⟩ (room + 4) (.call (.var tag site) args span) scope
                stack) (.data tag values)) ∧
              (2 ≤ level → (∃ value ∈ values, value.text = .error .tooLongToWrite) →
                Eval.Halts (evaluate ⟨table, level⟩ (room + 4) (.call (.var tag site) args span) scope
                  stack) (.numeral .tooLongToWrite)) ∧
              (∀ patterns, ((Pattern.data tag patterns).bindings? (.data tag values)).isSome = true ↔
                List.Forall₂ (fun pattern value => (pattern.bindings? value).isSome = true)
                  patterns values) ∧
              ∀ others, (Value.data tag values).equal (.data tag others) = true ↔
                List.Forall₂ (fun value other => value.equal other = true) values others := by
  have entry := Session.get?_functionTable_eq program tag
  refine ⟨entry, ?_⟩
  intro fields place last distinct table scope level room stack args values site span known hidden
    arity each
  have found : table.get? tag = some (.constructor tag fields place) := by
    rw [known, entry, last]
    rfl
  exact ⟨fun writable => Eval.yields_constructor found hidden distinct arity each writable site span,
    fun traced ⟨value, member, long⟩ =>
      Eval.halts_constructor found hidden distinct arity each traced member long site span,
    fun patterns => Pattern.isSome_bindings?_data tag patterns values,
    fun others => Value.equal_data tag values others⟩

/-- A function and two variants of one name. The fields of the last variant are called like the
constructor itself and like a variable of the caller. -/
def hiddenNames : List Expr :=
  [ .dataType "One" [("Node", ["a"])] (.ofWidth 0 18),
    .dataType "Two" [("Leaf", []), ("Node", ["Node", "x"])] (.ofWidth 19 34),
    .function "Node" ["x"] (.var "x" (.ofWidth 71 1)) (.ofWidth 54 22) ]

def nodeCall : Expr :=
  .call (.var "Node" (.ofWidth 77 4)) [.var "x" (.ofWidth 82 1), .number 2 (.ofWidth 85 1)]
    (.ofWidth 77 10)

def nodeFields : List Value := [.bool true, .num 2]

theorem nodeCall_builds :
    lastNamed "Node" (Expr.variants hiddenNames) = some (["Node", "x"], .ofWidth 19 34) ∧
      Eval.Yields (evaluate ⟨Session.functionTable hiddenNames, 1⟩ 4 nodeCall
          (Scope.empty.extend "x" (.bool true)) .root) (.data "Node" nodeFields) ∧
      (∀ patterns, ((Pattern.data "Node" patterns).bindings? (.data "Node" nodeFields)).isSome = true ↔
        List.Forall₂ (fun pattern value => (pattern.bindings? value).isSome = true) patterns nodeFields) ∧
      ∀ others, (Value.data "Node" nodeFields).equal (.data "Node" others) = true ↔
        List.Forall₂ (fun value other => value.equal other = true) nodeFields others := by
  have last : lastNamed "Node" (Expr.variants hiddenNames) =
      some (["Node", "x"], .ofWidth 19 34) := by decide
  have build := (constructors_build hiddenNames "Node").2 _ _ last (by decide)
    (Session.functionTable hiddenNames) (Scope.empty.extend "x" (.bool true)) 1 0 .root
    [.var "x" (.ofWidth 82 1), .number 2 (.ofWidth 85 1)] nodeFields (.ofWidth 77 4) (.ofWidth 77 10) rfl
    rfl rfl ?_
  · exact ⟨last, build.1 (.inl (by decide)), build.2.2⟩
  exact .cons (Eval.yields_var _ 1 _ rfl _) (.cons (Eval.yields_pure (Value.num 2)) .nil)

/-- The least number that is too long to be written, as `10 ** 4300`. -/
def longPower (start : Nat) : Expr :=
  .binary (.text "**") (.number 10 (.ofWidth start 2)) (.number 4300 (.ofWidth (start + 6) 4))
    (.ofWidth start 10)

theorem natAbs_power_ten (exponent : Nat) :
    (Operation.power 10 exponent).natAbs = Nat.pow 10 exponent := by
  rw [Operation.power, if_pos (by decide)]
  exact Int.natAbs_pow 10 exponent

theorem longPower_text : (Value.num (Operation.power 10 4300)).text = .error .tooLongToWrite := by
  have long : ¬ (Operation.power 10 Numeral.limit).natAbs < Numeral.bound := by
    unfold Numeral.bound
    rw [natAbs_power_ten]
    exact Nat.lt_irrefl _
  rw [Value.text, Numeral.write]
  exact if_neg long

/-- The power is some number that has no text. Its digits are never asked for. -/
theorem longPower_number : ∃ number : Int, (Value.num number).text = .error .tooLongToWrite ∧
    ∀ (start : Nat) (setting : Setting) (room : Nat) (scope : Scope Value) (stack : Stack),
      evaluate setting (room + 2) (longPower start) scope stack = pure (.num number) :=
  ⟨Operation.power 10 4300, longPower_text, fun _ _ _ _ _ => rfl⟩

def boxType : List Expr := [.dataType "T" [("B", ["x"])] (.ofWidth 0 13)]

/-- In `match B(10 ** 4300) case B(y): 1 end` the argument has a value, and where calls are traced the
constructor has none for it. -/
theorem longPower_unboxed :
    lastNamed "B" (Expr.variants boxType) = some (["x"], .ofWidth 0 13) ∧
      (∃ value, Eval.Yields (evaluate ⟨Session.functionTable boxType, 2⟩ 2 (longPower 22) .empty .root)
        value) ∧
      Eval.Halts (evaluate ⟨Session.functionTable boxType, 2⟩ 4
        (.call (.var "B" (.ofWidth 20 1)) [longPower 22] (.ofWidth 20 13)) .empty .root)
        (.numeral .tooLongToWrite) := by
  obtain ⟨number, text, power⟩ := longPower_number
  have known : (Session.functionTable boxType).get? "B" =
      some (Value.constructor "B" ["x"] (.ofWidth 0 13)) := rfl
  have long : Eval.Yields (evaluate ⟨Session.functionTable boxType, 2⟩ 2 (longPower 22) .empty .root)
      (.num number) := by
    rw [power]
    exact Eval.yields_pure _
  refine ⟨by decide, ⟨_, long⟩, ?_⟩
  exact Eval.halts_constructor known rfl (by decide) rfl (.cons long .nil) (Nat.le_refl 2)
    List.mem_cons_self text _ _

end FernLang
