import FernLang.Proofs.Grammar.Soundness

/-!
Steps and room. A loop of the grammar is given as many steps as there are tokens left, and each of
its rounds takes a token, so it does what its rounds say without counting. More room changes
nothing but an answer that there was too little.
-/

namespace FernLang.Parse

open Grammar

variable {α β σ : Type}

theorem bind_congr_ok {first : Parse α} {next other : α → Parse β} {cursor : Cursor}
    (same : ∀ value after, first cursor = .ok value after → next value after = other value after) :
    (first >>= next) cursor = (first >>= other) cursor := by
  rw [bind_apply, bind_apply]
  cases read : first cursor with
  | ok value after => exact same value after read
  | error refusal after => rfl

/-- A loop runs in rounds, and a round goes on only where there are fewer tokens left. -/
structure Counts (loop : Nat → σ → Parse α) (round : (σ → Parse α) → σ → Parse α) : Prop where
  go : ∀ steps state, loop (steps + 1) state = round (loop steps) state
  stop : ∀ state last, loop 0 state ⟨[], last⟩ = round (loop 0) state ⟨[], last⟩
  shorter : ∀ (more other : σ → Parse α) state cursor,
    (∀ next after, after.rest.length < cursor.rest.length → more next after = other next after) →
      round more state cursor = round other state cursor

def running (loop : Nat → σ → Parse α) (state : σ) : Parse α := do loop (← left) state

namespace Counts

variable {loop : Nat → σ → Parse α} {round : (σ → Parse α) → σ → Parse α}

theorem agree (counts : Counts loop round) {steps other : Nat} {cursor : Cursor}
    (many : cursor.rest.length ≤ steps) (also : cursor.rest.length ≤ other) (state : σ) :
    loop steps state cursor = loop other state cursor := by
  have none (state : σ) (last : Span) (steps : Nat) :
      loop steps state ⟨[], last⟩ = loop 0 state ⟨[], last⟩ := by
    cases steps with
    | zero => rfl
    | succ steps =>
        rw [counts.go, counts.stop]
        apply counts.shorter
        intro next after less
        cases less
  induction steps generalizing other cursor state with
  | zero =>
      obtain ⟨rest, last⟩ := cursor
      cases List.eq_nil_of_length_eq_zero (Nat.le_zero.1 many)
      rw [none state last other]
  | succ steps ih =>
      cases other with
      | zero =>
          obtain ⟨rest, last⟩ := cursor
          cases List.eq_nil_of_length_eq_zero (Nat.le_zero.1 also)
          rw [none state last (steps + 1)]
      | succ other =>
          rw [counts.go, counts.go]
          apply counts.shorter
          intro next after less
          exact ih (by omega) (by omega) next

theorem running_eq (counts : Counts loop round) (state : σ) :
    running loop state = round (running loop) state := by
  funext cursor
  change loop cursor.rest.length state cursor = _
  rw [counts.agree (Nat.le_refl _) (Nat.le_succ _) state, counts.go]
  apply counts.shorter
  intro next after less
  exact counts.agree (Nat.le_of_lt less) (Nat.le_refl _) next

end Counts

def Shrinks (read : Parse α) : Prop :=
  ∀ cursor value after, read cursor = .ok value after → after.rest.length ≤ cursor.rest.length

theorem shrinks_of_takes {read : Parse α}
    (takes : ∀ cursor value after, read cursor = .ok value after → ∃ used, cursor.Takes used after) :
    Shrinks read := by
  intro cursor value after done
  obtain ⟨used, taken⟩ := takes cursor value after done
  rw [taken.length]
  exact Nat.le_add_left ..

theorem next_congr {context : String} {more other : Token → Parse α} {cursor : Cursor}
    (same : ∀ token after, after.rest.length < cursor.rest.length →
      more token after = other token after) :
    (next context >>= more) cursor = (next context >>= other) cursor := by
  apply bind_congr_ok
  intro token after taken
  apply same
  have length := (next_ok taken).length
  rw [List.length_singleton] at length
  omega

section

variable {kind : Kind} {context : String} {item : List α → Parse α}

def chainRound (kind : Kind) (context : String) (item : List α → Parse α)
    (more : List α → Parse (List α)) (done : List α) : Parse (List α) := do
  if ← looking kind then
    let _ ← next context
    let one ← item done
    more (done ++ [one])
  else return done

theorem chained_counts (shrinks : ∀ done, Shrinks (item done)) :
    Counts (chained kind context item) (chainRound kind context item) := by
  refine ⟨fun _ _ => rfl, fun _ _ => rfl, ?_⟩
  intro more other done cursor same
  rw [chainRound, chainRound, bind_of_ok (looking_apply ..), bind_of_ok (looking_apply ..)]
  split
  · apply next_congr
    intro token middle less
    apply bind_congr_ok
    intro one after read
    exact same _ _ (Nat.lt_of_le_of_lt (shrinks done _ _ _ read) less)
  · rfl

def separatedRound (context : String) (item : List α → Parse α) (more : List α → Parse (List α))
    (done : List α) : Parse (List α) := do
  let one ← item done
  let token ← next context
  match token.lexeme with
  | .mark .rightParen => return done ++ [one]
  | .mark .comma => more (done ++ [one])
  | _ => refuse (.notSeparated context token.lexeme) token.span

theorem separated_counts (shrinks : ∀ done, Shrinks (item done)) :
    Counts (fun steps => separated context item (steps + 1)) (separatedRound context item) := by
  have shorter (more other : List α → Parse (List α)) (done : List α) (cursor : Cursor)
      (same : ∀ next after, after.rest.length < cursor.rest.length →
        more next after = other next after) :
      separatedRound context item more done cursor =
        separatedRound context item other done cursor := by
    apply bind_congr_ok
    intro one middle read
    apply next_congr
    rintro ⟨lexeme, span⟩ after less
    cases lexeme with
    | mark sign =>
        cases sign with
        | comma => exact same _ _ (Nat.lt_of_lt_of_le less (shrinks done _ _ _ read))
        | _ => rfl
    | _ => rfl
  refine ⟨fun _ _ => rfl, ?_, shorter⟩
  intro done last
  apply shorter (separated context item 0)
  intro next after less
  cases less

end

section

variable {nested : Nat → Parse Expr} {power : Nat}

theorem Gives.shrinks (gives : Gives nested) (low : power ≤ negationPower) :
    Shrinks (nested power) := by
  apply shrinks_of_takes
  intro cursor tree after read
  obtain ⟨shape, used, taken, -⟩ := gives power cursor tree after low read
  exact ⟨used, taken⟩

theorem Gives.shrinks_arguments (gives : Gives nested) : Shrinks (arguments nested) := by
  apply shrinks_of_takes
  intro cursor trees after read
  obtain ⟨used, taken, -⟩ := arguments_ok gives read
  exact ⟨used, taken⟩

theorem Gives.shrinks_branch (gives : Gives nested) (context : String) :
    Shrinks (branch nested context) := by
  apply shrinks_of_takes
  intro cursor pair after read
  obtain ⟨used, taken, -⟩ := branch_ok gives read
  exact ⟨used, taken⟩

theorem Gives.shrinks_arm (gives : Gives nested) (room : Nat) :
    Shrinks (arm nested (pattern room)) := by
  apply shrinks_of_takes
  intro cursor pair after read
  obtain ⟨used, taken, -⟩ := arm_ok gives read
  exact ⟨used, taken⟩

theorem shrinks_variant (done : List (String × List String)) : Shrinks (variant done) := by
  apply shrinks_of_takes
  intro cursor one after read
  obtain ⟨used, taken, -⟩ := variant_ok read
  exact ⟨used, taken⟩

def continuingRound (nested : Nat → Parse Expr) (power : Nat) (more : Expr → Parse Expr)
    (left : Expr) : Parse Expr := do
  let seen ← peek
  match seen.map Token.lexeme with
  | some (.operator operator) =>
      if operator.power ≤ power then return left
      else
        let _ ← next "expression"
        let right ← nested operator.rightPower
        more (.binary (.text operator.symbol) left right (left.span.merge right.span))
  | some (.mark .leftParen) =>
      if callPower ≤ power then return left
      else
        let _ ← next "expression"
        let args ← arguments nested
        more (.call left args (left.span.merge (← get).last))
  | _ => return left

theorem continuing_counts (gives : Gives nested) :
    Counts (continuing nested power) (continuingRound nested power) := by
  refine ⟨fun _ _ => rfl, fun _ _ => rfl, ?_⟩
  intro more other left cursor same
  rw [continuingRound, continuingRound, bind_of_ok (peek_apply _), bind_of_ok (peek_apply _)]
  cases cursor.rest.head?.map Token.lexeme with
  | none => rfl
  | some lexeme =>
      cases lexeme with
      | operator operator =>
          dsimp only
          split
          · rfl
          · apply next_congr
            intro token middle less
            apply bind_congr_ok
            intro right after read
            have short := gives.shrinks (rightPower_le operator) _ _ _ read
            exact same _ _ (Nat.lt_of_le_of_lt short less)
      | mark sign =>
          cases sign with
          | leftParen =>
              dsimp only
              split
              · rfl
              · apply next_congr
                intro token middle less
                apply bind_congr_ok
                intro args after read
                have short := gives.shrinks_arguments _ _ _ read
                exact same _ _ (Nat.lt_of_le_of_lt short less)
          | _ => rfl
      | _ => rfl

end

def itemsRound (room : Nat) (more : List Expr → Parse (List Expr)) (done : List Expr) :
    Parse (List Expr) := do
  if (← peek).isNone then return done
  else
    let item ← expression room 0 true
    more (done ++ [item])

theorem items_counts (room : Nat) : Counts (items room) (itemsRound room) := by
  refine ⟨fun _ _ => rfl, fun _ _ => rfl, ?_⟩
  intro more other done cursor same
  rw [itemsRound, itemsRound, bind_of_ok (peek_apply _), bind_of_ok (peek_apply _)]
  split
  · rfl
  · apply bind_congr_ok
    intro item after read
    obtain ⟨token, used, taken, -⟩ := expression_item read
    apply same
    rw [taken.length, List.length_cons]
    omega

/-- Two ways of reading agree unless the first one lacks room. -/
def Below (first second : Parse α) : Prop :=
  ∀ cursor, first cursor = second cursor ∨ ∃ after, first cursor = .error .tooDeep after

namespace Below

theorem refl (read : Parse α) : Below read read := fun _ => .inl rfl

theorem tooDeep (read : Parse α) : Below (throw .tooDeep) read := fun cursor => .inr ⟨cursor, rfl⟩

theorem trans {first second third : Parse α} (early : Below first second)
    (late : Below second third) : Below first third := by
  intro cursor
  rcases early cursor with same | deep
  · rw [same]
    exact late cursor
  · exact .inr deep

theorem bind {first second : Parse α} {next other : α → Parse β} (early : Below first second)
    (late : ∀ value, Below (next value) (other value)) :
    Below (first >>= next) (second >>= other) := by
  intro cursor
  rw [bind_apply, bind_apply]
  rcases early cursor with same | ⟨after, deep⟩
  · rw [← same]
    cases first cursor with
    | ok value after => exact late value after
    | error refusal after => exact .inl rfl
  · rw [deep]
    exact .inr ⟨after, rfl⟩

theorem after (first : Parse α) {next other : α → Parse β}
    (late : ∀ value, Below (next value) (other value)) :
    Below (first >>= next) (first >>= other) :=
  bind (refl first) late

section

variable {context : String} {kind : Kind} {item other : List α → Parse α}

theorem separated (each : ∀ done, Below (item done) (other done)) (steps : Nat) (done : List α) :
    Below (Parse.separated context item steps done) (Parse.separated context other steps done) := by
  induction steps generalizing done with
  | zero => exact refl _
  | succ steps ih =>
      apply (each done).bind
      intro one
      apply after
      intro ⟨lexeme, span⟩
      cases lexeme with
      | mark sign =>
          cases sign with
          | comma => exact ih _
          | _ => exact refl _
      | _ => exact refl _

theorem closed (each : ∀ done, Below (item done) (other done)) :
    Below (Parse.closed context item) (Parse.closed context other) := by
  apply after
  intro seen
  split
  · exact refl _
  · apply after
    intro count
    exact separated each _ _

theorem chained (each : ∀ done, Below (item done) (other done)) (steps : Nat) (done : List α) :
    Below (Parse.chained kind context item steps done)
      (Parse.chained kind context other steps done) := by
  induction steps generalizing done with
  | zero => exact refl _
  | succ steps ih =>
      apply after
      intro seen
      split
      · apply after
        intro token
        apply (each done).bind
        intro one
        exact ih _
      · exact refl _

end

theorem pattern (room : Nat) : Below (Parse.pattern room) (Parse.pattern (room + 1)) := by
  induction room with
  | zero => exact tooDeep _
  | succ room ih =>
      apply after
      intro ⟨lexeme, span⟩
      cases lexeme with
      | name name =>
          apply after
          intro seen
          split
          · apply after
            intro token
            apply (closed fun _ => ih).bind
            intro fields
            exact refl _
          · exact refl _
      | operator operator => cases operator <;> exact refl _
      | _ => exact refl _

section

variable {nested wider : Nat → Parse Expr} {pattern wide : Parse Pattern} {start : Span}

theorem branch (below : ∀ power, Below (nested power) (wider power)) (context : String) :
    Below (Parse.branch nested context) (Parse.branch wider context) := by
  apply (below 0).bind
  intro condition
  apply after
  intro colon
  apply (below 0).bind
  intro body
  exact refl _

theorem arm (below : ∀ power, Below (nested power) (wider power)) (shape : Below pattern wide) :
    Below (Parse.arm nested pattern) (Parse.arm wider wide) := by
  apply shape.bind
  intro shape
  apply after
  intro colon
  apply (below 0).bind
  intro body
  exact refl _

theorem letForm (below : ∀ power, Below (nested power) (wider power)) (top : Bool) :
    Below (Parse.letForm nested top start) (Parse.letForm wider top start) := by
  apply after
  intro ⟨name, place⟩
  apply after
  intro equals
  apply (below 0).bind
  intro binding
  split
  · exact refl _
  · apply (below 0).bind
    intro body
    exact refl _

theorem lambdaForm (below : ∀ power, Below (nested power) (wider power)) :
    Below (Parse.lambdaForm nested start) (Parse.lambdaForm wider start) := by
  apply after
  intro paren
  apply after
  intro names
  apply after
  intro colon
  apply (below 0).bind
  intro body
  exact refl _

theorem functionForm (below : ∀ power, Below (nested power) (wider power)) (top : Bool) :
    Below (Parse.functionForm nested top start) (Parse.functionForm wider top start) := by
  unfold Parse.functionForm
  split
  · exact refl _
  · apply after
    intro ⟨name, place⟩
    apply after
    intro paren
    apply after
    intro names
    apply after
    intro colon
    apply (below 0).bind
    intro body
    exact refl _

theorem condForm (below : ∀ power, Below (nested power) (wider power)) :
    Below (Parse.condForm nested start) (Parse.condForm wider start) := by
  apply (branch below _).bind
  intro first
  apply after
  intro count
  apply (chained (fun _ => branch below _) _ _).bind
  intro branches
  apply after
  intro else_
  apply after
  intro colon
  apply (below 0).bind
  intro otherwise
  exact refl _

theorem matchForm (below : ∀ power, Below (nested power) (wider power))
    (shape : Below pattern wide) :
    Below (Parse.matchForm nested pattern start) (Parse.matchForm wider wide start) := by
  apply (below 0).bind
  intro scrutinee
  apply after
  intro case_
  apply (arm below shape).bind
  intro first
  apply after
  intro count
  apply (chained (fun _ => arm below shape) _ _).bind
  intro arms
  exact refl _

theorem opening (below : ∀ power, Below (nested power) (wider power)) (shape : Below pattern wide)
    (top : Bool) (token : Token) :
    Below (Parse.opening nested pattern top token) (Parse.opening wider wide top token) := by
  obtain ⟨lexeme, span⟩ := token
  cases lexeme with
  | mark sign =>
      cases sign with
      | leftParen =>
          apply (below 0).bind
          intro inner
          exact refl _
      | _ => exact refl _
  | operator operator =>
      cases operator with
      | sub =>
          apply (below negationPower).bind
          intro operand
          exact refl _
      | _ => exact refl _
  | keyword word =>
      cases word with
      | let_ => exact letForm below top
      | lambda => exact lambdaForm below
      | function => exact functionForm below top
      | if_ => exact condForm below
      | match_ => exact matchForm below shape
      | _ => exact refl _
  | _ => exact refl _

theorem continuing (below : ∀ power, Below (nested power) (wider power)) (power steps : Nat)
    (left : Expr) :
    Below (Parse.continuing nested power steps left) (Parse.continuing wider power steps left) := by
  induction steps generalizing left with
  | zero => exact refl _
  | succ steps ih =>
      apply after
      intro seen
      cases seen.map Token.lexeme with
      | none => exact refl _
      | some lexeme =>
          cases lexeme with
          | operator operator =>
              dsimp only
              split
              · exact refl _
              · apply after
                intro token
                apply (below _).bind
                intro right
                exact ih _
          | mark sign =>
              cases sign with
              | leftParen =>
                  dsimp only
                  split
                  · exact refl _
                  · apply after
                    intro token
                    apply (closed fun _ => below 0).bind
                    intro args
                    apply after
                    intro cursor
                    exact ih _
              | _ => exact refl _
          | _ => exact refl _

end

theorem expression (room power : Nat) (top : Bool) :
    Below (Parse.expression room power top) (Parse.expression (room + 1) power top) := by
  induction room generalizing power top with
  | zero => exact tooDeep _
  | succ room ih =>
      apply after
      intro token
      apply (opening (fun power => ih power false) (pattern room) top token).bind
      intro first
      split
      · exact refl _
      · apply after
        intro count
        exact continuing (fun power => ih power false) power count first

theorem items (room steps : Nat) (done : List Expr) :
    Below (Parse.items room steps done) (Parse.items (room + 1) steps done) := by
  induction steps generalizing done with
  | zero => exact refl _
  | succ steps ih =>
      apply after
      intro seen
      split
      · exact refl _
      · apply (expression room 0 true).bind
        intro item
        exact ih _

theorem program {room wide : Nat} (more : room ≤ wide) :
    Below (Parse.program room) (Parse.program wide) := by
  induction more with
  | refl => exact refl _
  | step _ ih =>
      apply ih.trans
      apply after
      intro count
      exact items _ count []

end Below

end FernLang.Parse
