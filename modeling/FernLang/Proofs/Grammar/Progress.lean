import FernLang.Proofs.Grammar.Room

/-!
How reading moves on. Whatever its outcome, reading takes tokens from the front; where it succeeds it
took some, and where it ran out of room it took one for each level of room. Loops go round only where
there are fewer tokens left. So every request to a parser comes to an end, with a value or a complaint
once there is room for the tokens left, and more room changes nothing.
-/

namespace FernLang.Parse

open Grammar

variable {α β : Type}

/-- How far reading got: it took tokens from the front, at least `least` of them where it succeeded and
at least `room` where it ran out of room. -/
inductive Advance (room least : Nat) (before : Cursor) : EStateM.Result Refusal Cursor α → Prop
  | ok {value : α} {used : List Token} {after : Cursor} (taken : before.Takes used after)
      (some : least ≤ used.length) : Advance room least before (.ok value after)
  | refused {error : ParseError} {used : List Token} {after : Cursor} (taken : before.Takes used after) :
      Advance room least before (.error (.malformed error) after)
  | tooDeep {used : List Token} {after : Cursor} (taken : before.Takes used after)
      (deep : room ≤ used.length) : Advance room least before (.error .tooDeep after)

def Advances (room least : Nat) (read : Parse α) : Prop :=
  ∀ cursor, Advance room least cursor (read cursor)

section

variable {room inner wide least few many : Nat} {first read : Parse α} {next : α → Parse β}

theorem Advances.mono (advances : Advances wide many read) (narrow : room ≤ wide) (less : few ≤ many) :
    Advances room few read := by
  intro cursor
  have here := advances cursor
  generalize read cursor = outcome at here
  cases here with
  | ok taken some => exact .ok taken (Nat.le_trans less some)
  | refused taken => exact .refused taken
  | tooDeep taken deep => exact .tooDeep taken (Nat.le_trans narrow deep)

/-- What comes second may have less room, as the tokens that came first make up for it. -/
theorem Advances.bind (early : Advances room few first) (late : ∀ value, Advances inner many (next value))
    (paid : room ≤ few + inner) (enough : least ≤ few + many) : Advances room least (first >>= next) := by
  intro cursor
  have here := early cursor
  rw [bind_apply]
  generalize first cursor = outcome at here
  cases here with
  | refused taken => exact .refused taken
  | tooDeep taken deep => exact .tooDeep taken deep
  | @ok value used middle taken some =>
      have there := late value middle
      dsimp only
      generalize next value middle = outcome at there
      cases there with
      | refused more => exact .refused (taken.trans more)
      | ok more others =>
          refine .ok (taken.trans more) ?_
          rw [List.length_append]
          omega
      | tooDeep more deep =>
          refine .tooDeep (taken.trans more) ?_
          rw [List.length_append]
          omega

theorem Advances.loose (advances : Advances room least read) : Advances room 0 read :=
  advances.mono (Nat.le_refl _) (Nat.zero_le _)

theorem Advances.step (early : Advances room least first) (late : ∀ value, Advances room 0 (next value)) :
    Advances room 0 (first >>= next) :=
  early.bind late (Nat.le_add_left ..) (Nat.zero_le _)

theorem advances_pure (value : α) : Advances room 0 (pure value) :=
  fun cursor => .ok (.nothing cursor) (Nat.zero_le _)

theorem advances_refuse (complaint : Complaint) (span : Span) :
    Advances room least (refuse complaint span : Parse α) :=
  fun cursor => .refused (.nothing cursor)

theorem advances_tooDeep : Advances 0 least (throw .tooDeep : Parse α) :=
  fun cursor => .tooDeep (.nothing cursor) (Nat.zero_le _)

theorem advances_get : Advances room 0 get := fun cursor => .ok (.nothing cursor) (Nat.zero_le _)

theorem advances_left : Advances room 0 left := fun cursor => .ok (.nothing cursor) (Nat.zero_le _)

theorem advances_peek : Advances room 0 peek := by
  intro cursor
  rw [peek_apply]
  exact .ok (.nothing cursor) (Nat.zero_le _)

theorem advances_looking (kind : Kind) : Advances room 0 (looking kind) := by
  intro cursor
  rw [looking_apply]
  exact .ok (.nothing cursor) (Nat.zero_le _)

theorem Advances.map (advances : Advances room least read) (change : α → β) :
    Advances room least (change <$> read) := by
  rw [map_eq_pure_bind]
  exact advances.bind (fun _ => advances_pure _) (Nat.le_add_left ..) (Nat.le_refl _)

end

section

variable {room inner least : Nat} {context : String}

theorem advances_next (context : String) : Advances room 1 (next context) := by
  rintro ⟨rest, last⟩
  cases rest with
  | nil => exact .refused (.nothing _)
  | cons token rest => exact .ok (next_ok (next_cons context token rest last)) (Nat.le_refl 1)

/-- A token that was taken is worth one level of room. -/
theorem Advances.behind {next : Token → Parse α} (late : ∀ token, Advances inner 0 (next token))
    (paid : room ≤ inner + 1) : Advances room 1 (Parse.next context >>= next) :=
  (advances_next context).bind late (Nat.add_comm .. ▸ paid) (Nat.le_refl 1)

theorem advances_expect (kind : Kind) (context : String) : Advances room 1 (expect kind context) := by
  refine Advances.behind (fun token => ?_) (Nat.le_succ room)
  split
  · exact advances_pure token
  · exact advances_refuse _ _

theorem advances_expectName (context : String) : Advances room 1 (expectName context) := by
  refine Advances.behind ?_ (Nat.le_succ room)
  rintro ⟨lexeme, span⟩
  cases lexeme with
  | name text => exact advances_pure _
  | _ => exact advances_refuse _ _

theorem advances_expectLabel (label context : String) :
    Advances room 1 (expectLabel label context) := by
  unfold expectLabel
  split
  · exact advances_expect _ context
  · exact Advances.behind (fun _ => advances_refuse _ _) (Nat.le_succ room)

variable {kind : Kind} {item : List α → Parse α}

theorem advances_chained (each : ∀ done, Advances room least (item done)) (steps : Nat)
    (done : List α) : Advances room 0 (chained kind context item steps done) := by
  induction steps generalizing done with
  | zero => exact advances_pure done
  | succ steps ih =>
      apply (advances_looking kind).step
      intro seen
      split
      · apply (advances_next context).step
        intro token
        apply (each done).step
        intro one
        exact ih _
      · exact advances_pure done

/-- Every round takes the token behind an item, so rounds are paid for just as levels of room are. -/
theorem advances_separated (each : ∀ done, Advances room least (item done)) (steps : Nat)
    (done : List α) : Advances (min room steps) 1 (separated context item steps done) := by
  induction steps generalizing done with
  | zero => exact advances_tooDeep.mono (Nat.min_le_right ..) (Nat.le_refl 1)
  | succ steps ih =>
      have here : Advances (min room (steps + 1)) 0 (item done) :=
        (each done).mono (Nat.min_le_left ..) (Nat.zero_le _)
      refine here.bind (fun one => ?_) (Nat.le_add_left ..) (by decide : 1 ≤ 0 + 1)
      refine Advances.behind ?_ (by omega : min room (steps + 1) ≤ min room steps + 1)
      rintro ⟨lexeme, span⟩
      cases lexeme with
      | mark sign =>
          cases sign with
          | rightParen => exact advances_pure _
          | comma => exact (ih _).loose
          | _ => exact advances_refuse _ _
      | _ => exact advances_refuse _ _

theorem Advance.of_min {cursor : Cursor} {outcome : EStateM.Result Refusal Cursor α}
    (advance : Advance (min room (cursor.rest.length + 1)) least cursor outcome) :
    Advance room least cursor outcome := by
  cases advance with
  | ok taken some => exact .ok taken some
  | refused taken => exact .refused taken
  | tooDeep taken deep =>
      have length := taken.length
      exact .tooDeep taken (by omega)

theorem advances_closed (each : ∀ done, Advances room least (item done)) :
    Advances room 1 (closed context item) := by
  intro cursor
  rw [closed, bind_of_ok (looking_apply ..)]
  split
  · exact Advances.behind (fun _ => advances_pure []) (Nat.le_succ room) cursor
  · rw [bind_of_ok (left_apply _)]
    exact (advances_separated each _ [] cursor).of_min

end

def newName (context : String) (done : List String) : Parse String := do
  let (name, token) ← expectName context
  if name ∈ done then refuse (.repeatedParameter name context) token.span
  else return name

theorem params_eq (context : String) : params context = closed context (newName context) := rfl

section

variable {room : Nat}

theorem advances_newName (context : String) (done : List String) :
    Advances room 0 (newName context done) := by
  apply (advances_expectName context).step
  rintro ⟨name, token⟩
  dsimp only
  split
  · exact advances_refuse _ _
  · exact advances_pure name

theorem advances_params (context : String) : Advances room 1 (params context) := by
  rw [params_eq]
  exact advances_closed (advances_newName context)

end

theorem advances_pattern (room : Nat) : Advances room 1 (pattern room) := by
  induction room with
  | zero => exact advances_tooDeep
  | succ room ih =>
      refine Advances.behind ?_ (Nat.le_refl _)
      rintro ⟨lexeme, span⟩
      cases lexeme with
      | name name =>
          apply (advances_looking _).step
          intro seen
          split
          · apply (advances_next _).step
            intro token
            apply (advances_closed fun _ => ih).step
            intro fields
            exact advances_pure _
          · exact advances_pure _
      | operator operator =>
          cases operator with
          | sub =>
              apply (advances_next _).step
              rintro ⟨lexeme, span⟩
              cases lexeme with
              | number value => exact advances_pure _
              | _ => exact advances_refuse _ _
          | _ => exact advances_refuse _ _
      | number | truth => exact advances_pure _
      | _ => exact advances_refuse _ _

theorem advances_variant {room : Nat} (done : List (String × List String)) :
    Advances room 1 (variant done) := by
  refine (advances_expectName _).bind ?_ (Nat.le_add_left ..) (Nat.le_refl (1 + 0))
  rintro ⟨name, token⟩
  dsimp only
  split
  · exact advances_refuse _ _
  · apply (advances_looking _).step
    intro seen
    split
    · apply (advances_next _).step
      intro token
      apply (advances_params _).step
      intro names
      exact advances_pure _
    · exact advances_pure _

section

variable {room : Nat} {nested : Nat → Parse Expr} {pattern : Parse Pattern} {start : Span}
  (inside : ∀ power, Advances room 1 (nested power))

theorem advances_dataForm (top : Bool) : Advances room 0 (dataForm top start) := by
  unfold dataForm
  split
  · exact advances_refuse _ _
  · apply (advances_expectName _).step
    rintro ⟨name, place⟩
    apply (advances_expect _ _).step
    intro equals
    apply (advances_variant []).step
    intro first
    apply advances_left.step
    intro count
    apply (advances_chained (advances_variant) _ _).step
    intro variants
    apply advances_get.step
    intro cursor
    exact advances_pure _

include inside

theorem advances_branch (context : String) : Advances room 0 (branch nested context) := by
  apply (inside 0).step
  intro condition
  apply (advances_expect _ _).step
  intro colon
  apply (inside 0).step
  intro body
  exact advances_pure _

theorem advances_arm (shape : Advances room 1 pattern) : Advances room 0 (arm nested pattern) := by
  apply shape.step
  intro shape
  apply (advances_expect _ _).step
  intro colon
  apply (inside 0).step
  intro body
  exact advances_pure _

theorem advances_letForm (top : Bool) : Advances room 0 (letForm nested top start) := by
  apply (advances_expectName _).step
  rintro ⟨name, place⟩
  apply (advances_expect _ _).step
  intro equals
  apply (inside 0).step
  intro binding
  split
  · exact advances_pure _
  · apply (inside 0).step
    intro body
    apply (advances_expect _ _).step
    intro close
    exact advances_pure _

theorem advances_lambdaForm : Advances room 0 (lambdaForm nested start) := by
  apply (advances_expect _ _).step
  intro paren
  apply (advances_params _).step
  intro names
  apply (advances_expect _ _).step
  intro colon
  apply (inside 0).step
  intro body
  apply (advances_expect _ _).step
  intro close
  exact advances_pure _

theorem advances_functionForm (top : Bool) : Advances room 0 (functionForm nested top start) := by
  unfold functionForm
  split
  · exact advances_refuse _ _
  · apply (advances_expectName _).step
    rintro ⟨name, place⟩
    apply (advances_expect _ _).step
    intro paren
    apply (advances_params _).step
    intro names
    apply (advances_expect _ _).step
    intro colon
    apply (inside 0).step
    intro body
    apply (advances_expect _ _).step
    intro close
    exact advances_pure _

theorem advances_condForm : Advances room 0 (condForm nested start) := by
  apply (advances_branch inside _).step
  intro first
  apply advances_left.step
  intro count
  apply (advances_chained (fun _ => advances_branch inside _) _ _).step
  intro branches
  apply (advances_expect _ _).step
  intro else_
  apply (advances_expect _ _).step
  intro colon
  apply (inside 0).step
  intro otherwise
  apply (advances_expect _ _).step
  intro close
  exact advances_pure _

theorem advances_matchForm (shape : Advances room 1 pattern) :
    Advances room 0 (matchForm nested pattern start) := by
  apply (inside 0).step
  intro scrutinee
  apply (advances_expect _ _).step
  intro case_
  apply (advances_arm inside shape).step
  intro first
  apply advances_left.step
  intro count
  apply (advances_chained (fun _ => advances_arm inside shape) _ _).step
  intro arms
  apply (advances_expect _ _).step
  intro close
  exact advances_pure _

theorem advances_opening (shape : Advances room 1 pattern) (top : Bool) (token : Token) :
    Advances room 0 (opening nested pattern top token) := by
  obtain ⟨lexeme, span⟩ := token
  cases lexeme with
  | number | truth | name => exact advances_pure _
  | mark sign =>
      cases sign with
      | leftParen =>
          apply (inside 0).step
          intro inner
          apply (advances_expect _ _).step
          intro close
          exact advances_pure _
      | _ => exact advances_refuse _ _
  | operator operator =>
      cases operator with
      | sub =>
          apply (inside negationPower).step
          intro operand
          exact advances_pure _
      | _ => exact advances_refuse _ _
  | keyword word =>
      cases word with
      | let_ => exact advances_letForm inside top
      | lambda => exact advances_lambdaForm inside
      | function => exact advances_functionForm inside top
      | if_ => exact advances_condForm inside
      | data => exact advances_dataForm top
      | match_ => exact advances_matchForm inside shape
      | _ => exact advances_refuse _ _

theorem advances_arguments : Advances room 1 (arguments nested) :=
  advances_closed fun _ => inside 0

theorem advances_continuing (power steps : Nat) (left : Expr) :
    Advances room 0 (continuing nested power steps left) := by
  induction steps generalizing left with
  | zero => exact advances_pure left
  | succ steps ih =>
      apply advances_peek.step
      intro seen
      cases seen.map Token.lexeme with
      | none => exact advances_pure left
      | some lexeme =>
          cases lexeme with
          | operator operator =>
              dsimp only
              split
              · exact advances_pure left
              · apply (advances_next _).step
                intro token
                apply (inside _).step
                intro right
                exact ih _
          | mark sign =>
              cases sign with
              | leftParen =>
                  dsimp only
                  split
                  · exact advances_pure left
                  · apply (advances_next _).step
                    intro token
                    apply (advances_arguments inside).step
                    intro args
                    apply advances_get.step
                    intro cursor
                    exact ih _
              | _ => exact advances_pure left
          | _ => exact advances_pure left

end

theorem advances_expression (room power : Nat) (top : Bool) :
    Advances room 1 (expression room power top) := by
  induction room generalizing power top with
  | zero => exact advances_tooDeep
  | succ room ih =>
      refine Advances.behind (fun token => ?_) (Nat.le_refl _)
      apply (advances_opening (fun power => ih power false) (advances_pattern room) top token).step
      intro first
      split
      · exact advances_pure first
      · apply advances_left.step
        intro count
        exact advances_continuing (fun power => ih power false) power count first

theorem advances_items (room steps : Nat) (done : List Expr) : Advances room 0 (items room steps done) := by
  induction steps generalizing done with
  | zero => exact advances_pure done
  | succ steps ih =>
      apply advances_peek.step
      intro seen
      split
      · exact advances_pure done
      · apply (advances_expression room 0 true).step
        intro item
        exact ih _

theorem advances_program (room : Nat) : Advances room 0 (program room) := by
  apply advances_left.step
  intro count
  exact advances_items room count []

/-! Loops. -/

section

variable {room least : Nat} {read : Parse α} {cursor after : Cursor} {value : α}

theorem Advances.fewer (advances : Advances room least read) (done : read cursor = .ok value after) :
    after.rest.length + least ≤ cursor.rest.length := by
  have here := advances cursor
  rw [done] at here
  cases here with
  | ok taken some =>
      have length := taken.length
      omega

theorem Advances.shrinks (advances : Advances room least read) : Shrinks read := by
  intro cursor value after done
  have fewer := advances.fewer done
  omega

end

def nested (room power : Nat) : Parse Expr := expression room power false

def ListCounts (context : String) (item : List α → Parse α) : Prop :=
  Counts (fun steps => separated context item (steps + 1)) (separatedRound context item)

def ChainCounts (kind : Kind) (context : String) (item : List α → Parse α) : Prop :=
  Counts (chained kind context item) (chainRound kind context item)

/-- Every loop of the grammar goes round only where there are fewer tokens left. -/
structure LoopsCount (room : Nat) : Prop where
  names : ∀ context, ListCounts context (newName context)
  fields : ListCounts "data pattern" fun _ => pattern room
  arguments : ListCounts "function call arguments" fun _ => nested room 0
  branches : ChainCounts (.keyword .elif) "elif" fun _ => branch (nested room) "elif condition"
  arms : ChainCounts (.keyword .case) "match expression" fun _ => arm (nested room) (pattern room)
  variants : ChainCounts (.operator .bitOr) "data declaration" variant
  operators : ∀ power, Counts (continuing (nested room) power) (continuingRound (nested room) power)
  items : Counts (items room) (itemsRound room)

theorem loops_count (room : Nat) : LoopsCount room := by
  have inside (power : Nat) : Advances room 1 (nested room power) := advances_expression room power false
  have shape := advances_pattern room
  exact {
    names := fun context => separated_counts fun done =>
      (advances_newName context done : Advances room 0 _).shrinks
    fields := separated_counts fun _ => shape.shrinks
    arguments := separated_counts fun _ => (inside 0).shrinks
    branches := chained_counts fun _ => (advances_branch inside _).shrinks
    arms := chained_counts fun _ => (advances_arm inside shape).shrinks
    variants := chained_counts fun done => (advances_variant done : Advances room 1 _).shrinks
    operators := fun _ => continuing_counts (expression_gives room)
    items := items_counts room }

theorem items_rest {room : Nat} (steps : Nat) {done trees : List Expr} {cursor after : Cursor}
    (enough : cursor.rest.length ≤ steps) (read : items room steps done cursor = .ok trees after) :
    after.rest = [] := by
  induction steps generalizing done cursor with
  | zero =>
      cases read
      exact List.eq_nil_of_length_eq_zero (Nat.le_zero.1 enough)
  | succ steps ih =>
      rw [items, bind_of_ok (peek_apply _)] at read
      by_cases none : cursor.rest.head?.isNone = true
      · rw [if_pos none] at read
        cases read
        simpa using none
      · rw [if_neg none] at read
        obtain ⟨item, middle, first, read⟩ := bind_ok read
        have fewer := (advances_expression room 0 true).fewer first
        exact ih (by omega) read

theorem program_rest {room : Nat} {trees : List Expr} {cursor after : Cursor}
    (read : program room cursor = .ok trees after) : after.rest = [] := by
  rw [program, bind_of_ok (left_apply _)] at read
  exact items_rest _ (Nat.le_refl _) read

/-! Requests to a parser. -/

theorem Below.map {first second : Parse α} (below : Below first second) (change : α → β) :
    Below (change <$> first) (change <$> second) := by
  rw [map_eq_pure_bind, map_eq_pure_bind]
  exact below.bind fun _ => .refl _

inductive Request where
  | next (context : String)
  | expect (label context : String)
  | expression (power : Int) (top : Bool)
  | params (context : String)
  | arguments
  | pattern
  | program
deriving DecidableEq

inductive Answer where
  | token (token : Token)
  | tree (tree : Expr)
  | names (names : List String)
  | trees (trees : List Expr)
  | pattern (pattern : Pattern)

namespace Request

/-- No operator binds at a power of zero or less, so the powers below zero are as good as zero. -/
def perform (room : Nat) : Request → Parse Answer
  | .next context => .token <$> Parse.next context
  | .expect label context => .token <$> expectLabel label context
  | .expression power top => .tree <$> Parse.expression room power.toNat top
  | .params context => .names <$> Parse.params context
  | .arguments => .trees <$> Parse.arguments (nested room)
  | .pattern => .pattern <$> Parse.pattern room
  | .program => .trees <$> Parse.program room

def after (room : Nat) (request : Request) (cursor : Cursor) : Cursor :=
  match request.perform room cursor with
  | .ok _ after => after
  | .error _ after => after

def least : Request → Nat
  | .program => 0
  | _ => 1

theorem least_eq_one (request : Request) (other : request ≠ .program) : request.least = 1 := by
  cases request with
  | program => exact absurd rfl other
  | _ => rfl

theorem advances_perform (room : Nat) (request : Request) :
    Advances room request.least (request.perform room) := by
  cases request with
  | next context => exact (advances_next context).map _
  | expect label context => exact (advances_expectLabel label context).map _
  | expression power top => exact (advances_expression room _ top).map _
  | params context => exact (advances_params context).map _
  | arguments => exact (advances_arguments fun power => advances_expression room power false).map _
  | pattern => exact (advances_pattern room).map _
  | program => exact (advances_program room).map _

theorem exists_taken (room : Nat) (request : Request) (cursor : Cursor) :
    ∃ used, cursor.Takes used (request.after room cursor) := by
  have here := request.advances_perform room cursor
  unfold after
  generalize request.perform room cursor = outcome at here
  cases here with
  | ok taken some => exact ⟨_, taken⟩
  | refused taken => exact ⟨_, taken⟩
  | tooDeep taken deep => exact ⟨_, taken⟩

theorem below_perform {room wide : Nat} (more : room ≤ wide) (request : Request) :
    Below (request.perform room) (request.perform wide) := by
  induction more with
  | refl => exact .refl _
  | @step wide _ ih =>
      apply ih.trans
      cases request with
      | next | expect | params => exact .refl _
      | expression power top => exact (Below.expression wide _ top).map _
      | arguments => exact (Below.closed fun _ => Below.expression wide 0 false).map _
      | pattern => exact (Below.pattern wide).map _
      | program => exact (Below.program (Nat.le_succ wide)).map _

theorem ends_of_room {room : Nat} (request : Request) {cursor : Cursor}
    (enough : cursor.rest.length < room) :
    (∃ answer, request.perform room cursor = .ok answer (request.after room cursor)) ∨
      ∃ error, request.perform room cursor = .error (.malformed error) (request.after room cursor) := by
  have here := request.advances_perform room cursor
  unfold after
  generalize request.perform room cursor = outcome at here
  cases here with
  | ok taken some => exact .inl ⟨_, rfl⟩
  | refused taken => exact .inr ⟨_, rfl⟩
  | tooDeep taken deep =>
      have length := taken.length
      omega

def afterAll (room : Nat) (requests : List Request) (cursor : Cursor) : Cursor :=
  requests.foldl (fun cursor request => request.after room cursor) cursor

theorem exists_takenAll (room : Nat) (requests : List Request) (cursor : Cursor) :
    ∃ used, cursor.Takes used (afterAll room requests cursor) := by
  induction requests generalizing cursor with
  | nil => exact ⟨[], .nothing cursor⟩
  | cons request requests ih =>
      obtain ⟨used, taken⟩ := request.exists_taken room cursor
      obtain ⟨more, others⟩ := ih (request.after room cursor)
      exact ⟨used ++ more, taken.trans others⟩

/-- What a request does to a parser that has come to a cursor over some tokens. It leaves some of the
tokens at their end and the span of the last one before them, whether it is met or not; it takes a token
where it is met, and a program takes all of them; and with room for the tokens left it is met or refused,
whatever room there is beyond that. -/
structure Progresses (room : Nat) (tokens : List Token) (before : Cursor) (request : Request) : Prop where
  rest : ∃ used, tokens = used ++ (request.after room before).rest ∧
    (request.after room before).last = (used.getLast?.map Token.span).getD .origin
  takes : request ≠ .program → ∀ answer after, request.perform room before = .ok answer after →
    after.rest.length < before.rest.length
  finishes : request = .program → ∀ answer after, request.perform room before = .ok answer after →
    after.rest = []
  ends : before.rest.length < room →
    (∃ answer, request.perform room before = .ok answer (request.after room before)) ∨
      ∃ error, request.perform room before = .error (.malformed error) (request.after room before)
  steady : before.rest.length < room → ∀ wide, room ≤ wide →
    request.perform wide before = request.perform room before

end Request

theorem spanAfter_eq (last : Span) (used : List Token) :
    spanAfter last used = (used.getLast?.map Token.span).getD last := by
  induction used generalizing last with
  | nil => rfl
  | cons token tokens ih =>
      rw [spanAfter_cons, ih, List.getLast?_cons]
      cases tokens.getLast? <;> rfl

/-- Whatever a parser was asked for before, the next request makes progress and ends. -/
theorem requests_progress (room : Nat) (tokens : List Token) (earlier : List Request) (request : Request) :
    request.Progresses room tokens (Request.afterAll room earlier (.ofTokens tokens)) ∧
      ∀ inner, LoopsCount inner := by
  refine ⟨?_, loops_count⟩
  obtain ⟨used, taken⟩ := Request.exists_takenAll room earlier (.ofTokens tokens)
  generalize Request.afterAll room earlier (.ofTokens tokens) = before at taken
  obtain ⟨more, others⟩ := request.exists_taken room before
  have whole := taken.trans others
  constructor
  case rest => exact ⟨used ++ more, whole.rest, whole.last.trans (spanAfter_eq ..)⟩
  case takes =>
    intro other answer after met
    have fewer := (request.advances_perform room).fewer met
    rw [request.least_eq_one other] at fewer
    omega
  case finishes =>
    rintro rfl answer after met
    rw [Request.perform, map_eq_pure_bind] at met
    obtain ⟨trees, middle, read, done⟩ := bind_ok met
    cases done
    exact program_rest read
  case ends => exact request.ends_of_room
  case steady =>
    intro enough wide wider
    rcases request.below_perform wider before with same | ⟨after, deep⟩
    · exact same.symm
    · rcases request.ends_of_room enough with ⟨answer, met⟩ | ⟨error, refused⟩
      · rw [deep] at met
        cases met
      · rw [deep] at refused
        cases refused

end FernLang.Parse
