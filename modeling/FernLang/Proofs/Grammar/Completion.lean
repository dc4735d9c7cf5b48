import FernLang.Proofs.Grammar.Resumption
import FernLang.Proofs.Message
import Mathlib.Data.Fintype.EquivFin
import Mathlib.Data.Finset.Dedup

/-!
Viable beginnings. Every form of the grammar can be resumed: a number completes an expression or a
pattern, the mark or word that is asked for completes what asks for it, and a name that was not used
yet completes a list of names; none of these goes on from an expression that has ended. Hence tokens
can be continued to a program exactly when they are one or reading them ran out of tokens.
-/

namespace FernLang.Parse

open Grammar

def quiet : Kind → Prop
  | .operator _ | .mark .leftParen => False
  | _ => True

theorem quiet_is (kind : Kind) (silent : quiet kind) : ∀ other, other = kind → quiet other := by
  rintro _ rfl
  exact silent

theorem quiet_ne_leftParen (kind : Kind) (silent : quiet kind) : kind ≠ .mark .leftParen := by
  rintro rfl
  exact silent

theorem quiet_ne_operator (operator : Operator) (kind : Kind) (silent : quiet kind) :
    kind ≠ .operator operator := by
  rintro rfl
  exact silent

def quietBut (word : Keyword) (kind : Kind) : Prop := quiet kind ∧ kind ≠ .keyword word

theorem quietBut_is (word : Keyword) (kind : Kind) (silent : quietBut word kind) :
    ∀ other, other = kind → quietBut word other := by
  rintro _ rfl
  exact silent

theorem exists_fresh (names : List String) : ∃ name, name ∉ names := by
  obtain ⟨name, absent⟩ := Infinite.exists_notMem_finset names.toFinset
  exact ⟨name, by simpa using absent⟩

section

variable {α β σ : Type} {size : Nat} {first follow last : Kind → Prop} {context : String}

theorem Resumable.running_bind {loop : Nat → σ → Parse α} {state : σ} {next : α → Parse β}
    {start : Kind → Prop} (early : Resumable size first follow (running loop state))
    (meet : ∀ kind, start kind → follow kind)
    (late : ∀ value, Resumable size start last (next value)) :
    Resumable size first last (left >>= fun steps => loop steps state >>= next) := by
  rw [← bind_assoc]
  exact early.bind meet late

theorem resumable_get (make : Span → Parse α)
    (each : ∀ last, Resumable size first follow (make last)) :
    Resumable size first follow (get >>= fun cursor => make cursor.last) :=
  fun cursor short => (each cursor.last cursor short).congr fun _ => rfl

theorem resumable_expectName : Resumable size (· = .name) anyKind (expectName context) := by
  rw [← bind_pure (expectName context)]
  exact resumable_name "x" (fun _ => resumable_pure _) fun _ _ _ => .inl (resumable_pure _)

theorem resumable_params : Resumable size (· = .name) anyKind (params context) := by
  apply resumable_closed
  · intro done
    apply shrinks_of_takes
    intro cursor name after read
    obtain ⟨⟨name, token⟩, middle, taken, read⟩ := bind_ok read
    by_cases member : name ∈ done
    · simp [member] at read
    · simp only [member, if_false] at read
      cases read
      exact ⟨_, expectName_ok taken⟩
  · rintro _ rfl
    decide
  · intro done
    obtain ⟨fresh, absent⟩ := exists_fresh done
    apply resumable_name fresh
    · intro token
      simp only [absent, if_false]
      exact (resumable_pure _).anywhere
    · rintro ⟨name, token⟩ smaller _
      by_cases member : name ∈ done
      · simp only [member, if_true]
        exact .inr (refuses rfl _)
      · simp only [member, if_false]
        exact .inl (resumable_pure _).anywhere

theorem resumable_variant (done : List (String × List String)) :
    Resumable size (· = .name) quiet (variant done) := by
  obtain ⟨fresh, absent⟩ := exists_fresh (done.map Prod.fst)
  have fields (size : Nat) (name : String) :
      Resumable size anyKind quiet (do
        if ← looking (.mark .leftParen) then
          let _ ← next "data constructor fields"
          return (name, ← params "data constructor fields")
        else return (name, [])) := by
    apply Resumable.anywhere
    apply resumable_option (resumable_pure _) quiet_ne_leftParen
    intro token smaller _
    apply resumable_params.anywhere.bind fun _ _ => trivial
    intro names
    exact resumable_pure _
  apply resumable_name fresh
  · intro token
    simp only [absent, if_false]
    exact fields 0 fresh
  · rintro ⟨name, token⟩ smaller _
    by_cases member : name ∈ done.map Prod.fst
    · simp only [member, if_true]
      exact .inr (refuses rfl _)
    · simp only [member, if_false]
      exact .inl (fields smaller name)

end

theorem pattern_resumable {room size : Nat} (less : size < room) :
    Resumable size (· = .number) quiet (pattern room) := by
  induction room generalizing size with
  | zero => cases less
  | succ room ih =>
      refine resumable_next "pattern" ⟨.number 0, .origin⟩ (by rfl) (resumable_pure _).anywhere ?_
      rintro ⟨lexeme, span⟩ smaller below
      cases lexeme with
      | number value => exact .inl (resumable_pure _).anywhere
      | truth value => exact .inl (resumable_pure _).anywhere
      | operator operator =>
          cases operator with
          | sub =>
              refine .inl (resumable_next _ ⟨.number 0, .origin⟩ trivial
                (resumable_pure _).anywhere ?_)
              rintro ⟨lexeme, place⟩ less _
              cases lexeme with
              | number value => exact .inl (resumable_pure _).anywhere
              | _ => exact .inr (refuses rfl _)
          | _ => exact .inr (refuses rfl _)
      | name name =>
          refine .inl (resumable_option (resumable_pure _) quiet_ne_leftParen ?_).anywhere
          intro token less under
          have fields : Resumable less (· = .number) anyKind
              (closed "data pattern" fun _ => pattern room) := by
            apply resumable_closed
            · intro _
              apply shrinks_of_takes
              intro cursor shape after read
              obtain ⟨used, taken, -⟩ := pattern_ok read
              exact ⟨used, taken⟩
            · rintro _ rfl
              decide
            · intro _
              exact (ih (by omega)).before (quiet_is _ trivial)
          apply fields.anywhere.bind fun _ _ => trivial
          intro patterns
          exact resumable_pure _
      | _ => exact .inr (refuses rfl _)

def ResumableNested (size : Nat) (nested : Nat → Parse Expr) : Prop :=
  ∀ power, Resumable size (· = .number) quiet (nested power)

section

variable {size room : Nat} {nested : Nat → Parse Expr} {start : Span}

theorem resumable_branch (inside : ResumableNested size nested) (context : String) :
    Resumable size (· = .number) quiet (branch nested context) := by
  apply (inside 0).bind (quiet_is (.mark .colon) trivial)
  intro condition
  apply (resumable_expect _).bind fun _ _ => trivial
  intro colon
  apply (inside 0).bind fun _ silent => silent
  intro body
  exact resumable_pure _

theorem resumable_arm (inside : ResumableNested size nested)
    (shapes : Resumable size (· = .number) quiet (pattern room)) :
    Resumable size (· = .number) quiet (arm nested (pattern room)) := by
  apply shapes.bind (quiet_is (.mark .colon) trivial)
  intro shape
  apply (resumable_expect _).bind fun _ _ => trivial
  intro colon
  apply (inside 0).bind fun _ silent => silent
  intro body
  exact resumable_pure _

theorem resumable_letForm (inside : ResumableNested size nested) (top : Bool) :
    Resumable size (· = .name) quiet (letForm nested top start) := by
  apply resumable_expectName.bind fun _ _ => trivial
  rintro ⟨name, place⟩
  apply (resumable_expect (.mark .equals)).bind fun _ _ => trivial
  intro equals
  cases top with
  | true =>
      apply (inside 0).bind fun _ silent => silent
      intro binding
      exact resumable_pure _
  | false =>
      apply (inside 0).bind (quiet_is .number trivial)
      intro binding
      apply (inside 0).bind (quiet_is (.keyword .end_) trivial)
      intro body
      apply (resumable_expect _).bind fun _ _ => trivial
      intro close
      exact resumable_pure _

theorem resumable_lambdaForm (inside : ResumableNested size nested) :
    Resumable size (· = .mark .leftParen) quiet (lambdaForm nested start) := by
  apply (resumable_expect _).bind fun _ _ => trivial
  intro paren
  apply resumable_params.bind fun _ _ => trivial
  intro names
  apply (resumable_expect (.mark .colon)).bind fun _ _ => trivial
  intro colon
  apply (inside 0).bind (quiet_is (.keyword .end_) trivial)
  intro body
  apply (resumable_expect _).bind fun _ _ => trivial
  intro close
  exact resumable_pure _

theorem resumable_functionForm (inside : ResumableNested size nested) :
    Resumable size (· = .name) quiet (functionForm nested true start) := by
  apply resumable_expectName.bind fun _ _ => trivial
  rintro ⟨name, place⟩
  apply (resumable_expect (.mark .leftParen)).bind fun _ _ => trivial
  intro paren
  apply resumable_params.bind fun _ _ => trivial
  intro names
  apply (resumable_expect (.mark .colon)).bind fun _ _ => trivial
  intro colon
  apply (inside 0).bind (quiet_is (.keyword .end_) trivial)
  intro body
  apply (resumable_expect _).bind fun _ _ => trivial
  intro close
  exact resumable_pure _

theorem resumable_condForm (gives : Gives nested) (inside : ResumableNested size nested) :
    Resumable size (· = .number) quiet (condForm nested start) := by
  have chain (first : Expr × Expr) : Resumable size (quietBut .elif) (quietBut .elif)
      (running (chained (.keyword .elif) "elif" fun _ => branch nested "elif condition") [first]) := by
    apply resumable_chained
    · exact fun _ => gives.shrinks_branch _
    · exact fun _ stop => stop.2
    · intro _ smaller less
      exact ((resumable_branch inside _).le (Nat.le_of_lt less)).anywhere.before fun _ stop => stop.1
  apply (resumable_branch inside _).bind fun _ (stop : quietBut .elif _) => stop.1
  intro first
  apply (chain first).running_bind (quietBut_is _ (.keyword .else_) ⟨trivial, by decide⟩)
  intro branches
  apply (resumable_expect _).bind fun _ _ => trivial
  intro else_
  apply (resumable_expect (.mark .colon)).bind fun _ _ => trivial
  intro colon
  apply (inside 0).bind (quiet_is (.keyword .end_) trivial)
  intro otherwise
  apply (resumable_expect _).bind fun _ _ => trivial
  intro close
  exact resumable_pure _

theorem resumable_matchForm (gives : Gives nested) (inside : ResumableNested size nested)
    (shapes : Resumable size (· = .number) quiet (pattern room)) :
    Resumable size (· = .number) quiet (matchForm nested (pattern room) start) := by
  have chain (first : Pattern × Expr) : Resumable size (quietBut .case) (quietBut .case)
      (running (chained (.keyword .case) "match expression" fun _ => arm nested (pattern room))
        [first]) := by
    apply resumable_chained
    · exact fun _ => gives.shrinks_arm _
    · exact fun _ stop => stop.2
    · intro _ smaller less
      exact ((resumable_arm inside shapes).le (Nat.le_of_lt less)).anywhere.before
        fun _ stop => stop.1
  apply (inside 0).bind (quiet_is (.keyword .case) trivial)
  intro scrutinee
  apply (resumable_expect _).bind fun _ _ => trivial
  intro case_
  apply (resumable_arm inside shapes).bind fun _ (stop : quietBut .case _) => stop.1
  intro first
  apply (chain first).running_bind (quietBut_is _ (.keyword .end_) ⟨trivial, by decide⟩)
  intro arms
  apply (resumable_expect _).bind fun _ _ => trivial
  intro close
  exact resumable_pure _

theorem resumable_dataForm : Resumable size (· = .name) quiet (dataForm true start) := by
  have chain (first : String × List String) : Resumable size quiet quiet
      (running (chained (.operator .bitOr) "data declaration" variant) [first]) := by
    apply resumable_chained
    · exact shrinks_variant
    · exact quiet_ne_operator _
    · intro done smaller _
      exact (resumable_variant done).anywhere
  apply resumable_expectName.bind fun _ _ => trivial
  rintro ⟨name, place⟩
  apply (resumable_expect (.mark .equals)).bind fun _ _ => trivial
  intro equals
  apply (resumable_variant []).bind fun _ silent => silent
  intro first
  apply (chain first).running_bind fun _ silent => silent
  intro variants
  exact resumable_get (fun last => pure (Expr.dataType name variants (start.merge last)))
    fun _ => resumable_pure _

theorem resumable_opening (gives : Gives nested) (inside : ResumableNested size nested)
    (shapes : Resumable size (· = .number) quiet (pattern room)) (top : Bool) (token : Token) :
    Resumable size anyKind quiet (opening nested (pattern room) top token) ∨
      Refuses (opening nested (pattern room) top token) := by
  obtain ⟨lexeme, span⟩ := token
  cases lexeme with
  | number | truth | name => exact .inl (resumable_pure _).anywhere
  | mark sign =>
      cases sign with
      | leftParen =>
          refine .inl ((inside 0).anywhere.bind (quiet_is (.mark .rightParen) trivial) ?_)
          intro inner
          apply (resumable_expect _).bind fun _ _ => trivial
          intro close
          exact resumable_pure _
      | _ => exact .inr (refuses rfl _)
  | operator operator =>
      cases operator with
      | sub =>
          refine .inl ((inside negationPower).anywhere.bind (fun _ silent => silent) ?_)
          intro operand
          exact resumable_pure _
      | _ => exact .inr (refuses rfl _)
  | keyword word =>
      cases word with
      | let_ => exact .inl (resumable_letForm inside top).anywhere
      | lambda => exact .inl (resumable_lambdaForm inside).anywhere
      | if_ => exact .inl (resumable_condForm gives inside).anywhere
      | match_ => exact .inl (resumable_matchForm gives inside shapes).anywhere
      | function =>
          cases top with
          | true => exact .inl (resumable_functionForm inside).anywhere
          | false => exact .inr (refuses rfl _)
      | data =>
          cases top with
          | true => exact .inl resumable_dataForm.anywhere
          | false => exact .inr (refuses rfl _)
      | _ => exact .inr (refuses rfl _)

theorem resumable_arguments (gives : Gives nested) (inside : ResumableNested size nested) :
    Resumable size (· = .number) anyKind (arguments nested) := by
  apply resumable_closed
  · exact fun _ => gives.shrinks (Nat.zero_le _)
  · rintro _ rfl
    decide
  · exact fun _ => (inside 0).before (quiet_is _ trivial)

theorem resumable_continuing (gives : Gives nested)
    (inside : ∀ smaller < size, ResumableNested smaller nested) (power : Nat) (left : Expr) :
    Resumable size quiet quiet (running (continuing nested power) left) := by
  apply (continuing_counts gives).resumable
  intro smaller bound ih left
  apply resumable_peek
  · exact resumable_pure left
  · rintro ⟨lexeme, span⟩ silent
    cases lexeme with
    | operator => cases silent
    | mark sign =>
        cases sign with
        | leftParen => cases silent
        | _ => rfl
    | _ => rfl
  · rintro ⟨lexeme, span⟩ rest place below
    have nested := inside rest.length (Nat.lt_of_lt_of_le below bound)
    have stays : Fate anyKind quiet (pure left : Parse Expr) ⟨⟨lexeme, span⟩ :: rest, place⟩ :=
      (resumable_pure left).anywhere _ (Nat.le_refl _)
    cases lexeme with
    | operator operator =>
        dsimp only [Option.map_some]
        split
        · exact stays
        · apply fate_next
          apply (nested _).anywhere.bind fun _ silent => silent
          intro right
          exact ih _ below _
    | mark sign =>
        cases sign with
        | leftParen =>
            dsimp only [Option.map_some]
            split
            · exact stays
            · apply fate_next
              apply (resumable_arguments gives nested).anywhere.bind fun _ _ => trivial
              intro args
              exact resumable_get (fun last => running (continuing _ power)
                (.call left args (left.span.merge last))) fun _ => ih _ below _
        | _ => exact stays
    | _ => exact stays

end

def form (room power : Nat) (top : Bool) (token : Token) : Parse Expr := do
  let nested := fun power => expression room power false
  let first ← opening nested (pattern room) top token
  if opensDeclaration token then return first
  else continuing nested power (← left) first

theorem expression_eq (room power : Nat) (top : Bool) :
    expression (room + 1) power top = next "expression" >>= form room power top := rfl

theorem resumable_form {room size : Nat} (less : size < room)
    (inside : ∀ smaller ≤ size, ResumableNested smaller fun power => expression room power false)
    (power : Nat) (top : Bool) (token : Token) :
    Resumable size anyKind quiet (form room power top token) ∨ Refuses (form room power top token) := by
  have gives := expression_gives room
  rcases resumable_opening gives (inside size (Nat.le_refl _)) (pattern_resumable less) top token with
    opened | refused
  · refine .inl (opened.bind (fun _ silent => silent) ?_)
    intro first
    split
    · exact resumable_pure first
    · exact resumable_continuing gives (fun smaller below => inside smaller (Nat.le_of_lt below)) power
        first
  · exact .inr (refused.bind _)

theorem resumable_number (room power : Nat) (top : Bool) :
    Resumable 0 anyKind quiet (form room power top ⟨.number 0, .origin⟩) := by
  have continued := resumable_continuing (expression_gives room)
    (fun smaller below => absurd below (Nat.not_lt_zero smaller)) power (.number 0 .origin)
  exact continued.anywhere

theorem expression_resumable {room size : Nat} (less : size < room) (power : Nat) (top : Bool) :
    Resumable size (· = .number) quiet (expression room power top) := by
  induction room generalizing size power top with
  | zero => cases less
  | succ room ih =>
      rw [expression_eq]
      refine resumable_next _ ⟨.number 0, .origin⟩ (by rfl) (resumable_number room power top) ?_
      intro token smaller below
      exact resumable_form (by omega) (fun _ _ power => ih (by omega) power false) power top token

def noKind (_ : Kind) : Prop := False

theorem items_resumable {room size : Nat} (less : size < room) (done : List Expr) :
    Resumable size noKind noKind (running (items room) done) := by
  apply (items_counts room).resumable
  intro smaller bound ih done
  apply resumable_peek
  · exact resumable_pure done
  · intro token never
    cases never
  · intro token rest place below
    cases room with
    | zero => cases less
    | succ room =>
        have short : rest.length < room := by omega
        have formed := resumable_form short
          (fun _ bound power => expression_resumable (Nat.lt_of_le_of_lt bound short) power false)
          0 true token
        -- The item takes its first token before anything else, so what follows it has less to read.
        change Fate anyKind noKind ((next "expression" >>= form room 0 true) >>=
          fun item => running (items (room + 1)) (done ++ [item])) ⟨token :: rest, place⟩
        rw [bind_assoc]
        rcases formed with formed | refused
        · apply fate_next
          refine formed.bind (fun kind (never : noKind kind) => never.elim) ?_
          intro item
          exact ih _ below _
        · exact (refused.bind _).fate rest place

end FernLang.Parse

namespace FernLang

theorem parseTokens_append (room : Nat) (tokens more : List Token) :
    parseTokens room (tokens ++ more) =
      match Parse.running (Parse.items room) [] ((Cursor.ofTokens tokens).append more) with
      | .ok program _ => .ok program
      | .error refusal _ => .error refusal := rfl

/-- An answer other than that there was too little room is the answer with any more room. -/
theorem parseTokens_more {room wide : Nat} (more : room ≤ wide) (tokens : List Token) :
    parseTokens room tokens = parseTokens wide tokens ∨ parseTokens room tokens = .error .tooDeep := by
  unfold parseTokens
  rcases Parse.Below.program more (.ofTokens tokens) with same | ⟨after, deep⟩
  · exact .inl (by rw [same])
  · exact .inr (by rw [deep])

theorem parseTokens_tooDeep {room : Nat} {tokens : List Token}
    (deep : parseTokens room tokens = .error .tooDeep) : room ≤ tokens.length := by
  rw [← List.append_nil tokens, parseTokens_append] at deep
  apply Nat.le_of_not_lt
  intro enough
  cases Parse.items_resumable enough [] (.ofTokens tokens) (Nat.le_refl _) with
  | ended program after short stable through =>
      rw [stable [] fun _ => Parse.begins_nil _] at deep
      cases deep
  | refused error final some stable =>
      obtain ⟨after, read⟩ := stable []
      rw [read] at deep
      cases deep
  | unfinished error after added program last incomplete stopped completed starts =>
      rw [Cursor.append_nil, stopped] at deep
      cases deep

theorem parseTokens_not_both {room wide : Nat} {tokens : List Token} {program : List Expr}
    {error : ParseError} (parsed : parseTokens wide tokens = .ok program)
    (malformed : parseTokens room tokens = .error (.malformed error)) : False := by
  rcases Nat.le_total room wide with more | less
  · rcases parseTokens_more more tokens with same | deep
    · rw [malformed, parsed] at same
      cases same
    · rw [malformed] at deep
      cases deep
  · rcases parseTokens_more less tokens with same | deep
    · rw [malformed, parsed] at same
      cases same
    · rw [parsed] at deep
      cases deep

/-- With room for every token, tokens can be continued to a program exactly when they are a program
or the complaint about them is that they ran out. -/
theorem exists_continuation_iff (room : Nat) (tokens : List Token) (enough : tokens.length < room) :
    (∃ more wide program, parseTokens wide (tokens ++ more) = .ok program) ↔
      (∃ program, parseTokens room tokens = .ok program) ∨
        ∃ error tail, parseTokens room tokens = .error (.malformed error) ∧
          error.complaint.message = "Ran out of tokens" ++ tail := by
  cases Parse.items_resumable enough [] (.ofTokens tokens) (Nat.le_refl _) with
  | ended program after short stable through =>
      have parsed : parseTokens room (tokens ++ []) = .ok program := by
        rw [parseTokens_append, stable [] fun _ => Parse.begins_nil _]
      rw [List.append_nil] at parsed
      exact iff_of_true ⟨[], room, program, by rw [List.append_nil, parsed]⟩ (.inl ⟨program, parsed⟩)
  | refused error final some stable =>
      have malformed (more : List Token) :
          parseTokens room (tokens ++ more) = .error (.malformed error) := by
        obtain ⟨after, read⟩ := stable more
        rw [parseTokens_append, read]
      have here : parseTokens room tokens = .error (.malformed error) := by
        simpa using malformed []
      apply iff_of_false
      · rintro ⟨more, wide, program, parsed⟩
        exact parseTokens_not_both parsed (malformed more)
      · rintro (⟨program, parsed⟩ | ⟨other, tail, same, starts⟩)
        · rw [here] at parsed
          cases parsed
        · rw [here] at same
          cases same
          rw [(Complaint.isIncomplete_iff _).2 ⟨tail, starts⟩] at final
          cases final
  | unfinished error after added program last incomplete stopped completed starts =>
      have parsed : parseTokens room (tokens ++ added) = .ok program := by
        have read := completed [] (Parse.begins_nil _)
        rw [List.append_nil] at read
        rw [parseTokens_append, read]
      have here : parseTokens room (tokens ++ []) = .error (.malformed error) := by
        rw [parseTokens_append, Cursor.append_nil, stopped]
      rw [List.append_nil] at here
      obtain ⟨tail, message⟩ := (Complaint.isIncomplete_iff _).1 incomplete
      exact iff_of_true ⟨added, room, program, parsed⟩ (.inr ⟨error, tail, here, message⟩)

/-- The tokens of `let f = lambda(a,`. -/
def openParameters : List Token :=
  [⟨.keyword .let_, .ofWidth 0 3⟩, ⟨.name "f", .ofWidth 4 1⟩, ⟨.mark .equals, .ofWidth 6 1⟩,
    ⟨.keyword .lambda, .ofWidth 8 6⟩, ⟨.mark .leftParen, .ofWidth 14 1⟩, ⟨.name "a", .ofWidth 15 1⟩,
    ⟨.mark .comma, .ofWidth 16 1⟩]

/-- An open list of parameters can be continued, but not with a parameter that it has. -/
theorem openParameters_continuation :
    (∃ more wide program, parseTokens wide (openParameters ++ more) = .ok program) ∧
      ¬∃ more wide program,
        parseTokens wide (openParameters ++ [⟨.name "a", .ofWidth 18 1⟩] ++ more) = .ok program := by
  constructor
  · exact (exists_continuation_iff 8 openParameters (by decide)).2
      (.inr ⟨_, " while parsing lambda parameters", rfl, rfl⟩)
  · rw [exists_continuation_iff 9 _ (by decide)]
    rintro (⟨program, parsed⟩ | ⟨error, tail, same, starts⟩)
    · cases parsed
    · have incomplete := (Complaint.isIncomplete_iff _).2 ⟨tail, starts⟩
      cases same
      cases incomplete

end FernLang
