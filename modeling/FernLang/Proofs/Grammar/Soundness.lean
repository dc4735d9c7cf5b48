import FernLang.Grammar.Program
import FernLang.Proofs.Grammar.Surface
import Mathlib.Data.List.Nodup

/-!
Whatever is read was written. Where reading succeeds, the tokens it took stand in the grammar for
the tree it gives, and no operand of an operator or callee of a call stands bare where the powers of
the operators forbid it. The loop for operators and calls keeps a phrase on its left whose last part
has left the next token alone, which is what makes that phrase fit in front of the next operator.
-/

namespace FernLang

section

variable {token : Token}

theorem Token.eq_of_mark {sign : Mark} (same : token.kind = .mark sign) :
    token = ⟨.mark sign, token.span⟩ := by
  obtain ⟨lexeme, span⟩ := token
  cases lexeme with
  | mark found =>
      cases same
      rfl
  | _ => cases same

theorem Token.eq_of_keyword {word : Keyword} (same : token.kind = .keyword word) :
    token = ⟨.keyword word, token.span⟩ := by
  obtain ⟨lexeme, span⟩ := token
  cases lexeme with
  | keyword found =>
      cases same
      rfl
  | _ => cases same

theorem Token.eq_of_operator {operator : Operator} (same : token.kind = .operator operator) :
    token = ⟨.operator operator, token.span⟩ := by
  obtain ⟨lexeme, span⟩ := token
  cases lexeme with
  | operator found =>
      cases same
      rfl
  | _ => cases same

end

namespace Parse

open Grammar

theorem expect_mark_ok {sign : Mark} {context : String} {cursor after : Cursor} {token : Token}
    (done : expect (.mark sign) context cursor = .ok token after) :
    cursor.Takes [⟨.mark sign, token.span⟩] after := by
  obtain ⟨taken, same⟩ := expect_ok done
  rwa [← Token.eq_of_mark same]

theorem expect_keyword_ok {word : Keyword} {context : String} {cursor after : Cursor} {token : Token}
    (done : expect (.keyword word) context cursor = .ok token after) :
    cursor.Takes [⟨.keyword word, token.span⟩] after := by
  obtain ⟨taken, same⟩ := expect_ok done
  rwa [← Token.eq_of_keyword same]

theorem looking_ok {β : Type} {kind : Kind} {context : String} {cursor after : Cursor}
    {yes : Token → Parse β} {no : Parse β} {value : β}
    (done : (looking kind >>= fun seen => if seen = true then next context >>= yes else no) cursor =
      .ok value after) :
    (∃ token middle, cursor.Takes [token] middle ∧ token.kind = kind ∧
      yes token middle = .ok value after) ∨ no cursor = .ok value after := by
  rw [bind_of_ok (looking_apply ..)] at done
  split at done
  next seen =>
      obtain ⟨token, middle, taken, rest⟩ := bind_ok done
      have taken := next_ok taken
      refine Or.inl ⟨token, middle, taken, ?_, rest⟩
      rw [taken.rest] at seen
      simpa using seen
  next => exact Or.inr done

section

variable {α : Type} {part : List Token → α → Prop} {keep : List α → Prop} {context : String}
  {item : List α → Parse α}

/-- Every item that is read was written as a part, and may be kept with those before it. -/
def GivesEach (item : List α → Parse α) (keep : List α → Prop) (part : List Token → α → Prop) :
    Prop :=
  ∀ done cursor one after, keep done → item done cursor = .ok one after →
    ∃ used, cursor.Takes used after ∧ part used one ∧ keep (done ++ [one])

theorem separated_ok (gives : GivesEach item keep part) (steps : Nat) (done : List α)
    {cursor after : Cursor} {items : List α} (kept : keep done)
    (read : separated context item steps done cursor = .ok items after) :
    ∃ used more close, cursor.Takes used after ∧ items = done ++ more ∧
      Listed part close used more ∧ keep items := by
  induction steps generalizing done cursor with
  | zero => cases read
  | succ steps ih =>
      obtain ⟨one, middle, first, read⟩ := bind_ok read
      obtain ⟨used, taken, written, keptOne⟩ := gives _ _ _ _ kept first
      obtain ⟨⟨lexeme, span⟩, behind, separator, read⟩ := bind_ok read
      have taken := taken.trans (next_ok separator)
      cases lexeme with
      | mark sign =>
          cases sign with
          | rightParen =>
              cases read
              exact ⟨_, [one], span, taken, rfl, .last written, keptOne⟩
          | comma =>
              obtain ⟨others, more, close, rest, same, listed, keptAll⟩ := ih _ keptOne read
              refine ⟨_, one :: more, close, taken.trans rest, by simpa using same, ?_, keptAll⟩
              rw [List.append_assoc]
              exact .more written listed
          | _ => cases read
      | _ => cases read

theorem closed_ok (gives : GivesEach item keep part) (none : keep []) {cursor after : Cursor}
    {items : List α} (read : closed context item cursor = .ok items after) :
    ∃ used close, cursor.Takes used after ∧ after.last = close ∧ Enclosed part close used items ∧
      keep items := by
  rcases looking_ok read with ⟨token, middle, taken, same, rest⟩ | listed
  · cases rest
    rw [Token.eq_of_mark same] at taken
    exact ⟨_, _, taken, taken.last, .empty, none⟩
  · obtain ⟨used, more, close, taken, same, listed, kept⟩ := separated_ok gives _ [] none listed
    obtain rfl : items = more := same
    refine ⟨used, close, taken, ?_, .listed listed, kept⟩
    rw [taken.last, (Enclosed.listed listed).spanAfter]

theorem chained_ok {kind : Kind} {opener : Lexeme}
    (exact : ∀ token : Token, token.kind = kind → token = ⟨opener, token.span⟩)
    (gives : GivesEach item keep part) (steps : Nat) (done : List α) {cursor after : Cursor}
    {items : List α} (kept : keep done)
    (read : chained kind context item steps done cursor = .ok items after) :
    ∃ used more, cursor.Takes used after ∧ items = done ++ more ∧ Chained opener part used more ∧
      keep items := by
  induction steps generalizing done cursor with
  | zero =>
      cases read
      exact ⟨[], [], .nothing _, by simp, .none, kept⟩
  | succ steps ih =>
      rcases looking_ok read with ⟨token, middle, opened, same, rest⟩ | stopped
      · rw [exact token same] at opened
        obtain ⟨one, behind, first, rest⟩ := bind_ok rest
        obtain ⟨used, taken, written, keptOne⟩ := gives _ _ _ _ kept first
        obtain ⟨others, more, beyond, same, chain, keptAll⟩ := ih _ keptOne rest
        exact ⟨_, one :: more, opened.cons (taken.trans beyond), by simpa using same,
          .more written chain, keptAll⟩
      · cases stopped
        exact ⟨[], [], .nothing _, by simp, .none, kept⟩

end

theorem params_ok {context : String} {cursor after : Cursor} {names : List String}
    (read : params context cursor = .ok names after) :
    ∃ used close, cursor.Takes used after ∧ after.last = close ∧ Enclosed Named close used names ∧
      names.Nodup := by
  refine closed_ok ?_ List.nodup_nil read
  intro done cursor one after distinct read
  obtain ⟨⟨name, token⟩, middle, taken, read⟩ := bind_ok read
  by_cases member : name ∈ done
  · simp [member] at read
  · simp only [member, if_false] at read
    cases read
    exact ⟨_, expectName_ok taken, .name, by simpa using distinct.concat member⟩

theorem pattern_ok {room : Nat} {cursor after : Cursor} {shape : Pattern}
    (read : pattern room cursor = .ok shape after) :
    ∃ used, cursor.Takes used after ∧ Match used shape := by
  induction room generalizing cursor after shape with
  | zero => cases read
  | succ room ih =>
      obtain ⟨⟨lexeme, span⟩, middle, first, read⟩ := bind_ok read
      have first := next_ok first
      cases lexeme with
      | number value =>
          cases read
          exact ⟨_, first, .number⟩
      | truth value =>
          cases read
          exact ⟨_, first, .truth⟩
      | operator operator =>
          cases operator with
          | sub =>
              obtain ⟨⟨lexeme, place⟩, behind, second, read⟩ := bind_ok read
              cases lexeme with
              | number value =>
                  cases read
                  exact ⟨_, first.cons (next_ok second), .negative⟩
              | _ => cases read
          | _ => cases read
      | name name =>
          rcases looking_ok read with ⟨paren, behind, opened, same, rest⟩ | bare
          · rw [Token.eq_of_mark same] at opened
            obtain ⟨fields, last, listed, rest⟩ := bind_ok rest
            cases rest
            have gives : GivesEach (fun _ => pattern room) (fun _ => True) Match :=
              fun _ _ _ _ _ inner => by
                obtain ⟨used, taken, written⟩ := ih inner
                exact ⟨used, taken, written, trivial⟩
            obtain ⟨used, close, taken, -, listed, -⟩ := closed_ok gives trivial listed
            exact ⟨_, first.cons (opened.cons taken), .data Match (fun _ _ one => one) listed⟩
          · cases bare
            exact ⟨_, first, .var⟩
      | _ => cases read

/-- What is read at a power is a phrase that fits there, and nothing goes on from it. -/
def Gives (nested : Nat → Parse Expr) : Prop :=
  ∀ power cursor tree after, power ≤ negationPower → nested power cursor = .ok tree after →
    ∃ shape used, cursor.Takes used after ∧ Phrase .table shape used tree ∧ shape.Fits power ∧
      Stops power after.rest

section

variable {nested : Nat → Parse Expr} {room : Nat} {cursor after : Cursor} {tree : Expr}
  {start : Span}

theorem Gives.phrase (gives : Gives nested) (read : nested 0 cursor = .ok tree after) :
    ∃ used, cursor.Takes used after ∧ Shaped (Phrase .table) used tree ∧ Stops 0 after.rest := by
  obtain ⟨shape, used, taken, phrase, -, stops⟩ := gives 0 cursor tree after (Nat.zero_le _) read
  exact ⟨used, taken, ⟨shape, phrase⟩, stops⟩

theorem branch_ok (gives : Gives nested) {context : String} {pair : Expr × Expr}
    (read : branch nested context cursor = .ok pair after) :
    ∃ used, cursor.Takes used after ∧
      Coloned (Shaped (Phrase .table)) (Shaped (Phrase .table)) used pair := by
  obtain ⟨condition, middle, first, read⟩ := bind_ok read
  obtain ⟨colon, behind, second, read⟩ := bind_ok read
  obtain ⟨body, last, third, read⟩ := bind_ok read
  cases read
  obtain ⟨before, taken, head, -⟩ := gives.phrase first
  obtain ⟨used, rest, tail, -⟩ := gives.phrase third
  exact ⟨_, taken.trans ((expect_mark_ok second).cons rest), .pair head tail⟩

theorem arm_ok (gives : Gives nested) {pair : Pattern × Expr}
    (read : arm nested (pattern room) cursor = .ok pair after) :
    ∃ used, cursor.Takes used after ∧ Coloned Match (Shaped (Phrase .table)) used pair := by
  obtain ⟨shape, middle, first, read⟩ := bind_ok read
  obtain ⟨colon, behind, second, read⟩ := bind_ok read
  obtain ⟨body, last, third, read⟩ := bind_ok read
  cases read
  obtain ⟨before, taken, head⟩ := pattern_ok first
  obtain ⟨used, rest, tail, -⟩ := gives.phrase third
  exact ⟨_, taken.trans ((expect_mark_ok second).cons rest), .pair head tail⟩

theorem letForm_inner_ok (gives : Gives nested) (read : letForm nested false start cursor = .ok tree after) :
    ∃ used, cursor.Takes used after ∧
      Phrase .table .primary (⟨.keyword .let_, start⟩ :: used) tree := by
  obtain ⟨⟨name, token⟩, middle, named, read⟩ := bind_ok read
  obtain ⟨equals, behind, second, read⟩ := bind_ok read
  obtain ⟨binding, beyond, third, read⟩ := bind_ok read
  obtain ⟨body, last, fourth, read⟩ := bind_ok read
  obtain ⟨close, end_, fifth, read⟩ := bind_ok read
  cases read
  obtain ⟨before, takenBinding, ⟨_, bound⟩, stops⟩ := gives.phrase third
  obtain ⟨used, takenBody, ⟨_, inner⟩, -⟩ := gives.phrase fourth
  have taken := (expectName_ok named).cons ((expect_mark_ok second).cons
    (takenBinding.trans (takenBody.trans (expect_keyword_ok fifth))))
  refine ⟨_, taken, .letIn bound inner ?_⟩
  -- The binding was read up to the body, so the body does not start with what goes on from it.
  obtain ⟨first, more, rfl, -⟩ := inner.opens
  rw [takenBody.rest, List.cons_append, stops_cons] at stops
  rintro _ ⟨⟩
  constructor
  · intro paren
    exact absurd (stops callPower (by rw [paren]; rfl)) (by decide)
  · intro minus
    exact absurd (stops Operator.sub.power (by rw [minus]; rfl)) (by decide)

theorem letForm_top_ok (gives : Gives nested) (read : letForm nested true start cursor = .ok tree after) :
    ∃ used, cursor.Takes used after ∧ Item .table (⟨.keyword .let_, start⟩ :: used) tree ∧
      Stops 0 after.rest := by
  obtain ⟨⟨name, token⟩, middle, named, read⟩ := bind_ok read
  obtain ⟨equals, behind, second, read⟩ := bind_ok read
  obtain ⟨binding, beyond, third, read⟩ := bind_ok read
  cases read
  obtain ⟨before, takenBinding, ⟨_, bound⟩, stops⟩ := gives.phrase third
  exact ⟨_, (expectName_ok named).cons ((expect_mark_ok second).cons takenBinding), .letTop bound,
    stops⟩

theorem lambdaForm_ok (gives : Gives nested) (read : lambdaForm nested start cursor = .ok tree after) :
    ∃ used, cursor.Takes used after ∧
      Phrase .table .primary (⟨.keyword .lambda, start⟩ :: used) tree := by
  obtain ⟨paren, middle, opened, read⟩ := bind_ok read
  obtain ⟨names, behind, named, read⟩ := bind_ok read
  obtain ⟨colon, beyond, third, read⟩ := bind_ok read
  obtain ⟨body, last, fourth, read⟩ := bind_ok read
  obtain ⟨close, end_, fifth, read⟩ := bind_ok read
  cases read
  obtain ⟨before, closing, takenNames, -, listed, distinct⟩ := params_ok named
  obtain ⟨used, takenBody, ⟨_, inner⟩, -⟩ := gives.phrase fourth
  have taken := (expect_mark_ok opened).cons (takenNames.trans ((expect_mark_ok third).cons
    (takenBody.trans (expect_keyword_ok fifth))))
  exact ⟨_, taken, .lambda listed distinct inner⟩

theorem functionForm_ok (gives : Gives nested)
    (read : functionForm nested true start cursor = .ok tree after) :
    ∃ used, cursor.Takes used after ∧ Item .table (⟨.keyword .function, start⟩ :: used) tree := by
  obtain ⟨⟨name, token⟩, first, named, read⟩ := bind_ok read
  obtain ⟨paren, middle, opened, read⟩ := bind_ok read
  obtain ⟨names, behind, listed, read⟩ := bind_ok read
  obtain ⟨colon, beyond, third, read⟩ := bind_ok read
  obtain ⟨body, last, fourth, read⟩ := bind_ok read
  obtain ⟨close, end_, fifth, read⟩ := bind_ok read
  cases read
  obtain ⟨before, closing, takenNames, -, listed, distinct⟩ := params_ok listed
  obtain ⟨used, takenBody, ⟨_, inner⟩, -⟩ := gives.phrase fourth
  have taken := (expectName_ok named).cons ((expect_mark_ok opened).cons (takenNames.trans
    ((expect_mark_ok third).cons (takenBody.trans (expect_keyword_ok fifth)))))
  exact ⟨_, taken, .function listed distinct inner⟩

theorem condForm_ok (gives : Gives nested) (read : condForm nested start cursor = .ok tree after) :
    ∃ used, cursor.Takes used after ∧
      Phrase .table .primary (⟨.keyword .if_, start⟩ :: used) tree := by
  obtain ⟨pair, middle, first, read⟩ := bind_ok read
  obtain ⟨count, _, counted, read⟩ := bind_ok read
  cases counted
  obtain ⟨branches, behind, chain, read⟩ := bind_ok read
  obtain ⟨else_, beyond, third, read⟩ := bind_ok read
  obtain ⟨colon, further, fourth, read⟩ := bind_ok read
  obtain ⟨otherwise, last, fifth, read⟩ := bind_ok read
  obtain ⟨close, end_, sixth, read⟩ := bind_ok read
  cases read
  obtain ⟨before, takenFirst, head⟩ := branch_ok gives first
  have each : GivesEach (fun _ => branch nested "elif condition") (fun _ => True)
      (Coloned (Shaped (Phrase .table)) (Shaped (Phrase .table))) := fun _ _ _ _ _ inner => by
    obtain ⟨used, taken, written⟩ := branch_ok gives inner
    exact ⟨used, taken, written, trivial⟩
  obtain ⟨others, more, takenRest, rfl, tail, -⟩ := chained_ok (fun _ => Token.eq_of_keyword) each _
    [pair] trivial chain
  obtain ⟨used, takenLast, ⟨_, inner⟩, -⟩ := gives.phrase fifth
  have taken := takenFirst.trans (takenRest.trans ((expect_keyword_ok third).cons
    ((expect_mark_ok fourth).cons (takenLast.trans (expect_keyword_ok sixth)))))
  exact ⟨_, taken, .cond (Phrase .table) (fun _ _ _ one => one) head tail inner⟩

theorem matchForm_ok (gives : Gives nested)
    (read : matchForm nested (pattern room) start cursor = .ok tree after) :
    ∃ used, cursor.Takes used after ∧
      Phrase .table .primary (⟨.keyword .match_, start⟩ :: used) tree := by
  obtain ⟨scrutinee, middle, first, read⟩ := bind_ok read
  obtain ⟨case_, behind, second, read⟩ := bind_ok read
  obtain ⟨pair, beyond, third, read⟩ := bind_ok read
  obtain ⟨count, _, counted, read⟩ := bind_ok read
  cases counted
  obtain ⟨arms, last, chain, read⟩ := bind_ok read
  obtain ⟨close, end_, fifth, read⟩ := bind_ok read
  cases read
  obtain ⟨used, takenSubject, ⟨_, subject⟩, -⟩ := gives.phrase first
  obtain ⟨before, takenFirst, head⟩ := arm_ok gives third
  have each : GivesEach (fun _ => arm nested (pattern room)) (fun _ => True)
      (Coloned Match (Shaped (Phrase .table))) := fun _ _ _ _ _ inner => by
    obtain ⟨used, taken, written⟩ := arm_ok gives inner
    exact ⟨used, taken, written, trivial⟩
  obtain ⟨others, more, takenRest, rfl, tail, -⟩ := chained_ok (fun _ => Token.eq_of_keyword) each _
    [pair] trivial chain
  have taken := takenSubject.trans ((expect_keyword_ok second).cons (takenFirst.trans
    (takenRest.trans (expect_keyword_ok fifth))))
  exact ⟨_, taken, .matching (Phrase .table) (fun _ _ _ one => one) subject head tail⟩

end

theorem variant_ok {done : List (String × List String)} {cursor after : Cursor}
    {one : String × List String} (read : variant done cursor = .ok one after) :
    ∃ used, cursor.Takes used after ∧ Variant used one ∧ one.1 ∉ done.map Prod.fst := by
  obtain ⟨⟨name, token⟩, middle, named, read⟩ := bind_ok read
  have named := expectName_ok named
  by_cases known : name ∈ done.map Prod.fst
  · simp only [if_pos known] at read
    cases read
  · simp only [if_neg known] at read
    rcases looking_ok read with ⟨paren, behind, opened, same, rest⟩ | bare
    · rw [Token.eq_of_mark same] at opened
      obtain ⟨names, last, listed, rest⟩ := bind_ok rest
      cases rest
      obtain ⟨used, close, taken, -, listed, distinct⟩ := params_ok listed
      exact ⟨_, named.cons (opened.cons taken), .fields listed distinct, known⟩
    · cases bare
      exact ⟨_, named, .bare, known⟩

theorem dataForm_ok {cursor after : Cursor} {tree : Expr} {start : Span}
    (read : dataForm true start cursor = .ok tree after) :
    ∃ used, cursor.Takes used after ∧ Item .table (⟨.keyword .data, start⟩ :: used) tree := by
  obtain ⟨⟨name, token⟩, middle, named, read⟩ := bind_ok read
  obtain ⟨equals, behind, second, read⟩ := bind_ok read
  obtain ⟨one, beyond, third, read⟩ := bind_ok read
  obtain ⟨count, _, counted, read⟩ := bind_ok read
  cases counted
  obtain ⟨variants, last, chain, read⟩ := bind_ok read
  cases read
  obtain ⟨before, takenFirst, head, -⟩ := variant_ok third
  have each : GivesEach variant (fun done => (done.map Prod.fst).Nodup) Variant :=
    fun done _ one _ distinct inner => by
      obtain ⟨used, taken, written, fresh⟩ := variant_ok inner
      exact ⟨used, taken, written, by simpa using List.Nodup.concat fresh distinct⟩
  obtain ⟨others, more, takenRest, rfl, tail, distinct⟩ := chained_ok (fun _ => Token.eq_of_operator)
    each _ [one] (by simp) chain
  have takenVariants := takenFirst.trans takenRest
  have taken := (expectName_ok named).cons ((expect_mark_ok second).cons takenVariants)
  refine ⟨_, taken, ?_⟩
  rw [takenVariants.last, (expect_mark_ok second).last]
  exact .dataType head tail distinct

section

variable {nested : Nat → Parse Expr} {room power : Nat} {cursor after : Cursor} {tree : Expr}

theorem opening_ok (gives : Gives nested) {token : Token} (low : power ≤ negationPower)
    (read : opening nested (pattern room) false token cursor = .ok tree after) :
    ∃ shape used, cursor.Takes used after ∧ Phrase .table shape (token :: used) tree ∧
      shape.Fits power ∧ shape.Ends after.rest := by
  have whole : Shape.primary.Fits power := Nat.lt_of_le_of_lt low (by decide)
  obtain ⟨lexeme, span⟩ := token
  cases lexeme with
  | number value =>
      cases read
      exact ⟨_, [], .nothing _, .number, whole, trivial⟩
  | truth value =>
      cases read
      exact ⟨_, [], .nothing _, .truth, whole, trivial⟩
  | name text =>
      cases read
      exact ⟨_, [], .nothing _, .var, whole, trivial⟩
  | mark sign =>
      cases sign with
      | leftParen =>
          obtain ⟨inner, middle, first, read⟩ := bind_ok read
          obtain ⟨close, behind, second, read⟩ := bind_ok read
          cases read
          obtain ⟨used, taken, ⟨_, phrase⟩, -⟩ := gives.phrase first
          exact ⟨_, _, taken.trans (expect_mark_ok second), .paren phrase, whole, trivial⟩
      | _ => cases read
  | operator operator =>
      cases operator with
      | sub =>
          obtain ⟨operand, middle, first, read⟩ := bind_ok read
          cases read
          obtain ⟨shape, used, taken, phrase, fits, stops⟩ :=
            gives negationPower _ _ _ (Nat.le_refl _) first
          exact ⟨_, used, taken, .negation phrase (Shape.fits_operand.2 fits), low, stops⟩
      | _ => cases read
  | keyword word =>
      cases word with
      | let_ =>
          obtain ⟨used, taken, phrase⟩ := letForm_inner_ok gives read
          exact ⟨_, used, taken, phrase, whole, trivial⟩
      | lambda =>
          obtain ⟨used, taken, phrase⟩ := lambdaForm_ok gives read
          exact ⟨_, used, taken, phrase, whole, trivial⟩
      | if_ =>
          obtain ⟨used, taken, phrase⟩ := condForm_ok gives read
          exact ⟨_, used, taken, phrase, whole, trivial⟩
      | match_ =>
          obtain ⟨used, taken, phrase⟩ := matchForm_ok gives read
          exact ⟨_, used, taken, phrase, whole, trivial⟩
      | _ => cases read

theorem arguments_ok (gives : Gives nested) {args : List Expr}
    (read : arguments nested cursor = .ok args after) :
    ∃ used, cursor.Takes used after ∧ Enclosed (Shaped (Phrase .table)) after.last used args := by
  have each : GivesEach (fun _ => nested 0) (fun _ => True) (Shaped (Phrase .table)) :=
    fun _ _ _ _ _ inner => by
      obtain ⟨used, taken, phrase, -⟩ := gives.phrase inner
      exact ⟨used, taken, phrase, trivial⟩
  obtain ⟨used, close, taken, rfl, listed, -⟩ := closed_ok each trivial read
  exact ⟨used, taken, listed⟩

/-- The loop keeps a phrase on its left that fits the power and has left the next token alone. -/
theorem continuing_ok (gives : Gives nested) (steps : Nat)
    {shape : Shape} {before : List Token} {left : Expr} (enough : cursor.rest.length ≤ steps)
    (phrase : Phrase .table shape before left) (fits : shape.Fits power)
    (ends : shape.Ends cursor.rest) (read : continuing nested power steps left cursor = .ok tree after) :
    ∃ shape used, cursor.Takes used after ∧ Phrase .table shape (before ++ used) tree ∧
      shape.Fits power ∧ Stops power after.rest := by
  induction steps generalizing shape before left cursor with
  | zero =>
      have none : cursor.rest = [] := List.eq_nil_of_length_eq_zero (Nat.le_zero.1 enough)
      cases read
      exact ⟨shape, [], .nothing _, by simpa using phrase, fits, none ▸ stops_nil power⟩
  | succ steps ih =>
      obtain ⟨rest, last⟩ := cursor
      rw [continuing, bind_of_ok (peek_apply _)] at read
      have stays : Stops power rest → (pure left : Parse Expr) ⟨rest, last⟩ = .ok tree after →
          ∃ shape used, (⟨rest, last⟩ : Cursor).Takes used after ∧
            Phrase .table shape (before ++ used) tree ∧ shape.Fits power ∧ Stops power after.rest := by
        intro stops same
        cases same
        exact ⟨shape, [], .nothing _, by simpa using phrase, fits, stops⟩
      -- A round takes the token it looked at and what goes with it, and leaves a longer phrase.
      have goesOn {token : Token} {used : List Token} {middle : Cursor} {grown : Expr} {longer : Shape}
          (taken : (⟨rest, last⟩ : Cursor).Takes (token :: used) middle)
          (whole : Phrase .table longer (before ++ token :: used) grown) (above : longer.Fits power)
          (apart : longer.Ends middle.rest)
          (read : continuing nested power steps grown middle = .ok tree after) :
          ∃ shape used, (⟨rest, last⟩ : Cursor).Takes used after ∧
            Phrase .table shape (before ++ used) tree ∧ shape.Fits power ∧ Stops power after.rest := by
        have shorter : middle.rest.length ≤ steps := by
          have length := taken.length
          rw [List.length_cons] at length
          omega
        obtain ⟨final, more, rest, phrase, fits, stops⟩ := ih shorter whole above apart read
        exact ⟨final, _, taken.trans rest, by simpa using phrase, fits, stops⟩
      cases rest with
      | nil => exact stays (stops_nil power) read
      | cons token rest =>
          obtain ⟨lexeme, span⟩ := token
          cases lexeme with
          | operator operator =>
              simp only [List.head?_cons, Option.map_some] at read
              by_cases weak : operator.power ≤ power
              · rw [if_pos weak] at read
                exact stays (by simpa [stops_cons, infixPower] using weak) read
              · rw [if_neg weak, bind_of_ok (next_cons ..)] at read
                obtain ⟨right, middle, second, read⟩ := bind_ok read
                obtain ⟨shape', used, taken, back, backFits, stops⟩ :=
                  gives _ _ _ _ (rightPower_le operator) second
                have whole : Phrase .table (.binary operator)
                    (before ++ ⟨.operator operator, span⟩ :: used)
                    (.binary (.text operator.symbol) left right (left.span.merge right.span)) :=
                  .binary phrase back (Shape.left_iff_ends.2 ends) (Shape.fits_right.2 backFits)
                exact goesOn (Cursor.Takes.cons ⟨rfl, rfl⟩ taken) whole (Nat.not_le.1 weak) stops read
          | mark sign =>
              cases sign with
              | leftParen =>
                  simp only [List.head?_cons, Option.map_some] at read
                  by_cases weak : callPower ≤ power
                  · rw [if_pos weak] at read
                    exact stays (by simpa [stops_cons, infixPower] using weak) read
                  · rw [if_neg weak, bind_of_ok (next_cons ..)] at read
                    obtain ⟨args, middle, listed, read⟩ := bind_ok read
                    rw [bind_of_ok (get_apply _)] at read
                    obtain ⟨used, taken, listed⟩ := arguments_ok gives listed
                    have whole : Phrase .table .call (before ++ ⟨.mark .leftParen, span⟩ :: used)
                        (.call left args (left.span.merge middle.last)) :=
                      .call (Phrase .table) (fun _ _ _ one => one) phrase
                        (Shape.callee_iff_ends.2 ends) listed
                    exact goesOn (Cursor.Takes.cons ⟨rfl, rfl⟩ taken) whole (Nat.not_le.1 weak) trivial
                      read
              | _ => exact stays (by simp [stops_cons, infixPower]) read
          | _ => exact stays (by simp [stops_cons, infixPower]) read

end

theorem expression_gives (room : Nat) : Gives (fun power => expression room power false) := by
  induction room with
  | zero =>
      intro power cursor tree after _ read
      cases read
  | succ room ih =>
      intro power cursor tree after low read
      obtain ⟨token, middle, first, read⟩ := bind_ok read
      obtain ⟨left, behind, opened, read⟩ := bind_ok read
      have first := next_ok first
      obtain ⟨shape, used, taken, phrase, fits, ends⟩ := opening_ok ih low opened
      obtain ⟨token', more, same, opens⟩ := phrase.opens
      obtain ⟨rfl, -⟩ := List.cons.inj same
      rw [if_neg (by simp [opens.2.1]), bind_of_ok (left_apply _)] at read
      obtain ⟨final, rest, takenRest, phrase, fits, stops⟩ :=
        continuing_ok ih _ (Nat.le_refl _) phrase fits ends read
      exact ⟨final, _, first.cons (taken.trans takenRest), phrase, fits, stops⟩

theorem expression_item {room : Nat} {cursor after : Cursor} {tree : Expr}
    (read : expression room 0 true cursor = .ok tree after) :
    ∃ token used, cursor.Takes (token :: used) after ∧ Item .table (token :: used) tree := by
  cases room with
  | zero => cases read
  | succ room =>
      obtain ⟨rest, last⟩ := cursor
      cases rest with
      | nil => cases read
      | cons token rest =>
          have gives := expression_gives room
          have first : (⟨token :: rest, last⟩ : Cursor).Takes [token] ⟨rest, token.span⟩ := ⟨rfl, rfl⟩
          by_cases plain : token.lexeme ≠ .keyword .let_ ∧ opensDeclaration token = false
          · rw [expression_top room 0 rest last plain.1 plain.2] at read
            obtain ⟨shape, used, taken, phrase, -⟩ :=
              expression_gives (room + 1) 0 _ _ _ (Nat.zero_le _) read
            obtain ⟨head, more, rfl, -⟩ := phrase.opens
            exact ⟨head, more, taken, .expression phrase⟩
          · rw [expression, bind_of_ok (next_cons ..)] at read
            obtain ⟨item, middle, opened, read⟩ := bind_ok read
            obtain ⟨lexeme, span⟩ := token
            cases lexeme with
            | keyword word =>
                cases word with
                | let_ =>
                    obtain ⟨used, taken, item, stops⟩ := letForm_top_ok gives opened
                    rw [if_neg (by simp [opensDeclaration, Token.kind, Lexeme.kind]),
                      bind_of_ok (left_apply _), continuing_stops _ _ _ _ stops] at read
                    cases read
                    exact ⟨_, used, first.cons taken, item⟩
                | function =>
                    obtain ⟨used, taken, item⟩ := functionForm_ok gives opened
                    cases read
                    exact ⟨_, used, first.cons taken, item⟩
                | data =>
                    obtain ⟨used, taken, item⟩ := dataForm_ok opened
                    cases read
                    exact ⟨_, used, first.cons taken, item⟩
                | _ => exact absurd ⟨by simp, rfl⟩ plain
            | _ => exact absurd ⟨by simp, rfl⟩ plain

theorem expression_letTop {room : Nat} {place last : Span} {rest : List Token} {after : Cursor}
    {tree : Expr}
    (read : expression room 0 true ⟨⟨.keyword .let_, place⟩ :: rest, last⟩ = .ok tree after) :
    ∃ name binding span, tree = .letTop name binding span := by
  cases room with
  | zero => cases read
  | succ room =>
      rw [expression, bind_of_ok (next_cons ..)] at read
      obtain ⟨item, middle, opened, read⟩ := bind_ok read
      have formed : letForm (fun power => expression room power false) true place ⟨rest, place⟩ =
          .ok item middle := opened
      obtain ⟨used, taken, _, stops⟩ := letForm_top_ok (expression_gives room) formed
      rw [if_neg (by simp [opensDeclaration, Token.kind, Lexeme.kind]),
        bind_of_ok (left_apply _), continuing_stops _ _ _ _ stops] at read
      cases read
      obtain ⟨⟨name, token⟩, _, _, formed⟩ := bind_ok formed
      obtain ⟨_, _, _, formed⟩ := bind_ok formed
      obtain ⟨binding, _, _, formed⟩ := bind_ok formed
      cases formed
      exact ⟨name, binding, _, rfl⟩

section

variable {room : Nat} (related : List Token → List Expr → Prop)

/-- What holds of no tokens, and in front of whatever an item was read from, holds of all the items that
are read. -/
theorem items_run (empty : related [] [])
    (step : ∀ {cursor middle tree more}, expression room 0 true cursor = .ok tree middle →
      related middle.rest more → related cursor.rest (tree :: more))
    (steps : Nat) (done : List Expr) {cursor after : Cursor} {program : List Expr}
    (enough : cursor.rest.length ≤ steps) (read : items room steps done cursor = .ok program after) :
    ∃ more, program = done ++ more ∧ related cursor.rest more := by
  induction steps generalizing done cursor with
  | zero =>
      have none : cursor.rest = [] := List.eq_nil_of_length_eq_zero (Nat.le_zero.1 enough)
      cases read
      exact ⟨[], by simp, none ▸ empty⟩
  | succ steps ih =>
      rw [items, bind_of_ok (peek_apply _)] at read
      by_cases none : cursor.rest.head?.isNone = true
      · have nothing : cursor.rest = [] := by simpa using none
        rw [if_pos none] at read
        cases read
        exact ⟨[], by simp, nothing ▸ empty⟩
      · rw [if_neg none] at read
        obtain ⟨item, middle, first, read⟩ := bind_ok read
        obtain ⟨token, used, taken, -⟩ := expression_item first
        have shorter : middle.rest.length ≤ steps := by
          have length := taken.length
          rw [List.length_cons] at length
          omega
        obtain ⟨more, same, others⟩ := ih _ shorter read
        exact ⟨item :: more, by simpa using same, step first others⟩

theorem parseTokens_run (empty : related [] [])
    (step : ∀ {cursor middle tree more}, expression room 0 true cursor = .ok tree middle →
      related middle.rest more → related cursor.rest (tree :: more))
    {tokens : List Token} {program : List Expr} (parsed : parseTokens room tokens = .ok program) :
    related tokens program := by
  cases read : Parse.program room (.ofTokens tokens) with
  | error refusal after =>
      rw [parseTokens, read] at parsed
      cases parsed
  | ok result after =>
      rw [parseTokens, read] at parsed
      cases parsed
      rw [Parse.program, bind_of_ok (left_apply _)] at read
      obtain ⟨more, rfl, held⟩ := items_run related empty step _ [] (Nat.le_refl _) read
      exact held

theorem program_ok {tokens : List Token} {program : List Expr}
    (parsed : parseTokens room tokens = .ok program) : Program .table tokens program := by
  refine parseTokens_run (Program .table) .empty ?_ parsed
  intro cursor middle tree more read others
  obtain ⟨token, used, taken, written⟩ := expression_item read
  rw [taken.rest]
  exact .more written others

end

end Parse

inductive SourceRead (room : Nat) (source : String) : Except SourceError (List Expr) → Prop
  | unscanned {error : ScanError} (scanned : tokenize source = .error error) :
      SourceRead room source (.error (.scan error))
  | program {tokens : List Token} {program : List Expr} (scanned : tokenize source = .ok tokens)
      (parsed : parseTokens room tokens = .ok program) : SourceRead room source (.ok program)
  | malformed {tokens : List Token} {error : ParseError} (scanned : tokenize source = .ok tokens)
      (refused : parseTokens room tokens = .error (.malformed error)) :
      SourceRead room source (.error (.parse error))
  | tooDeep {tokens : List Token} (scanned : tokenize source = .ok tokens)
      (refused : parseTokens room tokens = .error .tooDeep) : SourceRead room source (.error .tooDeep)
  | misused {tokens : List Token} {misuse : Misuse} (scanned : tokenize source = .ok tokens)
      (refused : parseTokens room tokens = .error (.misused misuse)) :
      SourceRead room source (.error (.misused misuse))

theorem parseSource_read (room : Nat) (source : String) :
    SourceRead room source (parseSource room source) := by
  unfold parseSource
  cases scanned : tokenize source with
  | error error => exact .unscanned scanned
  | ok tokens =>
      dsimp only
      cases read : parseTokens room tokens with
      | ok program => exact .program scanned read
      | error refusal =>
          cases refusal with
          | malformed error => exact .malformed scanned read
          | tooDeep => exact .tooDeep scanned read
          | misused misuse => exact .misused scanned read

theorem parseSource_ok {room : Nat} {source : String} {program : List Expr}
    (parsed : parseSource room source = .ok program) :
    ∃ tokens, tokenize source = .ok tokens ∧ parseTokens room tokens = .ok program := by
  have read := parseSource_read room source
  rw [parsed] at read
  cases read with
  | program scanned parsed => exact ⟨_, scanned, parsed⟩

/-- Reading is sound: a program that is read stands in the grammar for all the tokens in order, no
operand or callee stands bare against the powers of the operators, and its trees are such as can be
written. -/
theorem parseTokens_sound (room : Nat) (tokens : List Token) (program : List Expr)
    (parsed : parseTokens room tokens = .ok program) :
    Grammar.Program .free tokens program ∧ Grammar.Program .table tokens program ∧
      ∀ item ∈ program, Grammar.SurfaceItem item := by
  have written := Parse.program_ok parsed
  exact ⟨written.free, written, written.surface⟩

/-- The tokens of `data T = A(x) | B let y = -A(1)`. -/
def dataAndLet : List Token :=
  [⟨.keyword .data, .ofWidth 0 4⟩, ⟨.name "T", .ofWidth 5 1⟩, ⟨.mark .equals, .ofWidth 7 1⟩,
    ⟨.name "A", .ofWidth 9 1⟩, ⟨.mark .leftParen, .ofWidth 10 1⟩, ⟨.name "x", .ofWidth 11 1⟩,
    ⟨.mark .rightParen, .ofWidth 12 1⟩, ⟨.operator .bitOr, .ofWidth 14 1⟩, ⟨.name "B", .ofWidth 16 1⟩,
    ⟨.keyword .let_, .ofWidth 18 3⟩, ⟨.name "y", .ofWidth 22 1⟩, ⟨.mark .equals, .ofWidth 24 1⟩,
    ⟨.operator .sub, .ofWidth 26 1⟩, ⟨.name "A", .ofWidth 27 1⟩, ⟨.mark .leftParen, .ofWidth 28 1⟩,
    ⟨.number 1, .ofWidth 29 1⟩, ⟨.mark .rightParen, .ofWidth 30 1⟩]

theorem dataAndLet_sound : ∃ program, parseTokens 4 dataAndLet = .ok program ∧ program.length = 2 ∧
    Grammar.Program .table dataAndLet program ∧ ∀ item ∈ program, Grammar.SurfaceItem item := by
  obtain ⟨program, parsed, two⟩ :
      ∃ program, parseTokens 4 dataAndLet = .ok program ∧ program.length = 2 := ⟨_, rfl, rfl⟩
  exact ⟨program, parsed, two, (parseTokens_sound 4 dataAndLet program parsed).2⟩

end FernLang
