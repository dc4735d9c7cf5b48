import Mathlib
import FernLang.Proofs.Expr.Shift
import FernLang.Proofs.Grammar.Resumption
import FernLang.Proofs.Token.Laid

/-!
Reading one source behind another. What is read of some tokens is also read when they stand elsewhere in
the text and more tokens follow, with its spans moved along, as long as nothing goes on with the first
token that follows. Hence two sources that are programs, joined by the end of a line, are the two
programs one after the other.
-/

namespace FernLang

def Cursor.carried (offset : Int) (more : List Token) (cursor : Cursor) : Cursor :=
  ⟨cursor.rest.map (Token.shift offset) ++ more, cursor.last.shift offset⟩

namespace Parse

open Grammar
open FernLang.Expr (Shifted ShiftedBranch ShiftedArm)

variable {α β σ : Type}

/-- Kinds that nothing goes on with: no operator, no parenthesis, and no word that a further branch or
case begins with. -/
def fresh : Kind → Prop
  | .operator _ | .mark .leftParen | .mark .rightParen | .keyword .elif | .keyword .case => False
  | _ => True

/-- What the first way reads of some tokens, the second one reads when they are moved and `more` follows;
the values correspond. -/
def Carries (offset : Int) (more : List Token) (same : α → α → Prop) (read moved : Parse α) : Prop :=
  ∀ cursor value after, read cursor = .ok value after →
    ∃ image, same value image ∧ moved (cursor.carried offset more) = .ok image (after.carried offset more)

section

variable {offset : Int} {more : List Token}

section

variable {same : α → α → Prop} {related : β → β → Prop}

theorem carries_pure {value image : α} (held : same value image) :
    Carries offset more same (pure value) (pure image) := by
  intro cursor result after read
  cases read
  exact ⟨image, held, rfl⟩

theorem carries_refuse (complaint : Complaint) (span : Span) (moved : Parse α) :
    Carries offset more same (refuse complaint span) moved := by
  intro cursor value after read
  cases read

theorem carries_tooDeep (moved : Parse α) : Carries offset more same (throw .tooDeep) moved := by
  intro cursor value after read
  cases read

theorem Carries.bind {first moved : Parse α} {next other : α → Parse β}
    (early : Carries offset more same first moved)
    (late : ∀ value image, same value image → Carries offset more related (next value) (other image)) :
    Carries offset more related (first >>= next) (moved >>= other) := by
  intro cursor value after read
  obtain ⟨between, middle, first, second⟩ := bind_ok read
  obtain ⟨image, held, firstMoved⟩ := early cursor between middle first
  obtain ⟨result, related, secondMoved⟩ := late between image held middle value after second
  exact ⟨result, related, by rw [bind_of_ok firstMoved, secondMoved]⟩

def below (size : Nat) (read : Parse α) : Parse α := fun cursor =>
  if cursor.rest.length < size then read cursor else .error .tooDeep cursor

theorem Counts.carries {loop : Nat → σ → Parse α} {round : (σ → Parse α) → σ → Parse α}
    (counts : Counts loop round) {kept : σ → σ → Prop}
    (step : ∀ later moved : σ → Parse α,
      (∀ state image, kept state image → Carries offset more same (later state) (moved image)) →
        ∀ state image, kept state image →
          Carries offset more same (round later state) (round moved image))
    {state image : σ} (held : kept state image) :
    Carries offset more same (running loop state) (running loop image) := by
  intro cursor
  induction length : cursor.rest.length using Nat.strongRecOn generalizing cursor state image with
  | ind size ih =>
      -- The rounds after this one see fewer tokens, and nothing need be said of them elsewhere.
      have shorter : round (running loop) state cursor =
          round (fun state => below size (running loop state)) state cursor := by
        apply counts.shorter
        intro next after less
        exact (if_pos (length ▸ less)).symm
      rw [counts.running_eq state, counts.running_eq image, shorter]
      refine step _ (running loop) ?_ state image held cursor
      intro state image held cursor value after read
      rw [below] at read
      split at read
      · rename_i less
        exact ih _ less held cursor rfl value after read
      · cases read

theorem Carries.running_bind {loop : Nat → σ → Parse α} {state image : σ} {next other : α → Parse β}
    (early : Carries offset more same (running loop state) (running loop image))
    (late : ∀ value image, same value image → Carries offset more related (next value) (other image)) :
    Carries offset more related (left >>= fun steps => loop steps state >>= next)
      (left >>= fun steps => loop steps image >>= other) := by
  rw [← bind_assoc, ← bind_assoc]
  exact early.bind late

end

theorem carries_next (context : String) :
    Carries offset more (fun token moved => moved = token.shift offset) (next context) (next context) := by
  rintro ⟨rest, last⟩ token after read
  cases rest with
  | nil => cases read
  | cons head rest =>
      cases read
      exact ⟨token.shift offset, rfl, rfl⟩

theorem carries_get :
    Carries offset more (fun cursor moved => moved = cursor.carried offset more) get get := by
  intro cursor value after read
  cases read
  exact ⟨cursor.carried offset more, rfl, rfl⟩

theorem carries_expect (kind : Kind) (context : String) :
    Carries offset more (fun token moved => moved = token.shift offset) (expect kind context)
      (expect kind context) := by
  apply (carries_next context).bind
  rintro token _ rfl
  rw [Token.shift_kind]
  split
  · exact carries_pure rfl
  · exact carries_refuse _ _ _

theorem carries_expectName (context : String) :
    Carries offset more (fun found moved => moved = (found.1, found.2.shift offset)) (expectName context)
      (expectName context) := by
  apply (carries_next context).bind
  rintro ⟨lexeme, span⟩ _ rfl
  cases lexeme with
  | name text => exact carries_pure rfl
  | _ => exact carries_refuse _ _ _

/-! Looking at the next token. At the end of the tokens, it is the first one of those that follow. -/

section

variable (apart : Begins fresh more)
include apart

theorem carries_peek {same : α → α → Prop} {next other : Option Token → Parse α}
    (atEnd : Carries offset more same (next none) (other none))
    (ended : ∀ token : Token, fresh token.kind → other (some token) = other none)
    (each : ∀ token, Carries offset more same (next (some token)) (other (some (token.shift offset)))) :
    Carries offset more same (peek >>= next) (peek >>= other) := by
  rintro ⟨rest, last⟩ value after read
  rw [bind_of_ok (peek_apply _)] at read ⊢
  cases rest with
  | nil =>
      obtain ⟨image, held, moved⟩ := atEnd _ value after read
      refine ⟨image, held, ?_⟩
      cases following : more with
      | nil => rwa [following] at moved
      | cons token rest =>
          have opens : fresh token.kind := apart token (by rw [following]; rfl)
          rw [following] at moved
          exact (congrFun (ended token opens) _).trans moved
  | cons token rest => exact each token _ value after read

theorem carries_looking {kind : Kind} (closed : ¬fresh kind) :
    Carries offset more Eq (looking kind) (looking kind) := by
  apply carries_peek apart
  · exact carries_pure rfl
  · intro token opens
    have other : (token.kind == kind) = false := by
      rw [beq_eq_false_iff_ne]
      rintro rfl
      exact closed opens
    simp [other]
  · intro token
    exact carries_pure rfl

section

variable {same : α → α → Prop} {item : List α → Parse α}
  (each : ∀ done image, List.Forall₂ same done image →
    Carries offset more same (item done) (item image))
include each

omit apart in
theorem carries_separated (context : String) {steps wide : Nat} (enough : steps ≤ wide)
    {done image : List α} (held : List.Forall₂ same done image) :
    Carries offset more (List.Forall₂ same) (separated context item steps done)
      (separated context item wide image) := by
  induction steps generalizing wide done image with
  | zero => exact carries_tooDeep _
  | succ steps ih =>
      obtain ⟨wide, rfl⟩ := Nat.exists_eq_add_of_le' (Nat.lt_of_lt_of_le (Nat.succ_pos steps) enough)
      apply (each done image held).bind
      intro one other here
      have all : List.Forall₂ same (done ++ [one]) (image ++ [other]) :=
        List.rel_append held (.cons here .nil)
      apply (carries_next context).bind
      rintro ⟨lexeme, span⟩ _ rfl
      cases lexeme with
      | mark sign =>
          cases sign with
          | rightParen => exact carries_pure all
          | comma => exact ih (Nat.le_of_succ_le_succ enough) all
          | _ => exact carries_refuse _ _ _
      | _ => exact carries_refuse _ _ _

theorem carries_closed (context : String) :
    Carries offset more (List.Forall₂ same) (closed context item) (closed context item) := by
  apply (carries_looking apart (by simp [fresh])).bind
  rintro seen _ rfl
  split
  · apply (carries_next context).bind
    intro _ _ _
    exact carries_pure .nil
  · intro cursor items after read
    have enough : cursor.rest.length + 1 ≤ (cursor.carried offset more).rest.length + 1 := by
      simp [Cursor.carried]
    exact carries_separated each context enough .nil cursor items after read

theorem carries_chained {kind : Kind} (closed : ¬fresh kind) (context : String)
    (shrinks : ∀ done, Shrinks (item done)) {done image : List α}
    (held : List.Forall₂ same done image) :
    Carries offset more (List.Forall₂ same) (running (chained kind context item) done)
      (running (chained kind context item) image) := by
  refine (chained_counts shrinks).carries ?_ held
  intro later moved ih done image held
  apply (carries_looking apart closed).bind
  rintro seen _ rfl
  split
  · apply (carries_next context).bind
    intro _ _ _
    apply (each done image held).bind
    intro one other here
    exact ih _ _ (List.rel_append held (.cons here .nil))
  · exact carries_pure held

end

theorem carries_params (context : String) : Carries offset more Eq (params context) (params context) := by
  rw [← List.forall₂_eq_eq_eq]
  apply carries_closed apart
  rw [List.forall₂_eq_eq_eq]
  rintro done _ rfl
  apply (carries_expectName context).bind
  rintro ⟨name, token⟩ _ rfl
  dsimp only
  split
  · exact carries_refuse _ _ _
  · exact carries_pure rfl

theorem carries_pattern (room : Nat) : Carries offset more Eq (pattern room) (pattern room) := by
  induction room with
  | zero => exact carries_tooDeep _
  | succ room ih =>
      unfold pattern
      apply (carries_next _).bind
      rintro ⟨lexeme, span⟩ _ rfl
      cases lexeme with
      | number value => exact carries_pure rfl
      | truth value => exact carries_pure rfl
      | operator sign =>
          cases sign with
          | sub =>
              apply (carries_next _).bind
              rintro ⟨lexeme, span⟩ _ rfl
              cases lexeme with
              | number value => exact carries_pure rfl
              | _ => exact carries_refuse _ _ _
          | _ => exact carries_refuse _ _ _
      | name name =>
          apply (carries_looking apart (by simp [fresh])).bind
          rintro seen _ rfl
          split
          · apply (carries_next _).bind
            intro _ _ _
            apply (carries_closed apart (fun _ _ _ => ih) _).bind
            rw [List.forall₂_eq_eq_eq]
            rintro fields _ rfl
            exact carries_pure rfl
          · exact carries_pure rfl
      | _ => exact carries_refuse _ _ _

theorem carries_variant (done : List (String × List String)) :
    Carries offset more Eq (variant done) (variant done) := by
  apply (carries_expectName _).bind
  rintro ⟨name, token⟩ _ rfl
  dsimp only
  split
  · exact carries_refuse _ _ _
  · apply (carries_looking apart (by simp [fresh])).bind
    rintro seen _ rfl
    split
    · apply (carries_next _).bind
      intro _ _ _
      apply (carries_params apart _).bind
      rintro fields _ rfl
      exact carries_pure rfl
    · exact carries_pure rfl

theorem carries_dataForm (top : Bool) (start : Span) :
    Carries offset more (Shifted offset) (dataForm top start) (dataForm top (start.shift offset)) := by
  have each (done image : List (String × List String)) (held : List.Forall₂ Eq done image) :
      Carries offset more Eq (variant done) (variant image) := by
    rw [List.forall₂_eq_eq_eq] at held
    exact held ▸ carries_variant apart done
  unfold dataForm
  split
  · exact carries_refuse _ _ _
  · apply (carries_expectName _).bind
    rintro ⟨name, token⟩ _ rfl
    apply (carries_expect _ _).bind
    intro _ _ _
    apply (carries_variant apart _).bind
    rintro first _ rfl
    apply (carries_chained apart each (by simp [fresh]) _ shrinks_variant (.cons rfl .nil)).running_bind
    rw [List.forall₂_eq_eq_eq]
    rintro variants _ rfl
    apply carries_get.bind
    rintro cursor _ rfl
    refine carries_pure (.of_node ?_ (by simp))
    rw [Expr.shift, Cursor.carried, Span.merge_shift]

/-! Forms that hold other expressions, given that those are carried. -/

section

variable {nested : Nat → Parse Expr} (gives : Gives nested)
  (inner : ∀ power, Carries offset more (Shifted offset) (nested power) (nested power))
include inner

omit apart in
theorem carries_branch (context : String) :
    Carries offset more (ShiftedBranch offset) (branch nested context) (branch nested context) := by
  apply (inner 0).bind
  intro condition _ first
  apply (carries_expect _ _).bind
  intro _ _ _
  apply (inner 0).bind
  intro body _ second
  exact carries_pure ⟨first, second⟩

theorem carries_arm (room : Nat) :
    Carries offset more (ShiftedArm offset) (arm nested (pattern room)) (arm nested (pattern room)) := by
  apply (carries_pattern apart room).bind
  rintro shape _ rfl
  apply (carries_expect _ _).bind
  intro _ _ _
  apply (inner 0).bind
  intro body _ here
  exact carries_pure ⟨rfl, here⟩

theorem carries_arguments :
    Carries offset more (List.Forall₂ (Shifted offset)) (arguments nested) (arguments nested) :=
  carries_closed apart (fun _ _ _ => inner 0) _

omit apart in
theorem carries_letForm (top : Bool) (start : Span) :
    Carries offset more (Shifted offset) (letForm nested top start)
      (letForm nested top (start.shift offset)) := by
  apply (carries_expectName _).bind
  rintro ⟨name, token⟩ _ rfl
  apply (carries_expect _ _).bind
  intro _ _ _
  apply (inner 0).bind
  intro binding bindingMoved first
  split
  · refine carries_pure (.of_node ?_ (by simp))
    rw [Expr.shift, first.span, Span.merge_shift, first.same]
  · apply (inner 0).bind
    intro body bodyMoved second
    apply (carries_expect _ _).bind
    rintro close _ rfl
    refine carries_pure (.of_node ?_ (by simp))
    rw [Expr.shift, Token.shift_span, Span.merge_shift, first.same, second.same]

theorem carries_lambdaForm (start : Span) :
    Carries offset more (Shifted offset) (lambdaForm nested start)
      (lambdaForm nested (start.shift offset)) := by
  apply (carries_expect _ _).bind
  intro _ _ _
  apply (carries_params apart _).bind
  rintro names _ rfl
  apply (carries_expect _ _).bind
  intro _ _ _
  apply (inner 0).bind
  intro body bodyMoved here
  apply (carries_expect _ _).bind
  rintro close _ rfl
  refine carries_pure (.of_node ?_ (by simp))
  rw [Expr.shift, Token.shift_span, Span.merge_shift, here.same]

theorem carries_functionForm (top : Bool) (start : Span) :
    Carries offset more (Shifted offset) (functionForm nested top start)
      (functionForm nested top (start.shift offset)) := by
  unfold functionForm
  split
  · exact carries_refuse _ _ _
  · apply (carries_expectName _).bind
    rintro ⟨name, token⟩ _ rfl
    apply (carries_expect _ _).bind
    intro _ _ _
    apply (carries_params apart _).bind
    rintro names _ rfl
    apply (carries_expect _ _).bind
    intro _ _ _
    apply (inner 0).bind
    intro body bodyMoved here
    apply (carries_expect _ _).bind
    rintro close _ rfl
    refine carries_pure (.of_node ?_ (by simp))
    rw [Expr.shift, Token.shift_span, Span.merge_shift, here.same]

include gives

theorem carries_condForm (start : Span) :
    Carries offset more (Shifted offset) (condForm nested start)
      (condForm nested (start.shift offset)) := by
  apply (carries_branch inner _).bind
  intro first firstMoved here
  apply (carries_chained apart (fun _ _ _ => carries_branch inner _) (by simp [fresh]) _
    (fun _ => gives.shrinks_branch _) (.cons here .nil)).running_bind
  intro branches branchesMoved all
  apply (carries_expect _ _).bind
  intro _ _ _
  apply (carries_expect _ _).bind
  intro _ _ _
  apply (inner 0).bind
  intro otherwise otherwiseMoved last
  apply (carries_expect _ _).bind
  rintro close _ rfl
  refine carries_pure (.of_node ?_ (by simp))
  rw [Expr.shift, Token.shift_span, Span.merge_shift, last.same, Expr.shiftBranches_of_shifted all]

theorem carries_matchForm (room : Nat) (start : Span) :
    Carries offset more (Shifted offset) (matchForm nested (pattern room) start)
      (matchForm nested (pattern room) (start.shift offset)) := by
  apply (inner 0).bind
  intro scrutinee scrutineeMoved early
  apply (carries_expect _ _).bind
  intro _ _ _
  apply (carries_arm apart inner room).bind
  intro first firstMoved here
  apply (carries_chained apart (fun _ _ _ => carries_arm apart inner room) (by simp [fresh]) _
    (fun _ => gives.shrinks_arm room) (.cons here .nil)).running_bind
  intro arms armsMoved all
  apply (carries_expect _ _).bind
  rintro close _ rfl
  refine carries_pure (.of_node ?_ (by simp))
  rw [Expr.shift, Token.shift_span, Span.merge_shift, early.same, Expr.shiftArms_of_shifted all]

theorem carries_opening (room : Nat) (top : Bool) (token : Token) :
    Carries offset more (Shifted offset) (opening nested (pattern room) top token)
      (opening nested (pattern room) top (token.shift offset)) := by
  obtain ⟨lexeme, span⟩ := token
  cases lexeme with
  | number value => exact carries_pure (.of_node rfl (by simp))
  | truth value => exact carries_pure (.of_node rfl (by simp))
  | name name => exact carries_pure (.of_node rfl (by simp))
  | mark sign =>
      cases sign with
      | leftParen =>
          apply (inner 0).bind
          intro tree treeMoved here
          apply (carries_expect _ _).bind
          intro _ _ _
          exact carries_pure here
      | _ => exact carries_refuse _ _ _
  | operator sign =>
      cases sign with
      | sub =>
          apply (inner negationPower).bind
          intro operand operandMoved here
          refine carries_pure (.of_node ?_ (by simp))
          rw [Expr.shift, Expr.shift, here.span, Token.shift_span, Span.merge_shift, here.same]
      | _ => exact carries_refuse _ _ _
  | keyword word =>
      cases word with
      | let_ => exact carries_letForm inner top span
      | lambda => exact carries_lambdaForm apart inner span
      | function => exact carries_functionForm apart inner top span
      | if_ => exact carries_condForm apart gives inner span
      | data => exact carries_dataForm apart top span
      | match_ => exact carries_matchForm apart gives inner room span
      | _ => exact carries_refuse _ _ _

theorem carries_continuing (power : Nat) {left image : Expr} (held : Shifted offset left image) :
    Carries offset more (Shifted offset) (running (continuing nested power) left)
      (running (continuing nested power) image) := by
  refine (continuing_counts gives).carries ?_ held
  intro later moved ih left image held
  apply carries_peek apart
  · exact carries_pure held
  · rintro ⟨lexeme, span⟩ opens
    cases lexeme with
    | operator sign => cases opens
    | mark sign =>
        cases sign with
        | leftParen => cases opens
        | _ => rfl
    | _ => rfl
  · rintro ⟨lexeme, span⟩
    cases lexeme with
    | operator sign =>
        dsimp only [Option.map_some, Token.shift_lexeme]
        split
        · exact carries_pure held
        · apply (carries_next _).bind
          intro _ _ _
          apply (inner _).bind
          intro right rightMoved second
          refine ih _ _ (.of_node ?_ (by simp))
          rw [Expr.shift, held.span, second.span, Span.merge_shift, held.same, second.same]
    | mark sign =>
        cases sign with
        | leftParen =>
            dsimp only [Option.map_some, Token.shift_lexeme]
            split
            · exact carries_pure held
            · apply (carries_next _).bind
              intro _ _ _
              apply (carries_arguments apart inner).bind
              intro args argsMoved all
              apply carries_get.bind
              rintro cursor _ rfl
              refine ih _ _ (.of_node ?_ (by simp))
              rw [Expr.shift, Cursor.carried, held.span, Span.merge_shift, held.same,
                Expr.shiftAll_of_shifted all]
        | _ => exact carries_pure held
    | _ => exact carries_pure held

end

theorem carries_expression (room power : Nat) (top : Bool) :
    Carries offset more (Shifted offset) (expression room power top) (expression room power top) := by
  induction room generalizing power top with
  | zero => exact carries_tooDeep _
  | succ room ih =>
      have gives := expression_gives room
      apply (carries_next _).bind
      rintro token _ rfl
      apply (carries_opening apart gives (fun power => ih power false) room top token).bind
      intro first firstMoved held
      change Carries offset more _ _ (if opensDeclaration token = true then _ else _)
      split
      · exact carries_pure held
      · exact carries_continuing apart gives (fun power => ih power false) power held

end
end

/-! Items, one after the other. -/

/-- An item begins with its first token, so the one before it does not matter. -/
theorem expression_last {room power : Nat} {top : Bool} {cursor after : Cursor} {tree : Expr}
    (read : expression room power top cursor = .ok tree after) (last : Span) :
    expression room power top ⟨cursor.rest, last⟩ = .ok tree after ∧ cursor.rest ≠ [] := by
  cases room with
  | zero => cases read
  | succ room =>
      obtain ⟨rest, place⟩ := cursor
      cases rest with
      | nil => cases read
      | cons token rest => exact ⟨read, List.cons_ne_nil _ _⟩

variable {room : Nat}

theorem items_carried (offset : Int) {more : List Token} (apart : Begins fresh more)
    {tokens : List Token} {program : List Expr} (parsed : parseTokens room tokens = .ok program)
    (done : List Expr) (last : Span) :
    ∃ place, running (items room) done ⟨tokens.map (Token.shift offset) ++ more, last⟩ =
      running (items room) (done ++ program.map (Expr.shift offset)) ⟨more, place⟩ := by
  refine parseTokens_run (fun tokens program => ∀ done last, ∃ place,
    running (items room) done ⟨tokens.map (Token.shift offset) ++ more, last⟩ =
      running (items room) (done ++ program.map (Expr.shift offset)) ⟨more, place⟩) ?_ ?_ parsed done last
  · intro done last
    exact ⟨last, by rw [List.map_nil, List.map_nil, List.append_nil, List.nil_append]⟩
  · intro cursor middle tree program read others done last
    obtain ⟨image, held, moved⟩ := carries_expression apart room 0 true cursor tree middle read
    obtain ⟨item, some⟩ := expression_last moved last
    have goesOn : ¬(cursor.carried offset more).rest.head?.isNone = true := by simpa using some
    obtain ⟨place, later⟩ := others (done ++ [image]) (middle.last.shift offset)
    refine ⟨place, ?_⟩
    change running (items room) done ⟨(cursor.carried offset more).rest, last⟩ = _
    rw [(items_counts room).running_eq, itemsRound, bind_of_ok (peek_apply _), if_neg goesOn,
      bind_of_ok item, List.map_cons, ← held.same]
    rw [List.append_assoc] at later
    exact later

def detached (kind : Kind) : Prop := kind ≠ .operator .sub ∧ kind ≠ .mark .leftParen

/-- The first token of a program that is no minus and no parenthesis is none that something goes on with. -/
theorem begins_fresh {tokens : List Token} {program : List Expr}
    (parsed : parseTokens room tokens = .ok program)
    (plain : Begins detached tokens) :
    Begins fresh tokens := by
  refine parseTokens_run (fun tokens _ => Begins detached tokens → Begins fresh tokens) ?_ ?_ parsed plain
  · intro _
    exact begins_nil fresh
  · rintro ⟨rest, last⟩ middle tree program read _ plain ⟨lexeme, span⟩ member
    obtain ⟨rest, rfl⟩ := List.head?_eq_some_iff.1 member
    obtain ⟨minus, paren⟩ := plain _ member
    cases room with
    | zero => cases read
    | succ room =>
        rw [expression, bind_of_ok (next_cons ..)] at read
        obtain ⟨item, after, opened, -⟩ := bind_ok read
        cases lexeme with
        | operator sign =>
            cases sign with
            | sub => exact absurd rfl minus
            | _ => cases opened
        | mark sign =>
            cases sign with
            | leftParen => exact absurd rfl paren
            | _ => cases opened
        | keyword word =>
            cases word with
            | elif | case => cases opened
            | _ => trivial
        | _ => trivial

theorem parseTokens_joined (offset : Int) {tokens others : List Token} {first second : List Expr}
    (front : parseTokens room tokens = .ok first) (back : parseTokens room others = .ok second)
    (plain : Begins detached others) :
    parseTokens room (tokens ++ others.map (Token.shift offset)) =
      .ok (first ++ second.map (Expr.shift offset)) := by
  have apart : Begins fresh (others.map (Token.shift offset)) := by
    intro token member
    rw [List.head?_map] at member
    obtain ⟨origin, found, rfl⟩ := Option.mem_map.1 member
    exact begins_fresh back plain origin found
  obtain ⟨place, early⟩ := items_carried 0 apart front [] .origin
  obtain ⟨last, late⟩ := items_carried offset (begins_nil fresh) back first place
  have still : tokens.map (Token.shift 0) = tokens := by
    rw [funext Token.shift_zero, List.map_id']
  have unmoved : first.map (Expr.shift 0) = first := by
    rw [funext Expr.shift_zero, List.map_id']
  rw [still, unmoved, List.nil_append] at early
  rw [List.append_nil] at late
  have read : program room (.ofTokens (tokens ++ others.map (Token.shift offset))) =
      .ok (first ++ second.map (Expr.shift offset)) ⟨[], last⟩ := early.trans late
  rw [parseTokens, read]

end Parse

/-! Texts, one behind the other. -/

namespace Scan

variable {start : Nat} {gap text rest : List Char} {tokens : List Token}

theorem Longest.append {lexeme : Lexeme} {back : List Char} (longest : Longest text rest)
    (spelled : Spells lexeme text) (loose : ∀ c ∈ back.head?, ¬Solid c) :
    Longest text (rest ++ back) := by
  intro more some starts terminal
  rcases List.prefix_or_prefix_of_prefix starts (List.prefix_append rest back) with inside | ⟨beyond, rfl⟩
  · exact longest more some inside terminal
  · have starts : beyond <+: back := (List.prefix_append_right_inj rest).1 starts
    cases beyond with
    | nil => exact longest _ some (by rw [List.append_nil]) terminal
    | cons c beyond =>
        obtain ⟨last, rfl⟩ := starts
        exact loose c rfl (spelled.all_solid terminal c (by simp))

theorem Trailing.line (trailing : Trailing gap) : Layout (gap ++ ['\n']) := by
  have newline : Layout ['\n'] := .blank rfl .nil
  cases trailing with
  | layout all => exact all.append newline
  | comment front line =>
      rw [List.append_assoc]
      exact front.append (.comment line .nil)

theorem Laid.behind (layout : Layout gap) (laid : Laid (start + gap.length) text tokens) :
    Laid start (gap ++ text) tokens := by
  cases laid with
  | done trailing => exact .done (layout.append_trailing trailing)
  | @token _ inner text rest lexeme tokens innerLayout spelled fits longest others =>
      have all : Laid start ((gap ++ inner) ++ (text ++ rest)) _ :=
        .token (layout.append innerLayout) spelled fits longest
          (by rwa [List.length_append, ← Nat.add_assoc])
      rwa [List.append_assoc, List.length_append, ← Nat.add_assoc] at all

theorem Laid.join {back : List Char} {more : List Token} (first : Laid start text tokens)
    (second : Laid (start + (text.length + 1)) back more) :
    Laid start (text ++ '\n' :: back) (tokens ++ more) := by
  induction first with
  | @done start gap trailing =>
      rw [List.append_cons]
      refine Laid.behind trailing.line ?_
      rwa [List.length_append]
  | @token start gap text rest lexeme tokens layout spelled fits longest others ih =>
      have loose : ∀ c ∈ ('\n' :: back).head?, ¬Solid c := by
        rintro _ ⟨⟩ solid
        cases solid.1
      rw [List.append_assoc, List.append_assoc]
      refine .token layout spelled fits (longest.append spelled loose) (ih ?_)
      rw [List.length_append, List.length_append] at second
      convert second using 1
      omega

theorem Laid.moved (laid : Laid start text tokens) (other : Nat) :
    Laid other text (tokens.map (Token.shift (other - start))) := by
  induction laid generalizing other with
  | done trailing => exact .done trailing
  | @token start gap text rest lexeme tokens layout spelled fits longest others ih =>
      have distance : ((other + gap.length + text.length : Nat) : Int) -
          (start + gap.length + text.length : Nat) = other - start := by omega
      have rest := ih (other + gap.length + text.length)
      rw [distance] at rest
      rw [List.map_cons, Token.shift, Span.shift_ofWidth]
      exact .token layout spelled fits longest rest

end Scan

theorem tokenize_joined {first second : String} {tokens others : List Token}
    (front : tokenize first = .ok tokens) (back : tokenize second = .ok others) :
    tokenize (first ++ "\n" ++ second) =
      .ok (tokens ++ others.map (Token.shift (first.length + 1 : Nat))) := by
  have early : Scan.Laid 0 first.toList tokens := Scan.laid_of_scanned front
  have late : Scan.Laid 0 second.toList others := Scan.laid_of_scanned back
  have moved := late.moved (0 + (first.length + 1))
  rw [Nat.zero_add, Nat.cast_zero, Int.sub_zero] at moved
  rw [← String.length_toList] at moved ⊢
  have whole := early.join (by rwa [Nat.zero_add])
  have text : (first ++ "\n" ++ second).toList = first.toList ++ '\n' :: second.toList := by
    rw [String.toList_append, String.toList_append, List.append_assoc]
    rfl
  rw [tokenize, text]
  exact whole.scanned

/-- Two sources that are programs, joined by the end of a line, are the two programs one after the other,
the spans of the second one moved behind the first; unless the second source begins with a minus or a
parenthesis, with which the last expression of the first one could go on. -/
theorem parseSource_joined (room : Nat) (first second : String) {front back : List Expr}
    (parsed : parseSource room first = .ok front) (others : parseSource room second = .ok back)
    (plain : ∀ tokens, tokenize second = .ok tokens → ∀ token ∈ tokens.head?,
      token.kind ≠ .operator .sub ∧ token.kind ≠ .mark .leftParen) :
    parseSource room (first ++ "\n" ++ second) =
      .ok (front ++ back.map (Expr.shift (first.length + 1 : Nat))) := by
  obtain ⟨early, scanned, read⟩ := parseSource_ok parsed
  obtain ⟨late, scannedLate, readLate⟩ := parseSource_ok others
  have joined := Parse.parseTokens_joined (first.length + 1 : Nat) read readLate (plain late scannedLate)
  rw [parseSource, tokenize_joined scanned scannedLate]
  dsimp only
  rw [joined]

theorem variantAndChoice_joined :
    parseSource nestingLimit ("data t = a # |" ++ "\n" ++ "if x: y else: -1 end") =
      .ok [ .dataType "t" [("a", [])] (.ofWidth 0 10),
        .cond [(.var "x" (.ofWidth 18 1), .var "y" (.ofWidth 21 1))]
          (.binary (.text "-") (.number 0 (.ofWidth 29 1)) (.number 1 (.ofWidth 30 1)) (.ofWidth 29 2))
          (.ofWidth 15 20)] := by
  have variant : parseSource nestingLimit "data t = a # |" =
      .ok [ .dataType "t" [("a", [])] (.ofWidth 0 10)] := by cbv
  have choice : parseSource nestingLimit "if x: y else: -1 end" =
      .ok [ .cond [(.var "x" (.ofWidth 3 1), .var "y" (.ofWidth 6 1))]
        (.binary (.text "-") (.number 0 (.ofWidth 14 1)) (.number 1 (.ofWidth 15 1)) (.ofWidth 14 2))
        (.ofWidth 0 20)] := by cbv
  have tokens : tokenize "if x: y else: -1 end" =
      .ok [⟨.keyword .if_, .ofWidth 0 2⟩, ⟨.name "x", .ofWidth 3 1⟩, ⟨.mark .colon, .ofWidth 4 1⟩,
        ⟨.name "y", .ofWidth 6 1⟩, ⟨.keyword .else_, .ofWidth 8 4⟩, ⟨.mark .colon, .ofWidth 12 1⟩,
        ⟨.operator .sub, .ofWidth 14 1⟩, ⟨.number 1, .ofWidth 15 1⟩,
        ⟨.keyword .end_, .ofWidth 17 3⟩] := by cbv
  refine parseSource_joined nestingLimit "data t = a # |" "if x: y else: -1 end" variant choice ?_
  intro found scanned token member
  rw [tokens] at scanned
  cases scanned
  cases member
  exact ⟨by decide, by decide⟩

end FernLang
