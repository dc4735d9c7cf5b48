import FernLang.Grammar.Expression

/-!
What single steps of reading do to a cursor. A step that succeeds takes some tokens from the front;
sequences of steps come apart into their steps, and each step is described by what it takes.
-/

namespace FernLang

def spanAfter (last : Span) : List Token → Span
  | [] => last
  | token :: tokens => spanAfter token.span tokens

@[simp] theorem spanAfter_nil (last : Span) : spanAfter last [] = last := rfl

@[simp] theorem spanAfter_cons (last : Span) (token : Token) (tokens : List Token) :
    spanAfter last (token :: tokens) = spanAfter token.span tokens := rfl

@[simp] theorem spanAfter_append (last : Span) (first second : List Token) :
    spanAfter last (first ++ second) = spanAfter (spanAfter last first) second := by
  induction first generalizing last with
  | nil => rfl
  | cons token tokens ih => exact ih token.span

namespace Cursor

/-- The second cursor is the first one after `used` was taken. -/
structure Takes (before : Cursor) (used : List Token) (after : Cursor) : Prop where
  rest : before.rest = used ++ after.rest
  last : after.last = spanAfter before.last used

namespace Takes

variable {before middle after : Cursor} {used more : List Token}

theorem nothing (cursor : Cursor) : cursor.Takes [] cursor := ⟨rfl, rfl⟩

theorem trans (first : before.Takes used middle) (second : middle.Takes more after) :
    before.Takes (used ++ more) after := by
  constructor
  · rw [first.rest, second.rest, List.append_assoc]
  · rw [second.last, first.last, spanAfter_append]

theorem cons {token : Token} (first : before.Takes [token] middle)
    (second : middle.Takes more after) : before.Takes (token :: more) after :=
  first.trans second

theorem length (taken : before.Takes used after) :
    before.rest.length = used.length + after.rest.length := by
  rw [taken.rest, List.length_append]

end Takes
end Cursor

namespace Parse

variable {α β : Type}

theorem bind_apply (first : Parse α) (next : α → Parse β) (cursor : Cursor) :
    (first >>= next) cursor = match first cursor with
      | .ok value after => next value after
      | .error refusal after => .error refusal after := by
  change EStateM.bind first next cursor = _
  unfold EStateM.bind
  cases first cursor <;> rfl

theorem map_apply (change : α → β) (read : Parse α) (cursor : Cursor) :
    (change <$> read) cursor = match read cursor with
      | .ok value after => .ok (change value) after
      | .error refusal after => .error refusal after := by
  change EStateM.map change read cursor = _
  unfold EStateM.map
  cases read cursor <;> rfl

@[simp] theorem pure_apply (value : α) (cursor : Cursor) :
    (pure value : Parse α) cursor = .ok value cursor := rfl

@[simp] theorem get_apply (cursor : Cursor) : (get : Parse Cursor) cursor = .ok cursor cursor := rfl

@[simp] theorem refuse_apply (complaint : Complaint) (span : Span) (cursor : Cursor) :
    (refuse complaint span : Parse α) cursor = .error (.malformed ⟨complaint, span⟩) cursor := rfl

@[simp] theorem peek_apply (cursor : Cursor) : peek cursor = .ok cursor.rest.head? cursor := by
  obtain ⟨rest, last⟩ := cursor
  cases rest <;> rfl

@[simp] theorem left_apply (cursor : Cursor) : left cursor = .ok cursor.rest.length cursor := rfl

@[simp] theorem looking_apply (kind : Kind) (cursor : Cursor) :
    looking kind cursor = .ok (cursor.rest.head?.any (·.kind == kind)) cursor := by
  obtain ⟨rest, last⟩ := cursor
  cases rest <;> rfl

@[simp] theorem next_cons (context : String) (token : Token) (tokens : List Token) (last : Span) :
    next context ⟨token :: tokens, last⟩ = .ok token ⟨tokens, token.span⟩ := rfl

@[simp] theorem next_nil (context : String) (last : Span) :
    next context ⟨[], last⟩ =
      .error (.malformed ⟨.ranOut context, .point last.stop⟩) ⟨[], last⟩ := rfl

theorem bind_of_ok {first : Parse α} {cursor after : Cursor} {value : α}
    (done : first cursor = .ok value after) (next : α → Parse β) :
    (first >>= next) cursor = next value after := by
  rw [bind_apply, done]

theorem bind_ok {first : Parse α} {next : α → Parse β} {cursor after : Cursor} {value : β}
    (done : (first >>= next) cursor = .ok value after) :
    ∃ between middle, first cursor = .ok between middle ∧ next between middle = .ok value after := by
  rw [bind_apply] at done
  cases outcome : first cursor with
  | ok between middle =>
      rw [outcome] at done
      exact ⟨between, middle, rfl, done⟩
  | error refusal middle =>
      rw [outcome] at done
      cases done

theorem next_ok {context : String} {cursor after : Cursor} {token : Token}
    (done : next context cursor = .ok token after) : cursor.Takes [token] after := by
  obtain ⟨rest, last⟩ := cursor
  cases rest with
  | nil => simp at done
  | cons head tail =>
      simp only [next_cons, EStateM.Result.ok.injEq] at done
      obtain ⟨rfl, rfl⟩ := done
      exact ⟨rfl, rfl⟩

theorem expect_ok {kind : Kind} {context : String} {cursor after : Cursor} {token : Token}
    (done : expect kind context cursor = .ok token after) :
    cursor.Takes [token] after ∧ token.kind = kind := by
  obtain ⟨found, middle, taken, tested⟩ := bind_ok done
  by_cases same : found.kind = kind
  · rw [if_pos same] at tested
    cases tested
    exact ⟨next_ok taken, same⟩
  · rw [if_neg same] at tested
    cases tested

theorem expectName_ok {context : String} {cursor after : Cursor} {name : String} {token : Token}
    (done : expectName context cursor = .ok (name, token) after) :
    cursor.Takes [⟨.name name, token.span⟩] after := by
  obtain ⟨⟨lexeme, span⟩, middle, taken, tested⟩ := bind_ok done
  cases lexeme with
  | name text =>
      cases tested
      exact next_ok taken
  | _ => cases tested

theorem expect_cons {kind : Kind} {token : Token} (same : token.kind = kind) (context : String)
    (tokens : List Token) (last : Span) :
    expect kind context ⟨token :: tokens, last⟩ = .ok token ⟨tokens, token.span⟩ := by
  rw [expect, bind_of_ok (next_cons ..), if_pos same, pure_apply]

@[simp] theorem expect_mark (sign : Mark) (context : String) (span last : Span)
    (tokens : List Token) :
    expect (.mark sign) context ⟨⟨.mark sign, span⟩ :: tokens, last⟩ =
      .ok ⟨.mark sign, span⟩ ⟨tokens, span⟩ :=
  expect_cons rfl context tokens last

@[simp] theorem expect_keyword (word : Keyword) (context : String) (span last : Span)
    (tokens : List Token) :
    expect (.keyword word) context ⟨⟨.keyword word, span⟩ :: tokens, last⟩ =
      .ok ⟨.keyword word, span⟩ ⟨tokens, span⟩ :=
  expect_cons rfl context tokens last

@[simp] theorem expectName_cons (context name : String) (span last : Span) (tokens : List Token) :
    expectName context ⟨⟨.name name, span⟩ :: tokens, last⟩ =
      .ok (name, ⟨.name name, span⟩) ⟨tokens, span⟩ := rfl

end Parse
end FernLang
