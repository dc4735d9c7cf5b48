import FernLang.Expr.Alike
import FernLang.Proofs.Grammar.Soundness

/-!
Reading what is written. Tokens that stand for a tree in the grammar, with parentheses left out only
where the powers of the operators allow it, are read back as that tree, whatever follows them that
does not go on from it. The argument goes along the rules of the grammar: after the tokens of a
phrase the reader stands in the loop that looks for operators and calls, with the tree of the phrase
on its left.
-/

namespace FernLang
namespace Parse

open Grammar

section

variable {α : Type} {part : List Token → α → Prop} {keep : List α → Prop} {context : String}
  {item : List α → Parse α} {tokens : List Token} {items : List α} {close : Span}

/-- Every part is read as an item where `follow` holds of what comes next, as long as the items read
so far may be kept with it. -/
def ReadsEach (item : List α → Parse α) (keep : List α → Prop) (follow : List Token → Prop)
    (part : List Token → α → Prop) : Prop :=
  ∀ inner one, part inner one → ∀ done rest last, keep (done ++ [one]) → follow rest →
    item done ⟨inner ++ rest, last⟩ = .ok one ⟨rest, spanAfter last inner⟩

def Within (room : Nat) (part : List Token → α → Prop) (inner : List Token) (one : α) : Prop :=
  part inner one ∧ inner.length ≤ room

theorem stops_rightParen (power : Nat) (place : Span) (rest : List Token) :
    Stops power (⟨.mark .rightParen, place⟩ :: rest) := by
  simp [stops_cons, infixPower]

theorem stops_comma (power : Nat) (place : Span) (rest : List Token) :
    Stops power (⟨.mark .comma, place⟩ :: rest) := by
  simp [stops_cons, infixPower]

theorem stops_colon (power : Nat) (place : Span) (rest : List Token) :
    Stops power (⟨.mark .colon, place⟩ :: rest) := by
  simp [stops_cons, infixPower]

theorem stops_keyword (power : Nat) (word : Keyword) (place : Span) (rest : List Token) :
    Stops power (⟨.keyword word, place⟩ :: rest) := by
  simp [stops_cons, infixPower]

theorem separated_listed (reads : ReadsEach item keep (Stops 0) part)
    (shorter : ∀ front back, keep (front ++ back) → keep front)
    (all : Listed part close tokens items) (steps : Nat) (done : List α) (rest : List Token)
    (last : Span) (enough : items.length ≤ steps) (kept : keep (done ++ items)) :
    separated context item steps done ⟨tokens ++ rest, last⟩ =
      .ok (done ++ items) ⟨rest, close⟩ := by
  induction all generalizing steps done last with
  | @last tokens one written =>
      obtain ⟨steps, rfl⟩ : ∃ more, steps = more + 1 := ⟨steps - 1, by simp at enough; omega⟩
      have read := reads _ _ written done (⟨.mark .rightParen, close⟩ :: rest) last kept
        (stops_rightParen 0 _ _)
      simp only [separated, List.append_assoc, List.singleton_append, bind_of_ok read,
        bind_of_ok (next_cons ..), pure_apply]
  | @more tokens others one items comma written _ ih =>
      obtain ⟨steps, rfl⟩ : ∃ more, steps = more + 1 := ⟨steps - 1, by simp at enough; omega⟩
      have split : done ++ one :: items = (done ++ [one]) ++ items := by simp
      have read := reads _ _ written done (⟨.mark .comma, comma⟩ :: (others ++ rest)) last
        (shorter _ _ (split ▸ kept)) (stops_comma 0 _ _)
      simp only [separated, List.append_assoc, List.cons_append, bind_of_ok read,
        bind_of_ok (next_cons ..)]
      rw [split]
      exact ih steps _ _ (by simpa using enough) (split ▸ kept)

theorem closed_enclosed (keep : List α → Prop) (reads : ReadsEach item keep (Stops 0) part)
    (shorter : ∀ front back, keep (front ++ back) → keep front)
    (opens : ∀ inner one, part inner one →
      ∃ token more, inner = token :: more ∧ token.kind ≠ .mark .rightParen)
    (all : Enclosed part close tokens items) (kept : keep items) (rest : List Token) (last : Span) :
    closed context item ⟨tokens ++ rest, last⟩ = .ok items ⟨rest, close⟩ := by
  cases all with
  | empty =>
      have looks : looking (.mark .rightParen) ⟨⟨.mark .rightParen, close⟩ :: rest, last⟩ =
          .ok true ⟨⟨.mark .rightParen, close⟩ :: rest, last⟩ := rfl
      rw [List.singleton_append, closed, bind_of_ok looks, if_pos rfl, bind_of_ok (next_cons ..),
        pure_apply]
  | listed all =>
      have head : ∃ token more, tokens = token :: more ∧ token.kind ≠ .mark .rightParen := by
        cases all with
        | last written =>
            obtain ⟨token, more, rfl, other⟩ := opens _ _ written
            exact ⟨token, _, rfl, other⟩
        | more written _ =>
            obtain ⟨token, more, rfl, other⟩ := opens _ _ written
            exact ⟨token, _, rfl, other⟩
      have looks : looking (.mark .rightParen) ⟨tokens ++ rest, last⟩ =
          .ok false ⟨tokens ++ rest, last⟩ := by
        obtain ⟨token, more, rfl, other⟩ := head
        simp [other]
      have bound := all.length_le
      rw [closed, bind_of_ok looks, if_neg (by decide), bind_of_ok (left_apply _)]
      exact separated_listed reads shorter all _ [] rest last
        (by simp only [List.length_append]; omega) kept

theorem chained_chain (kind : Kind) (context : String) {opener : Lexeme} {follow : List Token → Prop}
    (reads : ReadsEach item keep follow part)
    (shorter : ∀ front back, keep (front ++ back) → keep front) (same : opener.kind = kind)
    (goesOn : ∀ place more, follow (⟨opener, place⟩ :: more)) {rest : List Token}
    (follows : follow rest) (other : ∀ token ∈ rest.head?, token.kind ≠ kind)
    (all : Chained opener part tokens items) (steps : Nat) (done : List α) (last : Span)
    (enough : items.length ≤ steps) (kept : keep (done ++ items)) :
    chained kind context item steps done ⟨tokens ++ rest, last⟩ =
      .ok (done ++ items) ⟨rest, spanAfter last tokens⟩ := by
  induction all generalizing steps done last with
  | none =>
      cases steps with
      | zero => simp [chained]
      | succ steps =>
          have looks : rest.head?.any (·.kind == kind) = false := by
            cases rest with
            | nil => rfl
            | cons token more => simpa using other token
          simp [chained, bind_apply, looks]
  | @more tokens others one items start written chain ih =>
      obtain ⟨steps, rfl⟩ : ∃ more, steps = more + 1 := ⟨steps - 1, by simp at enough; omega⟩
      have split : done ++ one :: items = (done ++ [one]) ++ items := by simp
      have next : follow (others ++ rest) := by
        cases chain with
        | none => exact follows
        | more => exact goesOn _ _
      have read := reads _ _ written done (others ++ rest) start (shorter _ _ (split ▸ kept)) next
      have looks : looking kind ⟨⟨opener, start⟩ :: (tokens ++ (others ++ rest)), last⟩ =
          .ok true ⟨⟨opener, start⟩ :: (tokens ++ (others ++ rest)), last⟩ := by
        simp [Token.kind, same]
      simp only [chained, List.cons_append, List.append_assoc, bind_of_ok looks, if_true,
        bind_of_ok (next_cons ..), bind_of_ok read]
      rw [split, spanAfter_cons, spanAfter_append]
      exact ih steps _ _ (by simpa using enough) (split ▸ kept)

end

theorem params_enclosed {context : String} {tokens : List Token} {names : List String}
    {close : Span} (listed : Enclosed Named close tokens names) (distinct : names.Nodup)
    (rest : List Token) (last : Span) :
    params context ⟨tokens ++ rest, last⟩ = .ok names ⟨rest, close⟩ := by
  refine closed_enclosed List.Nodup ?_ ?_ ?_ listed distinct rest last
  · rintro _ _ ⟨⟩ done rest last fresh _
    have absent : ¬ (_ ∈ done) := fun member => by
      have := List.nodup_append.1 fresh
      exact this.2.2 _ member _ (List.mem_singleton_self _) rfl
    simp [bind_apply, absent]
  · intro front back distinct
    exact (List.nodup_append.1 distinct).1
  · rintro _ _ ⟨⟩
    exact ⟨_, _, rfl, by simp [Token.kind, Lexeme.kind]⟩

theorem pattern_match {tokens : List Token} {shape : Pattern} (written : Match tokens shape)
    (room : Nat) (rest : List Token) (last : Span) (enough : tokens.length ≤ room)
    (stops : Stops 0 rest) :
    pattern room ⟨tokens ++ rest, last⟩ = .ok shape ⟨rest, spanAfter last tokens⟩ := by
  induction written generalizing room rest last with
  | var =>
      obtain ⟨room, rfl⟩ : ∃ more, room = more + 1 := ⟨room - 1, by simp at enough; omega⟩
      have other : rest.head?.any (·.kind == .mark .leftParen) = false := by
        cases rest with
        | nil => rfl
        | cons token more =>
            obtain ⟨lexeme, span⟩ := token
            cases lexeme with
            | mark sign =>
                cases sign with
                | leftParen => exact absurd (stops_cons.1 stops callPower rfl) (by decide)
                | _ => rfl
            | _ => rfl
      simp [pattern, bind_apply, other]
  | @data tag place opening close tokens fields part each listed ih =>
      obtain ⟨room, rfl⟩ : ∃ more, room = more + 1 := ⟨room - 1, by simp at enough; omega⟩
      have inside : Enclosed (Within room part) close tokens fields :=
        listed.mono fun inner field short one => ⟨one, by simp at enough; omega⟩
      have read : closed "data pattern" (fun _ => pattern room) ⟨tokens ++ rest, opening⟩ =
          .ok fields ⟨rest, close⟩ :=
        closed_enclosed (fun _ => True)
          (fun inner field one done rest last _ stops => ih inner field one.1 room rest last one.2 stops)
          (fun _ _ _ => trivial) (fun inner field one => (each inner field one.1).opens) inside
          trivial rest opening
      simp [pattern, bind_apply, map_apply, Token.kind, Lexeme.kind, read, listed.spanAfter]
  | _ =>
      obtain ⟨room, rfl⟩ : ∃ more, room = more + 1 := ⟨room - 1, by simp at enough; omega⟩
      simp [pattern, bind_apply]

/-- After these tokens the reader looks for operators and calls, with the tree on its left. -/
def Reading (shape : Shape) (tokens : List Token) (tree : Expr) : Prop :=
  ∀ room power rest last, tokens.length ≤ room + 1 → shape.Fits power → shape.Ends rest →
    ∃ steps, rest.length ≤ steps ∧
      expression (room + 1) power false ⟨tokens ++ rest, last⟩ =
        continuing (fun power => expression room power false) power steps tree
          ⟨rest, spanAfter last tokens⟩

section

variable {shape : Shape} {tokens : List Token} {tree : Expr}

theorem Reading.whole (reading : Reading shape tokens tree) (phrase : Phrase .table shape tokens tree)
    {room power : Nat} (enough : tokens.length ≤ room) (fits : shape.Fits power) {rest : List Token}
    (stops : Stops power rest) (last : Span) :
    expression room power false ⟨tokens ++ rest, last⟩ = .ok tree ⟨rest, spanAfter last tokens⟩ := by
  obtain ⟨token, more, rfl, -⟩ := phrase.opens
  obtain ⟨room, rfl⟩ : ∃ less, room = less + 1 := ⟨room - 1, by simp at enough; omega⟩
  obtain ⟨steps, -, same⟩ := reading room power rest last enough fits
    (Shape.ends_of_fits fits stops)
  rw [same, continuing_stops _ _ _ _ stops]

theorem reading_opening {token : Token} (plain : opensDeclaration token = false)
    (opened : ∀ room rest, tokens.length ≤ room → shape.Ends rest →
      opening (fun power => expression room power false) (pattern room) false token
        ⟨tokens ++ rest, token.span⟩ = .ok tree ⟨rest, spanAfter token.span tokens⟩) :
    Reading shape (token :: tokens) tree := by
  intro room power rest last enough _ ends
  have read := opened room rest (Nat.le_of_succ_le_succ enough) ends
  refine ⟨rest.length, Nat.le_refl _, ?_⟩
  rw [expression, List.cons_append, bind_of_ok (next_cons ..), bind_of_ok read, if_neg (by simp [plain]),
    bind_of_ok (left_apply _)]
  rfl

theorem reading_paren {start close : Span} (phrase : Phrase .table shape tokens tree)
    (reading : Reading shape tokens tree) :
    Reading .primary (⟨.mark .leftParen, start⟩ :: (tokens ++ [⟨.mark .rightParen, close⟩])) tree := by
  refine reading_opening rfl fun room rest enough _ => ?_
  have inside : tokens.length ≤ room := by simp at enough; omega
  have read := reading.whole phrase inside shape.fits_zero
    (stops_rightParen 0 close rest) start
  simp only [opening, List.append_assoc, List.singleton_append]
  rw [bind_of_ok read, bind_of_ok (expect_mark ..), spanAfter_append]
  rfl

theorem reading_negation {start : Span} (phrase : Phrase .table shape tokens tree)
    (reading : Reading shape tokens tree) (fits : Discipline.table.operand shape) :
    Reading .negation (⟨.operator .sub, start⟩ :: tokens)
      (.binary (.text Operator.sub.symbol) (.number 0 start) tree (start.merge tree.span)) := by
  refine reading_opening rfl fun room rest enough ends => ?_
  have read := reading.whole phrase enough (Shape.fits_operand.1 fits) ends start
  simp only [opening]
  rw [bind_of_ok read]
  rfl

theorem reading_letIn {first second : Shape} {before after : List Token} {name : String}
    {binding body : Expr} {start place equals close : Span}
    (boundPhrase : Phrase .table first before binding) (bound : Reading first before binding)
    (innerPhrase : Phrase .table second after body) (inner : Reading second after body)
    (apart : Discipline.table.body after) :
    Reading .primary
      (⟨.keyword .let_, start⟩ :: ⟨.name name, place⟩ :: ⟨.mark .equals, equals⟩ ::
        (before ++ (after ++ [⟨.keyword .end_, close⟩])))
      (.letIn name binding body (start.merge close)) := by
  refine reading_opening rfl fun room rest enough _ => ?_
  have lengths : before.length ≤ room ∧ after.length ≤ room := by simp at enough; omega
  have readBinding := bound.whole boundPhrase lengths.1 first.fits_zero
    (innerPhrase.stops_body apart (⟨.keyword .end_, close⟩ :: rest)) equals
  have readBody := inner.whole innerPhrase lengths.2 second.fits_zero
    (stops_keyword 0 .end_ close rest) (spanAfter equals before)
  simp only [opening, letForm, List.cons_append, List.append_assoc, List.nil_append]
  rw [bind_of_ok (expectName_cons ..), bind_of_ok (expect_mark ..), bind_of_ok readBinding,
    if_neg (by decide), bind_of_ok readBody, bind_of_ok (expect_keyword ..)]
  simp

theorem reading_lambda {names : List Token} {params : List String}
    {start opening closing colon close : Span} (listed : Enclosed Named closing names params)
    (distinct : params.Nodup) (phrase : Phrase .table shape tokens tree)
    (reading : Reading shape tokens tree) :
    Reading .primary
      (⟨.keyword .lambda, start⟩ :: ⟨.mark .leftParen, opening⟩ ::
        (names ++ ⟨.mark .colon, colon⟩ :: (tokens ++ [⟨.keyword .end_, close⟩])))
      (.lambda params tree (start.merge close)) := by
  refine reading_opening rfl fun room rest enough _ => ?_
  have inside : tokens.length ≤ room := by simp at enough; omega
  have readBody := reading.whole phrase inside shape.fits_zero
    (stops_keyword 0 .end_ close rest) colon
  simp only [Parse.opening, lambdaForm, List.cons_append, List.append_assoc, List.nil_append]
  rw [bind_of_ok (expect_mark ..), bind_of_ok (params_enclosed listed distinct _ _),
    bind_of_ok (expect_mark ..), bind_of_ok readBody, bind_of_ok (expect_keyword ..)]
  simp

end

def ReadsWhole (nested : Nat → Parse Expr) (part : List Token → Expr → Prop) : Prop :=
  ∀ inner tree, part inner tree → ∀ rest last, Stops 0 rest →
    nested 0 ⟨inner ++ rest, last⟩ = .ok tree ⟨rest, spanAfter last inner⟩

theorem readsWhole_parts {part : Shape → List Token → Expr → Prop}
    (each : ∀ shape inner tree, part shape inner tree → Phrase .table shape inner tree)
    (reading : ∀ shape inner tree, part shape inner tree → Reading shape inner tree) (room : Nat) :
    ReadsWhole (fun power => expression room power false) (Within room (Shaped part)) := by
  rintro inner tree ⟨⟨shape, one⟩, enough⟩ rest last stops
  exact (reading shape inner tree one).whole (each shape inner tree one) enough shape.fits_zero stops
    last

theorem branch_coloned {nested : Nat → Parse Expr} {part : List Token → Expr → Prop}
    (reads : ReadsWhole nested part) {tokens : List Token} {pair : Expr × Expr}
    (written : Coloned part part tokens pair) (context : String) (rest : List Token) (last : Span)
    (stops : Stops 0 rest) :
    branch nested context ⟨tokens ++ rest, last⟩ = .ok pair ⟨rest, spanAfter last tokens⟩ := by
  cases written with
  | @pair before after condition body colon head tail =>
      have readCondition := reads _ _ head (⟨.mark .colon, colon⟩ :: (after ++ rest)) last
        (stops_colon 0 _ _)
      have readBody := reads _ _ tail rest colon stops
      simp only [branch, List.append_assoc, List.cons_append]
      rw [bind_of_ok readCondition, bind_of_ok (expect_mark ..), bind_of_ok readBody, pure_apply,
        spanAfter_append, spanAfter_cons]

theorem arm_coloned {nested : Nat → Parse Expr} {room : Nat} {part : List Token → Expr → Prop}
    (reads : ReadsWhole nested part) {tokens : List Token} {pair : Pattern × Expr}
    (written : Coloned (Within room Match) part tokens pair)
    (rest : List Token) (last : Span) (stops : Stops 0 rest) :
    arm nested (pattern room) ⟨tokens ++ rest, last⟩ = .ok pair ⟨rest, spanAfter last tokens⟩ := by
  cases written with
  | @pair before after shape body colon head tail =>
      have readPattern := pattern_match head.1 room (⟨.mark .colon, colon⟩ :: (after ++ rest)) last
        head.2 (stops_colon 0 _ _)
      have readBody := reads _ _ tail rest colon stops
      simp only [arm, List.append_assoc, List.cons_append]
      rw [bind_of_ok readPattern, bind_of_ok (expect_mark ..), bind_of_ok readBody, pure_apply,
        spanAfter_append, spanAfter_cons]

theorem stops_chained {α : Type} {part : List Token → α → Prop} {word : Keyword}
    {tokens rest : List Token} {items : List α} (all : Chained (.keyword word) part tokens items)
    (stops : Stops 0 rest) : Stops 0 (tokens ++ rest) := by
  cases all with
  | none => exact stops
  | more => exact stops_keyword 0 word _ _

section

variable {shape : Shape} {first rest tokens : List Token} {tree : Expr}
  {part : Shape → List Token → Expr → Prop}

theorem reading_cond {pair : Expr × Expr} {branches : List (Expr × Expr)}
    {start else_ colon close : Span}
    (each : ∀ shape inner tree, part shape inner tree → Phrase .table shape inner tree)
    (parts : ∀ shape inner tree, part shape inner tree → Reading shape inner tree)
    (head : Coloned (Shaped part) (Shaped part) first pair)
    (tail : Chained (.keyword .elif) (Coloned (Shaped part) (Shaped part)) rest branches)
    (phrase : Phrase .table shape tokens tree) (reading : Reading shape tokens tree) :
    Reading .primary
      (⟨.keyword .if_, start⟩ :: (first ++ (rest ++ ⟨.keyword .else_, else_⟩ ::
        ⟨.mark .colon, colon⟩ :: (tokens ++ [⟨.keyword .end_, close⟩]))))
      (.cond (pair :: branches) tree (start.merge close)) := by
  refine reading_opening rfl fun room after enough _ => ?_
  have lengths : first.length ≤ room ∧ rest.length ≤ room ∧ tokens.length ≤ room := by
    simp at enough
    omega
  have reads := readsWhole_parts each parts room
  have head' : Coloned (Within room (Shaped part)) (Within room (Shaped part)) first pair :=
    head.mono (fun _ _ short one => ⟨one, by omega⟩) (fun _ _ short one => ⟨one, by omega⟩)
  have tail' : Chained (.keyword .elif)
      (Coloned (Within room (Shaped part)) (Within room (Shaped part))) rest branches :=
    tail.mono fun _ _ short one => one.mono (fun _ _ shorter one => ⟨one, by omega⟩)
      (fun _ _ shorter one => ⟨one, by omega⟩)
  have stops := stops_keyword 0 .else_ else_
    (⟨.mark .colon, colon⟩ :: (tokens ++ ⟨.keyword .end_, close⟩ :: after))
  have readFirst := branch_coloned reads head' "if condition" _ start (stops_chained tail stops)
  have readRest := chained_chain (.keyword .elif) "elif"
    (fun _ _ one _ rest last _ stops => branch_coloned reads one "elif condition" rest last stops)
    (fun _ _ (_ : True) => trivial) rfl (fun _ _ => stops_keyword 0 _ _ _) stops
    (by simp [Token.kind, Lexeme.kind]) tail'
  have bound := tail.length_le
  have readLast := reading.whole phrase lengths.2.2 shape.fits_zero
    (stops_keyword 0 .end_ close after) colon
  simp only [Parse.opening, condForm, List.append_assoc, List.cons_append, List.nil_append]
  rw [bind_of_ok readFirst, bind_of_ok (left_apply _),
    bind_of_ok (readRest _ [pair] _ (by simp only [List.length_append]; omega) trivial),
    bind_of_ok (expect_keyword ..), bind_of_ok (expect_mark ..), bind_of_ok readLast,
    bind_of_ok (expect_keyword ..)]
  simp

theorem reading_matching {pair : Pattern × Expr} {arms : List (Pattern × Expr)}
    {start case_ close : Span}
    (each : ∀ shape inner tree, part shape inner tree → Phrase .table shape inner tree)
    (parts : ∀ shape inner tree, part shape inner tree → Reading shape inner tree)
    (phrase : Phrase .table shape tokens tree) (reading : Reading shape tokens tree)
    (head : Coloned Match (Shaped part) first pair)
    (tail : Chained (.keyword .case) (Coloned Match (Shaped part)) rest arms) :
    Reading .primary
      (⟨.keyword .match_, start⟩ :: (tokens ++ ⟨.keyword .case, case_⟩ ::
        (first ++ (rest ++ [⟨.keyword .end_, close⟩]))))
      (.matching tree (pair :: arms) (start.merge close)) := by
  refine reading_opening rfl fun room after enough _ => ?_
  have lengths : first.length ≤ room ∧ rest.length ≤ room ∧ tokens.length ≤ room := by
    simp at enough
    omega
  have reads := readsWhole_parts each parts room
  have head' : Coloned (Within room Match) (Within room (Shaped part)) first pair :=
    head.mono (fun _ _ short one => ⟨one, by omega⟩) (fun _ _ short one => ⟨one, by omega⟩)
  have tail' : Chained (.keyword .case)
      (Coloned (Within room Match) (Within room (Shaped part))) rest arms :=
    tail.mono fun _ _ short one => one.mono (fun _ _ shorter one => ⟨one, by omega⟩)
      (fun _ _ shorter one => ⟨one, by omega⟩)
  have stops := stops_keyword 0 .end_ close after
  have readSubject := reading.whole phrase lengths.2.2 shape.fits_zero
    (stops_keyword 0 .case case_ (first ++ (rest ++ ⟨.keyword .end_, close⟩ :: after))) start
  have readFirst := arm_coloned reads head' _ case_ (stops_chained tail stops)
  have readRest := chained_chain (.keyword .case) "match expression"
    (fun _ _ one _ rest last _ stops => arm_coloned reads one rest last stops)
    (fun _ _ (_ : True) => trivial) rfl (fun _ _ => stops_keyword 0 _ _ _) stops
    (by simp [Token.kind, Lexeme.kind]) tail'
  have bound := tail.length_le
  simp only [Parse.opening, matchForm, List.append_assoc, List.cons_append, List.nil_append]
  rw [bind_of_ok readSubject, bind_of_ok (expect_keyword ..), bind_of_ok readFirst,
    bind_of_ok (left_apply _),
    bind_of_ok (readRest _ [pair] _ (by simp only [List.length_append]; omega) trivial),
    bind_of_ok (expect_keyword ..)]
  simp

theorem reading_binary {first second : Shape} {before after : List Token} {left right : Expr}
    {operator : Operator} {place : Span} (front : Reading first before left)
    (backPhrase : Phrase .table second after right)
    (back : Reading second after right) (leftFits : Discipline.table.left operator first)
    (rightFits : Discipline.table.right operator second) :
    Reading (.binary operator) (before ++ ⟨.operator operator, place⟩ :: after)
      (.binary (.text operator.symbol) left right (left.span.merge right.span)) := by
  intro room power rest last enough fits ends
  have lengths : before.length ≤ room + 1 ∧ after.length ≤ room := by
    simp at enough
    omega
  obtain ⟨steps, bound, same⟩ := front room power (⟨.operator operator, place⟩ :: (after ++ rest))
    last lengths.1 (Shape.fits_left leftFits fits) (Shape.left_iff_ends.1 leftFits)
  obtain ⟨steps, rfl⟩ : ∃ less, steps = less + 1 := ⟨steps - 1, by simp at bound; omega⟩
  have above : ¬operator.power ≤ power := Nat.not_le.2 fits
  have readRight := back.whole backPhrase lengths.2 (Shape.fits_right.1 rightFits) ends place
  refine ⟨steps, by simp at bound; omega, ?_⟩
  rw [List.append_assoc, List.cons_append, same, continuing, bind_of_ok (peek_apply _)]
  simp only [List.head?_cons, Option.map_some, if_neg above]
  rw [bind_of_ok (next_cons ..), bind_of_ok readRight, spanAfter_append, spanAfter_cons]

theorem reading_call {before after : List Token} {callee : Expr} {args : List Expr}
    {start close : Span}
    (each : ∀ shape inner tree, part shape inner tree → Phrase .table shape inner tree)
    (parts : ∀ shape inner tree, part shape inner tree → Reading shape inner tree)
    (reading : Reading shape before callee)
    (fits : Discipline.table.callee shape) (listed : Enclosed (Shaped part) close after args) :
    Reading .call (before ++ ⟨.mark .leftParen, start⟩ :: after)
      (.call callee args (callee.span.merge close)) := by
  intro room power rest last enough below ends
  have lengths : before.length ≤ room + 1 ∧ after.length ≤ room := by
    simp at enough
    omega
  have tighter : shape.Fits power := by
    rcases fits with rfl | rfl
    · exact below
    · exact Nat.lt_succ_of_lt below
  obtain ⟨steps, bound, same⟩ := reading room power (⟨.mark .leftParen, start⟩ :: (after ++ rest))
    last lengths.1 tighter (Shape.callee_iff_ends.1 fits)
  obtain ⟨steps, rfl⟩ : ∃ less, steps = less + 1 := ⟨steps - 1, by simp at bound; omega⟩
  have above : ¬callPower ≤ power := Nat.not_le.2 below
  have reads := readsWhole_parts each parts room
  have listed' : Enclosed (Within room (Shaped part)) close after args :=
    listed.mono fun _ _ short one => ⟨one, by omega⟩
  have readArgs : arguments (fun power => expression room power false) ⟨after ++ rest, start⟩ =
      .ok args ⟨rest, close⟩ := by
    refine closed_enclosed (fun _ => True) (fun _ _ one _ rest last _ stops =>
      reads _ _ one rest last stops) (fun _ _ _ => trivial) ?_ listed' trivial rest start
    rintro inner tree ⟨⟨shape, one⟩, -⟩
    obtain ⟨token, more, same, opens⟩ := (each shape inner tree one).opens
    exact ⟨token, more, same, opens.1⟩
  refine ⟨steps, by simp at bound; omega, ?_⟩
  rw [List.append_assoc, List.cons_append, same, continuing, bind_of_ok (peek_apply _)]
  simp only [List.head?_cons, Option.map_some, if_neg above]
  rw [bind_of_ok (next_cons ..), bind_of_ok readArgs, bind_of_ok (get_apply _), spanAfter_append,
    spanAfter_cons, listed.spanAfter]

end

theorem phrase_reading {shape : Shape} {tokens : List Token} {tree : Expr}
    (phrase : Phrase .table shape tokens tree) : Reading shape tokens tree := by
  induction phrase with
  | number => exact reading_opening rfl fun _ _ _ _ => rfl
  | truth => exact reading_opening rfl fun _ _ _ _ => rfl
  | var => exact reading_opening rfl fun _ _ _ _ => rfl
  | paren inner ih => exact reading_paren inner ih
  | negation inner fits ih => exact reading_negation inner ih fits
  | letIn bound inner apart ihBound ihInner => exact reading_letIn bound ihBound inner ihInner apart
  | lambda listed distinct inner ih => exact reading_lambda listed distinct inner ih
  | cond part each head tail last ihParts ihLast =>
      exact reading_cond each ihParts head tail last ihLast
  | matching part each subject head tail ihParts ihSubject =>
      exact reading_matching each ihParts subject ihSubject head tail
  | binary front back leftFits rightFits ihFront ihBack =>
      exact reading_binary ihFront back ihBack leftFits rightFits
  | call part each front fits listed ihParts ihFront =>
      exact reading_call each ihParts ihFront fits listed

end Parse

namespace Grammar

/-- The tokens show the tree, whatever the spans in it. -/
def Rendered (shape : Shape) (tokens : List Token) (tree : Expr) : Prop :=
  ∃ spanned, Phrase .table shape tokens spanned ∧ spanned.alike tree = true

end Grammar

open Grammar

/-- Reading undoes writing, and the powers of the operators say exactly how. What shows a tree is
read as that tree, up to anything that does not go on from it; as a program of its own it is read as
the one item, unless a let stands in front; and nothing else is read as that tree. -/
theorem read_rendered (shape : Shape) (tokens : List Token) (tree : Expr)
    (rendered : Rendered shape tokens tree) :
    (∀ room power rest last, tokens.length ≤ room → shape.Fits power → Stops power rest →
      ∃ read, Parse.expression room power false ⟨tokens ++ rest, last⟩ =
        .ok read ⟨rest, spanAfter last tokens⟩ ∧ read.alike tree = true) ∧
    (∀ room, tokens.length ≤ room → tokens.head?.map Token.lexeme ≠ some (.keyword .let_) →
      ∃ read, parseTokens room tokens = .ok [read] ∧ read.alike tree = true) ∧
    ∀ other room last read after, Parse.expression room 0 false ⟨other, last⟩ = .ok read ⟨[], after⟩ →
      read.alike tree = true → ∃ shape, Rendered shape other tree := by
  obtain ⟨spanned, phrase, alike⟩ := rendered
  have reading := Parse.phrase_reading phrase
  refine ⟨?_, ?_, ?_⟩
  · intro room power rest last enough fits stops
    exact ⟨spanned, reading.whole phrase enough fits stops last, alike⟩
  · intro room enough notLet
    obtain ⟨token, more, rfl, opens⟩ := phrase.opens
    obtain ⟨room, rfl⟩ : ∃ less, room = less + 1 := ⟨room - 1, by simp at enough; omega⟩
    have read := reading.whole phrase enough shape.fits_zero (stops_nil 0) .origin
    rw [List.append_nil, ← Parse.expression_top room 0 more .origin (by simpa using notLet) opens.2.1]
      at read
    refine ⟨spanned, ?_, alike⟩
    have single : Parse.items (room + 1) (more.length + 1) [] ⟨token :: more, .origin⟩ =
        .ok [spanned] ⟨[], spanAfter .origin (token :: more)⟩ := by
      rw [Parse.items, Parse.bind_of_ok (Parse.peek_apply _), if_neg (by simp), Parse.bind_of_ok read]
      cases more <;> rfl
    rw [parseTokens, Parse.program, Parse.bind_of_ok (Parse.left_apply _)]
    simp only [Cursor.ofTokens, List.length_cons, single]
  · intro other room last read after done same
    obtain ⟨shape, used, taken, phrase, -⟩ :=
      Parse.expression_gives room 0 _ _ _ (Nat.zero_le _) done
    have whole : other = used := by simpa using taken.rest
    exact ⟨shape, read, whole ▸ phrase, same⟩

/-- The tokens of `1 - 2 - -x ** f(3)`. -/
def minusChain : List Token :=
  [⟨.number 1, .ofWidth 0 1⟩, ⟨.operator .sub, .ofWidth 2 1⟩, ⟨.number 2, .ofWidth 4 1⟩,
    ⟨.operator .sub, .ofWidth 6 1⟩, ⟨.operator .sub, .ofWidth 8 1⟩, ⟨.name "x", .ofWidth 9 1⟩,
    ⟨.operator .pow, .ofWidth 11 2⟩, ⟨.name "f", .ofWidth 14 1⟩, ⟨.mark .leftParen, .ofWidth 15 1⟩,
    ⟨.number 3, .ofWidth 16 1⟩, ⟨.mark .rightParen, .ofWidth 17 1⟩]

def minusTree : Expr :=
  .binary (.text "-")
    (.binary (.text "-") (.number 1 .origin) (.number 2 .origin) .origin)
    (.binary (.text "-") (.number 0 .origin)
      (.binary (.text "**") (.var "x" .origin)
        (.call (.var "f" .origin) [.number 3 .origin] .origin) .origin) .origin) .origin

theorem minusChain_rendered : Rendered (.binary .sub) minusChain minusTree := by
  have arg : Shaped (Phrase .table) [⟨.number 3, .ofWidth 16 1⟩]
      (.number (3 : Nat) (.ofWidth 16 1)) := ⟨.primary, .number⟩
  have call : Phrase .table .call
      [⟨.name "f", .ofWidth 14 1⟩, ⟨.mark .leftParen, .ofWidth 15 1⟩, ⟨.number 3, .ofWidth 16 1⟩,
        ⟨.mark .rightParen, .ofWidth 17 1⟩]
      (.call (.var "f" (.ofWidth 14 1)) [.number (3 : Nat) (.ofWidth 16 1)]
        ((Span.ofWidth 14 1).merge (.ofWidth 17 1))) :=
    .call (Phrase .table) (fun _ _ _ one => one) .var (by decide) (.listed (.last arg))
  refine ⟨_, .binary (.binary .number .number (by decide) (by decide))
    (.negation (.binary .var call (by decide) (by decide)) (by decide)) (by decide) (by decide), ?_⟩
  simp [Expr.alike, Expr.alikeAll, minusTree, Json.alike, Operator.symbol]

theorem minusChain_read : Rendered (.binary .sub) minusChain minusTree ∧
    ∃ read, parseTokens 11 minusChain = .ok [read] ∧ read.alike minusTree = true :=
  ⟨minusChain_rendered, (read_rendered _ _ _ minusChain_rendered).2.1 11 (by decide) (by decide)⟩

end FernLang
