import FernLang.Proofs.Grammar.Cursor

/-!
The grammar as relations between tokens and the trees they stand for. Lists in parentheses, chains
of items behind a token and pairs around a colon are described for any kind of item. A phrase is an
expression as it is written, one rule for each form; what may stand bare on either side of an
operator, behind a minus, in front of arguments and as the body of a let is left to a discipline.
-/

namespace FernLang
namespace Grammar

section

variable {α β : Type} {part other : List Token → α → Prop} {tokens : List Token} {close : Span}

/-- Items with commas between them, up to a parenthesis at `close`. -/
inductive Listed (part : List Token → α → Prop) (close : Span) : List Token → List α → Prop
  | last {tokens : List Token} {item : α} (one : part tokens item) :
      Listed part close (tokens ++ [⟨.mark .rightParen, close⟩]) [item]
  | more {tokens rest : List Token} {item : α} {items : List α} {comma : Span}
      (one : part tokens item) (others : Listed part close rest items) :
      Listed part close (tokens ++ ⟨.mark .comma, comma⟩ :: rest) (item :: items)

inductive Enclosed (part : List Token → α → Prop) (close : Span) : List Token → List α → Prop
  | empty : Enclosed part close [⟨.mark .rightParen, close⟩] []
  | listed {tokens : List Token} {items : List α} (all : Listed part close tokens items) :
      Enclosed part close tokens items

inductive Chained (opener : Lexeme) (part : List Token → α → Prop) : List Token → List α → Prop
  | none : Chained opener part [] []
  | more {tokens rest : List Token} {item : α} {items : List α} {start : Span}
      (one : part tokens item) (others : Chained opener part rest items) :
      Chained opener part (⟨opener, start⟩ :: (tokens ++ rest)) (item :: items)

inductive Coloned (first : List Token → α → Prop) (second : List Token → β → Prop) :
    List Token → α × β → Prop
  | pair {before after : List Token} {a : α} {b : β} {colon : Span}
      (head : first before a) (body : second after b) :
      Coloned first second (before ++ ⟨.mark .colon, colon⟩ :: after) (a, b)

/-- Parts may be described in more than one way as long as they lie within the list. -/
theorem Listed.mono {items : List α} (all : Listed part close tokens items)
    (weaker : ∀ inner item, inner.length < tokens.length → part inner item → other inner item) :
    Listed other close tokens items := by
  induction all with
  | last one => exact .last (weaker _ _ (by simp) one)
  | @more inner rest item items comma one others ih =>
      refine .more (weaker _ _ (by simp) one) (ih fun tokens item short => weaker _ _ ?_)
      simp only [List.length_append, List.length_cons]
      omega

theorem Enclosed.mono {items : List α} (all : Enclosed part close tokens items)
    (weaker : ∀ inner item, inner.length < tokens.length → part inner item → other inner item) :
    Enclosed other close tokens items := by
  cases all with
  | empty => exact .empty
  | listed all => exact .listed (all.mono weaker)

theorem Chained.mono {opener : Lexeme} {items : List α} (all : Chained opener part tokens items)
    (weaker : ∀ inner item, inner.length < tokens.length → part inner item → other inner item) :
    Chained opener other tokens items := by
  induction all with
  | none => exact .none
  | @more inner rest item items start one others ih =>
      refine .more (weaker _ _ ?_ one) (ih fun tokens item short => weaker _ _ ?_)
      all_goals simp only [List.length_append, List.length_cons]; omega

theorem Coloned.mono {second weak : List Token → β → Prop} {pair : α × β}
    (whole : Coloned part second tokens pair)
    (weaker : ∀ inner item, inner.length < tokens.length → part inner item → other inner item)
    (weaker' : ∀ inner item, inner.length < tokens.length → second inner item → weak inner item) :
    Coloned other weak tokens pair := by
  cases whole with
  | pair head body => exact .pair (weaker _ _ (by simp) head) (weaker' _ _ (by simp; omega) body)

theorem Enclosed.forall {holds : α → Prop} {items : List α} (all : Enclosed part close tokens items)
    (each : ∀ inner item, part inner item → holds item) : ∀ item ∈ items, holds item := by
  cases all with
  | empty => simp
  | listed all =>
      induction all with
      | last one => simpa using each _ _ one
      | more one others ih =>
          intro item member
          rcases List.mem_cons.mp member with rfl | later
          · exact each _ _ one
          · exact ih item later

theorem Chained.forall {opener : Lexeme} {holds : α → Prop} {items : List α}
    (all : Chained opener part tokens items) (each : ∀ inner item, part inner item → holds item) :
    ∀ item ∈ items, holds item := by
  induction all with
  | none => simp
  | more one others ih =>
      intro item member
      rcases List.mem_cons.mp member with rfl | later
      · exact each _ _ one
      · exact ih item later

theorem Listed.length_le {items : List α} (all : Listed part close tokens items) :
    items.length ≤ tokens.length := by
  induction all with
  | last one => simp
  | more one others ih =>
      simp only [List.length_append, List.length_cons]
      omega

theorem Chained.length_le {opener : Lexeme} {items : List α}
    (all : Chained opener part tokens items) : items.length ≤ tokens.length := by
  induction all with
  | none => exact Nat.le_refl 0
  | more one others ih =>
      simp only [List.length_append, List.length_cons]
      omega

theorem Enclosed.spanAfter {items : List α} (all : Enclosed part close tokens items) (last : Span) :
    spanAfter last tokens = close := by
  cases all with
  | empty => rfl
  | listed all =>
      induction all generalizing last with
      | last one => simp
      | more one others ih =>
          rw [spanAfter_append, spanAfter_cons]
          exact ih _

end

inductive Named : List Token → String → Prop
  | name {text : String} {place : Span} : Named [⟨.name text, place⟩] text

/-- Patterns as they are written. The fields of a pattern are described by any relation that keeps
to this one. -/
inductive Match : List Token → Pattern → Prop
  | number {value : Nat} {place : Span} : Match [⟨.number value, place⟩] (.number value)
  | negative {value : Nat} {minus place : Span} :
      Match [⟨.operator .sub, minus⟩, ⟨.number value, place⟩] (.number (-value))
  | truth {value : Bool} {place : Span} : Match [⟨.truth value, place⟩] (.bool value)
  | var {name : String} {place : Span} : Match [⟨.name name, place⟩] (.var name)
  | data {tag : String} {place opening close : Span} {tokens : List Token} {fields : List Pattern}
      (part : List Token → Pattern → Prop) (each : ∀ inner field, part inner field → Match inner field)
      (listed : Enclosed part close tokens fields) :
      Match (⟨.name tag, place⟩ :: ⟨.mark .leftParen, opening⟩ :: tokens) (.data tag fields)

inductive Shape where
  | primary
  | call
  | negation
  | binary (operator : Operator)
deriving DecidableEq

/-- A call binds tighter than operators do, and what is whole by itself tighter still. -/
def Shape.power : Shape → Nat
  | .primary => callPower + 1
  | .call => callPower
  | .negation => negationPower
  | .binary operator => operator.power

/-- What may stand without parentheses of its own. -/
structure Discipline where
  left : Operator → Shape → Prop
  right : Operator → Shape → Prop
  operand : Shape → Prop
  callee : Shape → Prop
  body : List Token → Prop

namespace Discipline

def free : Discipline where
  left _ _ := True
  right _ _ := True
  operand _ := True
  callee _ := True
  body _ := True

/-- The powers of the operators: where two have the same power, they group to the left, but for the
power operator. A minus may start whatever an operator or another minus applies to. -/
def table : Discipline where
  left operator shape :=
    if operator = .pow then operator.power < shape.power else operator.power ≤ shape.power
  right operator shape := shape = .negation ∨
    if operator = .pow then operator.power ≤ shape.power else operator.power < shape.power
  operand shape := shape = .negation ∨ negationPower < shape.power
  callee shape := shape = .call ∨ shape = .primary
  body tokens := ∀ token ∈ tokens.head?,
    token.lexeme ≠ .mark .leftParen ∧ token.lexeme ≠ .operator .sub

instance (operator : Operator) (shape : Shape) : Decidable (table.left operator shape) :=
  inferInstanceAs (Decidable (if operator = .pow then _ else _))

instance (operator : Operator) (shape : Shape) : Decidable (table.right operator shape) :=
  inferInstanceAs (Decidable (shape = .negation ∨ if operator = .pow then _ else _))

instance (shape : Shape) : Decidable (table.operand shape) :=
  inferInstanceAs (Decidable (shape = .negation ∨ _ < _))

instance (shape : Shape) : Decidable (table.callee shape) :=
  inferInstanceAs (Decidable (shape = .call ∨ shape = .primary))

end Discipline

def Shaped (part : Shape → List Token → Expr → Prop) (tokens : List Token) (tree : Expr) : Prop :=
  ∃ shape, part shape tokens tree

/-- Expressions as they are written. Where a rule holds a list of expressions, these are described
by any relation that keeps to this one. -/
inductive Phrase (discipline : Discipline) : Shape → List Token → Expr → Prop
  | number {value : Nat} {place : Span} :
      Phrase discipline .primary [⟨.number value, place⟩] (.number value place)
  | truth {value : Bool} {place : Span} :
      Phrase discipline .primary [⟨.truth value, place⟩] (.bool value place)
  | var {name : String} {place : Span} :
      Phrase discipline .primary [⟨.name name, place⟩] (.var name place)
  | paren {shape : Shape} {tokens : List Token} {tree : Expr} {start close : Span}
      (inner : Phrase discipline shape tokens tree) :
      Phrase discipline .primary
        (⟨.mark .leftParen, start⟩ :: (tokens ++ [⟨.mark .rightParen, close⟩])) tree
  | negation {shape : Shape} {tokens : List Token} {tree : Expr} {start : Span}
      (inner : Phrase discipline shape tokens tree) (fits : discipline.operand shape) :
      Phrase discipline .negation (⟨.operator .sub, start⟩ :: tokens)
        (.binary (.text Operator.sub.symbol) (.number 0 start) tree (start.merge tree.span))
  | letIn {first second : Shape} {before after : List Token} {name : String} {binding body : Expr}
      {start place equals close : Span} (bound : Phrase discipline first before binding)
      (inner : Phrase discipline second after body) (apart : discipline.body after) :
      Phrase discipline .primary
        (⟨.keyword .let_, start⟩ :: ⟨.name name, place⟩ :: ⟨.mark .equals, equals⟩ ::
          (before ++ (after ++ [⟨.keyword .end_, close⟩])))
        (.letIn name binding body (start.merge close))
  | lambda {shape : Shape} {names tokens : List Token} {params : List String} {body : Expr}
      {start opening closing colon close : Span} (listed : Enclosed Named closing names params)
      (distinct : params.Nodup) (inner : Phrase discipline shape tokens body) :
      Phrase discipline .primary
        (⟨.keyword .lambda, start⟩ :: ⟨.mark .leftParen, opening⟩ ::
          (names ++ ⟨.mark .colon, colon⟩ :: (tokens ++ [⟨.keyword .end_, close⟩])))
        (.lambda params body (start.merge close))
  | cond {shape : Shape} {first rest tokens : List Token} {branch : Expr × Expr}
      {branches : List (Expr × Expr)} {otherwise : Expr} {start else_ colon close : Span}
      (part : Shape → List Token → Expr → Prop)
      (each : ∀ shape inner tree, part shape inner tree → Phrase discipline shape inner tree)
      (head : Coloned (Shaped part) (Shaped part) first branch)
      (tail : Chained (.keyword .elif) (Coloned (Shaped part) (Shaped part)) rest branches)
      (last : Phrase discipline shape tokens otherwise) :
      Phrase discipline .primary
        (⟨.keyword .if_, start⟩ :: (first ++ (rest ++ ⟨.keyword .else_, else_⟩ ::
          ⟨.mark .colon, colon⟩ :: (tokens ++ [⟨.keyword .end_, close⟩]))))
        (.cond (branch :: branches) otherwise (start.merge close))
  | matching {shape : Shape} {tokens first rest : List Token} {scrutinee : Expr}
      {arm : Pattern × Expr} {arms : List (Pattern × Expr)} {start case_ close : Span}
      (part : Shape → List Token → Expr → Prop)
      (each : ∀ shape inner tree, part shape inner tree → Phrase discipline shape inner tree)
      (subject : Phrase discipline shape tokens scrutinee)
      (head : Coloned Match (Shaped part) first arm)
      (tail : Chained (.keyword .case) (Coloned Match (Shaped part)) rest arms) :
      Phrase discipline .primary
        (⟨.keyword .match_, start⟩ :: (tokens ++ ⟨.keyword .case, case_⟩ ::
          (first ++ (rest ++ [⟨.keyword .end_, close⟩]))))
        (.matching scrutinee (arm :: arms) (start.merge close))
  | binary {first second : Shape} {before after : List Token} {left right : Expr}
      {operator : Operator} {place : Span} (front : Phrase discipline first before left)
      (back : Phrase discipline second after right) (leftFits : discipline.left operator first)
      (rightFits : discipline.right operator second) :
      Phrase discipline (.binary operator) (before ++ ⟨.operator operator, place⟩ :: after)
        (.binary (.text operator.symbol) left right (left.span.merge right.span))
  | call {shape : Shape} {before after : List Token} {callee : Expr} {args : List Expr}
      {opening close : Span} (part : Shape → List Token → Expr → Prop)
      (each : ∀ shape inner tree, part shape inner tree → Phrase discipline shape inner tree)
      (front : Phrase discipline shape before callee) (fits : discipline.callee shape)
      (listed : Enclosed (Shaped part) close after args) :
      Phrase discipline .call (before ++ ⟨.mark .leftParen, opening⟩ :: after)
        (.call callee args (callee.span.merge close))

inductive Variant : List Token → String × List String → Prop
  | bare {name : String} {place : Span} : Variant [⟨.name name, place⟩] (name, [])
  | fields {name : String} {names : List String} {tokens : List Token} {place opening close : Span}
      (listed : Enclosed Named close tokens names) (distinct : names.Nodup) :
      Variant (⟨.name name, place⟩ :: ⟨.mark .leftParen, opening⟩ :: tokens) (name, names)

inductive Item (discipline : Discipline) : List Token → Expr → Prop
  | function {shape : Shape} {names tokens : List Token} {name : String} {params : List String}
      {body : Expr} {start place opening closing colon close : Span}
      (listed : Enclosed Named closing names params) (distinct : params.Nodup)
      (inner : Phrase discipline shape tokens body) :
      Item discipline
        (⟨.keyword .function, start⟩ :: ⟨.name name, place⟩ :: ⟨.mark .leftParen, opening⟩ ::
          (names ++ ⟨.mark .colon, colon⟩ :: (tokens ++ [⟨.keyword .end_, close⟩])))
        (.function name params body (start.merge close))
  | dataType {name : String} {first rest : List Token} {variant : String × List String}
      {variants : List (String × List String)} {start place equals : Span}
      (head : Variant first variant) (tail : Chained (.operator .bitOr) Variant rest variants)
      (distinct : ((variant :: variants).map Prod.fst).Nodup) :
      Item discipline
        (⟨.keyword .data, start⟩ :: ⟨.name name, place⟩ :: ⟨.mark .equals, equals⟩ :: (first ++ rest))
        (.dataType name (variant :: variants) (start.merge (spanAfter equals (first ++ rest))))
  | letTop {shape : Shape} {tokens : List Token} {name : String} {binding : Expr}
      {start place equals : Span} (bound : Phrase discipline shape tokens binding) :
      Item discipline
        (⟨.keyword .let_, start⟩ :: ⟨.name name, place⟩ :: ⟨.mark .equals, equals⟩ :: tokens)
        (.letTop name binding (start.merge binding.span))
  | expression {shape : Shape} {tokens : List Token} {tree : Expr}
      (phrase : Phrase discipline shape tokens tree) : Item discipline tokens tree

inductive Program (discipline : Discipline) : List Token → List Expr → Prop
  | empty : Program discipline [] []
  | more {tokens rest : List Token} {item : Expr} {items : List Expr}
      (one : Item discipline tokens item) (others : Program discipline rest items) :
      Program discipline (tokens ++ rest) (item :: items)

/-- How tightly a token binds what it goes on from, if it goes on from anything. -/
def infixPower : Lexeme → Option Nat
  | .operator operator => some operator.power
  | .mark .leftParen => some callPower
  | _ => none

/-- Nothing at the front goes on from an expression read at `power`. -/
def Stops (power : Nat) (tokens : List Token) : Prop :=
  ∀ token ∈ tokens.head?, ∀ bound ∈ infixPower token.lexeme, bound ≤ power

theorem stops_nil (power : Nat) : Stops power [] := by simp [Stops]

theorem stops_cons {power : Nat} {token : Token} {rest : List Token} :
    Stops power (token :: rest) ↔ ∀ bound ∈ infixPower token.lexeme, bound ≤ power := by
  simp [Stops]

theorem Stops.mono {low high : Nat} {tokens : List Token} (stops : Stops low tokens)
    (le : low ≤ high) : Stops high tokens :=
  fun token member bound power => Nat.le_trans (stops token member bound power) le

/-- Nothing at the front is taken by the last part of an expression of this shape. -/
def Shape.Ends : Shape → List Token → Prop
  | .binary operator, rest => Stops operator.rightPower rest
  | .negation, rest => Stops negationPower rest
  | .primary, _ | .call, _ => True

def Shape.Fits (power : Nat) : Shape → Prop
  | .negation => power ≤ negationPower
  | shape => power < shape.power

theorem power_pos (operator : Operator) : 0 < operator.power := by
  cases operator <;> decide

theorem power_le_negation {operator : Operator} (other : operator ≠ .pow) :
    operator.power ≤ negationPower := by
  cases operator with
  | pow => exact absurd rfl other
  | _ => decide

theorem rightPower_eq {operator : Operator} (other : operator ≠ .pow) :
    operator.rightPower = operator.power := by
  cases operator with
  | pow => exact absurd rfl other
  | _ => rfl

theorem rightPower_le (operator : Operator) : operator.rightPower ≤ negationPower := by
  cases operator <;> decide

namespace Shape

theorem fits_zero (shape : Shape) : shape.Fits 0 := by
  cases shape with
  | binary operator => exact power_pos operator
  | negation => exact Nat.zero_le _
  | primary => exact Nat.succ_pos _
  | call => exact Nat.succ_pos _

/-- A power that an expression can be read at is at most that of its last part. -/
theorem ends_of_fits {shape : Shape} {power : Nat} {rest : List Token} (fits : shape.Fits power)
    (stops : Stops power rest) : shape.Ends rest := by
  cases shape with
  | primary => trivial
  | call => trivial
  | negation => exact stops.mono fits
  | binary operator =>
      refine stops.mono ?_
      by_cases last : operator = .pow
      · subst last
        exact Nat.le_of_lt_succ fits
      · rw [rightPower_eq last]
        exact Nat.le_of_lt fits

theorem fits_right {operator : Operator} {shape : Shape} :
    Discipline.table.right operator shape ↔ shape.Fits operator.rightPower := by
  have low := rightPower_le operator
  by_cases last : operator = .pow
  · subst last
    cases shape with
    | negation => exact iff_of_true (Or.inl rfl) low
    | _ =>
        simp only [Discipline.table, reduceCtorEq, false_or, if_true, Fits]
        exact Nat.succ_le_iff
  · cases shape with
    | negation => exact iff_of_true (Or.inl rfl) low
    | _ => simp only [Discipline.table, reduceCtorEq, false_or, if_neg last, Fits, rightPower_eq last]

theorem fits_operand {shape : Shape} :
    Discipline.table.operand shape ↔ shape.Fits negationPower := by
  cases shape <;> simp [Discipline.table, Fits]

theorem power_le_of_left {operator : Operator} {shape : Shape}
    (left : Discipline.table.left operator shape) : operator.power ≤ shape.power := by
  simp only [Discipline.table] at left
  split at left
  · exact Nat.le_of_lt left
  · exact left

theorem fits_left {operator : Operator} {shape : Shape} {power : Nat}
    (left : Discipline.table.left operator shape) (above : power < operator.power) :
    shape.Fits power := by
  have enough : power < shape.power := Nat.lt_of_lt_of_le above (power_le_of_left left)
  cases shape with
  | negation => exact Nat.le_of_lt enough
  | _ => exact enough

/-- An operator may follow an expression bare exactly if no last part takes it away. -/
theorem left_iff_ends {operator : Operator} {shape : Shape} {place : Span} {rest : List Token} :
    Discipline.table.left operator shape ↔ shape.Ends (⟨.operator operator, place⟩ :: rest) := by
  by_cases last : operator = .pow
  · subst last
    simp only [Discipline.table, if_true]
    cases shape with
    | primary => exact iff_of_true (by decide) trivial
    | call => exact iff_of_true (by decide) trivial
    | negation =>
        simp only [Ends, stops_cons, infixPower, Option.mem_some_iff, forall_eq']
        decide
    | binary other =>
        have low := rightPower_le other
        have high : other.power ≤ Operator.pow.power := by cases other <;> decide
        simp only [Ends, stops_cons, infixPower, Option.mem_some_iff, forall_eq']
        exact iff_of_false (Nat.not_lt.2 high) (Nat.not_le.2 (Nat.lt_of_le_of_lt low (by decide)))
  · have low := power_le_negation last
    simp only [Discipline.table, if_neg last]
    cases shape with
    | primary => exact iff_of_true (Nat.le_trans low (by decide)) trivial
    | call => exact iff_of_true (Nat.le_trans low (by decide)) trivial
    | negation => simp [Ends, stops_cons, infixPower, Shape.power]
    | binary other =>
        simp only [Ends, stops_cons, infixPower, Option.mem_some_iff, forall_eq', Shape.power]
        by_cases tightest : other = .pow
        · subst tightest
          exact iff_of_true (Nat.le_trans low (by decide)) low
        · rw [rightPower_eq tightest]

theorem callee_iff_ends {shape : Shape} {place : Span} {rest : List Token} :
    Discipline.table.callee shape ↔ shape.Ends (⟨.mark .leftParen, place⟩ :: rest) := by
  cases shape with
  | primary => simp [Discipline.table, Ends]
  | call => simp [Discipline.table, Ends]
  | negation => simp [Discipline.table, Ends, stops_cons, infixPower]; decide
  | binary operator =>
      have low := rightPower_le operator
      simp only [Discipline.table, Ends, stops_cons, infixPower, Option.mem_some_iff, forall_eq']
      exact iff_of_false (by simp) (Nat.not_le.2 (Nat.lt_of_le_of_lt low (by decide)))

end Shape

theorem Match.opens {tokens : List Token} {pattern : Pattern} (written : Match tokens pattern) :
    ∃ token more, tokens = token :: more ∧ token.kind ≠ .mark .rightParen := by
  cases written <;> exact ⟨_, _, rfl, by simp [Token.kind, Lexeme.kind]⟩

/-- A token that an expression starts with: of those that go on from another expression, only a
parenthesis and a minus. -/
def Opens (token : Token) : Prop :=
  token.kind ≠ .mark .rightParen ∧ Parse.opensDeclaration token = false ∧
    (token.lexeme = .mark .leftParen ∨ token.lexeme = .operator .sub ∨ infixPower token.lexeme = none)

theorem Phrase.opens {discipline : Discipline} {shape : Shape} {tokens : List Token} {tree : Expr}
    (phrase : Phrase discipline shape tokens tree) :
    ∃ token more, tokens = token :: more ∧ Opens token := by
  induction phrase with
  | binary front back leftFits rightFits ih =>
      obtain ⟨token, more, rfl, opens⟩ := ih
      exact ⟨token, _, rfl, opens⟩
  | call part each front fits listed ihParts ih =>
      obtain ⟨token, more, rfl, opens⟩ := ih
      exact ⟨token, _, rfl, opens⟩
  | _ => exact ⟨_, _, rfl, by simp [Token.kind, Lexeme.kind], rfl, by simp [infixPower]⟩

theorem Phrase.stops_body {shape : Shape} {tokens : List Token} {tree : Expr}
    (phrase : Phrase .table shape tokens tree) (apart : Discipline.table.body tokens)
    (rest : List Token) : Stops 0 (tokens ++ rest) := by
  obtain ⟨token, more, rfl, -, -, kind⟩ := phrase.opens
  have distinct := apart token rfl
  rcases kind with paren | minus | quiet
  · exact absurd paren distinct.1
  · exact absurd minus distinct.2
  · simp [stops_cons, quiet]

end Grammar

namespace Parse

open Grammar

theorem continuing_stops (nested : Nat → Parse Expr) {power : Nat} (steps : Nat) (tree : Expr)
    {rest : List Token} (last : Span) (stops : Stops power rest) :
    continuing nested power steps tree ⟨rest, last⟩ = .ok tree ⟨rest, last⟩ := by
  cases steps with
  | zero => rfl
  | succ steps =>
      rw [continuing, bind_of_ok (peek_apply _)]
      cases rest with
      | nil => rfl
      | cons token more =>
          obtain ⟨lexeme, span⟩ := token
          rw [stops_cons] at stops
          cases lexeme with
          | operator operator => exact congrFun (if_pos (stops _ rfl)) _
          | mark sign =>
              cases sign with
              | leftParen => exact congrFun (if_pos (stops _ rfl)) _
              | _ => rfl
          | _ => rfl

/-- Only a let, a function or a data type is read differently among the items of a program. -/
theorem expression_top (room power : Nat) {token : Token} (rest : List Token) (last : Span)
    (notLet : token.lexeme ≠ .keyword .let_) (plain : opensDeclaration token = false) :
    expression (room + 1) power true ⟨token :: rest, last⟩ =
      expression (room + 1) power false ⟨token :: rest, last⟩ := by
  have same (nested : Nat → Parse Expr) (inner : Parse Pattern) :
      opening nested inner true token = opening nested inner false token := by
    obtain ⟨lexeme, span⟩ := token
    cases lexeme with
    | keyword word =>
        cases word with
        | let_ => exact absurd rfl notLet
        | function | data => cases plain
        | _ => rfl
    | mark sign => cases sign <;> rfl
    | operator operator => cases operator <;> rfl
    | _ => rfl
  simp only [expression, bind_of_ok (next_cons ..), same]

end Parse
end FernLang
