import FernLang.Proofs.Grammar.Surface

/-!
Grouping what the bare grammar leaves open. However an expression was derived, its tokens are operands
with operators and lists of arguments between them, one after the other, and such a sequence can be
grouped as the powers of the operators ask: each operator or list that is added on the right goes to the
last part of the expression that is not closed in front of it. Two sequences side by side are one where
the second starts with a parenthesis or a minus.
-/

namespace FernLang.Grammar

section

variable {α β : Type} {part other : List Token → α → Prop} {tokens : List Token} {close : Span}

theorem Listed.remade {items : List α} (all : Listed part close tokens items)
    (each : ∀ inner item, part inner item → ∃ made, other inner made) :
    ∃ mades, Listed other close tokens mades := by
  induction all with
  | last one =>
      obtain ⟨made, one⟩ := each _ _ one
      exact ⟨[made], .last one⟩
  | more one others ih =>
      obtain ⟨made, one⟩ := each _ _ one
      obtain ⟨mades, others⟩ := ih
      exact ⟨made :: mades, .more one others⟩

theorem Enclosed.remade {items : List α} (all : Enclosed part close tokens items)
    (each : ∀ inner item, part inner item → ∃ made, other inner made) :
    ∃ mades, Enclosed other close tokens mades := by
  cases all with
  | empty => exact ⟨[], .empty⟩
  | listed all =>
      obtain ⟨mades, all⟩ := all.remade each
      exact ⟨mades, .listed all⟩

theorem Chained.remade {opener : Lexeme} {items : List α} (all : Chained opener part tokens items)
    (each : ∀ inner item, part inner item → ∃ made, other inner made) :
    ∃ mades, Chained opener other tokens mades := by
  induction all with
  | none => exact ⟨[], .none⟩
  | more one others ih =>
      obtain ⟨made, one⟩ := each _ _ one
      obtain ⟨mades, others⟩ := ih
      exact ⟨made :: mades, .more one others⟩

theorem Coloned.remade {second weak : List Token → β → Prop} {pair : α × β}
    (whole : Coloned part second tokens pair)
    (each : ∀ inner item, part inner item → ∃ made, other inner made)
    (each' : ∀ inner item, second inner item → ∃ made, weak inner made) :
    ∃ made, Coloned other weak tokens made := by
  cases whole with
  | pair head body =>
      obtain ⟨first, head⟩ := each _ _ head
      obtain ⟨last, body⟩ := each' _ _ body
      exact ⟨(first, last), .pair head body⟩

end

/-- The bare grammar, but for a body that could go on from the binding in front of it. -/
def Discipline.apart : Discipline := { Discipline.free with body := Discipline.table.body }

theorem Discipline.table_stricter_apart : Discipline.table.Stricter .apart :=
  ⟨fun _ _ _ => trivial, fun _ _ _ => trivial, fun _ _ => trivial, fun _ _ => trivial,
    fun _ apart => apart⟩

/-- What stands between two operators: something whole by itself behind any number of minuses. -/
inductive Operand : List Token → Prop
  | whole {tokens : List Token} {tree : Expr} (phrase : Phrase .table .primary tokens tree) :
      Operand tokens
  | minus {tokens : List Token} {start : Span} (inner : Operand tokens) :
      Operand (⟨.operator .sub, start⟩ :: tokens)

inductive Link : List Token → Prop
  | operation {operator : Operator} {place : Span} {tokens : List Token} (operand : Operand tokens) :
      Link (⟨.operator operator, place⟩ :: tokens)
  | call {opening close : Span} {tokens : List Token} {args : List Expr}
      (listed : Enclosed (Shaped (Phrase .table)) close tokens args) :
      Link (⟨.mark .leftParen, opening⟩ :: tokens)

/-- Expressions as they are written, without their grouping. -/
inductive Sequence : List Token → Prop
  | operand {tokens : List Token} (first : Operand tokens) : Sequence tokens
  | more {tokens rest : List Token} (front : Sequence tokens) (link : Link rest) :
      Sequence (tokens ++ rest)

section

variable {shape : Shape} {tokens more : List Token} {tree : Expr}

/-- What is added on the right of a phrase goes to the whole phrase if that ends in front of it, and to its
last part otherwise. There it fits, since it binds tighter than the last part is read. -/
theorem Phrase.grow (phrase : Phrase .table shape tokens tree) (grown : Shape)
    (attach : ∀ {shape tokens tree}, Phrase .table shape tokens tree → shape.Ends more →
      ∃ longer, Phrase .table grown (tokens ++ more) longer)
    (tighter : ∀ power, ¬Stops power more → grown.Fits power) :
    ∃ outer longer, (outer = shape ∨ outer = grown) ∧ Phrase .table outer (tokens ++ more) longer := by
  have whole := attach phrase
  induction phrase with
  | negation inner fits ih =>
      by_cases stops : Stops negationPower more
      · obtain ⟨longer, phrase⟩ := whole stops
        exact ⟨grown, longer, .inr rfl, phrase⟩
      · obtain ⟨outer, longer, same, phrase⟩ := ih (attach inner)
        have fits : Discipline.table.operand outer := by
          rcases same with rfl | rfl
          · exact fits
          · exact Shape.fits_operand.2 (tighter _ stops)
        exact ⟨.negation, _, .inl rfl, .negation phrase fits⟩
  | @binary _ _ _ _ _ _ operator _ front back leftFits rightFits ihFront ihBack =>
      by_cases stops : Stops operator.rightPower more
      · obtain ⟨longer, phrase⟩ := whole stops
        exact ⟨grown, longer, .inr rfl, phrase⟩
      · obtain ⟨outer, longer, same, phrase⟩ := ihBack (attach back)
        have fits : Discipline.table.right operator outer := by
          rcases same with rfl | rfl
          · exact rightFits
          · exact Shape.fits_right.2 (tighter _ stops)
        rw [List.append_assoc, List.cons_append]
        exact ⟨.binary operator, _, .inl rfl, .binary front phrase leftFits fits⟩
  | _ =>
      obtain ⟨longer, phrase⟩ := whole trivial
      exact ⟨grown, longer, .inr rfl, phrase⟩

theorem Operand.phrase (operand : Operand tokens) :
    ∃ shape tree, Phrase .table shape tokens tree ∧ (shape = .primary ∨ shape = .negation) := by
  induction operand with
  | whole phrase => exact ⟨.primary, _, phrase, .inl rfl⟩
  | minus inner ih =>
      obtain ⟨shape, tree, phrase, same⟩ := ih
      have fits : Discipline.table.operand shape := by
        rcases same with rfl | rfl <;> decide
      exact ⟨.negation, _, .negation phrase fits, .inr rfl⟩

theorem Phrase.extended (phrase : Phrase .table shape tokens tree) (link : Link more) :
    ∃ outer longer, Phrase .table outer (tokens ++ more) longer := by
  cases link with
  | @operation operator place after operand =>
      obtain ⟨second, right, back, same⟩ := operand.phrase
      have fits : Discipline.table.right operator second := by
        rcases same with rfl | rfl
        · cases operator <;> decide
        · exact .inl rfl
      obtain ⟨outer, longer, -, phrase⟩ := phrase.grow (.binary operator)
        (fun front ends => ⟨_, .binary front back (Shape.left_iff_ends.2 ends) fits⟩)
        (fun power goesOn => by simpa [stops_cons, infixPower, Shape.Fits, Shape.power] using goesOn)
      exact ⟨outer, longer, phrase⟩
  | call listed =>
      obtain ⟨outer, longer, -, phrase⟩ := phrase.grow .call
        (fun front ends => ⟨_, .call (Phrase .table) (fun _ _ _ one => one) front
          (Shape.callee_iff_ends.2 ends) listed⟩)
        (fun power goesOn => by simpa [stops_cons, infixPower, Shape.Fits, Shape.power] using goesOn)
      exact ⟨outer, longer, phrase⟩

end

namespace Sequence

variable {tokens before after : List Token}

theorem grouped (sequence : Sequence tokens) : ∃ tree, Shaped (Phrase .table) tokens tree := by
  induction sequence with
  | operand first =>
      obtain ⟨shape, tree, phrase, -⟩ := first.phrase
      exact ⟨tree, shape, phrase⟩
  | more front link ih =>
      obtain ⟨tree, shape, phrase⟩ := ih
      obtain ⟨outer, longer, phrase⟩ := phrase.extended link
      exact ⟨longer, outer, phrase⟩

theorem opens (sequence : Sequence tokens) : ∃ token more, tokens = token :: more ∧ Opens token := by
  obtain ⟨tree, shape, phrase⟩ := sequence.grouped
  exact phrase.opens

theorem operation {operator : Operator} {place : Span} (front : Sequence before)
    (back : Sequence after) : Sequence (before ++ ⟨.operator operator, place⟩ :: after) := by
  induction back with
  | operand first => exact .more front (.operation first)
  | @more tokens rest _ link ih =>
      have longer := Sequence.more ih link
      rwa [List.append_assoc, List.cons_append] at longer

theorem minus {start : Span} (sequence : Sequence tokens) :
    Sequence (⟨.operator .sub, start⟩ :: tokens) := by
  induction sequence with
  | operand first => exact .operand (.minus first)
  | more _ link ih => exact .more ih link

/-- A sequence that goes on from another one makes one with it: a parenthesis in front becomes a list of
one argument, and a minus the operator. -/
theorem join (front : Sequence before) (back : Sequence after) (goesOn : ¬Stops 0 after) :
    Sequence (before ++ after) := by
  induction back with
  | operand first =>
      cases first with
      | minus inner => exact .more front (.operation inner)
      | whole phrase =>
          cases phrase with
          | paren inner => exact .more front (.call (.listed (.last ⟨_, inner⟩)))
          | _ => exact absurd (by simp [stops_cons, infixPower]) goesOn
  | @more tokens rest back link ih =>
      obtain ⟨token, more, rfl, -⟩ := back.opens
      have longer := Sequence.more (ih goesOn) link
      rwa [List.append_assoc] at longer

end Sequence

theorem Phrase.sequence {shape : Shape} {tokens : List Token} {tree : Expr}
    (phrase : Phrase .apart shape tokens tree) : Sequence tokens := by
  have regroups {part : Shape → List Token → Expr → Prop}
      (each : ∀ shape inner tree, part shape inner tree → Sequence inner) (inner : List Token)
      (tree : Expr) (one : Shaped part inner tree) : ∃ made, Shaped (Phrase .table) inner made := by
    obtain ⟨shape, one⟩ := one
    exact (each shape inner tree one).grouped
  induction phrase with
  | number => exact .operand (.whole .number)
  | truth => exact .operand (.whole .truth)
  | var => exact .operand (.whole .var)
  | paren inner ih =>
      obtain ⟨tree, shape, phrase⟩ := ih.grouped
      exact .operand (.whole (.paren phrase))
  | negation inner fits ih => exact ih.minus
  | letIn bound inner apart ihBound ihInner =>
      obtain ⟨binding, first, bound⟩ := ihBound.grouped
      obtain ⟨body, second, inner⟩ := ihInner.grouped
      exact .operand (.whole (.letIn bound inner apart))
  | lambda listed distinct inner ih =>
      obtain ⟨body, shape, inner⟩ := ih.grouped
      exact .operand (.whole (.lambda listed distinct inner))
  | cond part each head tail last ihParts ihLast =>
      obtain ⟨branch, head⟩ := head.remade (regroups ihParts) (regroups ihParts)
      obtain ⟨branches, tail⟩ := tail.remade fun _ _ one =>
        one.remade (regroups ihParts) (regroups ihParts)
      obtain ⟨otherwise, shape, last⟩ := ihLast.grouped
      exact .operand (.whole (.cond (Phrase .table) (fun _ _ _ one => one) head tail last))
  | matching part each subject head tail ihParts ihSubject =>
      have kept (inner : List Token) (pattern : Pattern) (written : Match inner pattern) :
          ∃ made, Match inner made := ⟨pattern, written⟩
      obtain ⟨arm, head⟩ := head.remade kept (regroups ihParts)
      obtain ⟨arms, tail⟩ := tail.remade fun _ _ one => one.remade kept (regroups ihParts)
      obtain ⟨scrutinee, shape, subject⟩ := ihSubject.grouped
      exact .operand (.whole (.matching (Phrase .table) (fun _ _ _ one => one) subject head tail))
  | binary front back leftFits rightFits ihFront ihBack => exact ihFront.operation ihBack
  | call part each front fits listed ihParts ihFront =>
      obtain ⟨args, listed⟩ := listed.remade (regroups ihParts)
      exact .more ihFront (.call listed)

end FernLang.Grammar
