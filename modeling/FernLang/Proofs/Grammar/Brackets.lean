import FernLang.Proofs.Expr.Shift
import FernLang.Proofs.Grammar.Phrase

/-!
Parentheses among tokens. Whatever stands for an expression closes each parenthesis it opens and no
other. Tokens that are cut out of an expression need not: where they begin behind a parenthesis or end
in front of one, they are out of balance.
-/

namespace FernLang
namespace Grammar

/-- How many parentheses are open behind a lexeme, with `depth` of them open in front of it. -/
def crossed : Nat → Lexeme → Option Nat
  | depth, .mark .leftParen => some (depth + 1)
  | 0, .mark .rightParen => none
  | depth + 1, .mark .rightParen => some depth
  | depth, _ => some depth

def unclosed (depth : Nat) (tokens : List Token) : Option Nat :=
  tokens.foldlM (fun depth token => crossed depth token.lexeme) depth

/-- Every parenthesis that is opened is closed, and no other is. -/
def WellBracketed (tokens : List Token) : Prop := unclosed 0 tokens = some 0

instance (tokens : List Token) : Decidable (WellBracketed tokens) :=
  inferInstanceAs (Decidable (unclosed 0 tokens = some 0))

section

variable {depth deeper : Nat} {tokens : List Token}

@[simp] theorem unclosed_nil : unclosed depth [] = some depth := rfl

@[simp] theorem unclosed_cons (token : Token) :
    unclosed depth (token :: tokens) =
      (crossed depth token.lexeme).bind fun depth => unclosed depth tokens := rfl

@[simp] theorem unclosed_append (first second : List Token) :
    unclosed depth (first ++ second) =
      (unclosed depth first).bind fun depth => unclosed depth second :=
  List.foldlM_append

theorem unclosed_shift (offset : Int) :
    unclosed depth (tokens.map (Token.shift offset)) = unclosed depth tokens :=
  List.foldlM_map

theorem crossed_add {lexeme : Lexeme} (more : Nat) (counted : crossed depth lexeme = some deeper) :
    crossed (depth + more) lexeme = some (deeper + more) := by
  cases lexeme with
  | mark sign =>
      cases sign with
      | leftParen =>
          cases counted
          exact congrArg some (Nat.add_right_comm depth more 1)
      | rightParen =>
          cases depth with
          | zero => cases counted
          | succ outer =>
              cases counted
              rw [Nat.add_right_comm]
              rfl
      | _ =>
          cases counted
          rfl
  | _ =>
      cases counted
      rfl

theorem unclosed_add (more : Nat) (counted : unclosed depth tokens = some deeper) :
    unclosed (depth + more) tokens = some (deeper + more) := by
  induction tokens generalizing depth with
  | nil =>
      cases counted
      rfl
  | cons token tokens ih =>
      rw [unclosed_cons] at counted ⊢
      obtain ⟨middle, first, rest⟩ := Option.bind_eq_some_iff.1 counted
      rw [crossed_add more first]
      exact ih rest

theorem WellBracketed.unclosed (balanced : WellBracketed tokens) (depth : Nat) :
    unclosed depth tokens = some depth := by
  have added := unclosed_add depth balanced
  rwa [Nat.zero_add] at added

theorem unclosed_lefts {front : List Token} (opens : ∀ token ∈ front, token.lexeme = .mark .leftParen) :
    unclosed depth front = some (depth + front.length) := by
  induction front generalizing depth with
  | nil => rfl
  | cons token front ih =>
      have head := opens token List.mem_cons_self
      rw [unclosed_cons, head, List.length_cons, Nat.add_comm front.length, ← Nat.add_assoc]
      exact ih fun token member => opens token (List.mem_cons_of_mem _ member)

/-- Tokens that close parentheses in front of them begin no balanced tokens. -/
theorem front_eq_nil {front inner rest : List Token}
    (opens : ∀ token ∈ front, token.lexeme = .mark .leftParen) (whole : WellBracketed (front ++ inner))
    (cut : WellBracketed (inner ++ rest)) : front = [] := by
  rw [WellBracketed, unclosed_append, unclosed_lefts opens] at whole
  rw [WellBracketed, unclosed_append] at cut
  obtain ⟨deeper, counted, -⟩ := Option.bind_eq_some_iff.1 cut
  have added : some (deeper + front.length) = some 0 :=
    (unclosed_add front.length counted).symm.trans whole
  exact List.eq_nil_of_length_eq_zero (by injection added; omega)

theorem back_eq_nil {inner back : List Token}
    (closes : ∀ token ∈ back, token.lexeme = .mark .rightParen) (whole : WellBracketed (inner ++ back))
    (cut : WellBracketed inner) : back = [] := by
  rw [WellBracketed, unclosed_append, cut.unclosed] at whole
  cases back with
  | nil => rfl
  | cons token back =>
      rw [Option.bind_some, unclosed_cons, closes token List.mem_cons_self] at whole
      cases whole

end

section

variable {α β : Type} {part : List Token → α → Prop} {close : Span} {tokens : List Token}

theorem Listed.unclosed {items : List α} (all : Listed part close tokens items)
    (each : ∀ inner item, part inner item → WellBracketed inner) (depth : Nat) :
    unclosed (depth + 1) tokens = some depth := by
  induction all with
  | last one => simp [(each _ _ one).unclosed, crossed]
  | more one others ih => simp [(each _ _ one).unclosed, crossed, ih]

theorem Enclosed.unclosed {items : List α} (all : Enclosed part close tokens items)
    (each : ∀ inner item, part inner item → WellBracketed inner) (depth : Nat) :
    unclosed (depth + 1) tokens = some depth := by
  cases all with
  | empty => rfl
  | listed all => exact all.unclosed each depth

theorem Chained.wellBracketed {opener : Lexeme} {items : List α} (plain : crossed 0 opener = some 0)
    (all : Chained opener part tokens items)
    (each : ∀ inner item, part inner item → WellBracketed inner) : WellBracketed tokens := by
  induction all with
  | none => rfl
  | more one others ih =>
      simp [WellBracketed, plain, (each _ _ one).unclosed, ih.unclosed]

theorem Coloned.wellBracketed {second : List Token → β → Prop} {pair : α × β}
    (whole : Coloned part second tokens pair)
    (each : ∀ inner item, part inner item → WellBracketed inner)
    (each' : ∀ inner item, second inner item → WellBracketed inner) : WellBracketed tokens := by
  cases whole with
  | pair head body =>
      simp [WellBracketed, crossed, (each _ _ head).unclosed, (each' _ _ body).unclosed]

end

theorem Shaped.imp {part : Shape → List Token → Expr → Prop} {holds : List Token → Expr → Prop}
    (each : ∀ shape inner tree, part shape inner tree → holds inner tree) (inner : List Token)
    (tree : Expr) (one : Shaped part inner tree) : holds inner tree := by
  obtain ⟨shape, one⟩ := one
  exact each shape inner tree one

theorem Named.wellBracketed {tokens : List Token} {name : String} (named : Named tokens name) :
    WellBracketed tokens := by
  cases named
  rfl

theorem Match.wellBracketed {tokens : List Token} {pattern : Pattern} (written : Match tokens pattern) :
    WellBracketed tokens := by
  induction written with
  | data part each listed ih => simp [WellBracketed, crossed, listed.unclosed ih]
  | _ => rfl

theorem Phrase.wellBracketed {discipline : Discipline} {shape : Shape} {tokens : List Token} {tree : Expr}
    (phrase : Phrase discipline shape tokens tree) : WellBracketed tokens := by
  induction phrase with
  | number | truth | var => rfl
  | paren inner ih => simp [WellBracketed, crossed, ih.unclosed]
  | negation inner fits ih => simp [WellBracketed, crossed, ih.unclosed]
  | letIn bound inner apart ihBound ih => simp [WellBracketed, crossed, ihBound.unclosed, ih.unclosed]
  | lambda listed distinct inner ih =>
      simp [WellBracketed, crossed, listed.unclosed fun _ _ => Named.wellBracketed, ih.unclosed]
  | cond part each head tail last ihParts ih =>
      have parts := Shaped.imp ihParts
      have first := head.wellBracketed parts parts
      have rest := tail.wellBracketed rfl fun _ _ branch => branch.wellBracketed parts parts
      simp [WellBracketed, crossed, first.unclosed, rest.unclosed, ih.unclosed]
  | matching part each subject head tail ihParts ih =>
      have parts := Shaped.imp ihParts
      have first := head.wellBracketed (fun _ _ => Match.wellBracketed) parts
      have rest := tail.wellBracketed rfl fun _ _ arm => arm.wellBracketed (fun _ _ => Match.wellBracketed) parts
      simp [WellBracketed, crossed, first.unclosed, rest.unclosed, ih.unclosed]
  | binary front back leftFits rightFits ihFront ihBack =>
      simp [WellBracketed, crossed, ihFront.unclosed, ihBack.unclosed]
  | call part each front fits listed ihParts ih =>
      have parts := Shaped.imp ihParts
      simp [WellBracketed, crossed, ih.unclosed, listed.unclosed parts]

end Grammar
end FernLang
