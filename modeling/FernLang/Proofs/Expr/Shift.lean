import Mathlib.Data.List.Forall2
import FernLang.Expr
import FernLang.Token

/-!
Moving text along. When a text starts later in a longer one, the spans of its tokens and trees move with
it, all by the same distance; merging spans does not mind where they start.
-/

namespace FernLang

namespace Span

variable {first second : Span}

theorem eq_of_ends (starts : first.start = second.start) (stops : first.stop = second.stop) :
    first = second := by
  obtain ⟨start, stop, ordered⟩ := first
  cases starts
  cases stops
  rfl

def shift (offset : Int) (span : Span) : Span where
  start := span.start + offset
  stop := span.stop + offset
  ordered := by have ordered := span.ordered; omega

theorem shift_zero (span : Span) : span.shift 0 = span :=
  eq_of_ends (Int.add_zero _) (Int.add_zero _)

theorem merge_shift (offset : Int) (first second : Span) :
    (first.shift offset).merge (second.shift offset) = (first.merge second).shift offset := by
  apply eq_of_ends
  · simp only [merge, shift]
    omega
  · simp only [merge, shift]
    omega

theorem shift_ofWidth (start other index width : Nat) :
    (ofWidth (start + index) width).shift (other - start) = ofWidth (other + index) width := by
  apply eq_of_ends
  · simp only [ofWidth, shift]
    omega
  · simp only [ofWidth, shift]
    omega

end Span

namespace Token

def shift (offset : Int) (token : Token) : Token := ⟨token.lexeme, token.span.shift offset⟩

@[simp] theorem shift_lexeme (offset : Int) (token : Token) : (token.shift offset).lexeme = token.lexeme :=
  rfl

@[simp] theorem shift_kind (offset : Int) (token : Token) : (token.shift offset).kind = token.kind := rfl

@[simp] theorem shift_span (offset : Int) (token : Token) :
    (token.shift offset).span = token.span.shift offset := rfl

theorem shift_zero (token : Token) : token.shift 0 = token := by
  rw [shift, Span.shift_zero]

end Token

namespace Expr

mutual

/-- A tree with every span in it moved; a row has none of its own. -/
def shift (offset : Int) : Expr → Expr
  | .number value span => .number value (span.shift offset)
  | .bool value span => .bool value (span.shift offset)
  | .var name span => .var name (span.shift offset)
  | .letIn name binding body span =>
      .letIn name (shift offset binding) (shift offset body) (span.shift offset)
  | .letTop name binding span => .letTop name (shift offset binding) (span.shift offset)
  | .binary sign left right span =>
      .binary sign (shift offset left) (shift offset right) (span.shift offset)
  | .lambda params body span => .lambda params (shift offset body) (span.shift offset)
  | .function name params body span => .function name params (shift offset body) (span.shift offset)
  | .call callee args span => .call (shift offset callee) (shiftAll offset args) (span.shift offset)
  | .cond branches otherwise span =>
      .cond (shiftBranches offset branches) (shift offset otherwise) (span.shift offset)
  | .dataType name variants span => .dataType name variants (span.shift offset)
  | .construct tag fields span => .construct tag (shiftAll offset fields) (span.shift offset)
  | .matching scrutinee arms span =>
      .matching (shift offset scrutinee) (shiftArms offset arms) (span.shift offset)
  | .row items => .row (shiftAll offset items)

def shiftAll (offset : Int) : List Expr → List Expr
  | [] => []
  | expr :: exprs => shift offset expr :: shiftAll offset exprs

def shiftBranches (offset : Int) : List (Expr × Expr) → List (Expr × Expr)
  | [] => []
  | (condition, body) :: branches =>
      (shift offset condition, shift offset body) :: shiftBranches offset branches

def shiftArms (offset : Int) : List (Pattern × Expr) → List (Pattern × Expr)
  | [] => []
  | (pattern, body) :: arms => (pattern, shift offset body) :: shiftArms offset arms

end

mutual

theorem shift_zero : ∀ tree : Expr, tree.shift 0 = tree
  | .number value span => by rw [shift, span.shift_zero]
  | .bool value span => by rw [shift, span.shift_zero]
  | .var name span => by rw [shift, span.shift_zero]
  | .letIn name binding body span => by
      rw [shift, shift_zero binding, shift_zero body, span.shift_zero]
  | .letTop name binding span => by rw [shift, shift_zero binding, span.shift_zero]
  | .binary sign left right span => by
      rw [shift, shift_zero left, shift_zero right, span.shift_zero]
  | .lambda params body span => by rw [shift, shift_zero body, span.shift_zero]
  | .function name params body span => by rw [shift, shift_zero body, span.shift_zero]
  | .call callee args span => by
      rw [shift, shift_zero callee, shiftAll_zero args, span.shift_zero]
  | .cond branches otherwise span => by
      rw [shift, shiftBranches_zero branches, shift_zero otherwise, span.shift_zero]
  | .dataType name variants span => by rw [shift, span.shift_zero]
  | .construct tag fields span => by rw [shift, shiftAll_zero fields, span.shift_zero]
  | .matching scrutinee arms span => by
      rw [shift, shift_zero scrutinee, shiftArms_zero arms, span.shift_zero]
  | .row items => by rw [shift, shiftAll_zero items]

theorem shiftAll_zero : ∀ exprs : List Expr, shiftAll 0 exprs = exprs
  | [] => rfl
  | expr :: exprs => by rw [shiftAll, shift_zero expr, shiftAll_zero exprs]

theorem shiftBranches_zero : ∀ branches : List (Expr × Expr), shiftBranches 0 branches = branches
  | [] => rfl
  | (condition, body) :: branches => by
      rw [shiftBranches, shift_zero condition, shift_zero body, shiftBranches_zero branches]

theorem shiftArms_zero : ∀ arms : List (Pattern × Expr), shiftArms 0 arms = arms
  | [] => rfl
  | (pattern, body) :: arms => by rw [shiftArms, shift_zero body, shiftArms_zero arms]

end

/-- The second tree is the first one moved, and so is its own span. -/
structure Shifted (offset : Int) (tree moved : Expr) : Prop where
  same : moved = tree.shift offset
  span : moved.span = tree.span.shift offset

theorem Shifted.of_node {offset : Int} {tree moved : Expr} (same : moved = tree.shift offset)
    (node : ∀ items, tree ≠ .row items) : Shifted offset tree moved := by
  subst same
  refine ⟨rfl, ?_⟩
  cases tree with
  | row items => exact absurd rfl (node items)
  | _ => rfl

theorem shiftAll_of_shifted {offset : Int} {trees moved : List Expr}
    (all : List.Forall₂ (Shifted offset) trees moved) : moved = shiftAll offset trees := by
  induction all with
  | nil => rfl
  | cons first _ ih => rw [shiftAll, first.same, ih]

structure ShiftedBranch (offset : Int) (branch moved : Expr × Expr) : Prop where
  condition : Shifted offset branch.1 moved.1
  body : Shifted offset branch.2 moved.2

theorem shiftBranches_of_shifted {offset : Int} {branches moved : List (Expr × Expr)}
    (all : List.Forall₂ (ShiftedBranch offset) branches moved) :
    moved = shiftBranches offset branches := by
  induction all with
  | nil => rfl
  | cons first _ ih => rw [shiftBranches, ← first.condition.same, ← first.body.same, ih]

structure ShiftedArm (offset : Int) (arm moved : Pattern × Expr) : Prop where
  pattern : moved.1 = arm.1
  body : Shifted offset arm.2 moved.2

theorem shiftArms_of_shifted {offset : Int} {arms moved : List (Pattern × Expr)}
    (all : List.Forall₂ (ShiftedArm offset) arms moved) : moved = shiftArms offset arms := by
  induction all with
  | nil => rfl
  | cons first _ ih => rw [shiftArms, ← first.pattern, ← first.body.same, ih]

end Expr
end FernLang
