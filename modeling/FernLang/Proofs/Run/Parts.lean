import FernLang.Expr

/-!
Parts of trees. A tree is inside another when it is that tree or inside one of its parts. It is exposed
there when no lambda and no function stands around it: evaluation of the whole may come to it
without making a call.
-/

namespace FernLang.Expr

def parts : Expr → List Expr
  | .number _ _ | .bool _ _ | .var _ _ | .dataType _ _ _ => []
  | .letIn _ binding body _ => [binding, body]
  | .letTop _ binding _ => [binding]
  | .binary _ left right _ => [left, right]
  | .lambda _ body _ | .function _ _ body _ => [body]
  | .call callee args _ => callee :: args
  | .cond branches otherwise _ => otherwise :: branches.flatMap fun branch => [branch.1, branch.2]
  | .construct _ fields _ => fields
  | .matching scrutinee arms _ => scrutinee :: arms.map Prod.snd
  | .row items => items

/-- The trees right below a tree that no call stands in front of. -/
def openParts : Expr → List Expr
  | .lambda _ _ _ | .function _ _ _ _ => []
  | tree => tree.parts

/-- What is reached from a tree by going down step after step. -/
inductive Reached (step : Expr → List Expr) (node : Expr) : Expr → Prop
  | whole : Reached step node node
  | under {part tree : Expr} (member : part ∈ step tree) (rest : Reached step node part) :
      Reached step node tree

abbrev Inside : Expr → Expr → Prop := Reached parts

abbrev Exposed : Expr → Expr → Prop := Reached openParts

section

variable {step wider : Expr → List Expr} {node middle tree : Expr}

theorem Reached.trans (low : Reached step node middle) (high : Reached step middle tree) :
    Reached step node tree := by
  induction high with
  | whole => exact low
  | under member _ ih => exact .under member ih

theorem Reached.mono (sub : ∀ tree, ∀ part ∈ step tree, part ∈ wider tree)
    (reached : Reached step node tree) : Reached wider node tree := by
  induction reached with
  | whole => exact .whole
  | under member _ ih => exact .under (sub _ _ member) ih

theorem Reached.part {part : Expr} (member : part ∈ step tree) : Reached step part tree :=
  .under member .whole

end

theorem mem_parts_of_open : ∀ tree : Expr, ∀ part ∈ tree.openParts, part ∈ tree.parts := by
  intro tree part member
  cases tree with
  | lambda | function => cases member
  | _ => exact member

theorem Reached.inside {node tree : Expr} (exposed : node.Exposed tree) : node.Inside tree :=
  exposed.mono mem_parts_of_open

def Every (good : Expr → Prop) (tree : Expr) : Prop := ∀ node, node.Inside tree → good node

section

variable {good better : Expr → Prop} {tree : Expr}

theorem Every.here (every : tree.Every good) : good tree := every tree .whole

theorem Every.inside {node : Expr} (every : tree.Every good) (inner : node.Inside tree) :
    node.Every good :=
  fun low reached => every low (reached.trans inner)

theorem every_iff : tree.Every good ↔ good tree ∧ ∀ part ∈ tree.parts, part.Every good := by
  constructor
  · intro every
    exact ⟨every.here, fun part member => every.inside (.part member)⟩
  · rintro ⟨here, below⟩ node reached
    cases reached with
    | whole => exact here
    | under member rest => exact below _ member node rest

theorem every_leaf (leaf : tree.parts = []) (here : good tree) : tree.Every good :=
  every_iff.2 ⟨here, by simp [leaf]⟩

end

def owned? : Expr → Option (List String × Expr)
  | .lambda params body _ | .function _ params body _ => some (params, body)
  | _ => none

theorem mem_parts_of_owned {tree body : Expr} {params : List String}
    (owned : tree.owned? = some (params, body)) : body ∈ tree.parts := by
  cases tree with
  | lambda | function =>
      cases owned
      exact List.mem_singleton_self _
  | _ => cases owned

/-- The expression that an item has evaluated. Declarations have none, and neither has a scoped let,
which is refused as an item. -/
def subject? : Expr → Option Expr
  | .letTop _ binding _ => some binding
  | .letIn _ _ _ _ | .function _ _ _ _ | .dataType _ _ _ => none
  | item => some item

theorem subject?_cases {item expr : Expr} (subject : item.subject? = some expr) :
    expr = item ∨ expr ∈ item.openParts := by
  cases item with
  | letTop name binding span =>
      cases subject
      exact .inr List.mem_cons_self
  | letIn | function | dataType => cases subject
  | _ =>
      cases subject
      exact .inl rfl

/-- The functions of a program: its lambdas and functions at any depth, and the builders of its
variants. -/
def Defines (program : List Expr) (params : List String) (body : Expr) : Prop :=
  ∃ item ∈ program ++ builders program, ∃ owner : Expr,
    owner.Inside item ∧ owner.owned? = some (params, body)

end FernLang.Expr
