import FernLang.Expr

/-!
How high trees are: the most expressions that stand in one another. A chain of operators or calls
is read in one go however long it is, and is as high as it is long.
-/

namespace FernLang.Expr

mutual

def height : Expr → Nat
  | .number _ _ | .bool _ _ | .var _ _ | .dataType _ _ _ => 1
  | .letIn _ binding body _ => 1 + max (height binding) (height body)
  | .letTop _ binding _ => 1 + height binding
  | .binary _ left right _ => 1 + max (height left) (height right)
  | .lambda _ body _ | .function _ _ body _ => 1 + height body
  | .call callee args _ => 1 + max (height callee) (heightAll args)
  | .cond branches otherwise _ => 1 + max (heightBranches branches) (height otherwise)
  | .construct _ fields _ => 1 + heightAll fields
  | .matching scrutinee arms _ => 1 + max (height scrutinee) (heightArms arms)
  | .row items => 1 + heightAll items

def heightAll : List Expr → Nat
  | [] => 0
  | expr :: exprs => max (height expr) (heightAll exprs)

def heightBranches : List (Expr × Expr) → Nat
  | [] => 0
  | (condition, body) :: branches =>
      max (max (height condition) (height body)) (heightBranches branches)

def heightArms : List (Pattern × Expr) → Nat
  | [] => 0
  | (_, body) :: arms => max (height body) (heightArms arms)

end

def heightLimit : Nat := 1000

end FernLang.Expr
