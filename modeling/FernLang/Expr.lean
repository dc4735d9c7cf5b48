import FernLang.Json
import FernLang.Span

/-!
Trees of the language. A program is a list of expressions; functions, data types and top-level
lets are items of a program, though a tree may hold them anywhere. Names and the signs of binary
expressions are texts when they were read from source; a tree from elsewhere may have any values in
their places. Every expression but a bare row carries the span of text it was read from.
-/

namespace FernLang

/-- What a value is matched against. The name `_` matches anything and binds nothing. -/
inductive Pattern (Name : Type := String) where
  | bool (value : Bool)
  | number (value : Int)
  | var (name : Name)
  | data (tag : Name) (fields : List (Pattern Name))

inductive Expr (Name : Type := String) where
  | number (value : Int) (span : Span)
  | bool (value : Bool) (span : Span)
  | var (name : Name) (span : Span)
  | letIn (name : Name) (binding body : Expr Name) (span : Span)
  | letTop (name : Name) (binding : Expr Name) (span : Span)
  | binary (sign : Json) (left right : Expr Name) (span : Span)
  | lambda (params : List Name) (body : Expr Name) (span : Span)
  | function (name : Name) (params : List Name) (body : Expr Name) (span : Span)
  | call (callee : Expr Name) (args : List (Expr Name)) (span : Span)
  | cond (branches : List (Expr Name × Expr Name)) (otherwise : Expr Name) (span : Span)
  | dataType (name : Name) (variants : List (Name × List Name)) (span : Span)
  | construct (tag : Name) (fields : List (Expr Name)) (span : Span)
  | matching (scrutinee : Expr Name) (arms : List (Pattern Name × Expr Name)) (span : Span)
  | row (items : List (Expr Name))

instance {Name : Type} : Inhabited (Pattern Name) := ⟨.bool false⟩

instance {Name : Type} : Inhabited (Expr Name) := ⟨.row []⟩

namespace Expr

def span : Expr → Span
  | .number _ span | .bool _ span | .var _ span | .letIn _ _ _ span | .letTop _ _ span
  | .binary _ _ _ span | .lambda _ _ span | .function _ _ _ span | .call _ _ span
  | .cond _ _ span | .dataType _ _ span | .construct _ _ span | .matching _ _ span => span
  | .row _ => .origin

def builder (tag : String) (fields : List String) (span : Span) : Expr :=
  .function tag fields (.construct tag (fields.map (.var · span)) span) span

def builders (program : List Expr) : List Expr :=
  program.flatMap fun
    | .dataType _ variants span => variants.map fun variant => builder variant.1 variant.2 span
    | _ => []

end Expr
end FernLang
