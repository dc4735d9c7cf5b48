import FernLang.Proofs.Grammar.Phrase

/-!
The trees that can be written down. Functions, data types and top-level lets are items and never
stand inside an expression; numbers are not negative, signs are those of the operators, names in one
list differ, and nothing that needs a branch, an arm or a variant is without one.
-/

namespace FernLang.Grammar

inductive Surface : Expr → Prop
  | number (value : Nat) (span : Span) : Surface (.number value span)
  | bool (value : Bool) (span : Span) : Surface (.bool value span)
  | var (name : String) (span : Span) : Surface (.var name span)
  | letIn {name : String} {binding body : Expr} {span : Span} (bound : Surface binding)
      (inner : Surface body) : Surface (.letIn name binding body span)
  | binary (operator : Operator) {left right : Expr} {span : Span} (front : Surface left)
      (back : Surface right) : Surface (.binary (.text operator.symbol) left right span)
  | lambda {params : List String} {body : Expr} {span : Span} (distinct : params.Nodup)
      (inner : Surface body) : Surface (.lambda params body span)
  | call {callee : Expr} {args : List Expr} {span : Span} (front : Surface callee)
      (each : ∀ arg ∈ args, Surface arg) : Surface (.call callee args span)
  | cond {branches : List (Expr × Expr)} {otherwise : Expr} {span : Span} (some : branches ≠ [])
      (conditions : ∀ branch ∈ branches, Surface branch.1)
      (bodies : ∀ branch ∈ branches, Surface branch.2) (last : Surface otherwise) :
      Surface (.cond branches otherwise span)
  | matching {scrutinee : Expr} {arms : List (Pattern × Expr)} {span : Span} (some : arms ≠ [])
      (subject : Surface scrutinee) (bodies : ∀ arm ∈ arms, Surface arm.2) :
      Surface (.matching scrutinee arms span)

inductive SurfaceItem : Expr → Prop
  | function {name : String} {params : List String} {body : Expr} {span : Span}
      (distinct : params.Nodup) (inner : Surface body) : SurfaceItem (.function name params body span)
  | dataType {name : String} {variants : List (String × List String)} {span : Span}
      (some : variants ≠ []) (distinct : (variants.map Prod.fst).Nodup)
      (fields : ∀ variant ∈ variants, variant.2.Nodup) : SurfaceItem (.dataType name variants span)
  | letTop {name : String} {binding : Expr} {span : Span} (bound : Surface binding) :
      SurfaceItem (.letTop name binding span)
  | expression {tree : Expr} (inner : Surface tree) : SurfaceItem tree

section

variable {discipline : Discipline} {shape : Shape} {tokens : List Token} {tree : Expr}
  {part : Shape → List Token → Expr → Prop}

theorem surface_coloned {pair : Expr × Expr}
    (each : ∀ shape inner tree, part shape inner tree → Surface tree)
    (written : Coloned (Shaped part) (Shaped part) tokens pair) :
    Surface pair.1 ∧ Surface pair.2 := by
  obtain ⟨⟨first, head⟩, ⟨second, tail⟩⟩ := written
  exact ⟨each _ _ _ head, each _ _ _ tail⟩

theorem surface_arm {pair : Pattern × Expr}
    (each : ∀ shape inner tree, part shape inner tree → Surface tree)
    (written : Coloned Match (Shaped part) tokens pair) : Surface pair.2 := by
  obtain ⟨head, ⟨shape, tail⟩⟩ := written
  exact each _ _ _ tail

theorem Phrase.surface (phrase : Phrase discipline shape tokens tree) : Surface tree := by
  induction phrase with
  | number => exact .number _ _
  | truth => exact .bool _ _
  | var => exact .var _ _
  | paren inner ih => exact ih
  | negation inner fits ih => exact .binary .sub (.number 0 _) ih
  | letIn bound inner apart ihBound ihInner => exact .letIn ihBound ihInner
  | lambda listed distinct inner ih => exact .lambda distinct ih
  | @cond _ _ _ _ _ branches _ _ _ _ _ part each head tail last ihParts ihLast =>
      have first := surface_coloned ihParts head
      have others : ∀ branch ∈ branches, Surface branch.1 ∧ Surface branch.2 :=
        tail.forall fun _ _ one => surface_coloned ihParts one
      refine .cond (by simp) ?_ ?_ ihLast
      · intro branch member
        rcases List.mem_cons.mp member with rfl | later
        · exact first.1
        · exact (others branch later).1
      · intro branch member
        rcases List.mem_cons.mp member with rfl | later
        · exact first.2
        · exact (others branch later).2
  | @matching _ _ _ _ _ _ arms _ _ _ part each subject head tail ihParts ihSubject =>
      have others : ∀ arm ∈ arms, Surface arm.2 := tail.forall fun _ _ one => surface_arm ihParts one
      refine .matching (by simp) ihSubject ?_
      intro arm member
      rcases List.mem_cons.mp member with rfl | later
      · exact surface_arm ihParts head
      · exact others arm later
  | binary front back leftFits rightFits ihFront ihBack => exact .binary _ ihFront ihBack
  | call part each front fits listed ihParts ihFront =>
      exact .call ihFront (listed.forall fun inner tree ⟨shape, one⟩ => ihParts shape inner tree one)

theorem Variant.distinct_fields {variant : String × List String} (written : Variant tokens variant) :
    variant.2.Nodup := by
  cases written with
  | bare => exact List.nodup_nil
  | fields listed distinct => exact distinct

theorem Item.surface (item : Item discipline tokens tree) : SurfaceItem tree := by
  cases item with
  | function listed distinct inner => exact .function distinct inner.surface
  | dataType head tail distinct =>
      refine .dataType (by simp) distinct ?_
      intro variant member
      rcases List.mem_cons.mp member with rfl | later
      · exact head.distinct_fields
      · exact tail.forall (fun _ _ one => one.distinct_fields) variant later
  | letTop bound => exact .letTop bound.surface
  | expression phrase => exact .expression phrase.surface

theorem Program.surface {program : List Expr} (written : Program discipline tokens program) :
    ∀ item ∈ program, SurfaceItem item := by
  induction written with
  | empty => simp
  | more one others ih =>
      intro item member
      rcases List.mem_cons.mp member with rfl | later
      · exact one.surface
      · exact ih item later

structure Discipline.Stricter (strict loose : Discipline) : Prop where
  left : ∀ operator shape, strict.left operator shape → loose.left operator shape
  right : ∀ operator shape, strict.right operator shape → loose.right operator shape
  operand : ∀ shape, strict.operand shape → loose.operand shape
  callee : ∀ shape, strict.callee shape → loose.callee shape
  body : ∀ tokens, strict.body tokens → loose.body tokens

theorem Discipline.stricter_free (discipline : Discipline) : discipline.Stricter .free :=
  ⟨fun _ _ _ => trivial, fun _ _ _ => trivial, fun _ _ => trivial, fun _ _ => trivial,
    fun _ _ => trivial⟩

theorem Phrase.mono {loose : Discipline} (stricter : discipline.Stricter loose)
    (phrase : Phrase discipline shape tokens tree) : Phrase loose shape tokens tree := by
  induction phrase with
  | number => exact .number
  | truth => exact .truth
  | var => exact .var
  | paren inner ih => exact .paren ih
  | negation inner fits ih => exact .negation ih (stricter.operand _ fits)
  | letIn bound inner apart ihBound ihInner => exact .letIn ihBound ihInner (stricter.body _ apart)
  | lambda listed distinct inner ih => exact .lambda listed distinct ih
  | cond part each head tail last ihParts ihLast => exact .cond part ihParts head tail ihLast
  | matching part each subject head tail ihParts ihSubject =>
      exact .matching part ihParts ihSubject head tail
  | binary front back leftFits rightFits ihFront ihBack =>
      exact .binary ihFront ihBack (stricter.left _ _ leftFits) (stricter.right _ _ rightFits)
  | call part each front fits listed ihParts ihFront =>
      exact .call part ihParts ihFront (stricter.callee _ fits) listed

theorem Item.mono {loose : Discipline} (stricter : discipline.Stricter loose)
    (item : Item discipline tokens tree) : Item loose tokens tree := by
  cases item with
  | function listed distinct inner => exact .function listed distinct (inner.mono stricter)
  | dataType head tail distinct => exact .dataType head tail distinct
  | letTop bound => exact .letTop (bound.mono stricter)
  | expression phrase => exact .expression (phrase.mono stricter)

theorem Item.free (item : Item discipline tokens tree) : Item .free tokens tree :=
  item.mono discipline.stricter_free

theorem Program.free {program : List Expr} (written : Program discipline tokens program) :
    Program .free tokens program := by
  induction written with
  | empty => exact .empty
  | more one others ih => exact .more one.free ih

end

end FernLang.Grammar
