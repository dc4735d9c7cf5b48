import Mathlib.Data.List.Forall2
import FernLang.Expr.Alike
import FernLang.Proofs.Run.Parts
import FernLang.Proofs.Text.Quoted

/-!
Trees that differ in spans only. Every tree has a bare form without spans, and two trees are alike
when their bare forms are one, so being alike is an equivalence. Alike trees have the same form
at the root and alike parts.
-/

namespace FernLang

theorem Json.eq_of_alike_text {first second : String}
    (same : (Json.text first).alike (.text second) = true) : first = second := by
  rw [alike, key, key] at same
  exact Text.quoted_injective (eq_of_beq same)

namespace Pattern

mutual

theorem alike_iff : ∀ first second : Pattern, first.alike second = true ↔ first = second
  | .bool value, second => by cases second <;> simp [alike]
  | .number value, second => by cases second <;> simp [alike]
  | .var name, second => by cases second <;> simp [alike]
  | .data tag fields, second => by
      cases second with
      | data other others => simp [alike, alikeAll_iff fields others]
      | _ => simp [alike]

theorem alikeAll_iff : ∀ first second : List Pattern, alikeAll first second = true ↔ first = second
  | [], second => by cases second <;> simp [alikeAll]
  | pattern :: patterns, second => by
      cases second with
      | nil => simp [alikeAll]
      | cons other others => simp [alikeAll, alike_iff pattern other, alikeAll_iff patterns others]

end

end Pattern

namespace Expr

mutual

/-- A tree without its spans, where a sign is held by its key. -/
def bare : Expr → Expr
  | .number value _ => .number value .origin
  | .bool value _ => .bool value .origin
  | .var name _ => .var name .origin
  | .letIn name binding body _ => .letIn name (bare binding) (bare body) .origin
  | .letTop name binding _ => .letTop name (bare binding) .origin
  | .binary sign left right _ => .binary (.text sign.key) (bare left) (bare right) .origin
  | .lambda params body _ => .lambda params (bare body) .origin
  | .function name params body _ => .function name params (bare body) .origin
  | .call callee args _ => .call (bare callee) (bareAll args) .origin
  | .cond branches otherwise _ => .cond (bareBranches branches) (bare otherwise) .origin
  | .dataType name variants _ => .dataType name variants .origin
  | .construct tag fields _ => .construct tag (bareAll fields) .origin
  | .matching scrutinee arms _ => .matching (bare scrutinee) (bareArms arms) .origin
  | .row items => .row (bareAll items)

def bareAll : List Expr → List Expr
  | [] => []
  | expr :: exprs => bare expr :: bareAll exprs

def bareBranches : List (Expr × Expr) → List (Expr × Expr)
  | [] => []
  | (condition, body) :: branches => (bare condition, bare body) :: bareBranches branches

def bareArms : List (Pattern × Expr) → List (Pattern × Expr)
  | [] => []
  | (pattern, body) :: arms => (pattern, bare body) :: bareArms arms

end

mutual

theorem alike_iff : ∀ first second : Expr, first.alike second = true ↔ first.bare = second.bare
  | .number value span, second => by cases second <;> simp [alike, bare]
  | .bool value span, second => by cases second <;> simp [alike, bare]
  | .var name span, second => by cases second <;> simp [alike, bare]
  | .letIn name binding body span, second => by
      cases second with
      | letIn _ binding' body' _ =>
          simp [alike, bare, alike_iff binding binding', alike_iff body body', and_assoc]
      | _ => simp [alike, bare]
  | .letTop name binding span, second => by
      cases second with
      | letTop _ binding' _ => simp [alike, bare, alike_iff binding binding']
      | _ => simp [alike, bare]
  | .binary sign left right span, second => by
      cases second with
      | binary sign' left' right' _ =>
          simp [alike, bare, Json.alike, alike_iff left left', alike_iff right right', and_assoc]
      | _ => simp [alike, bare]
  | .lambda params body span, second => by
      cases second with
      | lambda _ body' _ => simp [alike, bare, alike_iff body body']
      | _ => simp [alike, bare]
  | .function name params body span, second => by
      cases second with
      | function _ _ body' _ => simp [alike, bare, alike_iff body body', and_assoc]
      | _ => simp [alike, bare]
  | .call callee args span, second => by
      cases second with
      | call callee' args' _ => simp [alike, bare, alike_iff callee callee', alikeAll_iff args args']
      | _ => simp [alike, bare]
  | .cond branches otherwise span, second => by
      cases second with
      | cond branches' otherwise' _ =>
          simp [alike, bare, alikeBranches_iff branches branches', alike_iff otherwise otherwise']
      | _ => simp [alike, bare]
  | .dataType name variants span, second => by cases second <;> simp [alike, bare]
  | .construct tag fields span, second => by
      cases second with
      | construct _ fields' _ => simp [alike, bare, alikeAll_iff fields fields']
      | _ => simp [alike, bare]
  | .matching scrutinee arms span, second => by
      cases second with
      | matching scrutinee' arms' _ =>
          simp [alike, bare, alike_iff scrutinee scrutinee', alikeArms_iff arms arms']
      | _ => simp [alike, bare]
  | .row items, second => by
      cases second with
      | row items' => simp [alike, bare, alikeAll_iff items items']
      | _ => simp [alike, bare]

theorem alikeAll_iff : ∀ first second : List Expr,
    alikeAll first second = true ↔ bareAll first = bareAll second
  | [], second => by cases second <;> simp [alikeAll, bareAll]
  | expr :: exprs, second => by
      cases second with
      | nil => simp [alikeAll, bareAll]
      | cons other others => simp [alikeAll, bareAll, alike_iff expr other, alikeAll_iff exprs others]

theorem alikeBranches_iff : ∀ first second : List (Expr × Expr),
    alikeBranches first second = true ↔ bareBranches first = bareBranches second
  | [], second => by cases second <;> simp [alikeBranches, bareBranches]
  | (condition, body) :: branches, second => by
      cases second with
      | nil => simp [alikeBranches, bareBranches]
      | cons other others =>
          obtain ⟨condition', body'⟩ := other
          simp [alikeBranches, bareBranches, alike_iff condition condition', alike_iff body body',
            alikeBranches_iff branches others]

theorem alikeArms_iff : ∀ first second : List (Pattern × Expr),
    alikeArms first second = true ↔ bareArms first = bareArms second
  | [], second => by cases second <;> simp [alikeArms, bareArms]
  | (pattern, body) :: arms, second => by
      cases second with
      | nil => simp [alikeArms, bareArms]
      | cons other others =>
          obtain ⟨pattern', body'⟩ := other
          simp [alikeArms, bareArms, Pattern.alike_iff pattern pattern', alike_iff body body',
            alikeArms_iff arms others]

end

abbrev IsAlike (tree other : Expr) : Prop := tree.alike other = true

theorem IsAlike.refl (tree : Expr) : tree.IsAlike tree := (alike_iff tree tree).2 rfl

theorem IsAlike.of_eq {tree other : Expr} (same : tree = other) : tree.IsAlike other := by
  subst same
  exact .refl tree

theorem IsAlike.symm {first second : Expr} (same : first.IsAlike second) : second.IsAlike first :=
  (alike_iff second first).2 ((alike_iff first second).1 same).symm

theorem IsAlike.trans {first second third : Expr} (early : first.IsAlike second)
    (late : second.IsAlike third) : first.IsAlike third :=
  (alike_iff first third).2 (((alike_iff first second).1 early).trans ((alike_iff second third).1 late))

theorem alikeAll_forall {first second : List Expr} (same : alikeAll first second = true) :
    List.Forall₂ IsAlike first second := by
  induction first generalizing second with
  | nil =>
      cases second with
      | nil => exact .nil
      | cons other others => simp [alikeAll] at same
  | cons expr exprs ih =>
      cases second with
      | nil => simp [alikeAll] at same
      | cons other others =>
          rw [alikeAll, Bool.and_eq_true] at same
          exact .cons same.1 (ih same.2)

theorem alikeBranches_forall {first second : List (Expr × Expr)}
    (same : alikeBranches first second = true) :
    List.Forall₂ (fun one other => one.1.IsAlike other.1 ∧ one.2.IsAlike other.2) first second := by
  induction first generalizing second with
  | nil =>
      cases second with
      | nil => exact .nil
      | cons other others => simp [alikeBranches] at same
  | cons branch branches ih =>
      obtain ⟨condition, body⟩ := branch
      cases second with
      | nil => simp [alikeBranches] at same
      | cons other others =>
          rw [alikeBranches, Bool.and_eq_true, Bool.and_eq_true] at same
          exact .cons same.1 (ih same.2)

theorem alikeArms_forall {first second : List (Pattern × Expr)}
    (same : alikeArms first second = true) :
    List.Forall₂ (fun one other => one.1 = other.1 ∧ one.2.IsAlike other.2) first second := by
  induction first generalizing second with
  | nil =>
      cases second with
      | nil => exact .nil
      | cons other others => simp [alikeArms] at same
  | cons arm arms ih =>
      obtain ⟨pattern, body⟩ := arm
      cases second with
      | nil => simp [alikeArms] at same
      | cons other others =>
          rw [alikeArms, Bool.and_eq_true, Bool.and_eq_true, Pattern.alike_iff] at same
          exact .cons same.1 (ih same.2)

/-- Trees of one form at the root whose parts are related. The signs are texts, and there are no bare
rows. -/
inductive Matches (related : Expr → Expr → Prop) : Expr → Expr → Prop
  | number (value : Int) (span span' : Span) : Matches related (.number value span) (.number value span')
  | bool (value : Bool) (span span' : Span) : Matches related (.bool value span) (.bool value span')
  | var (name : String) (span span' : Span) : Matches related (.var name span) (.var name span')
  | letIn (name : String) {binding binding' body body' : Expr} (span span' : Span)
      (bindings : related binding binding') (bodies : related body body') :
      Matches related (.letIn name binding body span) (.letIn name binding' body' span')
  | letTop (name : String) {binding binding' : Expr} (span span' : Span)
      (bindings : related binding binding') :
      Matches related (.letTop name binding span) (.letTop name binding' span')
  | binary (symbol : String) {left left' right right' : Expr} (span span' : Span)
      (lefts : related left left') (rights : related right right') :
      Matches related (.binary (.text symbol) left right span) (.binary (.text symbol) left' right' span')
  | lambda (params : List String) {body body' : Expr} (span span' : Span)
      (bodies : related body body') :
      Matches related (.lambda params body span) (.lambda params body' span')
  | function (name : String) (params : List String) {body body' : Expr} (span span' : Span)
      (bodies : related body body') :
      Matches related (.function name params body span) (.function name params body' span')
  | call {callee callee' : Expr} {args args' : List Expr} (span span' : Span)
      (callees : related callee callee') (each : List.Forall₂ related args args') :
      Matches related (.call callee args span) (.call callee' args' span')
  | cond {branches branches' : List (Expr × Expr)} {otherwise otherwise' : Expr} (span span' : Span)
      (each : List.Forall₂ (fun one other => related one.1 other.1 ∧ related one.2 other.2)
        branches branches')
      (last : related otherwise otherwise') :
      Matches related (.cond branches otherwise span) (.cond branches' otherwise' span')
  | dataType (name : String) (variants : List (String × List String)) (span span' : Span) :
      Matches related (.dataType name variants span) (.dataType name variants span')
  | construct (tag : String) {fields fields' : List Expr} (span span' : Span)
      (each : List.Forall₂ related fields fields') :
      Matches related (.construct tag fields span) (.construct tag fields' span')
  | matching {scrutinee scrutinee' : Expr} {arms arms' : List (Pattern × Expr)} (span span' : Span)
      (scrutinees : related scrutinee scrutinee')
      (each : List.Forall₂ (fun one other => one.1 = other.1 ∧ related one.2 other.2) arms arms') :
      Matches related (.matching scrutinee arms span) (.matching scrutinee' arms' span')

/-- What a program is made of: a sign is a text, and no row stands bare. -/
def isNode : Expr → Bool
  | .row _ => false
  | .binary sign _ _ _ => match sign with
    | .text _ => true
    | _ => false
  | _ => true

structure Twin (tree other : Expr) : Prop where
  first : tree.Every (·.isNode = true)
  second : other.Every (·.isNode = true)
  alike : tree.IsAlike other

theorem forall₂_members {α : Type} {items others : List α} {related wider : α → α → Prop}
    (each : List.Forall₂ related items others)
    (step : ∀ item ∈ items, ∀ other ∈ others, related item other → wider item other) :
    List.Forall₂ wider items others := by
  refine List.forall₂_iff_zip.2 ⟨each.length_eq, fun member => ?_⟩
  obtain ⟨left, right⟩ := List.of_mem_zip member
  exact step _ left _ right (List.forall₂_zip each member)

namespace Twin

variable {tree other : Expr}

theorem part {one two : Expr} (twin : Twin tree other) (left : one ∈ tree.parts)
    (right : two ∈ other.parts) (same : one.IsAlike two) : Twin one two :=
  ⟨twin.first.inside (.part left), twin.second.inside (.part right), same⟩

/-- Twins have one form, and their parts are twins. -/
theorem matched (twin : Twin tree other) : Matches Twin tree other := by
  have same : tree.alike other = true := twin.alike
  cases tree with
  | number value span =>
      cases other with
      | number value' span' =>
          rw [Expr.alike, beq_iff_eq] at same
          cases same
          exact .number ..
      | _ => simp [Expr.alike] at same
  | bool value span =>
      cases other with
      | bool value' span' =>
          rw [Expr.alike, beq_iff_eq] at same
          cases same
          exact .bool ..
      | _ => simp [Expr.alike] at same
  | var name span =>
      cases other with
      | var name' span' =>
          rw [Expr.alike, beq_iff_eq] at same
          cases same
          exact .var ..
      | _ => simp [Expr.alike] at same
  | letIn name binding body span =>
      cases other with
      | letIn name' binding' body' span' =>
          simp only [Expr.alike, Bool.and_eq_true, beq_iff_eq] at same
          obtain ⟨⟨rfl, bound⟩, inner⟩ := same
          exact .letIn _ _ _ (twin.part (by simp [parts]) (by simp [parts]) bound)
            (twin.part (by simp [parts]) (by simp [parts]) inner)
      | _ => simp [Expr.alike] at same
  | letTop name binding span =>
      cases other with
      | letTop name' binding' span' =>
          simp only [Expr.alike, Bool.and_eq_true, beq_iff_eq] at same
          obtain ⟨rfl, bound⟩ := same
          exact .letTop _ _ _ (twin.part (by simp [parts]) (by simp [parts]) bound)
      | _ => simp [Expr.alike] at same
  | binary sign left right span =>
      cases other with
      | binary sign' left' right' span' =>
          simp only [Expr.alike, Bool.and_eq_true] at same
          obtain ⟨⟨signs, lefts⟩, rights⟩ := same
          have here := twin.first.here
          have there := twin.second.here
          cases sign with
          | text symbol =>
              cases sign' with
              | text symbol' =>
                  cases Json.eq_of_alike_text signs
                  exact .binary _ _ _ (twin.part (by simp [parts]) (by simp [parts]) lefts)
                    (twin.part (by simp [parts]) (by simp [parts]) rights)
              | _ => cases there
          | _ => cases here
      | _ => simp [Expr.alike] at same
  | lambda params body span =>
      cases other with
      | lambda params' body' span' =>
          simp only [Expr.alike, Bool.and_eq_true, beq_iff_eq] at same
          obtain ⟨rfl, inner⟩ := same
          exact .lambda _ _ _ (twin.part (by simp [parts]) (by simp [parts]) inner)
      | _ => simp [Expr.alike] at same
  | function name params body span =>
      cases other with
      | function name' params' body' span' =>
          simp only [Expr.alike, Bool.and_eq_true, beq_iff_eq] at same
          obtain ⟨⟨rfl, rfl⟩, inner⟩ := same
          exact .function _ _ _ _ (twin.part (by simp [parts]) (by simp [parts]) inner)
      | _ => simp [Expr.alike] at same
  | call callee args span =>
      cases other with
      | call callee' args' span' =>
          rw [Expr.alike, Bool.and_eq_true] at same
          refine .call _ _ (twin.part (by simp [parts]) (by simp [parts]) same.1) ?_
          apply forall₂_members (alikeAll_forall same.2)
          intro arg member arg' member' alike
          exact twin.part (by simp [parts, member]) (by simp [parts, member']) alike
      | _ => simp [Expr.alike] at same
  | cond branches otherwise span =>
      cases other with
      | cond branches' otherwise' span' =>
          rw [Expr.alike, Bool.and_eq_true] at same
          refine .cond _ _ ?_ (twin.part (by simp [parts]) (by simp [parts]) same.2)
          apply forall₂_members (alikeBranches_forall same.1)
          intro branch member branch' member' alike
          constructor
          · exact twin.part (List.mem_cons_of_mem _ (List.mem_flatMap.2 ⟨branch, member, by simp⟩))
              (List.mem_cons_of_mem _ (List.mem_flatMap.2 ⟨branch', member', by simp⟩)) alike.1
          · exact twin.part (List.mem_cons_of_mem _ (List.mem_flatMap.2 ⟨branch, member, by simp⟩))
              (List.mem_cons_of_mem _ (List.mem_flatMap.2 ⟨branch', member', by simp⟩)) alike.2
      | _ => simp [Expr.alike] at same
  | dataType name variants span =>
      cases other with
      | dataType name' variants' span' =>
          simp only [Expr.alike, Bool.and_eq_true, beq_iff_eq] at same
          obtain ⟨rfl, rfl⟩ := same
          exact .dataType ..
      | _ => simp [Expr.alike] at same
  | construct tag fields span =>
      cases other with
      | construct tag' fields' span' =>
          simp only [Expr.alike, Bool.and_eq_true, beq_iff_eq] at same
          obtain ⟨rfl, each⟩ := same
          refine .construct _ _ _ (forall₂_members (alikeAll_forall each) ?_)
          intro field member field' member' alike
          exact twin.part member member' alike
      | _ => simp [Expr.alike] at same
  | matching scrutinee arms span =>
      cases other with
      | matching scrutinee' arms' span' =>
          rw [Expr.alike, Bool.and_eq_true] at same
          refine .matching _ _ (twin.part (by simp [parts]) (by simp [parts]) same.1) ?_
          apply forall₂_members (alikeArms_forall same.2)
          intro arm member arm' member' alike
          refine ⟨alike.1, twin.part ?_ ?_ alike.2⟩
          · exact List.mem_cons_of_mem _ (List.mem_map.2 ⟨arm, member, rfl⟩)
          · exact List.mem_cons_of_mem _ (List.mem_map.2 ⟨arm', member', rfl⟩)
      | _ => simp [Expr.alike] at same
  | row items => cases twin.first.here

end Twin

end Expr
end FernLang
