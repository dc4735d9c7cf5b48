import FernLang.Proofs.Run.Guarded
import FernLang.Proofs.Value.Equality

/-!
What is done with values does not tell the same values apart. Bindings and scopes that are put together
from the same values answer alike, the same patterns match them with the same bindings, and an operator
gives one result for them.
-/

namespace FernLang

section

variable {α β : Type} {related : α → β → Prop}

theorem rel_or {first second : Option α} {first' second' : Option β}
    (early : Option.Rel related first first') (late : Option.Rel related second second') :
    Option.Rel related (first.or second) (first'.or second') := by
  cases early with
  | some same => exact .some same
  | none => exact late

end

/-- Bindings of the same names, in one order, to values that are the same. -/
def Bindings.Same (related : Expr → Expr → Prop) : Bindings Value → Bindings Value → Prop :=
  List.Forall₂ fun entry entry' => entry.1 = entry'.1 ∧ entry.2.Same related entry'.2

variable {related : Expr → Expr → Prop}

namespace Bindings.Same

variable {self self' other other' : Bindings Value}

theorem get? (same : self.Same related self') (name : String) :
    Option.Rel (Value.Same related) (self.get? name) (self'.get? name) := by
  induction same with
  | nil => exact .none
  | @cons entry entry' _ _ here _ ih =>
      rw [get?_cons, get?_cons]
      refine rel_or ih ?_
      rw [here.1]
      split
      · exact .some here.2
      · exact .none

theorem insert (same : self.Same related self') (name : String) {value value' : Value}
    (values : value.Same related value') :
    (self.insert name value).Same related (self'.insert name value') := by
  induction same with
  | nil => exact .cons ⟨rfl, values⟩ .nil
  | @cons entry entry' _ _ here rest ih =>
      rw [Bindings.insert, Bindings.insert, here.1]
      split
      · exact .cons ⟨rfl, values⟩ rest
      · exact .cons ⟨rfl, here.2⟩ ih

theorem update (same : self.Same related self') (others : other.Same related other') :
    (self.update other).Same related (self'.update other') := by
  induction others generalizing self self' with
  | nil => exact same
  | @cons entry entry' _ _ here _ ih =>
      have step := same.insert entry.1 here.2
      rw [Bindings.update, Bindings.update, List.foldl_cons, List.foldl_cons, ← here.1]
      exact ih step

theorem ofPairs {pairs pairs' : Bindings Value} (same : pairs.Same related pairs') :
    (Bindings.ofPairs pairs).Same related (Bindings.ofPairs pairs') :=
  update .nil same

theorem zip (names : List String) {values values' : List Value}
    (each : List.Forall₂ (Value.Same related) values values') :
    Same related (names.zip values) (names.zip values') := by
  induction each generalizing names with
  | nil =>
      rw [List.zip_nil_right]
      exact .nil
  | cons here _ ih =>
      cases names with
      | nil => exact .nil
      | cons name names => exact .cons ⟨rfl, here⟩ (ih names)

end Bindings.Same

namespace Scope.Same

variable {scope scope' other other' : Scope Value}

theorem empty : (Scope.empty : Scope Value).Same related .empty := fun _ => .none

theorem ofBindings {bindings bindings' : Bindings Value} (same : bindings.Same related bindings') :
    (Scope.ofBindings bindings).Same related (.ofBindings bindings') := by
  intro name
  rw [get?_ofBindings, get?_ofBindings]
  exact same.get? name

theorem extend (same : scope.Same related scope') (name : String) {value value' : Value}
    (values : value.Same related value') :
    (scope.extend name value).Same related (scope'.extend name value') := by
  intro asked
  rw [get?_extend, get?_extend]
  split
  · exact .some values
  · exact same asked

theorem union (same : scope.Same related scope') (others : other.Same related other') :
    (scope.union other).Same related (scope'.union other') := by
  intro name
  rw [get?_union, get?_union]
  exact rel_or (others name) (same name)

end Scope.Same

namespace Pattern

mutual

theorem bindings?_same : ∀ (pattern : Pattern) {value value' : Value}, value.Same related value' →
    Option.Rel (Bindings.Same related) (pattern.bindings? value) (pattern.bindings? value')
  | .bool wanted, value, value', same => by
      cases same with
      | bool found =>
          rw [bindings?]
          split
          · exact .some .nil
          · exact .none
      | num | closure | data =>
          simp only [bindings?]
          exact .none
  | .number wanted, value, value', same => by
      cases same with
      | num found =>
          rw [bindings?]
          split
          · exact .some .nil
          · exact .none
      | bool | closure | data =>
          simp only [bindings?]
          exact .none
  | .var name, value, value', same => by
      rw [bindings?, bindings?]
      split
      · exact .some .nil
      · exact .some (.cons ⟨rfl, same⟩ .nil)
  | .data tag fields, value, value', same => by
      cases same with
      | data lengths each =>
          rw [bindings?, bindings?]
          split
          · exact bindingsAll?_same fields (List.forall₂_iff_zip.2 ⟨lengths, each _ _⟩)
          · exact .none
      | num | bool | closure =>
          simp only [bindings?]
          exact .none

theorem bindingsAll?_same : ∀ (patterns : List Pattern) {values values' : List Value},
    List.Forall₂ (Value.Same related) values values' →
      Option.Rel (Bindings.Same related) (bindingsAll? patterns values) (bindingsAll? patterns values')
  | [], _, _, each => by
      cases each with
      | nil => exact .some .nil
      | cons =>
          simp only [bindingsAll?]
          exact .none
  | pattern :: patterns, _, _, each => by
      cases each with
      | nil =>
          simp only [bindingsAll?]
          exact .none
      | @cons value value' values values' here rest =>
          have first := bindings?_same pattern here
          have others := bindingsAll?_same patterns rest
          rw [bindingsAll?, bindingsAll?]
          generalize pattern.bindings? value = found, pattern.bindings? value' = found' at first ⊢
          generalize bindingsAll? patterns values = more, bindingsAll? patterns values' = more' at others ⊢
          cases first with
          | none => exact .none
          | some bound =>
              cases others with
              | none => exact .none
              | some further => exact .some (bound.update further)

end

end Pattern

theorem Eval.selectArm_same {value value' : Value} (same : value.Same related value') (index : Nat)
    {arms arms' : List (Pattern × Expr)}
    (each : List.Forall₂ (fun one other => one.1 = other.1 ∧ related one.2 other.2) arms arms') :
    Option.Rel
      (fun choice choice' => choice.1 = choice'.1 ∧ choice.2.1.Same related choice'.2.1 ∧
        related choice.2.2 choice'.2.2)
      (selectArm value index arms) (selectArm value' index arms') := by
  induction each generalizing index with
  | nil => exact .none
  | @cons arm arm' arms arms' here rest ih =>
      have bound := arm.1.bindings?_same same
      rw [selectArm, selectArm, ← here.1]
      generalize arm.1.bindings? value = found, arm.1.bindings? value' = found' at bound ⊢
      cases bound with
      | some bindings => exact .some ⟨rfl, bindings, here.2⟩
      | none => exact ih (index + 1)

namespace Operation

variable (alike : ∀ tree tree', related tree tree' → tree.IsAlike tree') {first first' second second' : Value}
  (firsts : first.Same related first') (seconds : second.Same related second')
include firsts seconds

include alike in
theorem equal_same : first.equal second = first'.equal second' := by
  have left := firsts.mono alike
  have right := seconds.mono alike
  rw [Bool.eq_iff_iff, Value.equal_iff, Value.equal_iff]
  constructor
  · intro same
    exact ((left.symm fun _ _ => .symm).trans (fun _ _ _ => .trans) same).trans (fun _ _ _ => .trans) right
  · intro same
    exact (left.trans (fun _ _ _ => .trans) same).trans (fun _ _ _ => .trans) (right.symm fun _ _ => .symm)

theorem numbers_same (symbol : String) :
    numbers symbol first second = numbers symbol first' second' := by
  have left := firsts.text
  have right := seconds.text
  cases firsts <;> cases seconds <;> simp only [numbers_eq, badFirst, badSecond, badBoth, left, right]

theorem truths_same (symbol : String) :
    truths symbol first second = truths symbol first' second' := by
  have left := firsts.text
  have right := seconds.text
  cases firsts <;> cases seconds <;> simp only [truths_eq, badFirst, badSecond, badBoth, left, right]

include alike in
theorem applySign_same (sign : Json) :
    applySign sign first second = applySign sign first' second' := by
  unfold applySign
  split
  · rename_i operator _
    unfold apply
    rw [equal_same alike firsts seconds, numbers_same firsts seconds, truths_same firsts seconds]
  · rfl

end Operation
end FernLang
