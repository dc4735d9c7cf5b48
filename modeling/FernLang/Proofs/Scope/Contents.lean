import FernLang.Value.Matching

/-!
What bindings and scopes contain. A name is in a scope when some layer has it, and whatever a scope
answers stands in one of its layers; extending and joining scopes add names and values and lose no
name.
-/

namespace FernLang

namespace Bindings

variable {α : Type}

theorem mem_of_get? {name : String} {value : α} {bindings : Bindings α}
    (found : bindings.get? name = some value) : (name, value) ∈ bindings := by
  induction bindings with
  | nil => cases found
  | cons entry rest ih =>
      rw [get?, Option.or_eq_some_iff, Option.ite_none_right_eq_some] at found
      rcases found with later | ⟨_, rfl, ⟨⟩⟩
      · exact List.mem_cons_of_mem _ (ih later)
      · exact List.mem_cons_self

theorem isSome_get? (name : String) (bindings : Bindings α) :
    (bindings.get? name).isSome ↔ name ∈ bindings.names := by
  induction bindings with
  | nil => simp [get?, names]
  | cons entry rest ih =>
      rw [get?, Option.isSome_or, Bool.or_eq_true, ih, or_comm]
      simp [names, @eq_comm _ name]

theorem mem_names_insert (name other : String) (value : α) (bindings : Bindings α) :
    other ∈ (bindings.insert name value).names ↔ other = name ∨ other ∈ bindings.names := by
  induction bindings with
  | nil => simp [insert, names]
  | cons entry rest ih =>
      by_cases same : entry.1 = name
      · simp [insert, names, same]
      · rw [insert, if_neg same]
        simp only [names, List.map_cons, List.mem_cons] at ih ⊢
        rw [ih]
        exact or_left_comm

theorem mem_insert {name : String} {value : α} {bindings : Bindings α} {entry : String × α}
    (member : entry ∈ bindings.insert name value) : entry = (name, value) ∨ entry ∈ bindings := by
  induction bindings with
  | nil => exact .inl (List.mem_singleton.1 member)
  | cons first rest ih =>
      by_cases same : first.1 = name
      · rw [insert, if_pos same, List.mem_cons] at member
        exact member.imp id (List.mem_cons_of_mem _)
      · rw [insert, if_neg same, List.mem_cons] at member
        rcases member with rfl | member
        · exact .inr List.mem_cons_self
        · exact (ih member).imp id (List.mem_cons_of_mem _)

theorem mem_names_update (name : String) (self other : Bindings α) :
    name ∈ (self.update other).names ↔ name ∈ self.names ∨ name ∈ other.names := by
  induction other generalizing self with
  | nil => simp [update, names]
  | cons entry rest ih =>
      have step := ih (self.insert entry.1 entry.2)
      rw [mem_names_insert] at step
      rw [show self.update (entry :: rest) = (self.insert entry.1 entry.2).update rest from rfl,
        step]
      simp only [names, List.map_cons, List.mem_cons]
      exact or_assoc.trans or_left_comm

theorem mem_update {self other : Bindings α} {entry : String × α}
    (member : entry ∈ self.update other) : entry ∈ self ∨ entry ∈ other := by
  induction other generalizing self with
  | nil => exact .inl member
  | cons first rest ih =>
      rcases ih member with early | late
      · rcases mem_insert early with rfl | old
        · exact .inr List.mem_cons_self
        · exact .inl old
      · exact .inr (List.mem_cons_of_mem _ late)

theorem mem_names_ofPairs_zip {params : List String} {values : List α}
    (same : values.length = params.length) (name : String) :
    name ∈ (ofPairs (params.zip values)).names ↔ name ∈ params := by
  rw [ofPairs, mem_names_update, names, names, List.map_fst_zip (Nat.le_of_eq same.symm)]
  simp

theorem mem_ofPairs_zip {params : List String} {values : List α} {entry : String × α}
    (member : entry ∈ ofPairs (params.zip values)) : entry.2 ∈ values := by
  rcases mem_update member with old | new
  · cases old
  · exact (List.of_mem_zip new).2

end Bindings

namespace Scope

variable {α : Type}

theorem contains_iff (name : String) (scope : Scope α) :
    scope.contains name ↔ ∃ layer ∈ scope.layers, name ∈ Bindings.names layer := by
  unfold contains get?
  simp only [List.findSome?_isSome_iff, Bindings.isSome_get?]

/-- All values that stand in a scope, also those that others hide, are of one kind. -/
def Holds (kind : α → Prop) (scope : Scope α) : Prop :=
  ∀ layer ∈ scope.layers, ∀ entry ∈ layer, kind entry.2

theorem Holds.get? {kind : α → Prop} {scope : Scope α} (holds : scope.Holds kind) {name : String}
    {value : α} (found : scope.get? name = some value) : kind value := by
  obtain ⟨layer, member, inLayer⟩ := List.exists_of_findSome?_eq_some found
  exact holds layer member _ (Bindings.mem_of_get? inLayer)

theorem holds_empty (kind : α → Prop) : (empty : Scope α).Holds kind := by
  intro layer member
  cases member

theorem Holds.push {kind : α → Prop} {scope : Scope α} {bindings : Bindings α}
    (holds : scope.Holds kind) (new : ∀ entry ∈ bindings, kind entry.2) :
    (scope.push bindings).Holds kind := by
  intro layer member
  rcases List.mem_cons.1 member with rfl | member
  · exact new
  · exact holds layer member

theorem holds_ofBindings {kind : α → Prop} {bindings : Bindings α}
    (new : ∀ entry ∈ bindings, kind entry.2) : (ofBindings bindings).Holds kind :=
  (holds_empty kind).push new

theorem contains_push (name : String) (bindings : Bindings α) (scope : Scope α) :
    (scope.push bindings).contains name ↔ name ∈ bindings.names ∨ scope.contains name := by
  simp [contains_iff, push]

theorem contains_ofBindings (name : String) (bindings : Bindings α) :
    (ofBindings bindings).contains name ↔ name ∈ bindings.names := by
  simp [contains_iff, ofBindings]

theorem contains_extend (name other : String) (value : α) (scope : Scope α) :
    (scope.extend name value).contains other ↔ other = name ∨ scope.contains other := by
  rw [extend, contains_push]
  simp [Bindings.names]

theorem Holds.extend {kind : α → Prop} {scope : Scope α} (holds : scope.Holds kind)
    {value : α} (new : kind value) (name : String) : (scope.extend name value).Holds kind := by
  apply holds.push
  intro entry member
  rw [List.mem_singleton.1 member]
  exact new

theorem mem_names_items (name : String) (scope : Scope α) :
    name ∈ scope.items.names ↔ scope.contains name := by
  obtain ⟨layers⟩ := scope
  rw [contains_iff]
  induction layers with
  | nil => simp [items, Bindings.names]
  | cons layer outer ih =>
      simp only [items, List.foldr_cons, Bindings.mem_names_update] at ih ⊢
      rw [ih]
      simp [or_comm]

theorem Holds.items {kind : α → Prop} {scope : Scope α} (holds : scope.Holds kind) :
    ∀ entry ∈ scope.items, kind entry.2 := by
  obtain ⟨layers⟩ := scope
  induction layers with
  | nil =>
      intro entry member
      cases member
  | cons layer outer ih =>
      intro entry member
      rcases Bindings.mem_update member with old | new
      · exact ih (fun other inside => holds other (List.mem_cons_of_mem _ inside)) entry old
      · exact holds layer List.mem_cons_self entry new

theorem not_contains_of_isEmpty {scope : Scope α} (nothing : scope.isEmpty = true)
    (name : String) : ¬scope.contains name := by
  rw [contains_iff]
  rintro ⟨layer, member, named⟩
  have bare := List.isEmpty_iff.1 (List.all_eq_true.1 nothing layer member)
  rw [bare] at named
  cases named

theorem contains_union (name : String) (first second : Scope α) :
    (first.union second).contains name ↔ first.contains name ∨ second.contains name := by
  unfold union join
  by_cases bare : second.isEmpty = true
  · simp [bare, not_contains_of_isEmpty bare name]
  · by_cases plain : first.isEmpty = true
    · simp [bare, plain, not_contains_of_isEmpty plain name]
    · simp only [bare, plain, Bool.false_eq_true, if_false]
      rw [contains_push, mem_names_items, or_comm]

theorem Holds.union {kind : α → Prop} {first second : Scope α} (old : first.Holds kind)
    (new : second.Holds kind) : (first.union second).Holds kind := by
  unfold Scope.union
  split
  · exact old
  · exact new
  · exact old.push new.items

end Scope

/-- What holds of a value as soon as it holds of all values that stand in it holds of every value. -/
@[elab_as_elim]
theorem Value.induction {motive : Value → Prop} (num : ∀ value, motive (.num value))
    (bool : ∀ value, motive (.bool value))
    (closure : ∀ params body scope, scope.Holds motive → motive (.closure params body scope))
    (data : ∀ tag fields, (∀ field ∈ fields, motive field) → motive (.data tag fields))
    (value : Value) : motive value := by
  cases value with
  | num value => exact num value
  | bool value => exact bool value
  | closure params body scope =>
      exact closure params body scope fun layer inside entry member =>
        induction num bool closure data entry.2
  | data tag fields => exact data tag fields fun field member => induction num bool closure data field
termination_by sizeOf value
decreasing_by
  · have deeper := List.sizeOf_lt_of_mem member
    have deep := List.sizeOf_lt_of_mem inside
    obtain ⟨name, inner⟩ := entry
    obtain ⟨layers⟩ := scope
    simp only [Value.closure.sizeOf_spec, Scope.mk.sizeOf_spec, Prod.mk.sizeOf_spec] at *
    omega
  · have deep := List.sizeOf_lt_of_mem member
    simp only [Value.data.sizeOf_spec]
    omega

namespace Pattern

variable {kind : Value → Prop}

mutual

theorem bindings?_kind
    (fields : ∀ tag values, kind (.data tag values) → ∀ value ∈ values, kind value) :
    ∀ {pattern : Pattern} {value : Value} {bindings : Bindings Value},
    pattern.bindings? value = some bindings → kind value → ∀ entry ∈ bindings, kind entry.2
  | .bool _, .bool _, _, found, _, entry, member => by
      simp only [bindings?, Option.ite_none_right_eq_some, Option.some.injEq] at found
      cases found.2
      cases member
  | .number _, .num _, _, found, _, entry, member => by
      simp only [bindings?, Option.ite_none_right_eq_some, Option.some.injEq] at found
      cases found.2
      cases member
  | .var bound, value, bindings, found, good, entry, member => by
      by_cases blank : bound = "_"
      · simp only [bindings?, if_pos blank, Option.some.injEq] at found
        cases found
        cases member
      · simp only [bindings?, if_neg blank, Option.some.injEq] at found
        cases found
        rw [List.mem_singleton.1 member]
        exact good
  | .data tag patterns, .data other values, bindings, found, good, entry, member => by
      by_cases same : other = tag
      · rw [bindings?, if_pos same] at found
        exact bindingsAll?_kind fields found (fields other values good) entry member
      · simp [bindings?, same] at found

theorem bindingsAll?_kind
    (fields : ∀ tag values, kind (.data tag values) → ∀ value ∈ values, kind value) :
    ∀ {patterns : List Pattern} {values : List Value} {bindings : Bindings Value},
    bindingsAll? patterns values = some bindings →
      (∀ value ∈ values, kind value) → ∀ entry ∈ bindings, kind entry.2
  | [], [], _, found, _, entry, member => by
      cases found
      cases member
  | pattern :: patterns, value :: values, bindings, found, each, entry, member => by
      simp only [bindingsAll?, Option.bind_eq_bind, Option.bind_eq_some_iff] at found
      obtain ⟨first, here, rest, there, joined⟩ := found
      cases joined
      rcases Bindings.mem_update member with early | late
      · exact bindings?_kind fields here (each value List.mem_cons_self) entry early
      · exact bindingsAll?_kind fields there
          (fun other inside => each other (List.mem_cons_of_mem _ inside)) entry late

end

end Pattern
end FernLang
