import Mathlib.Data.List.Nodup
import FernLang.Proofs.Scope.Contents

/-!
What bindings and scopes answer. A look-up goes by the last value of a name, and putting bindings
into others, extending a scope and joining two scopes change the answers as the new layer says. The
items of a scope have each name once and answer as the scope does.
-/

namespace FernLang

namespace Bindings

variable {α : Type}

theorem get?_cons (name : String) (entry : String × α) (rest : Bindings α) :
    get? name (entry :: rest) = (get? name rest).or (if entry.1 = name then some entry.2 else none) :=
  rfl

theorem get?_append (name : String) (first second : Bindings α) :
    get? name (first ++ second) = (get? name second).or (get? name first) := by
  induction first with
  | nil => exact (Option.or_none ..).symm
  | cons entry first ih => rw [List.cons_append, get?_cons, get?_cons, ih, Option.or_assoc]

theorem get?_eq_none {name : String} {bindings : Bindings α} :
    bindings.get? name = none ↔ name ∉ bindings.names := by
  rw [← isSome_get?, Option.not_isSome_iff_eq_none]

theorem get?_insert {bindings : Bindings α} (single : bindings.names.Nodup) (name other : String)
    (value : α) :
    (bindings.insert name value).get? other =
      if name = other then some value else bindings.get? other := by
  induction bindings with
  | nil => rfl
  | cons entry rest ih =>
      obtain ⟨absent, single⟩ := List.nodup_cons.1 single
      have fresh : get? entry.1 rest = none := get?_eq_none.2 absent
      by_cases same : entry.1 = name
      · subst same
        rw [insert, if_pos rfl, get?_cons, get?_cons]
        by_cases asked : entry.1 = other
        · subst asked
          rw [fresh, if_pos rfl, if_pos rfl]
          rfl
        · rw [if_neg asked, if_neg asked, if_neg asked]
      · rw [insert, if_neg same, get?_cons, get?_cons, ih single]
        by_cases asked : name = other
        · rw [if_pos asked, if_pos asked]
          rfl
        · rw [if_neg asked, if_neg asked]

theorem nodup_insert {bindings : Bindings α} (single : bindings.names.Nodup) (name : String)
    (value : α) : (bindings.insert name value).names.Nodup := by
  induction bindings with
  | nil => exact List.nodup_singleton name
  | cons entry rest ih =>
      obtain ⟨absent, others⟩ := List.nodup_cons.1 single
      by_cases same : entry.1 = name
      · rw [insert, if_pos same]
        exact same ▸ single
      · rw [insert, if_neg same]
        refine List.nodup_cons.2 ⟨?_, ih others⟩
        intro member
        rcases (mem_names_insert name entry.1 value rest).1 member with again | old
        · exact same again
        · exact absent old

theorem nodup_update {self : Bindings α} (single : self.names.Nodup) (other : Bindings α) :
    (self.update other).names.Nodup := by
  induction other generalizing self with
  | nil => exact single
  | cons entry other ih => exact ih (nodup_insert single entry.1 entry.2)

theorem get?_update {self : Bindings α} (single : self.names.Nodup) (name : String)
    (other : Bindings α) :
    (self.update other).get? name = (other.get? name).or (self.get? name) := by
  induction other generalizing self with
  | nil => rfl
  | cons entry other ih =>
      have step : self.update (entry :: other) = (self.insert entry.1 entry.2).update other := rfl
      rw [step, ih (nodup_insert single entry.1 entry.2), get?_insert single, get?_cons]
      by_cases same : entry.1 = name
      · rw [if_pos same, if_pos same, Option.or_assoc]
        rfl
      · rw [if_neg same, if_neg same, Option.or_none]

theorem nodup_nil : (names ([] : Bindings α)).Nodup := List.nodup_nil

theorem get?_ofPairs (name : String) (pairs : List (String × α)) :
    (ofPairs pairs).get? name = get? name pairs := by
  rw [ofPairs, get?_update nodup_nil]
  exact Option.or_none ..

theorem get?_of_mem {bindings : Bindings α} (single : bindings.names.Nodup) {entry : String × α}
    (member : entry ∈ bindings) : bindings.get? entry.1 = some entry.2 := by
  induction bindings with
  | nil => cases member
  | cons first rest ih =>
      obtain ⟨absent, others⟩ := List.nodup_cons.1 single
      rw [get?_cons]
      rcases List.mem_cons.1 member with rfl | member
      · rw [get?_eq_none.2 absent, if_pos rfl]
        rfl
      · rw [ih others member]
        rfl

end Bindings

namespace Scope

variable {α : Type}

theorem get?_push (name : String) (bindings : Bindings α) (scope : Scope α) :
    (scope.push bindings).get? name = (bindings.get? name).or (scope.get? name) := by
  unfold get? push
  rw [List.findSome?_cons]
  cases bindings.get? name <;> rfl

theorem get?_empty (name : String) : (empty : Scope α).get? name = none := rfl

theorem get?_ofBindings (name : String) (bindings : Bindings α) :
    (ofBindings bindings).get? name = bindings.get? name :=
  (get?_push name bindings empty).trans (Option.or_none ..)

theorem get?_extend (name other : String) (value : α) (scope : Scope α) :
    (scope.extend name value).get? other = if name = other then some value else scope.get? other := by
  rw [extend, get?_push, Bindings.get?_cons]
  by_cases same : name = other
  · rw [if_pos same, if_pos same]
    rfl
  · rw [if_neg same, if_neg same]
    rfl

theorem nodup_items (scope : Scope α) : scope.items.names.Nodup := by
  obtain ⟨layers⟩ := scope
  induction layers with
  | nil => exact List.nodup_nil
  | cons layer outer ih => exact Bindings.nodup_update ih layer

theorem get?_items (name : String) (scope : Scope α) : scope.items.get? name = scope.get? name := by
  obtain ⟨layers⟩ := scope
  induction layers with
  | nil => rfl
  | cons layer outer ih =>
      have step : items ⟨layer :: outer⟩ = Bindings.update (items ⟨outer⟩) layer := rfl
      rw [step, Bindings.get?_update (nodup_items ⟨outer⟩), ih]
      exact (get?_push name layer ⟨outer⟩).symm

theorem mem_items {entry : String × α} {scope : Scope α} :
    entry ∈ scope.items ↔ scope.get? entry.1 = some entry.2 := by
  rw [← get?_items]
  exact ⟨Bindings.get?_of_mem scope.nodup_items, Bindings.mem_of_get?⟩

theorem get?_eq_none_of_isEmpty {scope : Scope α} (nothing : scope.isEmpty = true) (name : String) :
    scope.get? name = none :=
  Option.not_isSome_iff_eq_none.1 (not_contains_of_isEmpty nothing name)

theorem get?_union (name : String) (first second : Scope α) :
    (first.union second).get? name = (second.get? name).or (first.get? name) := by
  unfold union join
  by_cases bare : second.isEmpty = true
  · rw [if_pos bare, get?_eq_none_of_isEmpty bare]
    rfl
  · by_cases plain : first.isEmpty = true
    · rw [if_neg bare, if_pos plain, get?_eq_none_of_isEmpty plain, Option.or_none]
    · rw [if_neg bare, if_neg plain]
      exact (get?_push name second.items first).trans (by rw [get?_items])

end Scope
end FernLang
