import Mathlib.Data.Finset.Card
import FernLang.Proofs.Value.Equality

/-!
Scopes as dictionaries. However deep its layers, a scope is used like one flat list of entries in
which each name stands once, in the order of first mention: extending it replaces a value in place
or puts a new name behind the others, and joining another to it overrides in place and then puts the
new names behind, in their order. Bindings are determined by the order of their names and by what
they answer, so each of these laws is one fact about names and one about answers.
-/

namespace FernLang

namespace Bindings

variable {α : Type}

/-- The entries with the value of a name replaced where it stands, or put behind them. -/
def assigned (name : String) (value : α) (entries : Bindings α) : Bindings α :=
  if name ∈ entries.names then
    entries.map fun entry => if entry.1 = name then (name, value) else entry
  else entries ++ [(name, value)]

/-- The entries of `first`, each with the value that `second` has for its name if there is one, and
then the entries of `second` with other names. -/
def overridden (first second : Bindings α) : Bindings α :=
  first.map (fun entry => (entry.1, (second.get? entry.1).getD entry.2)) ++
    second.filter fun entry => entry.1 ∉ first.names

/-- The order of the names and the answers say all about bindings with single names. -/
theorem ext_get? {first second : Bindings α} (single : first.names.Nodup)
    (order : first.names = second.names) (same : ∀ name, first.get? name = second.get? name) :
    first = second := by
  induction first generalizing second with
  | nil =>
      cases second with
      | nil => rfl
      | cons entry rest => cases order
  | cons entry rest ih =>
      cases second with
      | nil => cases order
      | cons entry' rest' =>
          obtain ⟨name, value⟩ := entry
          obtain ⟨name', value'⟩ := entry'
          obtain ⟨rfl, others⟩ : name = name' ∧ names rest = names rest' := List.cons.inj order
          obtain ⟨absent, singleRest⟩ := List.nodup_cons.1 single
          have fresh : get? name rest = none := get?_eq_none.2 absent
          have fresh' : get? name rest' = none := get?_eq_none.2 (others ▸ absent)
          have here := same name
          rw [get?_cons, get?_cons, fresh, fresh', if_pos rfl, if_pos rfl] at here
          obtain rfl : value = value' := Option.some.inj here
          rw [ih singleRest others]
          intro other
          have there := same other
          rw [get?_cons, get?_cons] at there
          by_cases asked : name = other
          · rw [← asked, fresh, fresh']
          · rwa [if_neg asked, Option.or_none, Option.or_none] at there

theorem mem_names_cons {name : String} {entry : String × α} {rest : Bindings α} :
    name ∈ names (entry :: rest) ↔ name = entry.1 ∨ name ∈ rest.names :=
  List.mem_cons

theorem insert_eq_assigned {entries : Bindings α} (single : entries.names.Nodup) (name : String)
    (value : α) : entries.insert name value = entries.assigned name value := by
  induction entries with
  | nil => rfl
  | cons entry rest ih =>
      obtain ⟨absent, singleRest⟩ := List.nodup_cons.1 single
      by_cases same : entry.1 = name
      · have untouched : rest.map (fun other => if other.1 = name then (name, value) else other) =
            rest := by
          conv_rhs => rw [← List.map_id rest]
          apply List.map_congr_left
          intro other member
          have different : other.1 ≠ name := by
            intro again
            exact absent (same ▸ again ▸ List.mem_map_of_mem member)
          rw [if_neg different, id]
        rw [insert, if_pos same, assigned, if_pos (mem_names_cons.2 (.inl same.symm)), List.map_cons,
          if_pos same, untouched]
      · have named : name ∈ names (entry :: rest) ↔ name ∈ names rest :=
          mem_names_cons.trans (or_iff_right (Ne.symm same))
        rw [insert, if_neg same, ih singleRest, assigned, assigned]
        by_cases known : name ∈ names rest
        · rw [if_pos known, if_pos (named.2 known), List.map_cons, if_neg same]
        · rw [if_neg known, if_neg (mt named.1 known), List.cons_append]

theorem names_assigned (name : String) (value : α) (entries : Bindings α) :
    (entries.assigned name value).names =
      if name ∈ entries.names then entries.names else entries.names ++ [name] := by
  unfold assigned
  by_cases known : name ∈ entries.names
  · rw [if_pos known, if_pos known, names, names, List.map_map]
    apply List.map_congr_left
    intro entry _
    by_cases same : entry.1 = name
    · rw [Function.comp, if_pos same, same]
    · rw [Function.comp, if_neg same]
  · rw [if_neg known, if_neg known, names, List.map_append, names, List.map_singleton]

theorem names_update {self other : Bindings α} (single : self.names.Nodup)
    (singleOther : other.names.Nodup) :
    (self.update other).names = self.names ++ other.names.filter (· ∉ self.names) := by
  induction other generalizing self with
  | nil => simp [update, names]
  | cons entry rest ih =>
      obtain ⟨absent, singleRest⟩ := List.nodup_cons.1 singleOther
      have step : self.update (entry :: rest) = (self.insert entry.1 entry.2).update rest := rfl
      have front : names (entry :: rest) = entry.1 :: names rest := rfl
      rw [step, ih (nodup_insert single entry.1 entry.2) singleRest, insert_eq_assigned single,
        names_assigned, front]
      by_cases known : entry.1 ∈ self.names
      · rw [if_pos known, List.filter_cons_of_neg (by simpa using known)]
      · have later : (names rest).filter (· ∉ self.names ++ [entry.1]) =
            (names rest).filter (· ∉ self.names) := by
          apply List.filter_congr
          intro name member
          have different : name ≠ entry.1 := fun same => absent (same ▸ member)
          simp [different]
        rw [if_neg known, List.filter_cons_of_pos (by simpa using known), later, List.append_assoc]
        rfl

theorem names_overridden (first second : Bindings α) :
    (first.overridden second).names = first.names ++ second.names.filter (· ∉ first.names) := by
  rw [overridden, names, List.map_append, List.map_map, names, names, List.filter_map]
  rfl

theorem get?_mapValues {β : Type} (name : String) (change : String → α → β) (entries : Bindings α) :
    get? name (entries.map fun entry => (entry.1, change entry.1 entry.2)) =
      (entries.get? name).map (change name) := by
  induction entries with
  | nil => rfl
  | cons entry rest ih =>
      rw [List.map_cons, get?_cons, get?_cons, ih]
      by_cases same : entry.1 = name
      · rw [if_pos same, if_pos same, same]
        cases get? name rest <;> rfl
      · rw [if_neg same, if_neg same, Option.or_none, Option.or_none]

theorem get?_filterNames (name : String) (keep : String → Bool) (entries : Bindings α) :
    get? name (entries.filter fun entry => keep entry.1) =
      if keep name then entries.get? name else none := by
  induction entries with
  | nil => exact (ite_self _).symm
  | cons entry rest ih =>
      rw [List.filter_cons]
      by_cases same : entry.1 = name
      · subst same
        by_cases kept : keep entry.1 = true
        · rw [if_pos kept, get?_cons, ih, get?_cons, if_pos kept, if_pos kept]
        · rw [if_neg kept, ih, if_neg kept, if_neg kept]
      · have skipped (others : Bindings α) : get? name (entry :: others) = get? name others := by
          rw [get?_cons, if_neg same, Option.or_none]
        by_cases kept : keep entry.1 = true
        · rw [if_pos kept, skipped, skipped, ih]
        · rw [if_neg kept, skipped, ih]

theorem get?_overridden (name : String) (first second : Bindings α) :
    (first.overridden second).get? name = (second.get? name).or (first.get? name) := by
  have early := get?_mapValues name (fun other value => (second.get? other).getD value) first
  have late := get?_filterNames name (fun other => other ∉ first.names) second
  rw [overridden, get?_append, early, late]
  by_cases known : name ∈ first.names
  · obtain ⟨value, found⟩ := Option.isSome_iff_exists.1 ((isSome_get? name first).2 known)
    rw [if_neg (by simpa using known), found]
    cases second.get? name <;> rfl
  · rw [if_pos (by simpa using known), get?_eq_none.2 known, Option.map_none, Option.or_none]

theorem update_eq_overridden {self other : Bindings α} (single : self.names.Nodup)
    (singleOther : other.names.Nodup) : self.update other = self.overridden other := by
  apply ext_get? (nodup_update single other)
  · rw [names_update single singleOther, names_overridden]
  · intro name
    rw [get?_update single, get?_overridden]

theorem nodup_ofPairs (pairs : List (String × α)) : (ofPairs pairs).names.Nodup :=
  nodup_update nodup_nil pairs

theorem nil_overridden (entries : Bindings α) : overridden [] entries = entries := by
  simp [overridden, names]

theorem overridden_nil (entries : Bindings α) : entries.overridden [] = entries := by
  simp [overridden, get?]

theorem nodup_overridden {first second : Bindings α} (single : first.names.Nodup)
    (singleOther : second.names.Nodup) : (first.overridden second).names.Nodup := by
  rw [← update_eq_overridden single singleOther]
  exact nodup_update single second

theorem overridden_assoc {first second : Bindings α} (single : first.names.Nodup)
    (singleOther : second.names.Nodup) (third : Bindings α) (singleThird : third.names.Nodup) :
    (first.overridden second).overridden third = first.overridden (second.overridden third) := by
  apply ext_get? (nodup_overridden (nodup_overridden single singleOther) singleThird)
  · have names : third.names.filter (· ∉ first.names ++ second.names.filter (· ∉ first.names)) =
        (third.names.filter (· ∉ second.names)).filter (· ∉ first.names) := by
      rw [List.filter_filter]
      apply List.filter_congr
      intro name _
      by_cases known : name ∈ first.names <;> simp [known]
    rw [names_overridden, names_overridden, names_overridden, names_overridden, names,
      List.filter_append, List.append_assoc]
  · intro name
    rw [get?_overridden, get?_overridden, get?_overridden, get?_overridden, Option.or_assoc]

structure SameMap (first second : Bindings Value) : Prop where
  names : ∀ name, name ∈ first.names ↔ name ∈ second.names
  values : ∀ name value value', (name, value) ∈ first → (name, value') ∈ second →
    value.equal value' = true

end Bindings

namespace Scope

variable {α : Type}

theorem items_push (scope : Scope α) {bindings : Bindings α} (single : bindings.names.Nodup) :
    (scope.push bindings).items = scope.items.overridden bindings :=
  Bindings.update_eq_overridden scope.nodup_items single

theorem items_extend (scope : Scope α) (name : String) (value : α) :
    (scope.extend name value).items = scope.items.assigned name value :=
  Bindings.insert_eq_assigned scope.nodup_items name value

theorem items_eq_nil (scope : Scope α) : scope.items = [] ↔ scope.isEmpty = true := by
  constructor
  · intro nothing
    apply List.all_eq_true.2
    intro layer member
    apply List.isEmpty_iff.2
    apply List.eq_nil_iff_forall_not_mem.2
    intro entry inside
    have known : scope.contains entry.1 :=
      (contains_iff entry.1 scope).2 ⟨layer, member, List.mem_map_of_mem inside⟩
    rw [← mem_names_items, nothing] at known
    cases known
  · intro nothing
    apply List.eq_nil_iff_forall_not_mem.2
    intro entry inside
    have known : scope.contains entry.1 :=
      (mem_names_items entry.1 scope).1 (List.mem_map_of_mem inside)
    exact not_contains_of_isEmpty nothing entry.1 known

/-- The shortcuts of a join, where one side is empty, give what a new layer would. -/
theorem items_union (first second : Scope α) :
    (first.union second).items = first.items.overridden second.items := by
  unfold union join
  by_cases bare : second.isEmpty = true
  · rw [if_pos bare, (items_eq_nil second).2 bare, Bindings.overridden_nil]
  · by_cases plain : first.isEmpty = true
    · rw [if_neg bare, if_pos plain, (items_eq_nil first).2 plain, Bindings.nil_overridden]
    · rw [if_neg bare, if_neg plain]
      exact items_push first second.nodup_items

theorem items_union_assoc (first second third : Scope α) :
    ((first.union second).union third).items = (first.union (second.union third)).items := by
  rw [items_union, items_union, items_union, items_union]
  exact Bindings.overridden_assoc first.nodup_items second.nodup_items third.items third.nodup_items

theorem size_eq_card (scope : Scope α) :
    scope.size = (scope.layers.flatMap Bindings.names).toFinset.card := by
  have same : scope.items.names.toFinset = (scope.layers.flatMap Bindings.names).toFinset := by
    ext name
    rw [List.mem_toFinset, List.mem_toFinset, mem_names_items, contains_iff, List.mem_flatMap]
  rw [← same, List.toFinset_card_of_nodup scope.nodup_items, size, Bindings.names, List.length_map]

theorem equalScopes_iff_sameMap (first second : Scope Value) :
    Value.equalScopes first second = true ↔ first.items.SameMap second.items := by
  rw [Value.equalScopes_iff]
  constructor
  · intro each
    constructor
    · intro name
      rw [mem_names_items, mem_names_items]
      exact (rel_iff.1 (each name)).1
    · intro name value value' member member'
      exact (rel_iff.1 (each name)).2 value value' (mem_items.1 member) (mem_items.1 member')
  · intro same name
    apply rel_iff.2
    constructor
    · have names := same.names name
      rwa [mem_names_items, mem_names_items] at names
    · intro value value' found found'
      exact same.values name value value' (mem_items.2 found) (mem_items.2 found')

end Scope

inductive Making where
  | empty
  | layer (outer : Making) (pairs : List (String × Value))
  | extend (outer : Making) (name : String) (value : Value)
  | union (first second : Making)

namespace Making

def scope : Making → Scope Value
  | .empty => .empty
  | .layer outer pairs => outer.scope.push (.ofPairs pairs)
  | .extend outer name value => outer.scope.extend name value
  | .union first second => first.scope.union second.scope

def entries : Making → Bindings Value
  | .empty => []
  | .layer outer pairs => outer.entries.overridden (.ofPairs pairs)
  | .extend outer name value => outer.entries.assigned name value
  | .union first second => first.entries.overridden second.entries

theorem items_scope (making : Making) : making.scope.items = making.entries := by
  induction making with
  | empty => rfl
  | layer outer pairs ih =>
      rw [scope, Scope.items_push _ (Bindings.nodup_ofPairs pairs), ih, entries]
  | extend outer name value ih => rw [scope, Scope.items_extend, ih, entries]
  | union first second ihFirst ihSecond => rw [scope, Scope.items_union, ihFirst, ihSecond, entries]

end Making

/-- All that can be asked of a scope is answered by a list of entries. -/
structure Scope.Shows (scope : Scope Value) (entries : Bindings Value) : Prop where
  items : scope.items = entries
  single : entries.names.Nodup
  get? : ∀ name value, scope.get? name = some value ↔ (name, value) ∈ entries
  contains : ∀ name, scope.contains name = true ↔ name ∈ entries.names
  length : scope.size = entries.length
  distinct : scope.size = (scope.layers.flatMap Bindings.names).toFinset.card
  some : scope.isEmpty = false ↔ 0 < scope.size
  equal : ∀ other, Value.equalScopes scope other = true ↔ entries.SameMap other.items

/-- A chain of layers is as good as one dictionary in order of insertion. Whatever scopes are made,
they show the entries that the same steps make of dictionaries, and joining scopes is associative
with the empty scope on either side as unit. -/
theorem chain_refines_dictionary (making second third : Making) :
    making.scope.Shows making.entries ∧
    ((making.scope.union second.scope).union third.scope).items =
      (making.scope.union (second.scope.union third.scope)).items ∧
    (Scope.empty.union making.scope).items = making.scope.items ∧
    (making.scope.union .empty).items = making.scope.items := by
  have same := making.items_scope
  refine ⟨?_, Scope.items_union_assoc _ _ _, ?_, ?_⟩
  · constructor
    · exact same
    · rw [← same]
      exact making.scope.nodup_items
    · intro name value
      have listed : (name, value) ∈ making.scope.items ↔ making.scope.get? name = some value :=
        Scope.mem_items
      rw [← same, listed]
    · intro name
      rw [← same]
      exact (Scope.mem_names_items name making.scope).symm
    · rw [← same, Scope.size]
    · exact making.scope.size_eq_card
    · rw [Scope.size, List.length_pos_iff, ne_eq, Scope.items_eq_nil, Bool.not_eq_true]
    · intro other
      rw [← same]
      exact Scope.equalScopes_iff_sameMap making.scope other
  · rw [Scope.items_union]
    exact Bindings.nil_overridden _
  · rw [Scope.items_union]
    exact Bindings.overridden_nil _

end FernLang
