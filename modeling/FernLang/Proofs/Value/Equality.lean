import Mathlib.Data.List.Forall2
import Mathlib.Data.List.Perm.Subperm
import Mathlib.Data.Option.Defs
import FernLang.Proofs.Expr.Alike
import FernLang.Proofs.Scope.Lookup

/-!
Equality of values. Two values are the same, up to a relation between trees, when they have one form and
the same values in it; the scopes of closures are compared by what they answer, whatever their
layers. Likeness field by field and the test for equality both decide this for trees that are alike, so
they are one equivalence, and equal values have one text.
-/

namespace FernLang

namespace Scope

variable {α β : Type}

def map (f : α → β) (scope : Scope α) : Scope β :=
  ⟨scope.layers.map (List.map (Prod.map id f))⟩

theorem insert_map (f : α → β) (name : String) (value : α) (bindings : Bindings α) :
    Bindings.insert name (f value) (bindings.map (Prod.map id f)) =
      (bindings.insert name value).map (Prod.map id f) := by
  induction bindings with
  | nil => rfl
  | cons entry rest ih =>
      rw [List.map_cons, Bindings.insert, Bindings.insert, ih]
      by_cases same : entry.1 = name
      · rw [if_pos same, if_pos (by exact same)]
        rfl
      · rw [if_neg same, if_neg (by exact same)]
        rfl

theorem update_map (f : α → β) (self other : Bindings α) :
    Bindings.update (self.map (Prod.map id f)) (other.map (Prod.map id f)) =
      (self.update other).map (Prod.map id f) := by
  induction other generalizing self with
  | nil => rfl
  | cons entry other ih =>
      have step := ih (self.insert entry.1 entry.2)
      rw [← insert_map] at step
      exact step

theorem items_map (f : α → β) (scope : Scope α) :
    (scope.map f).items = scope.items.map (Prod.map id f) := by
  obtain ⟨layers⟩ := scope
  induction layers with
  | nil => rfl
  | cons layer outer ih =>
      have step := update_map f (items ⟨outer⟩) layer
      rw [← ih] at step
      exact step

theorem size_eq {first : Scope α} {second : Scope β}
    (names : ∀ name, first.contains name ↔ second.contains name) : first.size = second.size := by
  have same : first.items.names.Perm second.items.names := by
    rw [List.perm_ext_iff_of_nodup first.nodup_items second.nodup_items]
    intro name
    rw [mem_names_items, mem_names_items, names]
  simpa [size, Bindings.names] using same.length_eq

/-- A scope that has all names of another and no more of them has no other name. -/
theorem contains_of_size {first : Scope α} {second : Scope β}
    (sub : ∀ name, first.contains name → second.contains name) (size : first.size = second.size)
    (name : String) (inside : second.contains name) : first.contains name := by
  have subset : first.items.names ⊆ second.items.names := by
    intro name member
    rw [mem_names_items] at member ⊢
    exact sub name member
  have lengths : second.items.names.length ≤ first.items.names.length := by
    simpa [Scope.size, Bindings.names] using size.ge
  have same := (List.subperm_of_subset first.nodup_items subset).perm_of_length_le lengths
  rw [← mem_names_items] at inside ⊢
  exact same.mem_iff.2 inside

end Scope

namespace Value

/-- Values of one form: closures have the same parameters, related bodies, and scopes that answer the
same names with the same values. -/
inductive Same (related : Expr → Expr → Prop) : Value → Value → Prop
  | num (value : Int) : Same related (.num value) (.num value)
  | bool (value : Bool) : Same related (.bool value) (.bool value)
  | closure {params : List String} {body body' : Expr} {scope scope' : Scope Value}
      (bodies : related body body')
      (names : ∀ name, scope.contains name ↔ scope'.contains name)
      (held : ∀ name value value', scope.get? name = some value → scope'.get? name = some value' →
        Same related value value') :
      Same related (.closure params body scope) (.closure params body' scope')
  | data {tag : String} {fields fields' : List Value} (lengths : fields.length = fields'.length)
      (each : ∀ field field', (field, field') ∈ fields.zip fields' → Same related field field') :
      Same related (.data tag fields) (.data tag fields')

end Value

def Scope.Same (related : Expr → Expr → Prop) (scope other : Scope Value) : Prop :=
  ∀ name, Option.Rel (Value.Same related) (scope.get? name) (other.get? name)

theorem rel_iff {α β : Type} {related : α → β → Prop} {first : Option α} {second : Option β} :
    Option.Rel related first second ↔ (first.isSome ↔ second.isSome) ∧
      ∀ value value', first = some value → second = some value' → related value value' := by
  constructor
  · rintro (same | _)
    · refine ⟨Iff.rfl, ?_⟩
      rintro _ _ ⟨⟩ ⟨⟩
      exact same
    · exact ⟨Iff.rfl, nofun⟩
  · rintro ⟨present, each⟩
    cases first with
    | none =>
        cases second with
        | none => exact .none
        | some value => cases present.2 rfl
    | some value =>
        cases second with
        | none => cases present.1 rfl
        | some value' => exact .some (each value value' rfl rfl)

theorem forall₂_comp {α : Type} {first second third : List α} {early late whole : α → α → Prop}
    (one : List.Forall₂ early first second) (two : List.Forall₂ late second third)
    (chain : ∀ a b c, early a b → late b c → whole a c) : List.Forall₂ whole first third := by
  induction one generalizing third with
  | nil =>
      cases two
      exact .nil
  | cons here _ ih =>
      cases two with
      | cons there rest => exact .cons (chain _ _ _ here there) (ih rest)

namespace Value.Same

variable {related wider : Expr → Expr → Prop} {value other third : Value}

theorem closure_iff {params params' : List String} {body body' : Expr} {scope scope' : Scope Value} :
    Same related (.closure params body scope) (.closure params' body' scope') ↔
      params = params' ∧ related body body' ∧ scope.Same related scope' := by
  constructor
  · rintro (_ | _)
    rename_i bodies names held
    exact ⟨rfl, bodies, fun name => rel_iff.2 ⟨names name, held name⟩⟩
  · rintro ⟨rfl, bodies, scopes⟩
    exact .closure bodies (fun name => (rel_iff.1 (scopes name)).1) fun name => (rel_iff.1 (scopes name)).2

theorem data_iff {tag tag' : String} {fields fields' : List Value} :
    Same related (.data tag fields) (.data tag' fields') ↔
      tag = tag' ∧ List.Forall₂ (Same related) fields fields' := by
  rw [List.forall₂_iff_zip]
  constructor
  · rintro (_ | _)
    rename_i lengths each
    exact ⟨rfl, lengths, each _ _⟩
  · rintro ⟨rfl, lengths, each⟩
    exact .data lengths fun _ _ => each

theorem refl (reflexive : ∀ tree, related tree tree) (value : Value) : Same related value value := by
  induction value using Value.induction with
  | num value => exact .num value
  | bool value => exact .bool value
  | closure params body scope ih =>
      refine .closure (reflexive body) (fun _ => Iff.rfl) ?_
      intro name value value' found again
      cases found.symm.trans again
      exact ih.get? found
  | data tag fields ih => exact data_iff.2 ⟨rfl, List.forall₂_same.2 ih⟩

theorem mono (sub : ∀ tree tree', related tree tree' → wider tree tree')
    (same : Same related value other) : Same wider value other := by
  induction same with
  | num value => exact .num value
  | bool value => exact .bool value
  | closure bodies names _ ih => exact .closure (sub _ _ bodies) names ih
  | data lengths _ ih => exact .data lengths ih

theorem symm (turn : ∀ tree tree', related tree tree' → related tree' tree)
    (same : Same related value other) : Same related other value := by
  induction same with
  | num value => exact .num value
  | bool value => exact .bool value
  | closure bodies names _ ih =>
      exact .closure (turn _ _ bodies) (fun name => (names name).symm)
        fun name one two left right => ih name two one right left
  | data lengths _ ih =>
      refine data_iff.2 ⟨rfl, List.Forall₂.flip (List.forall₂_iff_zip.2 ⟨lengths, ?_⟩)⟩
      exact fun member => ih _ _ member

theorem trans (chain : ∀ one two three, related one two → related two three → related one three)
    (early : Same related value other) (late : Same related other third) :
    Same related value third := by
  induction early generalizing third with
  | num value => exact late
  | bool value => exact late
  | @closure params body body' scope scope' bodies names _ ih =>
      cases third with
      | closure params' body'' scope'' =>
          obtain ⟨rfl, further, scopes⟩ := closure_iff.1 late
          refine .closure (chain _ _ _ bodies further) ?_ ?_
          · exact fun name => (names name).trans (rel_iff.1 (scopes name)).1
          · intro name one three left right
            have present : (scope'.get? name).isSome := (names name).1 (by simp [Scope.contains, left])
            obtain ⟨two, between⟩ := Option.isSome_iff_exists.1 present
            exact ih name one two left between ((rel_iff.1 (scopes name)).2 two three between right)
      | _ => cases late
  | data lengths _ ih =>
      cases third with
      | data tag' fields'' =>
          obtain ⟨rfl, each⟩ := data_iff.1 late
          refine data_iff.2 ⟨rfl, ?_⟩
          exact forall₂_comp (List.forall₂_iff_zip.2 ⟨lengths, ih _ _⟩) each fun _ _ _ step => step
      | _ => cases late

theorem textAll_congr {fields fields' : List Value}
    (each : List.Forall₂ (fun field field' => field.text = field'.text) fields fields') :
    textAll fields = textAll fields' := by
  induction each with
  | nil => rfl
  | cons here rest ih => rw [textAll, textAll, here, ih]

theorem text (same : Same related value other) : value.text = other.text := by
  induction same with
  | num value => rfl
  | bool value => rfl
  | closure bodies names held ih => rw [Value.text, Value.text]
  | data lengths each ih =>
      rw [Value.text, Value.text, textAll_congr (List.forall₂_iff_zip.2 ⟨lengths, ih _ _⟩)]

end Value.Same

theorem Scope.Same.mono {related wider : Expr → Expr → Prop} {scope other : Scope Value}
    (sub : ∀ tree tree', related tree tree' → wider tree tree') (same : scope.Same related other) :
    scope.Same wider other := by
  intro name
  have here := same name
  generalize scope.get? name = found, other.get? name = found' at here ⊢
  cases here with
  | some values => exact .some (values.mono sub)
  | none => exact .none

theorem Scope.Same.of_get? {related : Expr → Expr → Prop} {scope other : Scope Value}
    (reflexive : ∀ tree, related tree tree) (agree : ∀ name, scope.get? name = other.get? name) :
    scope.Same related other := by
  intro name
  rw [agree name]
  cases other.get? name with
  | none => exact .none
  | some value => exact .some (.refl reflexive value)

namespace Value

theorem alikeScope_eq (scope : Scope Value) : alikeScope scope = scope.map alike := by
  have layer (bindings : List (String × Value)) :
      alikeLayer bindings = bindings.map (Prod.map id alike) := by
    induction bindings with
    | nil => rw [alikeLayer, List.map_nil]
    | cons entry rest ih =>
        obtain ⟨name, value⟩ := entry
        rw [alikeLayer, ih]
        rfl
  have layers (outer : List (List (String × Value))) :
      alikeLayers outer = outer.map (List.map (Prod.map id alike)) := by
    induction outer with
    | nil => rw [alikeLayers, List.map_nil]
    | cons bindings outer ih => rw [alikeLayers, ih, layer, List.map_cons]
  rw [alikeScope, layers, Scope.map]

theorem equalScopes_iff_alike {scope other : Scope Value} :
    equalScopes scope other = true ↔
      ∀ name, Option.Rel (fun value value' => value.alike value' = true)
        (scope.get? name) (other.get? name) := by
  have sizes : (scope.map alike).size = scope.size := by
    rw [Scope.size, Scope.items_map, List.length_map, Scope.size]
  unfold equalScopes passes
  rw [alikeScope_eq, Bool.and_eq_true, beq_iff_eq, sizes, Scope.items_map, List.all_map,
    List.all_eq_true]
  constructor
  · rintro ⟨size, each⟩
    have answered (name : String) (value : Value) (found : scope.get? name = some value) :
        ∃ value', other.get? name = some value' ∧ value.alike value' = true := by
      have passed := each (name, value) (Scope.mem_items.2 found)
      exact (Option.any_eq_true _ _).1 passed
    have sub (name : String) (inside : scope.contains name) : other.contains name := by
      obtain ⟨value, found⟩ := Option.isSome_iff_exists.1 inside
      obtain ⟨value', found', _⟩ := answered name value found
      simp [Scope.contains, found']
    intro name
    refine rel_iff.2 ⟨⟨sub name, Scope.contains_of_size sub size name⟩, ?_⟩
    intro value value' found found'
    obtain ⟨again, known, likes⟩ := answered name value found
    cases found'.symm.trans known
    exact likes
  · intro each
    refine ⟨Scope.size_eq fun name => (rel_iff.1 (each name)).1, ?_⟩
    intro entry member
    have found := Scope.mem_items.1 member
    have present : (other.get? entry.1).isSome := (rel_iff.1 (each entry.1)).1.1 (by simp [found])
    obtain ⟨value', found'⟩ := Option.isSome_iff_exists.1 present
    exact (Option.any_eq_true _ _).2 ⟨value', found', (rel_iff.1 (each entry.1)).2 _ _ found found'⟩

theorem alikeAll_iff {fields fields' : List Value} :
    alikeAll fields fields' = true ↔
      List.Forall₂ (fun field field' => field.alike field' = true) fields fields' := by
  induction fields generalizing fields' with
  | nil => cases fields' <;> simp [alikeAll]
  | cons field fields ih => cases fields' <;> simp [alikeAll, ih]

/-- Values are alike when they are the same up to trees that are alike. -/
theorem alike_iff (value other : Value) :
    value.alike other = true ↔ Same Expr.IsAlike value other := by
  induction value using Value.induction generalizing other with
  | num value =>
      cases other with
      | num again =>
          rw [alike, beq_iff_eq]
          constructor
          · rintro rfl
            exact .num value
          · rintro (_ | _)
            rfl
      | _ => simp [alike]; nofun
  | bool value =>
      cases other with
      | bool again =>
          rw [alike, beq_iff_eq]
          constructor
          · rintro rfl
            exact .bool value
          · rintro (_ | _)
            rfl
      | _ => simp [alike]; nofun
  | closure params body scope ih =>
      cases other with
      | closure params' body' scope' =>
          have scopes : equalScopes scope scope' = true ↔ scope.Same Expr.IsAlike scope' := by
            rw [equalScopes_iff_alike]
            refine forall_congr' fun name => ?_
            rw [rel_iff, rel_iff]
            refine and_congr_right fun _ => ?_
            refine forall_congr' fun value => forall_congr' fun value' => ?_
            refine imp_congr_right fun found => imp_congr_right fun _ => ?_
            exact ih.get? found value'
          rw [equalScopes] at scopes
          rw [alike, Bool.and_eq_true, Bool.and_eq_true, beq_iff_eq, scopes, Same.closure_iff, and_assoc]
      | _ => simp [alike]; nofun
  | data tag fields ih =>
      cases other with
      | data tag' fields' =>
          rw [alike, Bool.and_eq_true, beq_iff_eq, alikeAll_iff, Same.data_iff]
          refine and_congr_right fun _ => ?_
          constructor
          · intro each
            exact Expr.forall₂_members each fun field member field' _ => (ih field member field').1
          · intro each
            exact Expr.forall₂_members each fun field member field' _ => (ih field member field').2
      | _ => simp [alike]; nofun

theorem kind_eq_of_alike {value other : Value} (likes : value.alike other = true) :
    value.kind = other.kind := by
  cases (alike_iff value other).1 likes <;> rfl

theorem equalAll_iff {fields fields' : List Value} :
    equalAll fields fields' = true ↔
      List.Forall₂ (fun field field' => field.equal field' = true) fields fields' := by
  induction fields generalizing fields' with
  | nil => cases fields' <;> simp [equalAll]
  | cons field fields ih => cases fields' <;> simp [equalAll, ih]

/-- Going into data by itself finds the values that are alike field by field. -/
theorem equal_eq_alike (value other : Value) : value.equal other = value.alike other := by
  induction value using Value.induction generalizing other with
  | data tag fields ih =>
      cases other with
      | data tag' fields' =>
          rw [Bool.eq_iff_iff, equal, alike, Bool.and_eq_true, Bool.and_eq_true, equalAll_iff, alikeAll_iff]
          refine and_congr_right fun _ => ⟨fun each => ?_, fun each => ?_⟩
          · exact Expr.forall₂_members each fun field member field' _ => (ih field member field' ▸ ·)
          · exact Expr.forall₂_members each fun field member field' _ => (ih field member field' ▸ ·)
      | _ => simp [equal, alike]
  | num | bool | closure =>
      rw [Bool.eq_iff_iff, equal, Bool.and_eq_true, beq_iff_eq]
      · exact ⟨And.right, fun likes => ⟨kind_eq_of_alike likes, likes⟩⟩
      · nofun

theorem equalScopes_iff {scope other : Scope Value} :
    equalScopes scope other = true ↔
      ∀ name, Option.Rel (fun value value' => value.equal value' = true)
        (scope.get? name) (other.get? name) := by
  simp only [equalScopes_iff_alike, equal_eq_alike]

theorem equal_iff (value other : Value) :
    value.equal other = true ↔ Same Expr.IsAlike value other := by
  rw [equal_eq_alike, alike_iff]

theorem equalScopes_iff_same {scope other : Scope Value} :
    equalScopes scope other = true ↔ scope.Same Expr.IsAlike other := by
  rw [equalScopes_iff]
  refine forall_congr' fun name => ?_
  simp only [rel_iff, equal_iff]

theorem equalScopes_of_get? {scope other : Scope Value}
    (agree : ∀ name, scope.get? name = other.get? name) : equalScopes scope other = true := by
  rw [equalScopes_iff_same]
  exact .of_get? .refl agree

theorem equal_equivalence : Equivalence fun value other : Value => value.equal other = true := by
  constructor
  · intro value
    exact (equal_iff value value).2 (.refl .refl value)
  · intro value other equals
    have same := (equal_iff value other).1 equals
    exact (equal_iff other value).2 (same.symm fun _ _ => .symm)
  · intro value other third early late
    have first := (equal_iff value other).1 early
    have second := (equal_iff other third).1 late
    exact (equal_iff value third).2 (first.trans (fun _ _ _ => .trans) second)

theorem equal_of_kind_ne {value other : Value} (differ : value.kind ≠ other.kind) :
    value.equal other = false := by
  rw [equal_eq_alike, ← Bool.not_eq_true]
  exact fun likes => differ (kind_eq_of_alike likes)

theorem equal_iff_bare (value other : Value) :
    value.equal other = true ↔ Same (fun body body' => body.bare = body'.bare) value other := by
  rw [equal_iff]
  constructor
  · exact Same.mono fun body body' => (Expr.alike_iff body body').1
  · exact Same.mono fun body body' => (Expr.alike_iff body body').2

/-- Equality of values is sound. It is likeness field by field, and holds of the values that are the same
when spans are left out: closures with the same parameters and one bare body, whose scopes have the same
names with the same values. It is an equivalence, never joins values of different kinds, and equal
values have one text, or both have none. -/
theorem equality_sound :
    (∀ value other : Value, value.equal other = value.alike other) ∧
    (∀ value other : Value, value.equal other = true ↔
      Same (fun body body' => body.bare = body'.bare) value other) ∧
    (Equivalence fun value other : Value => value.equal other = true) ∧
    (∀ value other : Value, value.kind ≠ other.kind → value.equal other = false) ∧
    ∀ value other : Value, value.equal other = true → value.text = other.text := by
  refine ⟨equal_eq_alike, equal_iff_bare, equal_equivalence, fun _ _ => equal_of_kind_ne, ?_⟩
  intro value other equals
  exact ((equal_iff value other).1 equals).text

end Value

end FernLang
