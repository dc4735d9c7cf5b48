import FernLang.Proofs.Scope.Contents

/-!
Lexical scoping. In a well scoped program every variable is bound where it stands: by a function or
constructor of the program, by a binder around it, or, outside of function bodies, by an earlier
top-level let. A value is safe when the scope that each closure in it has captured binds what the
body of the closure needs; a scope supplies names when it binds them to safe values.
-/

namespace FernLang

namespace Pattern

mutual

def names : Pattern → List String
  | .bool _ | .number _ => []
  | .var name => if name = "_" then [] else [name]
  | .data _ fields => namesAll fields

def namesAll : List Pattern → List String
  | [] => []
  | pattern :: patterns => names pattern ++ namesAll patterns

end

end Pattern

namespace Expr

mutual

/-- Whether every variable of a tree is bound by a binder around it in the tree, by one of `locals`,
or by one of `globals`, which the bodies of functions do not see. -/
def boundIn (locals globals : List String) : Expr → Bool
  | .number _ _ | .bool _ _ | .dataType _ _ _ => true
  | .var name _ => locals.contains name || globals.contains name
  | .letIn name binding body _ =>
      boundIn locals globals binding && boundIn (name :: locals) globals body
  | .letTop _ binding _ => boundIn locals globals binding
  | .binary _ left right _ => boundIn locals globals left && boundIn locals globals right
  | .lambda params body _ => boundIn (params ++ locals) globals body
  | .function _ params body _ => boundIn (params ++ locals) [] body
  | .call callee args _ => boundIn locals globals callee && boundInAll locals globals args
  | .cond branches otherwise _ =>
      boundInBranches locals globals branches && boundIn locals globals otherwise
  | .construct _ fields _ => boundInAll locals globals fields
  | .matching scrutinee arms _ => boundIn locals globals scrutinee && boundInArms locals globals arms
  | .row items => boundInAll locals globals items

def boundInAll (locals globals : List String) : List Expr → Bool
  | [] => true
  | expr :: exprs => boundIn locals globals expr && boundInAll locals globals exprs

def boundInBranches (locals globals : List String) : List (Expr × Expr) → Bool
  | [] => true
  | (condition, body) :: branches =>
      boundIn locals globals condition && boundIn locals globals body &&
        boundInBranches locals globals branches

def boundInArms (locals globals : List String) : List (Pattern × Expr) → Bool
  | [] => true
  | (pattern, body) :: arms =>
      boundIn (pattern.names ++ locals) globals body && boundInArms locals globals arms

end

def declares : Expr → List String
  | .function name _ _ _ => [name]
  | .dataType _ variants _ => variants.map Prod.fst
  | _ => []

def introduces : Expr → List String
  | .letTop name _ _ => [name]
  | _ => []

def boundInItems (declared : List String) : List String → List Expr → Bool
  | _, [] => true
  | globals, item :: items =>
      item.boundIn declared globals && boundInItems declared (item.introduces ++ globals) items

/-- What is declared anywhere in a program is seen everywhere in it. -/
def wellScoped (program : List Expr) : Bool := boundInItems (program.flatMap declares) [] program

variable (locals globals : List String)

theorem boundInAll_eq (exprs : List Expr) :
    boundInAll locals globals exprs = exprs.all (boundIn locals globals) := by
  induction exprs with
  | nil => rfl
  | cons expr exprs ih => rw [boundInAll, List.all_cons, ih]

theorem boundInBranches_eq (branches : List (Expr × Expr)) :
    boundInBranches locals globals branches =
      branches.all fun branch =>
        branch.1.boundIn locals globals && branch.2.boundIn locals globals := by
  induction branches with
  | nil => rfl
  | cons branch branches ih => rw [boundInBranches, List.all_cons, ih]

theorem boundInArms_eq (arms : List (Pattern × Expr)) :
    boundInArms locals globals arms =
      arms.all fun arm => arm.2.boundIn (arm.1.names ++ locals) globals := by
  induction arms with
  | nil => rfl
  | cons arm arms ih => rw [boundInArms, List.all_cons, ih]

theorem boundIn_of_mem {declared globals : List String} {program : List Expr}
    (all : boundInItems declared globals program = true) :
    ∀ item ∈ program, ∃ seen, item.boundIn declared seen = true := by
  induction program generalizing globals with
  | nil =>
      intro item member
      cases member
  | cons first rest ih =>
      rw [boundInItems, Bool.and_eq_true] at all
      intro item member
      rcases List.mem_cons.1 member with rfl | member
      · exact ⟨globals, all.1⟩
      · exact ih all.2 item member

end Expr

/-- Values whose closures can be called: every name that the body of a closure may refer to is a
parameter, captured, or declared. -/
inductive Value.Safe (declared : List String) : Value → Prop
  | num (value : Int) : Safe declared (.num value)
  | bool (value : Bool) : Safe declared (.bool value)
  | closure {params : List String} {body : Expr} {scope : Scope Value} {locals globals : List String}
      (inside : body.boundIn locals globals = true)
      (bound : ∀ name, name ∈ locals ∨ name ∈ globals →
        name ∈ params ∨ scope.contains name ∨ name ∈ declared)
      (captured : ∀ layer ∈ scope.layers, ∀ entry ∈ layer, Safe declared entry.2) :
      Safe declared (.closure params body scope)
  | data {tag : String} {fields : List Value} (each : ∀ field ∈ fields, Safe declared field) :
      Safe declared (.data tag fields)

/-- A scope of safe values in which all names from the two lists are bound, unless declared. -/
structure Scope.Supplies (declared locals globals : List String) (scope : Scope Value) : Prop where
  bound : ∀ name, name ∈ locals ∨ name ∈ globals → scope.contains name ∨ name ∈ declared
  safe : scope.Holds (Value.Safe declared)

structure Scope.Declares (declared : List String) (functions : Scope Value) : Prop where
  present : ∀ name ∈ declared, functions.contains name
  safe : functions.Holds (Value.Safe declared)

namespace Scope.Supplies

variable {declared locals globals : List String} {scope : Scope Value}

theorem extend (supplies : scope.Supplies declared locals globals) {value : Value}
    (safe : value.Safe declared) (name : String) :
    (scope.extend name value).Supplies declared (name :: locals) globals := by
  refine ⟨?_, supplies.safe.extend safe name⟩
  intro other mentioned
  rw [contains_extend, or_assoc]
  rcases mentioned with inside | outside
  · rcases List.mem_cons.1 inside with rfl | inside
    · exact .inl rfl
    · exact .inr (supplies.bound other (.inl inside))
  · exact .inr (supplies.bound other (.inr outside))

/-- A let binds its name outside of functions only. -/
theorem extendGlobal (supplies : scope.Supplies declared locals globals) {value : Value}
    (safe : value.Safe declared) (name : String) :
    (scope.extend name value).Supplies declared locals (name :: globals) := by
  refine ⟨?_, supplies.safe.extend safe name⟩
  intro other mentioned
  apply (supplies.extend safe name).bound other
  rwa [List.mem_cons, or_assoc, or_left_comm, ← List.mem_cons]

theorem closure {params : List String} {body : Expr}
    (supplies : scope.Supplies declared locals globals)
    (inside : body.boundIn (params ++ locals) globals = true) :
    (Value.closure params body scope).Safe declared := by
  refine .closure inside ?_ supplies.safe
  intro name mentioned
  rw [List.mem_append, or_assoc] at mentioned
  exact mentioned.imp id (supplies.bound name)

theorem union {bindings : Bindings Value} {names : List String}
    (supplies : scope.Supplies declared locals globals)
    (named : ∀ name ∈ names, name ∈ bindings.names)
    (safe : ∀ entry ∈ bindings, entry.2.Safe declared) :
    (scope.union (.ofBindings bindings)).Supplies declared (names ++ locals) globals := by
  refine ⟨?_, supplies.safe.union (holds_ofBindings safe)⟩
  intro name mentioned
  rw [contains_union, contains_ofBindings]
  rw [List.mem_append, or_assoc] at mentioned
  rcases mentioned with new | old
  · exact .inl (.inr (named name new))
  · exact (supplies.bound name old).imp .inl id

end Scope.Supplies

namespace Pattern

mutual

theorem bindings?_names : ∀ {pattern : Pattern} {value : Value} {bindings : Bindings Value},
    pattern.bindings? value = some bindings → ∀ name ∈ pattern.names, name ∈ bindings.names
  | .bool _, _, _, _, name, member => by cases member
  | .number _, _, _, _, name, member => by cases member
  | .var bound, value, bindings, found, name, member => by
      by_cases blank : bound = "_"
      · simp [names, blank] at member
      · simp only [names, if_neg blank, List.mem_singleton] at member
        simp only [bindings?, if_neg blank, Option.some.injEq] at found
        subst found member
        exact List.mem_singleton_self _
  | .data tag fields, .data other values, bindings, found, name, member => by
      by_cases same : other = tag
      · rw [bindings?, if_pos same] at found
        exact bindingsAll?_names found name member
      · simp [bindings?, same] at found

theorem bindingsAll?_names : ∀ {patterns : List Pattern} {values : List Value}
    {bindings : Bindings Value}, bindingsAll? patterns values = some bindings →
    ∀ name ∈ namesAll patterns, name ∈ bindings.names
  | [], _, _, _, name, member => by cases member
  | pattern :: patterns, value :: values, bindings, found, name, member => by
      simp only [bindingsAll?, Option.bind_eq_bind, Option.bind_eq_some_iff] at found
      obtain ⟨first, here, rest, there, joined⟩ := found
      cases joined
      rw [Bindings.mem_names_update]
      exact (List.mem_append.1 member).imp (bindings?_names here name)
        (bindingsAll?_names there name)

end

end Pattern
end FernLang
