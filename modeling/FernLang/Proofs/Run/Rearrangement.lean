import Mathlib.Data.List.Perm.Basic
import FernLang.Proofs.Run.Tables
import FernLang.Proofs.Value.Equality

/-!
Declarations may stand anywhere. Running passes over them, and what they declare is in the table
before the first item is run. So a program in which no name is declared twice may be rearranged
as long as its other items keep their order: it comes to the same values or the same fault and leaves
the same globals, under a table with the same answers.
-/

namespace FernLang

namespace Bindings

variable {α : Type}

theorem get?_perm {self other : Bindings α} (perm : self.Perm other) (single : self.names.Nodup)
    (name : String) : self.get? name = other.get? name := by
  have names : self.names.Perm other.names := perm.map Prod.fst
  cases found : self.get? name with
  | some value =>
      have member : (name, value) ∈ other := perm.mem_iff.1 (mem_of_get? found)
      exact (get?_of_mem (names.nodup_iff.1 single) member).symm
  | none =>
      rw [get?_eq_none, names.mem_iff] at found
      exact (get?_eq_none.2 found).symm

end Bindings

namespace Expr

def isDefinition : Expr → Bool
  | .function _ _ _ _ | .dataType _ _ _ => true
  | _ => false

def entries (program : List Expr) : Bindings Value := (program ++ builders program).filterMap entry?

/-- A program enters the names that its items declare, with the constructors behind the functions. -/
theorem names_entries_perm (program : List Expr) :
    (entries program).names.Perm (program.flatMap declares) := by
  unfold entries
  rw [List.filterMap_append, Bindings.names, List.map_append]
  induction program with
  | nil => exact .nil
  | cons item program ih =>
      have later : builders (item :: program) = builders [item] ++ builders program := by
        simp [builders]
      rw [later, List.filterMap_append, List.map_append, List.flatMap_cons]
      cases item with
      | function name params body span => exact ih.cons name
      | dataType name variants span =>
          have tags : ((builders [.dataType name variants span]).filterMap entry?).map Prod.fst =
              variants.map Prod.fst := by
            simp [builders, builder, entry?, List.filterMap_map, Function.comp_def]
          rw [tags]
          exact (List.perm_append_comm_assoc _ _ _).trans (ih.append_left _)
      | _ => exact ih

end Expr

namespace Session

variable {program program' : List Expr}

theorem get?_functionTable_perm (distinct : (program.flatMap Expr.declares).Nodup)
    (rearranged : program.Perm program') (name : String) :
    (functionTable program).get? name = (functionTable program').get? name := by
  have entered (items : List Expr) :
      (functionTable items).get? name = (Expr.entries items).get? name := by
    have same : functionTable items = .ofBindings (.ofPairs (Expr.entries items)) := rfl
    rw [same, Scope.get?_ofBindings, Bindings.get?_ofPairs]
  have moved : (Expr.entries program).Perm (Expr.entries program') :=
    (rearranged.append (rearranged.flatMap_right _)).filterMap Expr.entry?
  rw [entered, entered]
  exact Bindings.get?_perm moved ((Expr.names_entries_perm program).nodup_iff.2 distinct) name

theorem runItems_filter (room : Nat) (setting : Setting) (items : List Expr) :
    runItems room setting items = runItems room setting (items.filter (!·.isDefinition)) := by
  induction items with
  | nil => rfl
  | cons item items ih =>
      cases item with
      | function | dataType =>
          rw [List.filter_cons_of_neg (by simp [Expr.isDefinition]), ← ih, runItems, runItem]
          simp
      | _ =>
          rw [List.filter_cons_of_pos (by simp [Expr.isDefinition]), runItems, runItems, ← ih]

section

variable {table table' : Scope Value} (agree : ∀ name, table.get? name = table'.get? name)
  (room level : Nat)
include agree

theorem runItem_congr (item : Expr) :
    runItem room ⟨table, level⟩ item = runItem room ⟨table', level⟩ item := by
  have evaluated (expr : Expr) (span : Span) :
      topLevel room ⟨table, level⟩ expr span = topLevel room ⟨table', level⟩ expr span := by
    rw [topLevel, topLevel, evaluate_congr agree]
  cases item with
  | letIn | function | dataType => rfl
  | _ => simp only [runItem, evaluated]

theorem runItems_congr (items : List Expr) :
    runItems room ⟨table, level⟩ items = runItems room ⟨table', level⟩ items := by
  induction items with
  | nil => rfl
  | cons item items ih => rw [runItems, runItems, runItem_congr agree, ih]

end

theorem run_congr {session session' : Session} {items items' : List Expr} {level : Nat}
    (globals : session.globals = session'.globals)
    (agree : ∀ name, (session.setting level items).functions.get? name =
      (session'.setting level items').functions.get? name)
    (order : items.filter (!·.isDefinition) = items'.filter (!·.isDefinition)) (room : Nat) :
    (session.run room level items).result = (session'.run room level items').result ∧
      (session.run room level items).session.globals =
        (session'.run room level items').session.globals ∧
      (session.run room level items).lines = (session'.run room level items').lines := by
  have same : runItems room (session.setting level items) items ⟨session.globals, #[]⟩ =
      runItems room (session'.setting level items') items' ⟨session'.globals, #[]⟩ := by
    rw [runItems_filter, order, globals, runItems_filter _ _ items']
    exact congrFun (runItems_congr agree room level _) _
  cases ended : runItems room (session'.setting level items') items' ⟨session'.globals, #[]⟩ with
  | ok values progress =>
      rw [run_ok (same.trans ended), run_ok ended]
      exact ⟨rfl, rfl, rfl⟩
  | error fault progress =>
      rw [run_error (same.trans ended), run_error ended]
      exact ⟨rfl, rfl, rfl⟩

end Session

/-- A program that declares no name twice may be rearranged in any way that keeps the order of the items
other than declarations: a fresh session comes to the same values or to the same fault, traces the same
lines, and is left with the same globals and an equal table. -/
theorem declarations_anywhere {program program' : List Expr}
    (distinct : (program.flatMap Expr.declares).Nodup) (rearranged : program.Perm program')
    (order : program.filter (!·.isDefinition) = program'.filter (!·.isDefinition))
    (room level : Nat) :
    (Session.fresh.run room level program).result = (Session.fresh.run room level program').result ∧
      (Session.fresh.run room level program).session.globals =
        (Session.fresh.run room level program').session.globals ∧
      (Session.fresh.run room level program).lines = (Session.fresh.run room level program').lines ∧
      (∀ name, (Session.fresh.run room level program).session.functions.get? name =
        (Session.fresh.run room level program').session.functions.get? name) ∧
      Value.equalScopes (Session.fresh.run room level program).session.functions
        (Session.fresh.run room level program').session.functions = true := by
  have agree (name : String) : (Session.fresh.setting level program).functions.get? name =
      (Session.fresh.setting level program').functions.get? name := by
    rw [Session.setting, Session.setting, Scope.get?_union, Scope.get?_union,
      Session.get?_functionTable_perm distinct rearranged]
  obtain ⟨results, globals, lines⟩ := Session.run_congr rfl agree order room
  rw [Session.functions_run, Session.functions_run]
  exact ⟨results, globals, lines, agree, Value.equalScopes_of_get? agree⟩

/-- The function of `function even(n): if n == 0: Box(true) else: odd(n - 1) end end`, and likewise for
`odd`, each at an index of its own. -/
def parity (name other : String) (holds : Bool) (index : Nat) : Expr :=
  .function name ["n"]
    (.cond
      [(.binary (.text "==") (.var "n" (.ofWidth (index + 24) 1)) (.number 0 (.ofWidth (index + 29) 1))
          (.ofWidth (index + 24) 6),
        .call (.var "Box" (.ofWidth (index + 32) 3)) [.bool holds (.ofWidth (index + 36) 4)]
          (.ofWidth (index + 32) 9))]
      (.call (.var other (.ofWidth (index + 48) 3))
        [.binary (.text "-") (.var "n" (.ofWidth (index + 52) 1)) (.number 1 (.ofWidth (index + 56) 1))
          (.ofWidth (index + 52) 5)]
        (.ofWidth (index + 48) 10))
      (.ofWidth (index + 21) 41))
    (.ofWidth index 66)

def scattered : List Expr :=
  [ .letTop "start" (.number 3 (.ofWidth 12 1)) (.ofWidth 0 13),
    parity "even" "odd" true 14,
    .call (.var "even" (.ofWidth 81 4)) [.var "start" (.ofWidth 86 5)] (.ofWidth 81 11),
    .dataType "Boxed" [("Box", ["value"])] (.ofWidth 93 23),
    parity "odd" "even" false 117 ]

def gathered : List Expr :=
  (scattered.filter Expr.isDefinition).reverse ++ scattered.filter (!·.isDefinition)

theorem scattered_anywhere :
    (scattered.flatMap Expr.declares).Nodup ∧ gathered.flatMap Expr.declares = ["odd", "Box", "even"] ∧
      (Session.fresh.run 50 0 scattered).result = .ok [.data "Box" [.bool false]] ∧
      (Session.fresh.run 50 0 scattered).result = (Session.fresh.run 50 0 gathered).result ∧
      Value.equalScopes (Session.fresh.run 50 0 scattered).session.functions
        (Session.fresh.run 50 0 gathered).session.functions = true := by
  have moved : gathered.Perm scattered :=
    ((List.reverse_perm _).append_right _).trans (List.filter_append_perm Expr.isDefinition scattered)
  have distinct : (scattered.flatMap Expr.declares).Nodup := by decide
  have anywhere := declarations_anywhere distinct moved.symm rfl 50 0
  exact ⟨distinct, rfl, rfl, anywhere.1, anywhere.2.2.2.2⟩

end FernLang
