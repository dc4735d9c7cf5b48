import FernLang.Expr.Exchange

/-!
Trees survive being written as JSON. What is read from a written tree is that tree, with every span in
it: in a written object each field that the reader asks for is found by its name, so reading the object
comes down to reading its parts. This holds for any kind of names that can be read again. A program read
from elsewhere, whatever its names are, has a normal form, the one it is written in, and a normal form is
its own.
-/

namespace FernLang

namespace Exchange

variable {α Name : Type} [Naming Name]

theorem spanField_spanJson {fields : Fields} (span : Span)
    (found : Bindings.get? "span" fields = some (Expr.spanJson span).2) : spanField fields = .ok span := by
  have ordered : Span.between? span.start span.stop = some span := dif_pos span.ordered
  have listed : spanField fields = spanField.ends [.whole span.start, .whole span.stop] := by
    rw [spanField, found]
    rfl
  rw [listed, spanField.ends]
  simp only [whole, Except.bind, bind, ordered]

theorem mapM_read_written {write : α → Json} {read : Json → Result α}
    (undoes : ∀ item, read (write item) = .ok item) (list : List α) :
    (list.map write).mapM read = .ok list := by
  induction list with
  | nil => rfl
  | cons item list ih =>
      rw [List.map_cons, List.mapM_cons, undoes, ih]
      rfl

theorem names_namesJson (list : List Name) : names (Expr.namesJson list) = .ok list :=
  mapM_read_written Naming.read_write list

theorem variant_variantJson (one : Name × List Name) : variant (Expr.variantJson one) = .ok one := by
  change (do
    let tag ← Naming.read (Naming.write one.1)
    return (tag, ← names (Expr.namesJson one.2)) : Result (Name × List Name)) = _
  rw [Naming.read_write, names_namesJson]
  rfl

end Exchange

namespace Pattern

open Exchange

variable {Name : Type} [Naming Name]

mutual

theorem ofJson_toJson : ∀ pattern : Pattern Name, ofJson (toJson pattern) = .ok pattern
  | .bool value => by
      rw [toJson, ofJson]
      rfl
  | .number value => by
      rw [toJson, ofJson]
      rfl
  | .var name => by
      rw [toJson, ofJson]
      change (do return var (← Naming.read (Naming.write name)) : Result (Pattern Name)) = _
      rw [Naming.read_write]
      rfl
  | .data tag fields => by
      rw [toJson, ofJson]
      change (do
        let tag ← Naming.read (Naming.write tag)
        return data tag (← ofList (toJsonAll fields)) : Result (Pattern Name)) = _
      rw [Naming.read_write, ofList_toJsonAll fields]
      rfl

theorem ofList_toJsonAll : ∀ patterns : List (Pattern Name), ofList (toJsonAll patterns) = .ok patterns
  | [] => by
      rw [toJsonAll, ofList]
  | pattern :: patterns => by
      rw [toJsonAll, ofList, ofJson_toJson pattern, ofList_toJsonAll patterns]
      rfl

end

end Pattern

namespace Expr

open Exchange

variable {Name : Type} [Naming Name]

-- The induction is on the tree. A node is opened in three steps: its object's fields are laid bare, its
-- span is read, and what is left to read, named in the `change`, is its parts.
mutual

theorem ofJson_toJson : ∀ tree : Expr Name, ofJson (toJson tree) = .ok tree
  | .number value span => by
      rw [toJson, ofJson, spanField_spanJson span rfl]
      rfl
  | .bool value span => by
      rw [toJson, ofJson, spanField_spanJson span rfl]
      rfl
  | .var name span => by
      rw [toJson, ofJson, spanField_spanJson span rfl]
      change (do return var (← Naming.read (Naming.write name)) span : Result (Expr Name)) = _
      rw [Naming.read_write]
      rfl
  | .letIn name binding body span => by
      rw [toJson, ofJson, spanField_spanJson span rfl]
      change (do
        let name ← Naming.read (Naming.write name)
        let first ← ofJson (toJson binding)
        return letIn name first (← ofJson (toJson body)) span : Result (Expr Name)) = _
      rw [Naming.read_write, ofJson_toJson binding, ofJson_toJson body]
      rfl
  | .letTop name binding span => by
      rw [toJson, ofJson, spanField_spanJson span rfl]
      change (do
        let name ← Naming.read (Naming.write name)
        return letTop name (← ofJson (toJson binding)) span : Result (Expr Name)) = _
      rw [Naming.read_write, ofJson_toJson binding]
      rfl
  | .binary sign left right span => by
      rw [toJson, ofJson, spanField_spanJson span rfl]
      change (do
        let first ← ofJson (toJson left)
        return binary sign first (← ofJson (toJson right)) span : Result (Expr Name)) = _
      rw [ofJson_toJson left, ofJson_toJson right]
      rfl
  | .lambda params body span => by
      rw [toJson, ofJson, spanField_spanJson span rfl]
      change (do
        let list ← names (namesJson params)
        return lambda list (← ofJson (toJson body)) span : Result (Expr Name)) = _
      rw [names_namesJson, ofJson_toJson body]
      rfl
  | .function name params body span => by
      rw [toJson, ofJson, spanField_spanJson span rfl]
      change (do
        let name ← Naming.read (Naming.write name)
        let list ← names (namesJson params)
        return function name list (← ofJson (toJson body)) span : Result (Expr Name)) = _
      rw [Naming.read_write, names_namesJson, ofJson_toJson body]
      rfl
  | .call callee args span => by
      rw [toJson, ofJson, spanField_spanJson span rfl]
      change (do
        let first ← ofJson (toJson callee)
        return call first (← ofList (toJsonAll args)) span : Result (Expr Name)) = _
      rw [ofJson_toJson callee, ofList_toJsonAll args]
      rfl
  | .cond branches otherwise span => by
      rw [toJson, ofJson, spanField_spanJson span rfl]
      change (do
        let list ← ofBranchList (toJsonBranches branches)
        return cond list (← ofJson (toJson otherwise)) span : Result (Expr Name)) = _
      rw [ofBranchList_toJsonBranches branches, ofJson_toJson otherwise]
      rfl
  | .dataType name variants span => by
      rw [toJson, ofJson, spanField_spanJson span rfl]
      change (do
        let name ← Naming.read (Naming.write name)
        return dataType name (← (variants.map variantJson).mapM variant) span : Result (Expr Name)) = _
      rw [Naming.read_write, mapM_read_written variant_variantJson]
      rfl
  | .construct tag fields span => by
      rw [toJson, ofJson, spanField_spanJson span rfl]
      change (do
        let tag ← Naming.read (Naming.write tag)
        return construct tag (← ofList (toJsonAll fields)) span : Result (Expr Name)) = _
      rw [Naming.read_write, ofList_toJsonAll fields]
      rfl
  | .matching scrutinee arms span => by
      rw [toJson, ofJson, spanField_spanJson span rfl]
      change (do
        let first ← ofJson (toJson scrutinee)
        return matching first (← ofArmList (toJsonArms arms)) span : Result (Expr Name)) = _
      rw [ofJson_toJson scrutinee, ofArmList_toJsonArms arms]
      rfl
  | .row items => by
      rw [toJson, ofJson, ofList_toJsonAll items]
      rfl

theorem ofList_toJsonAll : ∀ trees : List (Expr Name), ofList (toJsonAll trees) = .ok trees
  | [] => by
      rw [toJsonAll, ofList]
  | tree :: trees => by
      rw [toJsonAll, ofList, ofJson_toJson tree, ofList_toJsonAll trees]
      rfl

theorem ofBranchList_toJsonBranches :
    ∀ branches : List (Expr Name × Expr Name), ofBranchList (toJsonBranches branches) = .ok branches
  | [] => by
      rw [toJsonBranches, ofBranchList]
  | (condition, body) :: branches => by
      rw [toJsonBranches, ofBranchList, ofBranch, ofJson_toJson condition, ofJson_toJson body,
        ofBranchList_toJsonBranches branches]
      rfl

theorem ofArmList_toJsonArms :
    ∀ arms : List (Pattern Name × Expr Name), ofArmList (toJsonArms arms) = .ok arms
  | [] => by
      rw [toJsonArms, ofArmList]
  | (pattern, body) :: arms => by
      rw [toJsonArms, ofArmList, ofArm, Pattern.ofJson_toJson pattern, ofJson_toJson body,
        ofArmList_toJsonArms arms]
      rfl

end

theorem programOfJson_programToJson (program : List (Expr Name)) :
    programOfJson (programToJson program) = .ok program :=
  ofList_toJsonAll program

theorem normalForm_eq {value : Json} {program : List (Expr Json)}
    (read : programOfJson value = .ok program) : normalForm value = .ok (programToJson program) := by
  rw [normalForm, read]
  rfl

end Expr

/-- A written program is read as it was, down to its last span, whether its names are texts or any other
values. Whatever value a program is read from has a normal form; that form is its own normal form, and
the same program is read from it. -/
theorem program_exchange :
    (∀ program : List (Expr Json), Expr.programOfJson (Expr.programToJson program) = .ok program) ∧
      (∀ program : List (Expr String), Expr.programOfJson (Expr.programToJson program) = .ok program) ∧
      ∀ (value : Json) (program : List (Expr Json)), Expr.programOfJson value = .ok program →
        ∃ form, Expr.normalForm value = .ok form ∧ Expr.normalForm form = .ok form ∧
          Expr.programOfJson form = .ok program := by
  refine ⟨Expr.programOfJson_programToJson, Expr.programOfJson_programToJson, ?_⟩
  intro value program read
  have again := Expr.programOfJson_programToJson program
  exact ⟨Expr.programToJson program, Expr.normalForm_eq read, Expr.normalForm_eq again, again⟩

namespace Expr

/-- A program that no tree is written as: its fields stand in another order, its number is a truth value
and has no span, its variable is named by a number, and it has a field that is not asked for. -/
def loose : Json :=
  .object [("note", .null),
    ("body", .list [.object [("value", .bool true), ("type", .text "Number")],
      .object [("name", .whole 5), ("type", .text "Variable")]]),
    ("type", .text "Program")]

theorem loose_read : programOfJson loose = .ok [.number 1 .origin, .var (Json.whole 5) .origin] := rfl

end Expr

theorem loose_exchange :
    Expr.programOfJson Expr.loose = .ok [.number 1 .origin, .var (Json.whole 5) .origin] ∧
      ∃ form, Expr.normalForm Expr.loose = .ok form ∧ Expr.normalForm form = .ok form ∧
        Expr.programOfJson form = .ok [.number 1 .origin, .var (Json.whole 5) .origin] :=
  ⟨Expr.loose_read,
    program_exchange.2.2 Expr.loose [.number 1 .origin, .var (.whole 5) .origin] Expr.loose_read⟩

end FernLang
