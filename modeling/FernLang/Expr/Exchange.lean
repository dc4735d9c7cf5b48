import FernLang.Expr
import FernLang.Json

/-!
Trees as JSON. Each node is an object that names its type and ends with its span. Reading goes
through the fields in writing order, the span first of all, and reports the first fault it meets.

Where a list is read, a text stands for the list of its characters and an object for the list of
its field names. A name is taken as it is found, so that trees may have any values for names; who wants
the names to be texts is told of the first that is none.
-/

namespace FernLang

inductive ExchangeError where
  | notNode
  | notPattern
  | notProgram
  | wrongShape
  | missing (field : String)
  | missingIndex
  | shortSpan
  | spanOrder (start stop : Int)
  | tooFew (count : Nat)
  | tooMany
  | unknownNode (label : String)
  | unknownPattern (label : String)
  | notANumber
  | unbounded
  | numeral (error : Numeral.Error)

namespace ExchangeError

def message? : ExchangeError → Option String
  | .notNode => some "Invalid AST object"
  | .notProgram => some "AST file does not contain a Program"
  | .missing field => some (Text.quoted field)
  | .missingIndex => some "0"
  | .spanOrder start stop => some s!"span start {start} is after end {stop}"
  | .tooFew count => some s!"not enough values to unpack (expected 2, got {count})"
  | .tooMany => some "too many values to unpack (expected 2)"
  | .unknownNode label => some s!"Unknown AST node type: {label}"
  | .unknownPattern label => some s!"Unknown pattern type: {label}"
  | .notANumber => some "cannot convert float NaN to integer"
  | .numeral error => some error.message
  | .notPattern | .wrongShape | .shortSpan | .unbounded => none

end ExchangeError

namespace Exchange

abbrev Fields := List (String × Json)

abbrev Result := Except ExchangeError

def numeral {α : Type} : Except Numeral.Error α → Result α
  | .ok value => .ok value
  | .error error => .error (.numeral error)

def whole : Json → Result Int
  | .whole value => .ok value
  | .bool value => .ok (if value then 1 else 0)
  | .real (.finite negative significand exponent) =>
      .ok (Binary64.truncate negative significand exponent)
  | .real (.infinite _) => .error .unbounded
  | .real .nan => .error .notANumber
  | .text value => numeral (Numeral.read value)
  | _ => .error .wrongShape

def characters (value : String) : List Json :=
  value.toList.map fun c => .text (String.singleton c)

def spanField (fields : Fields) : Result Span :=
  match Bindings.get? "span" fields with
  | none | some .null => .ok .origin
  | some (.list items) => ends items
  | some (.text value) => ends (characters value)
  | some (.object _) => .error .missingIndex
  | some _ => .error .wrongShape
where
  ends : List Json → Result Span
  | [] => .error .shortSpan
  | [first] => do
      let _ ← whole first
      .error .shortSpan
  | first :: second :: _ => do
      let start ← whole first
      let stop ← whole second
      match Span.between? start stop with
      | some span => .ok span
      | none => .error (.spanOrder start stop)

def field (name : String) (fields : Fields) : Result Json :=
  match Bindings.get? name fields with
  | some value => .ok value
  | none => .error (.missing name)

/-- The names that trees may have: each can be read from what it is written as. -/
class Naming (Name : Type) where
  write : Name → Json
  read : Json → Result Name
  read_write : ∀ name, read (write name) = .ok name

instance : Naming Json where
  write := id
  read := .ok
  read_write _ := rfl

instance : Naming String where
  write := .text
  read
    | .text value => .ok value
    | _ => .error .wrongShape
  read_write _ := rfl

@[simp] theorem Naming.write_text (name : String) : Naming.write name = .text name := rfl

def items : Json → Result (List Json)
  | .list items => .ok items
  | .text value => .ok (characters value)
  | .object fields => .ok (fields.map fun entry => .text entry.1)
  | _ => .error .wrongShape

def pair (value : Json) : Result (Json × Json) := do
  match ← items value with
  | [first, second] => .ok (first, second)
  | [] => .error (.tooFew 0)
  | [_] => .error (.tooFew 1)
  | _ => .error .tooMany

def typeLabel (fields : Fields) (key : String) : Result String :=
  numeral ((Bindings.get? key fields).getD .null).label

variable {Name : Type} [Naming Name]

def nameField (name : String) (fields : Fields) : Result Name := do Naming.read (← field name fields)

def names (value : Json) : Result (List Name) := do (← items value).mapM Naming.read

def namesField (name : String) (fields : Fields) : Result (List Name) := do
  names (← field name fields)

def variant (value : Json) : Result (Name × List Name) := do
  let (tag, fields) ← pair value
  return (← Naming.read tag, ← names fields)

end Exchange

namespace Pattern

open Exchange

variable {Name : Type} [Naming Name]

mutual

def toJson : Pattern Name → Json
  | .bool value => .object [("pattern", .text "Bool"), ("value", .bool value)]
  | .number value => .object [("pattern", .text "Number"), ("value", .whole value)]
  | .var name => .object [("pattern", .text "Identifier"), ("name", Naming.write name)]
  | .data tag fields =>
      .object [("pattern", .text "Data"), ("constructor", Naming.write tag),
        ("patterns", .list (toJsonAll fields))]

def toJsonAll : List (Pattern Name) → List Json
  | [] => []
  | pattern :: patterns => toJson pattern :: toJsonAll patterns

end

mutual

def ofJson : Json → Result (Pattern Name)
  | .object fields => do
      match Bindings.get? "pattern" fields with
      | some (.text "Bool") => return .bool (← field "value" fields).isTruthy
      | some (.text "Number") => return .number (← whole (← field "value" fields))
      | some (.text "Identifier") => return .var (← nameField "name" fields)
      | some (.text "Data") =>
          let tag ← nameField "constructor" fields
          return .data tag (← ofFields fields)
      | _ => .error (.unknownPattern (← typeLabel fields "pattern"))
  | _ => .error .notPattern

def ofFields : List (String × Json) → Result (List (Pattern Name))
  | [] => .error (.missing "patterns")
  | (name, value) :: fields => if name = "patterns" then ofItems value else ofFields fields

def ofItems : Json → Result (List (Pattern Name))
  | .list items => ofList items
  | .text value => if value.isEmpty then .ok [] else .error .notPattern
  | .object fields => if fields.isEmpty then .ok [] else .error .notPattern
  | _ => .error .wrongShape

def ofList : List Json → Result (List (Pattern Name))
  | [] => .ok []
  | item :: items => do return (← ofJson item) :: (← ofList items)

end

end Pattern

namespace Expr

open Exchange

variable {Name : Type} [Naming Name]

def spanJson (span : Span) : String × Json := ("span", .list [.whole span.start, .whole span.stop])

def namesJson (names : List Name) : Json := .list (names.map Naming.write)

def variantJson (variant : Name × List Name) : Json :=
  .list [Naming.write variant.1, namesJson variant.2]

mutual

def toJson : Expr Name → Json
  | .number value span => .object [("type", .text "Number"), ("value", .whole value), spanJson span]
  | .bool value span => .object [("type", .text "Bool"), ("value", .bool value), spanJson span]
  | .var name span => .object [("type", .text "Variable"), ("name", Naming.write name), spanJson span]
  | .letIn name binding body span =>
      .object [("type", .text "Let"), ("name", Naming.write name), ("binding", toJson binding),
        ("body", toJson body), spanJson span]
  | .letTop name binding span =>
      .object [("type", .text "LetTopLevel"), ("name", Naming.write name), ("binding", toJson binding),
        spanJson span]
  | .binary sign left right span =>
      .object [("type", .text "BinaryOp"), ("op", sign), ("left", toJson left),
        ("right", toJson right), spanJson span]
  | .lambda params body span =>
      .object [("type", .text "Lambda"), ("params", namesJson params), ("body", toJson body),
        spanJson span]
  | .function name params body span =>
      .object [("type", .text "Function"), ("name", Naming.write name), ("params", namesJson params),
        ("body", toJson body), spanJson span]
  | .call callee args span =>
      .object [("type", .text "Call"), ("callee", toJson callee), ("args", .list (toJsonAll args)),
        spanJson span]
  | .cond branches otherwise span =>
      .object [("type", .text "If"), ("branches", .list (toJsonBranches branches)),
        ("else_branch", toJson otherwise), spanJson span]
  | .dataType name variants span =>
      .object [("type", .text "DataDeclaration"), ("type_name", Naming.write name),
        ("variants", .list (variants.map variantJson)), spanJson span]
  | .construct tag fields span =>
      .object [("type", .text "DataLiteral"), ("constructor", Naming.write tag),
        ("fields", .list (toJsonAll fields)), spanJson span]
  | .matching scrutinee arms span =>
      .object [("type", .text "Match"), ("scrutinee", toJson scrutinee),
        ("arms", .list (toJsonArms arms)), spanJson span]
  | .row items => .list (toJsonAll items)

def toJsonAll : List (Expr Name) → List Json
  | [] => []
  | expr :: exprs => toJson expr :: toJsonAll exprs

def toJsonBranches : List (Expr Name × Expr Name) → List Json
  | [] => []
  | (condition, body) :: branches =>
      .list [toJson condition, toJson body] :: toJsonBranches branches

def toJsonArms : List (Pattern Name × Expr Name) → List Json
  | [] => []
  | (pattern, body) :: arms => .list [pattern.toJson, toJson body] :: toJsonArms arms

end

mutual

def ofJson : Json → Result (Expr Name)
  | .list items => do return .row (← ofList items)
  | .object fields => do
      let place ← spanField fields
      match Bindings.get? "type" fields with
      | some (.text "Number") => return .number (← whole (← field "value" fields)) place
      | some (.text "Bool") => return .bool (← field "value" fields).isTruthy place
      | some (.text "Variable") => return .var (← nameField "name" fields) place
      | some (.text "Let") =>
          let name ← nameField "name" fields
          let binding ← ofField "binding" fields
          return .letIn name binding (← ofField "body" fields) place
      | some (.text "LetTopLevel") =>
          let name ← nameField "name" fields
          return .letTop name (← ofField "binding" fields) place
      | some (.text "BinaryOp") =>
          let sign ← field "op" fields
          let left ← ofField "left" fields
          return .binary sign left (← ofField "right" fields) place
      | some (.text "Lambda") =>
          let params ← namesField "params" fields
          return .lambda params (← ofField "body" fields) place
      | some (.text "Function") =>
          let name ← nameField "name" fields
          let params ← namesField "params" fields
          return .function name params (← ofField "body" fields) place
      | some (.text "Call") =>
          let callee ← ofField "callee" fields
          return .call callee (← ofItemsField "args" fields) place
      | some (.text "If") =>
          let branches ← ofBranchesField fields
          return .cond branches (← ofField "else_branch" fields) place
      | some (.text "DataDeclaration") =>
          let name ← nameField "type_name" fields
          let variants ← items (← field "variants" fields)
          return .dataType name (← variants.mapM variant) place
      | some (.text "DataLiteral") =>
          let tag ← nameField "constructor" fields
          return .construct tag (← ofItemsField "fields" fields) place
      | some (.text "Match") =>
          let scrutinee ← ofField "scrutinee" fields
          return .matching scrutinee (← ofArmsField fields) place
      | _ => .error (.unknownNode (← typeLabel fields "type"))
  | _ => .error .notNode

def ofField (key : String) : List (String × Json) → Result (Expr Name)
  | [] => .error (.missing key)
  | (name, value) :: fields => if name = key then ofJson value else ofField key fields

def ofItemsField (key : String) : List (String × Json) → Result (List (Expr Name))
  | [] => .error (.missing key)
  | (name, value) :: fields => if name = key then ofItems value else ofItemsField key fields

def ofBranchesField : List (String × Json) → Result (List (Expr Name × Expr Name))
  | [] => .error (.missing "branches")
  | (name, value) :: fields =>
      if name = "branches" then ofBranches value else ofBranchesField fields

def ofArmsField : List (String × Json) → Result (List (Pattern Name × Expr Name))
  | [] => .error (.missing "arms")
  | (name, value) :: fields => if name = "arms" then ofArms value else ofArmsField fields

def ofItems : Json → Result (List (Expr Name))
  | .list items => ofList items
  | .text value => if value.isEmpty then .ok [] else .error .notNode
  | .object fields => if fields.isEmpty then .ok [] else .error .notNode
  | _ => .error .wrongShape

def ofList : List Json → Result (List (Expr Name))
  | [] => .ok []
  | item :: items => do return (← ofJson item) :: (← ofList items)

def ofBranches : Json → Result (List (Expr Name × Expr Name))
  | .list items => ofBranchList items
  | value => do
      let parts ← items value
      parts.mapM fun part => do
        let _ ← pair part
        .error .notNode

def ofBranchList : List Json → Result (List (Expr Name × Expr Name))
  | [] => .ok []
  | item :: items => do return (← ofBranch item) :: (← ofBranchList items)

def ofBranch : Json → Result (Expr Name × Expr Name)
  | .list [condition, body] => do return (← ofJson condition, ← ofJson body)
  | value => do
      let _ ← pair value
      .error .notNode

def ofArms : Json → Result (List (Pattern Name × Expr Name))
  | .list items => ofArmList items
  | value => do
      let parts ← items value
      parts.mapM fun part => do
        let _ ← pair part
        .error .notPattern

def ofArmList : List Json → Result (List (Pattern Name × Expr Name))
  | [] => .ok []
  | item :: items => do return (← ofArm item) :: (← ofArmList items)

def ofArm : Json → Result (Pattern Name × Expr Name)
  | .list [pattern, body] => do return (← Pattern.ofJson pattern, ← ofJson body)
  | value => do
      let _ ← pair value
      .error .notPattern

end

def programToJson (program : List (Expr Name)) : Json :=
  .object [("type", .text "Program"), ("body", .list (toJsonAll program))]

def programOfJson : Json → Result (List (Expr Name))
  | .object fields => do
      match Bindings.get? "type" fields with
      | some (.text "Program") => ofItemsField "body" fields
      | _ => .error .notProgram
  | _ => .error .notProgram

/-- The form in which a program that was read is written, with any values for names. -/
def normalForm (value : Json) : Result Json := do
  let program : List (Expr Json) ← programOfJson value
  return programToJson program

end Expr
end FernLang
