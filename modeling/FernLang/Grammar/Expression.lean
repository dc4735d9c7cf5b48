import FernLang.Expr
import FernLang.Grammar.Cursor

/-!
The grammar of patterns and expressions. An expression starts with an opening form and goes on
with operators and calls for as long as they bind tighter than the power it is read at. Each form
that holds others reads them with one level of room less.
-/

namespace FernLang.Parse

def pattern : Nat → Parse Pattern
  | 0 => throw .tooDeep
  | room + 1 => do
      let token ← next "pattern"
      match token.lexeme with
      | .number value => return .number value
      | .operator .sub =>
          let number ← next "negative number pattern"
          match number.lexeme with
          | .number value => return .number (-value)
          | found =>
              refuse (.expected Kind.number.describe "negative number pattern" found) number.span
      | .truth value => return .bool value
      | .name name =>
          if ← looking (.mark .leftParen) then
            let _ ← next "data pattern"
            return .data name (← closed "data pattern" fun _ => pattern room)
          else return .var name
      | found => refuse (.notPattern found) token.span

def branch (nested : Nat → Parse Expr) (context : String) : Parse (Expr × Expr) := do
  let condition ← nested 0
  let _ ← expect (.mark .colon) context
  return (condition, ← nested 0)

def arm (nested : Nat → Parse Expr) (pattern : Parse Pattern) : Parse (Pattern × Expr) := do
  let pattern ← pattern
  let _ ← expect (.mark .colon) "match case"
  return (pattern, ← nested 0)

def variant (done : List (String × List String)) : Parse (String × List String) := do
  let (name, token) ← expectName "data constructor name"
  if name ∈ done.map Prod.fst then refuse (.repeatedConstructor name) token.span
  else if ← looking (.mark .leftParen) then
    let _ ← next "data constructor fields"
    return (name, ← params "data constructor fields")
  else return (name, [])

def letForm (nested : Nat → Parse Expr) (top : Bool) (start : Span) : Parse Expr := do
  let (name, _) ← expectName "let identifier"
  let _ ← expect (.mark .equals) "let binding"
  let binding ← nested 0
  if top then return .letTop name binding (start.merge binding.span)
  else
    let body ← nested 0
    let close ← expect (.keyword .end_) "let body"
    return .letIn name binding body (start.merge close.span)

def lambdaForm (nested : Nat → Parse Expr) (start : Span) : Parse Expr := do
  let _ ← expect (.mark .leftParen) "lambda parameters"
  let names ← params "lambda parameters"
  let _ ← expect (.mark .colon) "lambda"
  let body ← nested 0
  let close ← expect (.keyword .end_) "lambda body"
  return .lambda names body (start.merge close.span)

def functionForm (nested : Nat → Parse Expr) (top : Bool) (start : Span) : Parse Expr := do
  if !top then refuse .innerFunction start
  else
    let (name, _) ← expectName "function name"
    let _ ← expect (.mark .leftParen) "function parameters"
    let names ← params "function parameters"
    let _ ← expect (.mark .colon) "function definition"
    let body ← nested 0
    let close ← expect (.keyword .end_) "function body"
    return .function name names body (start.merge close.span)

def condForm (nested : Nat → Parse Expr) (start : Span) : Parse Expr := do
  let first ← branch nested "if condition"
  let branches ← chained (.keyword .elif) "elif" (fun _ => branch nested "elif condition")
    (← left) [first]
  let _ ← expect (.keyword .else_) "if expression"
  let _ ← expect (.mark .colon) "else branch"
  let otherwise ← nested 0
  let close ← expect (.keyword .end_) "if expression"
  return .cond branches otherwise (start.merge close.span)

def dataForm (top : Bool) (start : Span) : Parse Expr := do
  if !top then refuse .innerData start
  else
    let (name, _) ← expectName "data type name"
    let _ ← expect (.mark .equals) "data declaration"
    let first ← variant []
    let variants ← chained (.operator .bitOr) "data declaration" variant (← left) [first]
    return .dataType name variants (start.merge (← get).last)

def matchForm (nested : Nat → Parse Expr) (pattern : Parse Pattern) (start : Span) :
    Parse Expr := do
  let scrutinee ← nested 0
  let _ ← expect (.keyword .case) "match expression"
  let first ← arm nested pattern
  let arms ← chained (.keyword .case) "match expression" (fun _ => arm nested pattern)
    (← left) [first]
  let close ← expect (.keyword .end_) "match expression"
  return .matching scrutinee arms (start.merge close.span)

/-- The form that a token opens. A leading minus is a subtraction from zero. -/
def opening (nested : Nat → Parse Expr) (pattern : Parse Pattern) (top : Bool) (token : Token) :
    Parse Expr :=
  match token.lexeme with
  | .number value => return .number value token.span
  | .truth value => return .bool value token.span
  | .name name => return .var name token.span
  | .mark .leftParen => do
      let inner ← nested 0
      let _ ← expect (.mark .rightParen) "parenthesized expression"
      return inner
  | .operator .sub => do
      let operand ← nested negationPower
      return .binary (.text Operator.sub.symbol) (.number 0 token.span) operand
        (token.span.merge operand.span)
  | .keyword .let_ => letForm nested top token.span
  | .keyword .lambda => lambdaForm nested token.span
  | .keyword .function => functionForm nested top token.span
  | .keyword .if_ => condForm nested token.span
  | .keyword .data => dataForm top token.span
  | .keyword .match_ => matchForm nested pattern token.span
  | found => refuse (.notExpression found) token.span

/-- Declarations are complete as they stand; nothing goes on from them. -/
def opensDeclaration (token : Token) : Bool :=
  token.kind == .keyword .function || token.kind == .keyword .data

def arguments (nested : Nat → Parse Expr) : Parse (List Expr) :=
  closed "function call arguments" fun _ => nested 0

/-- Operators and calls that go on from an expression and bind tighter than `power`. -/
def continuing (nested : Nat → Parse Expr) (power : Nat) : Nat → Expr → Parse Expr
  | 0, left => return left
  | steps + 1, left => do
      let seen ← peek
      match seen.map Token.lexeme with
      | some (.operator operator) =>
          if operator.power ≤ power then return left
          else
            let _ ← next "expression"
            let right ← nested operator.rightPower
            continuing nested power steps
              (.binary (.text operator.symbol) left right (left.span.merge right.span))
      | some (.mark .leftParen) =>
          if callPower ≤ power then return left
          else
            let _ ← next "expression"
            let args ← arguments nested
            continuing nested power steps (.call left args (left.span.merge (← get).last))
      | _ => return left

def expression : Nat → Nat → Bool → Parse Expr
  | 0, _, _ => throw .tooDeep
  | room + 1, power, top => do
      let nested := fun power => expression room power false
      let token ← next "expression"
      let first ← opening nested (pattern room) top token
      if opensDeclaration token then return first
      else continuing nested power (← left) first

def items (room : Nat) : Nat → List Expr → Parse (List Expr)
  | 0, done => return done
  | steps + 1, done => do
      if (← peek).isNone then return done
      else
        let item ← expression room 0 true
        items room steps (done ++ [item])

def program (room : Nat) : Parse (List Expr) := do items room (← left) []

end FernLang.Parse
