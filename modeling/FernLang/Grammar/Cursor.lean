import FernLang.Misuse
import FernLang.Token

/-!
A cursor over tokens: what is left to read and the span of the token read last. Reading takes
tokens from the front, one at a time. When it is refused, what it took so far stays taken.
-/

namespace FernLang

inductive Complaint where
  | ranOut (context : String)
  | expected (wanted context : String) (found : Lexeme)
  | notSeparated (context : String) (found : Lexeme)
  | notExpression (found : Lexeme)
  | notPattern (found : Lexeme)
  | repeatedParameter (name context : String)
  | repeatedConstructor (name : String)
  | innerFunction
  | innerData
deriving DecidableEq

namespace Complaint

def message : Complaint → String
  | .ranOut context => s!"Ran out of tokens while parsing {context}"
  | .expected wanted context found =>
      s!"Expected {wanted} while parsing {context} but found " ++ found.shown
  | .notSeparated context found =>
      s!"Expected ',' or ')' while parsing {context} but found " ++ found.shown
  | .notExpression found => "Unexpected " ++ found.shown ++ " at start of expression"
  | .notPattern found => "Unexpected " ++ found.shown ++ " in pattern"
  | .repeatedParameter name context => s!"Duplicate parameter {name} in {context}"
  | .repeatedConstructor name => s!"Duplicate constructor {name} in data declaration"
  | .innerFunction => "Function definitions are only allowed at the top level"
  | .innerData => "Data declarations are only allowed at the top level"

/-- More tokens could still make an incomplete sequence well formed. -/
def isIncomplete : Complaint → Bool
  | .ranOut _ => true
  | _ => false

end Complaint

structure ParseError where
  complaint : Complaint
  span : Span
deriving DecidableEq

/-- Why reading stopped: a malformed sequence, forms nested deeper than there is room for, or a token
asked for where none is left. -/
inductive Refusal where
  | malformed (error : ParseError)
  | tooDeep
  | misused (misuse : Misuse)
deriving DecidableEq

structure Cursor where
  rest : List Token
  last : Span

def Cursor.ofTokens (tokens : List Token) : Cursor := ⟨tokens, .origin⟩

abbrev Parse := EStateM Refusal Cursor

namespace Parse

variable {α : Type}

def refuse (complaint : Complaint) (span : Span) : Parse α :=
  throw (.malformed ⟨complaint, span⟩)

/-- The token in front. There has to be one. -/
def front : Parse Token := do
  match (← get).rest with
  | [] => throw (.misused .absentToken)
  | token :: _ => return token

def take : Parse Token := do
  match (← get).rest with
  | [] => throw (.misused .absentToken)
  | token :: rest =>
      set (Cursor.mk rest token.span)
      return token

def peek : Parse (Option Token) := do
  if (← get).rest.isEmpty then return none else return some (← front)

def looking (kind : Kind) : Parse Bool := return (← peek).any (·.kind == kind)

/-- The number of tokens left, which bounds how often any loop of the grammar goes round. -/
def left : Parse Nat := return (← get).rest.length

def next (context : String) : Parse Token := do
  if (← get).rest.isEmpty then refuse (.ranOut context) (.point (← get).last.stop) else take

def expect (kind : Kind) (context : String) : Parse Token := do
  let token ← next context
  if token.kind = kind then return token
  else refuse (.expected kind.describe context token.lexeme) token.span

def expectName (context : String) : Parse (String × Token) := do
  let token ← next context
  match token.lexeme with
  | .name text => return (text, token)
  | _ => refuse (.expected Kind.name.describe context token.lexeme) token.span

/-- Like `expect`, for a kind given by its label, which no token may have. -/
def expectLabel (label context : String) : Parse Token := do
  match Kind.ofLabel? label with
  | some kind => expect kind context
  | none =>
      let token ← next context
      refuse (.expected (Kind.describeLabel label) context token.lexeme) token.span

def separated (context : String) (item : List α → Parse α) : Nat → List α → Parse (List α)
  | 0, _ => throw .tooDeep
  | steps + 1, done => do
      let one ← item done
      let token ← next context
      match token.lexeme with
      | .mark .rightParen => return done ++ [one]
      | .mark .comma => separated context item steps (done ++ [one])
      | _ => refuse (.notSeparated context token.lexeme) token.span

/-- A list of items in parentheses, the opening one taken; it may be empty. An item may depend on
those before it. -/
def closed (context : String) (item : List α → Parse α) : Parse (List α) := do
  if ← looking (.mark .rightParen) then
    let _ ← next context
    return []
  else separated context item ((← left) + 1) []

def chained (kind : Kind) (context : String) (item : List α → Parse α) :
    Nat → List α → Parse (List α)
  | 0, done => return done
  | steps + 1, done => do
      if ← looking kind then
        let _ ← next context
        let one ← item done
        chained kind context item steps (done ++ [one])
      else return done

/-- Names with commas between them and no name twice, the opening parenthesis taken. -/
def params (context : String) : Parse (List String) :=
  closed context fun done => do
    let (name, token) ← expectName context
    if name ∈ done then refuse (.repeatedParameter name context) token.span
    else return name

end Parse
end FernLang
