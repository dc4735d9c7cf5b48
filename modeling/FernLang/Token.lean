import FernLang.Operator
import FernLang.Span
import FernLang.Text.LowerCase
import FernLang.Text.Quoted

/-!
Tokens: a lexeme and the span of text it was read from. The kind of a lexeme forgets which
number or name it is; the grammar looks at kinds.
-/

namespace FernLang

inductive Keyword where
  | end_ | if_ | elif | else_ | lambda | let_ | function | data | match_ | case
deriving DecidableEq

namespace Keyword

def text : Keyword → String
  | .end_ => "end"
  | .if_ => "if"
  | .elif => "elif"
  | .else_ => "else"
  | .lambda => "lambda"
  | .let_ => "let"
  | .function => "function"
  | .data => "data"
  | .match_ => "match"
  | .case => "case"

def label : Keyword → String
  | .end_ => "END"
  | .if_ => "IF"
  | .elif => "ELIF"
  | .else_ => "ELSE"
  | .lambda => "LAMBDA"
  | .let_ => "LET"
  | .function => "FUNCTION"
  | .data => "DATA"
  | .match_ => "MATCH"
  | .case => "CASE"

def all : List Keyword :=
  [.end_, .if_, .elif, .else_, .lambda, .let_, .function, .data, .match_, .case]

def ofText? (text : String) : Option Keyword := all.find? (·.text == text)

end Keyword

inductive Mark where
  | leftParen | rightParen | comma | colon | equals
deriving DecidableEq

namespace Mark

def text : Mark → String
  | .leftParen => "("
  | .rightParen => ")"
  | .comma => ","
  | .colon => ":"
  | .equals => "="

def label : Mark → String
  | .leftParen => "LPAREN"
  | .rightParen => "RPAREN"
  | .comma => "COMMA"
  | .colon => "COLON"
  | .equals => "EQ"

def all : List Mark := [.leftParen, .rightParen, .comma, .colon, .equals]

end Mark

inductive Kind where
  | number
  | name
  | truth (value : Bool)
  | keyword (word : Keyword)
  | mark (sign : Mark)
  | operator (sign : Operator)
deriving DecidableEq

namespace Kind

def label : Kind → String
  | .number => "NUMBER"
  | .name => "NAME"
  | .truth value => if value then "TRUE" else "FALSE"
  | .keyword word => word.label
  | .mark sign => sign.label
  | .operator sign => sign.label

def all : List Kind :=
  [.number, .name, .truth true, .truth false] ++ Keyword.all.map .keyword ++ Mark.all.map .mark ++
    Operator.all.map .operator

def ofLabel? (label : String) : Option Kind := all.find? (·.label == label)

/-- What messages call a kind of token, by its label; kinds that no rule asks for by name are
called by their label in lower case. -/
def describeLabel (label : String) : String :=
  match ofLabel? label with
  | some .number => "a number"
  | some .name => "an identifier"
  | some (.mark sign) => Text.quoted sign.text
  | some (.keyword .end_) => "'end'"
  | some (.keyword .else_) => "'else'"
  | some (.keyword .case) => "'case'"
  | _ => Text.lowerCase label

def describe (kind : Kind) : String := describeLabel kind.label

end Kind

inductive Lexeme where
  | number (value : Nat)
  | name (text : String)
  | truth (value : Bool)
  | keyword (word : Keyword)
  | mark (sign : Mark)
  | operator (sign : Operator)
deriving DecidableEq

namespace Lexeme

def kind : Lexeme → Kind
  | .number _ => .number
  | .name _ => .name
  | .truth value => .truth value
  | .keyword word => .keyword word
  | .mark sign => .mark sign
  | .operator sign => .operator sign

/-- The value of a token as messages spell it; truth values begin with a capital. -/
def spelling : Lexeme → String
  | .number value => toString value
  | .name text => text
  | .truth value => if value then "True" else "False"
  | .keyword word => word.text
  | .mark sign => sign.text
  | .operator sign => sign.symbol

/-- A found token in a message: texts are quoted, numbers and truth values are not. -/
def shown (lexeme : Lexeme) : String :=
  match lexeme with
  | .number _ | .truth _ => lexeme.spelling
  | _ => Text.quoted lexeme.spelling

end Lexeme

structure Token where
  lexeme : Lexeme
  span : Span
deriving DecidableEq

namespace Token

def kind (token : Token) : Kind := token.lexeme.kind

def text (token : Token) : String := token.kind.label ++ "(" ++ token.lexeme.spelling ++ ")"

end Token
end FernLang
