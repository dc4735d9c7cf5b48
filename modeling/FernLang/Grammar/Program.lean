import FernLang.Grammar.Expression
import FernLang.Token.Scan

/-!
From text to programs.
-/

namespace FernLang

inductive SourceError where
  | scan (error : ScanError)
  | parse (error : ParseError)
  | tooDeep
  | misused (misuse : Misuse)

def nestingLimit : Nat := 700

def parseTokens (room : Nat) (tokens : List Token) : Except Refusal (List Expr) :=
  match Parse.program room (.ofTokens tokens) with
  | .ok program _ => .ok program
  | .error refusal _ => .error refusal

def parseSource (room : Nat) (source : String) : Except SourceError (List Expr) :=
  match tokenize source with
  | .error error => .error (.scan error)
  | .ok tokens =>
      match parseTokens room tokens with
      | .ok program => .ok program
      | .error (.malformed error) => .error (.parse error)
      | .error .tooDeep => .error .tooDeep
      | .error (.misused misuse) => .error (.misused misuse)

end FernLang
