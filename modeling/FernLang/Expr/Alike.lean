import FernLang.Expr
import FernLang.Json.Alike

/-!
Two expressions are alike when they differ at most in their spans.
-/

namespace FernLang

mutual

def Pattern.alike : Pattern → Pattern → Bool
  | .bool value, other => match other with
    | .bool again => value == again
    | _ => false
  | .number value, other => match other with
    | .number again => value == again
    | _ => false
  | .var name, other => match other with
    | .var again => name == again
    | _ => false
  | .data tag fields, other => match other with
    | .data again others => tag == again && Pattern.alikeAll fields others
    | _ => false

def Pattern.alikeAll : List Pattern → List Pattern → Bool
  | [], others => others.isEmpty
  | pattern :: patterns, others => match others with
    | other :: others => Pattern.alike pattern other && Pattern.alikeAll patterns others
    | [] => false

end

namespace Expr

mutual

def alike : Expr → Expr → Bool
  | .number value _, other => match other with
    | .number again _ => value == again
    | _ => false
  | .bool value _, other => match other with
    | .bool again _ => value == again
    | _ => false
  | .var name _, other => match other with
    | .var again _ => name == again
    | _ => false
  | .letIn name binding body _, other => match other with
    | .letIn again binding' body' _ => name == again && alike binding binding' && alike body body'
    | _ => false
  | .letTop name binding _, other => match other with
    | .letTop again binding' _ => name == again && alike binding binding'
    | _ => false
  | .binary sign left right _, other => match other with
    | .binary again left' right' _ => sign.alike again && alike left left' && alike right right'
    | _ => false
  | .lambda params body _, other => match other with
    | .lambda again body' _ => params == again && alike body body'
    | _ => false
  | .function name params body _, other => match other with
    | .function again params' body' _ => name == again && params == params' && alike body body'
    | _ => false
  | .call callee args _, other => match other with
    | .call callee' args' _ => alike callee callee' && alikeAll args args'
    | _ => false
  | .cond branches otherwise _, other => match other with
    | .cond branches' otherwise' _ =>
        alikeBranches branches branches' && alike otherwise otherwise'
    | _ => false
  | .dataType name variants _, other => match other with
    | .dataType again variants' _ => name == again && variants == variants'
    | _ => false
  | .construct tag fields _, other => match other with
    | .construct again fields' _ => tag == again && alikeAll fields fields'
    | _ => false
  | .matching scrutinee arms _, other => match other with
    | .matching scrutinee' arms' _ => alike scrutinee scrutinee' && alikeArms arms arms'
    | _ => false
  | .row items, other => match other with
    | .row items' => alikeAll items items'
    | _ => false

def alikeAll : List Expr → List Expr → Bool
  | [], others => others.isEmpty
  | expr :: exprs, others => match others with
    | other :: others => alike expr other && alikeAll exprs others
    | [] => false

def alikeBranches : List (Expr × Expr) → List (Expr × Expr) → Bool
  | [], others => others.isEmpty
  | (condition, body) :: branches, others => match others with
    | (condition', body') :: others =>
        alike condition condition' && alike body body' && alikeBranches branches others
    | [] => false

def alikeArms : List (Pattern × Expr) → List (Pattern × Expr) → Bool
  | [], others => others.isEmpty
  | (pattern, body) :: arms, others => match others with
    | (pattern', body') :: others =>
        pattern.alike pattern' && alike body body' && alikeArms arms others
    | [] => false

end

end Expr
end FernLang
