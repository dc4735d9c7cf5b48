/-!
Causes of failure in evaluation, and the words for them.
-/

namespace FernLang

/-- Why evaluation failed; values are held as the text they are shown by. -/
inductive Cause where
  | unbound (name : String)
  | condition (shown : String)
  | unmatched (shown : String)
  | notFunction (shown : String)
  | arity (wanted given : Nat)
  | firstOperand (symbol shown : String)
  | secondOperand (symbol shown : String)
  | bothOperands (symbol first second : String)
  | divisionByZero
  | moduloByZero
  | negativeExponent (shown : String)
  | largeExponent (shown : String)
  | unknownOperator (shown : String)
  | innerLet
  | innerFunction
  | innerData
  | outerLet
  | tooDeep
deriving DecidableEq

def Cause.message : Cause → String
  | .unbound name => s!"Couldn't find var in environment: {name}"
  | .condition shown => s!"Conditional expression with non-boolean condition: {shown}"
  | .unmatched shown => s!"No branch of match expression matched value: {shown}"
  | .notFunction shown => s!"Function call with non-function value: {shown}"
  | .arity wanted given => s!"Function takes {wanted} arguments but {given} were provided"
  | .firstOperand symbol shown => s!"Bad first operand to {symbol}: {shown}"
  | .secondOperand symbol shown => s!"Bad second operand to {symbol}: {shown}"
  | .bothOperands symbol first second => s!"Bad operands to {symbol}: {first} and {second}"
  | .divisionByZero => "Division by zero"
  | .moduloByZero => "Modulo by zero"
  | .negativeExponent shown => s!"Negative exponent: {shown}"
  | .largeExponent shown => s!"Exponent too large: {shown}"
  | .unknownOperator shown => s!"Unknown operator {shown}"
  | .innerLet => "Found top-level let inside an expression"
  | .innerFunction => "Function definition not at top level"
  | .innerData => "Data declaration not at top level"
  | .outerLet => "Found scoped let instead of top-level let at top level"
  | .tooDeep => "Maximum recursion depth exceeded"

end FernLang
