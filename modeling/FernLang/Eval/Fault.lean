import FernLang.Cause
import FernLang.Misuse
import FernLang.Value

/-!
Failures of evaluation. An error names its cause and carries the span it is blamed on, the scope
it arose in, and the calls under way, outermost first, below a frame that stands for the program
itself.
-/

namespace FernLang

structure Frame where
  span : Span
  arguments : Scope Value

abbrev Stack := List Frame

def Stack.root : Stack := [⟨.origin, .empty⟩]

structure RuntimeError where
  cause : Cause
  span : Span
  scope : Scope Value
  stack : Stack

/-- How an evaluation ends without a value: by an error, by a number too long to be shown, at a
row of expressions, which has no value, at a list or an object in place of a sign, at an operation
that has no answer, or out of room. -/
inductive Fault where
  | raised (error : RuntimeError)
  | numeral (error : Numeral.Error)
  | bareRow
  | compoundSign
  | misused (misuse : Misuse)
  | outOfRoom

end FernLang
