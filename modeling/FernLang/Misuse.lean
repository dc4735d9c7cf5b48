/-!
Operations asked for what they have no answer to. Reading and evaluation look before they ask; where
they do not, nothing else stands in the way.
-/

namespace FernLang

inductive Misuse where
  | zeroDivisor
  | negativeExponent
  | absentName (name : String)
  | absentPart
  | absentToken
deriving DecidableEq

end FernLang
