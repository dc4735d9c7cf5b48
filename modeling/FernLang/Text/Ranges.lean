/-!
Character classes as ascending lists of inclusive code point ranges.
-/

namespace FernLang.Text

def inRanges (ranges : List (Nat × Nat)) (code : Nat) : Bool :=
  ranges.any fun range => range.1 ≤ code && code ≤ range.2

end FernLang.Text
