/-!
Spans are half-open ranges of character indices. A span never ends before it starts, and the
merge of two spans is the least span that covers both.
-/

namespace FernLang

structure Span where
  start : Int
  stop : Int
  ordered : start ≤ stop
deriving DecidableEq

namespace Span

def origin : Span := ⟨0, 0, Int.le_refl 0⟩

instance : Inhabited Span := ⟨origin⟩

def between? (start stop : Int) : Option Span :=
  if ordered : start ≤ stop then some ⟨start, stop, ordered⟩ else none

def point (index : Int) : Span := ⟨index, index, Int.le_refl index⟩

def ofWidth (index width : Nat) : Span := ⟨index, index + width, by omega⟩

def merge (a b : Span) : Span where
  start := min a.start b.start
  stop := max a.stop b.stop
  ordered := by have first := a.ordered; omega

end Span
end FernLang
