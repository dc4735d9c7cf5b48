import FernLang.Eval.Fault
import FernLang.Grammar.Program
import FernLang.Text.Pieces

/-!
Failures shown against their source. Lines and columns count from zero and are shown from one. A
span is shown by the lines it touches, with carets below its characters, at least one; when it
stops at a line's start, that line is left out.
-/

namespace FernLang

structure OutOfRange where
  index : Int
  length : Nat
deriving DecidableEq

def OutOfRange.message (error : OutOfRange) : String :=
  s!"index {error.index} is outside source of length {error.length}"

structure Position where
  line : Nat
  column : Nat
deriving DecidableEq

/-- A line of source, with the blanks and carets below it. -/
structure Row where
  line : Nat
  text : List Char
  blank : Nat
  width : Nat
deriving DecidableEq

namespace Excerpt

def lines (source : List Char) : List (List Char) := Text.pieces '\n' source

def positionAfter (before : List Char) : Position where
  line := before.count '\n'
  column := (before.reverse.takeWhile (· != '\n')).length

def position (source : List Char) (index : Int) : Except OutOfRange Position :=
  if index < 0 ∨ (source.length : Int) < index then .error ⟨index, source.length⟩
  else .ok (positionAfter (source.take index.toNat))

def label (source : List Char) (name : String) (index : Int) : Except OutOfRange String := do
  let place ← position source index
  return s!"{name}:{place.line + 1}:{place.column + 1}"

/-- The last position to be underlined: a span that stops at a line's start ends the line
before. -/
def lastPosition (source : List Char) (start stop : Position) : Position :=
  if start.line < stop.line ∧ stop.column = 0 then
    ⟨stop.line - 1, ((lines source).getD (stop.line - 1) []).length⟩
  else stop

def row (start stop : Position) (line : Nat) (text : List Char) : Row :=
  if line = start.line ∧ line = stop.line then
    ⟨line, text, start.column, max 1 (stop.column - start.column)⟩
  else if line = start.line then ⟨line, text, start.column, text.length - start.column⟩
  else if line = stop.line then ⟨line, text, 0, stop.column⟩
  else ⟨line, text, 0, text.length⟩

def underline (source : List Char) (span : Span) : Except OutOfRange (List Row) := do
  let start ← position source span.start
  let stop ← position source span.stop
  let stop := lastPosition source start stop
  let count := stop.line + 1 - start.line
  return (((lines source).drop start.line).take count).zipIdx start.line |>.map
    fun (text, line) => row start stop line text

/-- A number at the right of a field of four characters. -/
def margin (number : Nat) : List Char :=
  let digits := Nat.toDigits 10 number
  List.replicate (4 - digits.length) ' ' ++ digits

def Row.render (row : Row) : List String :=
  [String.ofList (margin (row.line + 1)) ++ " | " ++ String.ofList row.text,
   "     | " ++ String.ofList (List.replicate row.blank ' ' ++ List.replicate row.width '^')]

def renderError (message : String) (span : Span) (source name : String) :
    Except OutOfRange String := do
  let rows ← underline source.toList span
  return "\n".intercalate (s!"error in {name}: {message}" :: rows.flatMap Row.render)

/-- The text of a span whose start lies in the source; its end is cut to the source. -/
def slice (source : List Char) (span : Span) : List Char :=
  (source.drop span.start.toNat).take (span.stop - span.start).toNat

def renderCall (source : List Char) (name : String) (index : Nat) (span : Span) :
    Except OutOfRange (List String) := do
  return [s!"#{index}: " ++ (← label source name span.start),
    "\t" ++ String.ofList (slice source span)]

def renderCalls (calls : List Span) (source name : String) : Except OutOfRange String := do
  let entries ← calls.zipIdx.mapM fun (span, index) => renderCall source.toList name index span
  return "\n".intercalate entries.flatten

end Excerpt

end FernLang
