import Mathlib
import FernLang.Proofs.Diagnosis.Survival

/-!
What the carets mark. Every index of a source is a column of one of its lines, the newline behind a line
and the end of the source included, and its position is that line and column. The rows of a span are
its lines in order, and the carets below them mark its characters but for newlines; a span
without such characters that is shown in one row has one caret at its start.
-/

namespace FernLang
namespace Excerpt

def lineOf (source : List Char) (index : Nat) : Nat := (source.take index).count '\n'

/-- Where a line starts: behind the lines before it and their newlines. -/
def lineStart (source : List Char) (line : Nat) : Nat :=
  (((lines source).take line).map fun text => text.length + 1).sum

def Visible (source : List Char) (index : Nat) : Prop := ∃ c, source[index]? = some c ∧ c ≠ '\n'

/-! Lines of a source. -/

section

variable {c : Char} {rest : List Char}

theorem lines_newline (rest : List Char) : lines ('\n' :: rest) = [] :: lines rest := by
  rw [lines, Text.pieces, if_pos rfl, lines]

theorem lines_other (other : c ≠ '\n') :
    ∃ text texts, lines rest = text :: texts ∧ lines (c :: rest) = (c :: text) :: texts := by
  cases cut : lines rest with
  | nil =>
      have count := Text.length_pieces '\n' rest
      rw [lines] at cut
      rw [cut] at count
      cases count
  | cons text texts =>
      refine ⟨text, texts, rfl, ?_⟩
      rw [lines] at cut
      rw [lines, Text.pieces, if_neg other, cut]

theorem lineStart_zero (source : List Char) : lineStart source 0 = 0 := rfl

theorem lineStart_newline (rest : List Char) (line : Nat) :
    lineStart ('\n' :: rest) (line + 1) = lineStart rest line + 1 := by
  rw [lineStart, lines_newline, List.take_succ_cons, List.map_cons, List.sum_cons, List.length_nil,
    lineStart]
  omega

theorem lineStart_other (other : c ≠ '\n') (line : Nat) :
    lineStart (c :: rest) (line + 1) = lineStart rest (line + 1) + 1 := by
  obtain ⟨text, texts, here, there⟩ := @lines_other c rest other
  rw [lineStart, there, lineStart, here, List.take_succ_cons, List.take_succ_cons, List.map_cons,
    List.map_cons, List.sum_cons, List.sum_cons, List.length_cons]
  omega

end

section

variable {source text : List Char} {line : Nat}

theorem lineStart_succ (known : (lines source)[line]? = some text) :
    lineStart source (line + 1) = lineStart source line + (text.length + 1) := by
  rw [lineStart, List.take_add_one, known, Option.toList_some, List.map_append, List.sum_append, lineStart]
  rfl

theorem lineStart_mono {early late : Nat} (before : early ≤ late) :
    lineStart source early ≤ lineStart source late := by
  have front : ((lines source).take early).Sublist ((lines source).take late) :=
    List.take_sublist_take_left before
  exact (front.map _).sum_le_sum fun _ _ => Nat.zero_le _

theorem lineStart_lt {late : Nat} (known : (lines source)[line]? = some text) (before : line < late) :
    lineStart source line + text.length < lineStart source late := by
  have next := lineStart_succ known
  have later : lineStart source (line + 1) ≤ lineStart source late := lineStart_mono before
  omega

/-- A line in its source: nothing or whole lines are in front of it, and nothing or a newline is behind
it. -/
structure Around (source text front back : List Char) (line : Nat) : Prop where
  whole : source = front ++ (text ++ back)
  start : front.length = lineStart source line
  before : front.count '\n' = line
  ends : front = [] ∨ ∃ most, front = most ++ ['\n']
  inside : '\n' ∉ text
  behind : ∀ c ∈ back.head?, c = '\n'

theorem exists_around (known : (lines source)[line]? = some text) :
    ∃ front back, Around source text front back line := by
  induction source generalizing line text with
  | nil =>
      cases line with
      | zero =>
          cases known
          exact ⟨[], [], rfl, rfl, rfl, .inl rfl, nofun, nofun⟩
      | succ line => cases known
  | cons c rest ih =>
      by_cases newline : c = '\n'
      · subst newline
        rw [lines_newline] at known
        cases line with
        | zero =>
            cases known
            exact ⟨[], '\n' :: rest, rfl, rfl, rfl, .inl rfl, nofun, by simp⟩
        | succ line =>
            obtain ⟨front, back, around⟩ := ih known
            refine ⟨'\n' :: front, back, congrArg _ around.whole, ?_, ?_, ?_, around.inside, around.behind⟩
            · rw [lineStart_newline, List.length_cons, around.start]
            · rw [List.count_cons_self, around.before]
            · rcases around.ends with none | ⟨most, same⟩
              · exact .inr ⟨[], by rw [none]; rfl⟩
              · exact .inr ⟨'\n' :: most, by rw [same]; rfl⟩
      · obtain ⟨first, texts, here, there⟩ := @lines_other c rest newline
        rw [there] at known
        cases line with
        | zero =>
            cases known
            obtain ⟨front, back, around⟩ := @ih first 0 (by rw [here]; rfl)
            have none : front = [] := List.length_eq_zero_iff.1 around.start
            refine ⟨[], back, ?_, rfl, rfl, .inl rfl, ?_, around.behind⟩
            · have whole := around.whole
              rw [none] at whole
              exact congrArg _ whole
            · exact List.not_mem_cons_of_ne_of_not_mem (Ne.symm newline) around.inside
        | succ line =>
            obtain ⟨front, back, around⟩ := @ih text (line + 1) (by rw [here]; exact known)
            refine ⟨c :: front, back, congrArg _ around.whole, ?_, ?_, ?_, around.inside, around.behind⟩
            · rw [lineStart_other newline, List.length_cons, around.start]
            · rw [List.count_cons_of_ne newline, around.before]
            · rcases around.ends with none | ⟨most, same⟩
              · have count := around.before
                rw [none] at count
                cases count
              · exact .inr ⟨c :: most, by rw [same]; rfl⟩

end

structure Located (source : List Char) (index : Nat) (place : Position) (text : List Char) : Prop where
  line : (lines source)[place.line]? = some text
  column : place.column ≤ text.length
  index : lineStart source place.line + place.column = index

section

variable {source text : List Char} {index : Nat} {place : Position}

theorem exists_column (bound : index ≤ source.length) :
    ∃ place text, Located source index place text := by
  induction source generalizing index with
  | nil =>
      cases Nat.le_zero.1 bound
      exact ⟨⟨0, 0⟩, [], rfl, Nat.le_refl 0, rfl⟩
  | cons c rest ih =>
      cases index with
      | zero =>
          obtain ⟨text, texts, shape⟩ : ∃ text texts, lines (c :: rest) = text :: texts := by
            by_cases newline : c = '\n'
            · exact ⟨[], lines rest, by rw [newline, lines_newline]⟩
            · obtain ⟨first, texts, _, there⟩ := @lines_other c rest newline
              exact ⟨_, _, there⟩
          exact ⟨⟨0, 0⟩, text, by rw [shape]; rfl, Nat.zero_le _, rfl⟩
      | succ index =>
          obtain ⟨⟨line, column⟩, text, located⟩ := ih (Nat.le_of_succ_le_succ bound)
          have sum := located.index
          have fits := located.column
          dsimp only at sum fits
          by_cases newline : c = '\n'
          · subst newline
            refine ⟨⟨line + 1, column⟩, text, ?_, fits, ?_⟩
            · rw [lines_newline]
              exact located.line
            · dsimp only
              rw [lineStart_newline]
              omega
          · obtain ⟨first, texts, here, there⟩ := @lines_other c rest newline
            have known := located.line
            rw [here] at known
            cases line with
            | zero =>
                cases known
                refine ⟨⟨0, column + 1⟩, c :: text, by rw [there]; rfl, Nat.succ_le_succ fits, ?_⟩
                dsimp only
                rw [lineStart_zero] at sum ⊢
                omega
            | succ line =>
                refine ⟨⟨line + 1, column⟩, text, by rw [there]; exact known, fits, ?_⟩
                dsimp only
                rw [lineStart_other newline]
                omega

theorem Located.position (located : Located source index place text) :
    positionAfter (source.take index) = place := by
  obtain ⟨front, back, around⟩ := exists_around located.line
  have cut : source.take index = front ++ text.take place.column := by
    rw [← located.index, ← around.start, around.whole, List.take_length_add_append,
      List.take_append_of_le_length located.column]
  have plain : '\n' ∉ text.take place.column := fun member => around.inside (List.mem_of_mem_take member)
  have lead : front.reverse.takeWhile (· != '\n') = [] := by
    rcases around.ends with none | ⟨most, same⟩
    · rw [none]
      rfl
    · rw [same, List.reverse_append]
      rfl
  have all : ∀ c ∈ (text.take place.column).reverse, (c != '\n') = true := by
    intro c member
    rw [bne_iff_ne]
    exact fun same => plain (same ▸ List.mem_reverse.1 member)
  rw [positionAfter, cut, List.count_append, around.before, List.count_eq_zero_of_not_mem plain,
    List.reverse_append, List.takeWhile_append_of_pos all, lead, List.append_nil, List.length_reverse,
    List.length_take_of_le located.column]
  rfl

theorem exists_located (bound : index ≤ source.length) :
    ∃ text, Located source index (positionAfter (source.take index)) text := by
  obtain ⟨place, text, located⟩ := exists_column bound
  rw [located.position]
  exact ⟨text, located⟩

/-- At the end of a line there is a newline or nothing, and before it there is something else. -/
theorem Located.inside_iff (located : Located source index place text) :
    Visible source index ↔ place.column < text.length := by
  obtain ⟨front, back, around⟩ := exists_around located.line
  have fits := located.column
  have found : source[index]? = (text ++ back)[place.column]? := by
    rw [← located.index, ← around.start, around.whole, List.getElem?_append_right (by omega)]
    congr 1
    omega
  rw [Visible, found]
  constructor
  · intro ⟨c, known, other⟩
    by_contra beyond
    have last : place.column = text.length := by omega
    rw [last, List.getElem?_append_right (Nat.le_refl _), Nat.sub_self, ← List.head?_eq_getElem?] at known
    exact other (around.behind c known)
  · intro inside
    rw [List.getElem?_append_left inside]
    refine ⟨text[place.column], List.getElem?_eq_getElem inside, ?_⟩
    intro newline
    exact around.inside (newline ▸ List.getElem_mem inside)

end

/-! Rows and their carets. -/

def rowsBetween (source : List Char) (start stop : Position) : List Row :=
  (((lines source).drop start.line).take (stop.line + 1 - start.line)).zipIdx start.line |>.map
    fun (text, line) => row start stop line text

/-- The carets of a row stand below an index. -/
def Marks (source : List Char) (row : Row) (index : Nat) : Prop :=
  lineStart source row.line + row.blank ≤ index ∧
    index < lineStart source row.line + row.blank + row.width

def Touches (source : List Char) (span : Span) (index : Nat) : Prop :=
  span.start ≤ index ∧ index < span.stop ∧ Visible source index

section

variable {source : List Char} {start stop : Position}

theorem mem_rowsBetween {shown : Row} :
    shown ∈ rowsBetween source start stop ↔ ∃ line text, start.line ≤ line ∧ line ≤ stop.line ∧
      (lines source)[line]? = some text ∧ row start stop line text = shown := by
  unfold rowsBetween
  simp only [List.mem_map, Prod.exists, List.mem_zipIdx_iff_le_and_getElem?_sub, List.getElem?_take,
    List.getElem?_drop]
  constructor
  · intro ⟨text, line, ⟨low, known⟩, same⟩
    split at known
    · have whole : start.line + (line - start.line) = line := by omega
      rw [whole] at known
      exact ⟨line, text, low, by omega, known, same⟩
    · cases known
  · intro ⟨line, text, low, high, known, same⟩
    have whole : start.line + (line - start.line) = line := by omega
    refine ⟨text, line, ⟨low, ?_⟩, same⟩
    rw [if_pos (by omega), whole, known]

variable {first last : Nat} {startText stopText : List Char}
  (begins : Located source first start startText) (ends : Located source last stop stopText)
include begins ends

/-- The carets of one row: the characters of its line in the span, or one caret for an empty span. -/
theorem marks_row (ordered : first ≤ last) {line : Nat} {text : List Char}
    (known : (lines source)[line]? = some text) (low : start.line ≤ line) (high : line ≤ stop.line)
    (index : Nat) :
    Marks source (row start stop line text) index ↔
      (first ≤ index ∧ index < last ∧ lineStart source line ≤ index ∧
        index < lineStart source line + text.length) ∨
      (start.line = stop.line ∧ first = last ∧ index = first) := by
  have early := begins.index
  have late := ends.index
  have column := begins.column
  have column' := ends.column
  have before : start.line < line → lineStart source start.line + startText.length < lineStart source line :=
    lineStart_lt begins.line
  have after : line < stop.line → lineStart source line + text.length < lineStart source stop.line :=
    lineStart_lt known
  have first : line = start.line → lineStart source line = lineStart source start.line :=
    congrArg (lineStart source)
  have same : line = stop.line →
      lineStart source line = lineStart source stop.line ∧ text.length = stopText.length := by
    intro same
    rw [same, ends.line] at known
    exact ⟨congrArg (lineStart source) same, congrArg List.length (Option.some.inj known).symm⟩
  unfold row Marks
  split
  · dsimp only
    omega
  · split
    · dsimp only
      omega
    · split
      · dsimp only
        omega
      · dsimp only
        omega

/-- The last position to be underlined is that of an index, from which on the span has newlines only. -/
theorem exists_last (ordered : first ≤ last) :
    ∃ final text, Located source final (lastPosition source start stop) text ∧ first ≤ final ∧
      final ≤ last ∧
        ∀ index, Visible source index → index < last → index < final := by
  unfold lastPosition
  split
  · rename_i adjusted
    have among : stop.line < (lines source).length := (List.getElem?_eq_some_iff.1 ends.line).1
    have known : (lines source)[stop.line - 1]? = some ((lines source).getD (stop.line - 1) []) := by
      rw [List.getD_eq_getElem?_getD, List.getElem?_eq_getElem (by omega), Option.getD_some]
    have place : Located source (lineStart source (stop.line - 1) +
        ((lines source).getD (stop.line - 1) []).length)
        ⟨stop.line - 1, ((lines source).getD (stop.line - 1) []).length⟩ _ :=
      ⟨known, Nat.le_refl _, rfl⟩
    have next := lineStart_succ known
    have line : stop.line - 1 + 1 = stop.line := by omega
    have early := begins.index
    have late := ends.index
    have column := begins.column
    have gap := lineStart_lt begins.line adjusted.1
    rw [line] at next
    refine ⟨_, _, place, by omega, by omega, ?_⟩
    intro index solid before
    by_contra beyond
    -- The only index left is that of the newline in front of the line that is not shown.
    have same : index = lineStart source (stop.line - 1) +
        ((lines source).getD (stop.line - 1) []).length := by omega
    rw [same, place.inside_iff] at solid
    exact Nat.lt_irrefl _ solid
  · exact ⟨last, stopText, ends, ordered, Nat.le_refl _, fun _ _ before => before⟩

theorem marked_iff (ordered : first ≤ last) (index : Nat) :
    (∃ shown ∈ rowsBetween source start stop, Marks source shown index) ↔
      (first ≤ index ∧ index < last ∧ Visible source index) ∨
      (start.line = stop.line ∧ first = last ∧ index = first) := by
  constructor
  · intro ⟨shown, member, marks⟩
    obtain ⟨line, text, low, high, known, same⟩ := mem_rowsBetween.1 member
    rw [← same, marks_row begins ends ordered known low high] at marks
    rcases marks with ⟨early, late, left, right⟩ | single
    · have place : Located source index ⟨line, index - lineStart source line⟩ text :=
        ⟨known, by dsimp only; omega, by dsimp only; omega⟩
      exact .inl ⟨early, late, place.inside_iff.2 (by dsimp only; omega)⟩
    · exact .inr single
  · intro marked
    rcases marked with ⟨early, late, solid⟩ | ⟨line, same, here⟩
    · have bound : index < source.length := by
        obtain ⟨c, found, _⟩ := solid
        exact (List.getElem?_eq_some_iff.1 found).1
      obtain ⟨text, place⟩ := exists_located bound.le
      have low := @line_mono source _ _ early
      have high := @line_mono source _ _ late.le
      rw [begins.position] at low
      rw [ends.position] at high
      refine ⟨_, mem_rowsBetween.2 ⟨_, text, low, high, place.line, rfl⟩, ?_⟩
      rw [marks_row begins ends ordered place.line low high]
      have inside := place.inside_iff.1 solid
      have sum := place.index
      exact .inl ⟨early, late, by omega, by omega⟩
    · refine ⟨_, mem_rowsBetween.2 ⟨_, startText, Nat.le_refl _, line.le, begins.line, rfl⟩, ?_⟩
      rw [marks_row begins ends ordered begins.line (Nat.le_refl _) line.le]
      exact .inr ⟨line, same, here⟩

end

section

variable {source : List Char} {start stop : Position}

theorem map_line_rowsBetween (bound : stop.line < (lines source).length) :
    (rowsBetween source start stop).map (·.line) =
      List.range' start.line (stop.line + 1 - start.line) := by
  have pairs := congrArg (List.map Prod.fst) (@rows_eq source start stop bound)
  rw [List.map_map, List.map_map] at pairs
  rw [rowsBetween, List.map_map]
  exact pairs.trans (List.map_id _)

theorem length_rowsBetween (bound : stop.line < (lines source).length) :
    (rowsBetween source start stop).length = stop.line + 1 - start.line := by
  have count := congrArg List.length (@map_line_rowsBetween source start stop bound)
  rw [List.length_map, List.length_range'] at count
  exact count

theorem getLast?_rowsBetween (bound : stop.line < (lines source).length)
    (before : start.line ≤ stop.line) :
    (rowsBetween source start stop).getLast?.map (·.line) = some stop.line := by
  rw [← List.getLast?_map, map_line_rowsBetween bound, List.getLast?_range', if_neg (by omega)]
  congr 1
  omega

variable {first last : Nat} {startText stopText : List Char}
  (ends : Located source last stop stopText)
include ends

/-- The last line is left out when the span stops where it starts. -/
theorem lastPosition_line_eq : (lastPosition source start stop).line =
    if start.line < stop.line ∧ lineStart source stop.line = last then stop.line - 1 else stop.line := by
  have sum := ends.index
  have column : stop.column = 0 ↔ lineStart source stop.line = last := by omega
  simp only [lastPosition, column]
  split
  · rfl
  · rfl

theorem single_iff (begins : Located source first start startText) (ordered : first ≤ last)
    (before : start.line ≤ stop.line) :
    start.line = stop.line ∧ first = last ↔ (rowsBetween source start stop).length = 1 ∧
      ∀ index, ¬(first ≤ index ∧ index < last ∧ Visible source index) := by
  rw [length_rowsBetween (List.getElem?_eq_some_iff.1 ends.line).1]
  constructor
  · intro ⟨line, empty⟩
    refine ⟨by omega, ?_⟩
    intro index ⟨early, late, _⟩
    omega
  · intro ⟨single, unmarked⟩
    have line : start.line = stop.line := by omega
    have text : startText = stopText := by
      have known := begins.line
      rw [line, ends.line] at known
      exact (Option.some.inj known).symm
    have low := begins.index
    have high := ends.index
    have fits := ends.column
    rw [line] at low
    refine ⟨line, ?_⟩
    -- In front of another index of its line there is a character that is no newline.
    by_contra apart
    refine unmarked first ⟨Nat.le_refl _, by omega, begins.inside_iff.2 ?_⟩
    rw [text]
    omega

end

section

variable {source : List Char} {span : Span}

theorem underline_eq (inside : span.Within source.length) :
    underline source span = .ok (rowsBetween source (positionAfter (source.take span.start.toNat))
      (lastPosition source (positionAfter (source.take span.start.toNat))
        (positionAfter (source.take span.stop.toNat)))) := by
  have ordered := span.ordered
  rw [underline, position_ok inside.start (Int.le_trans ordered inside.stop),
    position_ok (Int.le_trans inside.start ordered) inside.stop]
  rfl

theorem underline_fails_iff :
    (∃ error, underline source span = .error error) ↔ span.start < 0 ∨ source.length < span.stop := by
  constructor
  · intro ⟨error, failed⟩
    by_contra within
    obtain ⟨low, high⟩ := not_or.1 within
    rw [underline_eq ⟨Int.not_lt.1 low, Int.not_lt.1 high⟩] at failed
    cases failed
  · intro outside
    cases shown : underline source span with
    | error error => exact ⟨error, rfl⟩
    | ok rows =>
        have within := within_of_underline shown
        have low := within.start
        have high := within.stop
        omega

end

/-- How rows show a span of a source: their lines follow one another from the line of its start on, each
with all its text; the last one is that of its end, or the one before when it ends where a later line
starts; and the carets mark the characters of the span but for newlines. Only where there are none in a
single row, there is one caret, at the start. -/
structure Covers (source : List Char) (span : Span) (rows : List Row) : Prop where
  numbers : rows.map (·.line) = List.range' (lineOf source span.start.toNat) rows.length
  texts : ∀ row ∈ rows, (lines source)[row.line]? = some row.text
  last : rows.getLast?.map (·.line) = some
    (if lineOf source span.start.toNat < lineOf source span.stop.toNat ∧
        lineStart source (lineOf source span.stop.toNat) = span.stop then
      lineOf source span.stop.toNat - 1
    else lineOf source span.stop.toNat)
  marked : ∀ index : Nat, (∃ row ∈ rows, Marks source row index) ↔ Touches source span index ∨
    rows.length = 1 ∧ (∀ other, ¬Touches source span other) ∧ index = span.start

theorem covers_of_within {source : List Char} {span : Span} (inside : span.Within source.length) :
    ∃ rows, underline source span = .ok rows ∧ Covers source span rows := by
  have low := inside.start
  have high := inside.stop
  have ordered := span.ordered
  obtain ⟨startText, begins⟩ := @exists_located source span.start.toNat (by omega)
  obtain ⟨stopText, ends⟩ := @exists_located source span.stop.toNat (by omega)
  refine ⟨_, underline_eq inside, ?_⟩
  have startLine : (positionAfter (source.take span.start.toNat)).line = lineOf source span.start.toNat := rfl
  have stopLine : (positionAfter (source.take span.stop.toNat)).line = lineOf source span.stop.toNat := rfl
  have before : (positionAfter (source.take span.start.toNat)).line ≤
      (positionAfter (source.take span.stop.toNat)).line := line_mono (by omega)
  generalize positionAfter (source.take span.start.toNat) = start at *
  generalize positionAfter (source.take span.stop.toNat) = stop at *
  obtain ⟨final, text, place, after, within, newlines⟩ := exists_last begins ends (by omega)
  obtain ⟨first, _⟩ := lastPosition_line source before
  have bound := (List.getElem?_eq_some_iff.1 place.line).1
  refine ⟨?_, ?_, ?_, ?_⟩
  · rw [map_line_rowsBetween bound, length_rowsBetween bound, startLine]
  · intro shown member
    obtain ⟨line, text, _, _, known, same⟩ := mem_rowsBetween.1 member
    rw [← same, row_line, row_text, known]
  · have stops : lineStart source stop.line = span.stop.toNat ↔
        (lineStart source stop.line : Int) = span.stop := by omega
    rw [getLast?_rowsBetween bound first, lastPosition_line_eq ends, ← startLine, ← stopLine]
    simp only [stops]
  · -- Only newlines of the span are left out when its last line is not shown.
    have touches : ∀ index, Touches source span index ↔
        span.start.toNat ≤ index ∧ index < final ∧ Visible source index := by
      intro index
      constructor
      · intro ⟨early, late, solid⟩
        exact ⟨by omega, newlines index solid (by omega), solid⟩
      · intro ⟨early, late, solid⟩
        exact ⟨by omega, by omega, solid⟩
    intro index
    have here : index = span.start.toNat ↔ (index : Int) = span.start := by omega
    rw [marked_iff begins place after, ← touches, here, ← and_assoc, single_iff place begins after first,
      and_assoc]
    simp only [touches]

/-- A span is underlined unless it leaves its source, and then the carets cover what it covers. -/
theorem underline_covers (source : List Char) (span : Span) :
    ((∃ error, underline source span = .error error) ↔ span.start < 0 ∨ source.length < span.stop) ∧
    ∀ rows, underline source span = .ok rows → Covers source span rows := by
  refine ⟨underline_fails_iff, ?_⟩
  intro rows shown
  obtain ⟨others, same, covers⟩ := covers_of_within (within_of_underline shown)
  rw [shown] at same
  cases same
  exact covers

end Excerpt
end FernLang
