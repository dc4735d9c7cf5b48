import Mathlib
import FernLang.Notice
import FernLang.Proofs.Token.Laid

/-!
Where reading tokens stops. A character outside comments that belongs to no lexeme stops it, and so does a
number with too many digits; the first of them decides what the error is. Layout and pieces hold
neither, and what is behind them is judged as if it were a text of its own.
-/

namespace FernLang
namespace Scan

/-- No comment has begun at or before an index without the end of its line in between. -/
def Outside (text : List Char) (index : Nat) : Prop :=
  ∀ hash ≤ index, text[hash]? = some '#' → ∃ newline < index, hash < newline ∧ text[newline]? = some '\n'

instance (text : List Char) (index : Nat) : Decidable (Outside text index) :=
  inferInstanceAs (Decidable (∀ hash ≤ index, text[hash]? = some '#' →
    ∃ newline < index, hash < newline ∧ text[newline]? = some '\n'))

/-- The characters of lexemes and blanks. A `!` is one only in front of `=`. -/
def Usual (c : Char) : Prop :=
  c.isAlphanum = true ∨ c ∈ ['_', ' ', '\t', '\x0c', '\r', '\n', '(', ')', ',', ':', '=', '<', '>', '*',
    '/', '%', '+', '-', '&', '|', '^']

instance (c : Char) : Decidable (Usual c) := inferInstanceAs (Decidable (_ ∨ _))

/-- An index outside comments has a character that belongs to no lexeme. -/
def Offends (text : List Char) (index : Nat) : Prop :=
  Outside text index ∧ ∃ c ∈ text[index]?, ¬Usual c ∧ ¬(c = '!' ∧ text[index + 1]? = some '=')

-- Without this, every character is tried where the one at the index is all there is.
instance (text : List Char) (index : Nat) : Decidable (Offends text index) :=
  decidable_of_iff (Outside text index ∧
    text[index]?.any fun c => decide (¬Usual c ∧ ¬(c = '!' ∧ text[index + 1]? = some '=')))
    (and_congr_right fun _ => by simp only [Option.any_eq_true, decide_eq_true_eq, Option.mem_def])

/-- A number begins at an index, outside comments and not within a word, and has too many digits. -/
def Overlong (text : List Char) (index : Nat) : Prop :=
  Outside text index ∧ (∀ c ∈ (text.take index).getLast?, isWordChar c = false) ∧
    Numeral.limit < ((text.drop index).takeWhile isDigit).length

def Stops (text : List Char) (index : Nat) : Prop := Offends text index ∨ Overlong text index

/-! Characters. -/

theorem isWordChar_iff (c : Char) : isWordChar c = true ↔ c.isAlphanum = true ∨ c = '_' := by
  simp only [isWordChar, isLetter, isDigit, Char.isAlphanum, Char.isAlpha, Char.isUpper, Char.isLower,
    Char.isDigit, Char.le_def, Bool.or_eq_true, Bool.and_eq_true, decide_eq_true_eq, beq_iff_eq,
    ge_iff_le]
  tauto

theorem usual_iff (c : Char) :
    Usual c ↔ isWordChar c = true ∨ isSpace c = true ∨ (single? c).isSome = true := by
  rw [Usual, isWordChar_iff]
  constructor
  · intro usual
    rcases usual with letter | listed
    · exact .inl (.inl letter)
    · have known : (['_', ' ', '\t', '\x0c', '\r', '\n', '(', ')', ',', ':', '=', '<', '>', '*', '/', '%',
          '+', '-', '&', '|', '^'].all fun c => c == '_' || isSpace c || (single? c).isSome) = true := by
        decide
      have found := List.all_eq_true.1 known c listed
      simp only [Bool.or_eq_true, beq_iff_eq] at found
      tauto
  · intro shape
    rcases shape with (letter | rfl) | space | symbol
    · exact .inl letter
    · exact .inr (by decide)
    · simp only [isSpace, Bool.or_eq_true, beq_iff_eq] at space
      simp only [List.mem_cons]
      tauto
    · unfold single? at symbol
      split at symbol <;> simp_all

theorem usual_of_double {c d : Char} {lexeme : Lexeme} (known : double? c d = some lexeme) :
    (Usual c ∨ c = '!' ∧ d = '=') ∧ Usual d := by
  unfold double? at known
  split at known <;> cases known
  all_goals decide

theorem word_of_digit {c : Char} (digit : isDigit c = true) : isWordChar c = true := by
  rw [isWordChar, digit, Bool.or_true]

theorem front?_eq_none {c : Char} {rest : List Char} (none : front? (c :: rest) = none) :
    isWordChar c = false ∧ single? c = .none ∧ ∀ d ∈ rest.head?, double? c d = .none := by
  unfold front? at none
  dsimp only at none
  by_cases digit : isDigit c = true
  · rw [if_pos digit] at none
    cases none
  rw [if_neg digit] at none
  by_cases letter : isLetter c = true
  · rw [if_pos letter] at none
    cases none
  rw [if_neg letter] at none
  have word : isWordChar c = false := by
    rw [isWordChar, Bool.or_eq_false_iff]
    exact ⟨by simpa using letter, by simpa using digit⟩
  cases rest with
  | nil => exact ⟨word, Option.map_eq_none_iff.1 none, by simp⟩
  | cons d rest =>
      dsimp only at none
      cases both : double? c d with
      | some lexeme =>
          rw [both] at none
          cases none
      | none =>
          rw [both] at none
          refine ⟨word, Option.map_eq_none_iff.1 none, ?_⟩
          intro e member
          cases member
          exact both

/-! What is behind a part of a text that ends outside comments. -/

section

variable {front rest : List Char} {index : Nat}

theorem getElem?_behind (front rest : List Char) (index : Nat) :
    (front ++ rest)[front.length + index]? = rest[index]? := by
  rw [List.getElem?_append_right (Nat.le_add_right _ _), Nat.add_sub_cancel_left]

theorem outside_append (closed : Outside front front.length) :
    Outside (front ++ rest) (front.length + index) ↔ Outside rest index := by
  constructor
  · intro outside hash before found
    rw [← getElem?_behind front] at found
    obtain ⟨newline, late, early, known⟩ := outside _ (Nat.add_le_add_left before _) found
    obtain ⟨later, rfl⟩ := Nat.exists_eq_add_of_le (show front.length ≤ newline by omega)
    rw [getElem?_behind] at known
    exact ⟨later, by omega, by omega, known⟩
  · intro outside hash before found
    rcases Nat.lt_or_ge hash front.length with inside | beyond
    · rw [List.getElem?_append_left inside] at found
      obtain ⟨newline, late, early, known⟩ := closed hash inside.le found
      refine ⟨newline, by omega, early, ?_⟩
      rw [List.getElem?_append_left late, known]
    · obtain ⟨later, rfl⟩ := Nat.exists_eq_add_of_le beyond
      rw [getElem?_behind] at found
      obtain ⟨newline, late, early, known⟩ := outside later (by omega) found
      refine ⟨front.length + newline, by omega, by omega, ?_⟩
      rw [getElem?_behind, known]

theorem offends_append (closed : Outside front front.length) :
    Offends (front ++ rest) (front.length + index) ↔ Offends rest index := by
  rw [Offends, outside_append closed, getElem?_behind, Nat.add_assoc, getElem?_behind, Offends]

theorem Overlong.digit (long : Overlong rest index) : ∃ c ∈ rest[index]?, isDigit c = true := by
  obtain ⟨-, -, many⟩ := long
  rw [← List.head?_drop]
  generalize rest.drop index = row at many ⊢
  cases row with
  | nil => exact absurd many (Nat.not_lt_zero _)
  | cons c more =>
      refine ⟨c, rfl, ?_⟩
      by_contra other
      rw [List.takeWhile_cons_of_neg other] at many
      exact absurd many (Nat.not_lt_zero _)

theorem Overlong.limit_lt (long : Overlong rest index) : Numeral.limit < rest.length :=
  calc
    Numeral.limit < ((rest.drop index).takeWhile isDigit).length := long.2.2
    _ ≤ (rest.drop index).length := (List.takeWhile_sublist _).length_le
    _ ≤ rest.length := (List.drop_sublist index rest).length_le

theorem Stops.bound (stops : Stops rest index) : index < rest.length := by
  rcases stops with ⟨_, c, found, _⟩ | long
  · exact (List.getElem?_eq_some_iff.1 found).1
  · obtain ⟨c, found, _⟩ := long.digit
    exact (List.getElem?_eq_some_iff.1 found).1

def Apart (front rest : List Char) : Prop :=
  ∀ c ∈ front.getLast?, isWordChar c = true → ∀ d ∈ rest.head?, isDigit d = false

theorem overlong_append (closed : Outside front front.length) (apart : Apart front rest) :
    Overlong (front ++ rest) (front.length + index) ↔ Overlong rest index := by
  have same : (front ++ rest).drop (front.length + index) = rest.drop index := by
    rw [List.drop_append, List.drop_eq_nil_of_le (Nat.le_add_right _ _), List.nil_append,
      Nat.add_sub_cancel_left]
  rw [Overlong, outside_append closed, List.take_length_add_append, List.getLast?_append, same]
  refine and_congr_right fun outside => and_congr_left fun many => ?_
  cases last : (rest.take index).getLast? with
  | some c => rfl
  | none =>
      rw [Option.none_or]
      refine iff_of_true ?_ nofun
      intro c member
      by_contra word
      -- With nothing in between, the number would go on from the part in front.
      have long : Overlong rest index := ⟨outside, by rw [last]; exact nofun, many⟩
      obtain ⟨d, known, digit⟩ := long.digit
      have whole : rest.drop index = rest := by
        have cut := List.take_append_drop index rest
        rw [List.getLast?_eq_none_iff.1 last, List.nil_append] at cut
        exact cut
      rw [← List.head?_drop, whole] at known
      rw [apart c member (by simpa using word) d known] at digit
      cases digit

end

/-- A part of a text that is read: it ends outside comments, where no number goes on, and nothing in it
stops reading. -/
structure Passed (front rest : List Char) : Prop where
  closed : Outside front front.length
  apart : Apart front rest
  clear : ∀ index < front.length, ¬Stops (front ++ rest) index

theorem Passed.behind {front rest : List Char} {index : Nat} (passed : Passed front rest)
    (stops : Stops (front ++ rest) index) : ∃ later, index = front.length + later ∧ Stops rest later := by
  rcases Nat.lt_or_ge index front.length with inside | beyond
  · exact absurd stops (passed.clear index inside)
  · obtain ⟨later, rfl⟩ := Nat.exists_eq_add_of_le beyond
    refine ⟨later, rfl, ?_⟩
    rwa [Stops, offends_append passed.closed, overlong_append passed.closed passed.apart] at stops

/-! Layout and pieces are passed. -/

section

variable {gap rest : List Char} {index : Nat}

theorem not_stops {text : List Char}
    (blank : Outside text index → ∃ c ∈ text[index]?, isSpace c = true) : ¬Stops text index := by
  intro stops
  rcases stops with ⟨outside, d, known, unusual, _⟩ | long
  · obtain ⟨c, found, space⟩ := blank outside
    obtain rfl := Option.mem_unique found known
    exact unusual ((usual_iff c).2 (.inr (.inl space)))
  · obtain ⟨c, found, space⟩ := blank long.1
    obtain ⟨d, known, digit⟩ := long.digit
    obtain rfl := Option.mem_unique found known
    rw [(solid_of_word (word_of_digit digit)).1] at space
    cases space

theorem closed_blank {c : Char} (space : isSpace c = true) : Outside [c] [c].length := by
  intro hash _ found
  obtain rfl := List.mem_singleton.1 (List.mem_of_getElem? found)
  cases space

theorem closed_comment (inside : List Char) :
    Outside ('#' :: (inside ++ ['\n'])) ('#' :: (inside ++ ['\n'])).length := by
  intro hash _ found
  have last : ('#' :: (inside ++ ['\n']))[inside.length + 1]? = some '\n' := by simp
  have within := (List.getElem?_eq_some_iff.1 found).1
  have length : ('#' :: (inside ++ ['\n'])).length = inside.length + 2 := by simp
  refine ⟨inside.length + 1, by omega, ?_, last⟩
  by_contra beyond
  obtain rfl : hash = inside.length + 1 := by omega
  rw [last] at found
  cases found

theorem not_outside_comment {inside : List Char} (line : '\n' ∉ inside) (within : index ≤ inside.length + 1) :
    ¬Outside ('#' :: (inside ++ rest)) index := by
  intro outside
  obtain ⟨newline, late, early, known⟩ := outside 0 (Nat.zero_le _) rfl
  obtain ⟨place, rfl⟩ := Nat.exists_eq_add_of_lt early
  rw [Nat.zero_add, List.getElem?_cons_succ, List.getElem?_append_left (by omega)] at known
  exact line (List.mem_of_getElem? known)

theorem Layout.blank_of_outside (layout : Layout gap) (within : index < gap.length)
    (outside : Outside (gap ++ rest) index) : ∃ c ∈ (gap ++ rest)[index]?, isSpace c = true := by
  induction layout generalizing index with
  | nil => cases within
  | @blank c text space _ ih =>
      cases index with
      | zero => exact ⟨c, rfl, space⟩
      | succ index =>
          rw [Nat.add_comm] at outside
          exact ih (Nat.lt_of_succ_lt_succ within) ((outside_append (closed_blank space)).1 outside)
  | @comment inside text line _ ih =>
      have same : '#' :: (inside ++ '\n' :: text) ++ rest =
          '#' :: (inside ++ ['\n']) ++ (text ++ rest) := by simp
      rcases Nat.lt_or_ge index ('#' :: (inside ++ ['\n'])).length with early | late
      · rw [List.cons_append, List.append_assoc] at outside
        refine absurd outside (not_outside_comment line ?_)
        simp only [List.length_cons, List.length_append, List.length_nil] at early
        omega
      · obtain ⟨later, rfl⟩ := Nat.exists_eq_add_of_le late
        rw [same, outside_append (closed_comment inside)] at outside
        rw [same, getElem?_behind]
        refine ih ?_ outside
        simp only [List.length_cons, List.length_append, List.length_nil] at within
        omega

theorem Layout.closed (layout : Layout gap) : Outside gap gap.length := by
  induction layout with
  | nil =>
      intro hash _ found
      cases found
  | @blank c text space _ ih =>
      rw [List.length_cons, Nat.add_comm]
      exact (outside_append (closed_blank space)).2 ih
  | @comment inside text line _ ih =>
      have same : '#' :: (inside ++ '\n' :: text) = '#' :: (inside ++ ['\n']) ++ text := by simp
      rw [same, List.length_append]
      exact (outside_append (closed_comment inside)).2 ih

theorem Layout.last (layout : Layout gap) : ∀ c ∈ gap.getLast?, isSpace c = true := by
  have longer {c : Char} {text : List Char} (space : isSpace c = true)
      (last : ∀ d ∈ text.getLast?, isSpace d = true) : ∀ d ∈ (c :: text).getLast?, isSpace d = true := by
    intro d member
    rw [List.getLast?_cons, Option.mem_some_iff] at member
    cases found : text.getLast? with
    | none =>
        rw [found] at member
        rwa [← member]
    | some e =>
        rw [found] at member
        rw [← member]
        exact last e found
  induction layout with
  | nil => exact nofun
  | blank space _ ih => exact longer space ih
  | @comment inside text line _ ih =>
      intro d member
      rw [← List.cons_append, List.getLast?_append, List.getLast?_cons, Option.some_or,
        ← List.getLast?_cons] at member
      exact longer rfl ih d member

theorem Layout.passed (layout : Layout gap) (rest : List Char) : Passed gap rest where
  closed := layout.closed
  apart := by
    intro c member word
    have space := layout.last c member
    rw [(solid_of_word word).1] at space
    cases space
  clear _ within := not_stops (layout.blank_of_outside within)

theorem Trailing.not_stops (layout : Trailing gap) (index : Nat) : ¬Stops gap index := by
  intro stops
  have within : index < gap.length := stops.bound
  refine Scan.not_stops (fun outside => ?_) stops
  cases layout with
  | layout all =>
      rw [← List.append_nil gap] at outside ⊢
      exact all.blank_of_outside within outside
  | @comment text inside front line =>
      rcases Nat.lt_or_ge index text.length with early | late
      · exact front.blank_of_outside early outside
      · obtain ⟨later, rfl⟩ := Nat.exists_eq_add_of_le late
        rw [outside_append front.closed, ← List.append_nil inside] at outside
        refine absurd outside (not_outside_comment line ?_)
        simp only [List.length_append, List.length_cons] at within
        omega

end

section

variable {piece : Piece} {taken rest : List Char} {index : Nat}

theorem Shape.closed (shape : Shape piece taken) : Outside taken taken.length := by
  intro hash _ found
  exact absurd rfl (shape.all_solid '#' (List.mem_of_getElem? found)).2

theorem Shape.apart (shape : Shape piece taken) (longest : Longest taken rest) : Apart taken rest := by
  intro c member word
  have other (symbol : c ∈ symbols) : False := by
    rw [not_word_of_symbol symbol] at word
    cases word
  cases shape with
  | digits all => exact (longest_digits all).1 longest
  | word letter all =>
      intro d first
      by_contra digit
      have stops := (longest_word letter all).1 longest d first
      rw [word_of_digit (by simpa using digit)] at stops
      cases stops
  | double known =>
      cases member
      exact (other (double?_second known)).elim
  | single known =>
      cases member
      exact (other (single?_symbol known)).elim

theorem Shape.clean (shape : Shape piece taken) (within : index < taken.length) :
    ¬Offends (taken ++ rest) index := by
  intro ⟨_, c, found, unusual, bang⟩
  rw [List.getElem?_append_left within] at found
  have word (word : isWordChar c = true) : False := unusual ((usual_iff c).2 (.inl word))
  have inside := List.mem_of_getElem? found
  cases shape with
  | digits all => exact word (word_of_digit (all c inside))
  | word letter all =>
      rcases List.mem_cons.1 inside with rfl | member
      · exact word (by rw [isWordChar, letter, Bool.true_or])
      · exact word (all c member)
  | @double first second lexeme known =>
      obtain ⟨front, back⟩ := usual_of_double known
      cases index with
      | zero =>
          cases found
          rcases front with usual | ⟨rfl, rfl⟩
          · exact unusual usual
          · exact bang ⟨rfl, rfl⟩
      | succ index =>
          obtain rfl : index = 0 := by
            simp only [List.length_cons, List.length_nil] at within
            omega
          cases found
          exact unusual back
  | single known =>
      rw [List.mem_singleton.1 inside] at unusual
      exact unusual ((usual_iff _).2 (.inr (.inr (by rw [known]; rfl))))

theorem Shape.word_or_symbols (shape : Shape piece taken) :
    (∀ c ∈ taken, isWordChar c = true) ∨ ∀ c ∈ taken, c ∈ symbols := by
  cases shape with
  | digits all => exact .inl fun c member => word_of_digit (all c member)
  | word letter all =>
      exact .inl (List.forall_mem_cons.2 ⟨by rw [isWordChar, letter, Bool.true_or], all⟩)
  | double known =>
      refine .inr (List.forall_mem_cons.2 ⟨double?_symbol known, ?_⟩)
      exact List.forall_mem_singleton.2 (double?_second known)
  | single known => exact .inr (List.forall_mem_singleton.2 (single?_symbol known))

/-- Only a piece of digits has too many of them, and only from its first one on. -/
theorem Shape.overlong_iff (shape : Shape piece taken) (longest : Longest taken rest)
    (within : index < taken.length) :
    Overlong (taken ++ rest) index ↔ index = 0 ∧ ∃ error, piece.lexeme = .error error := by
  constructor
  · intro long
    obtain ⟨c, found, digit⟩ := long.digit
    obtain ⟨-, before, many⟩ := long
    rw [List.getElem?_append_left within] at found
    have words : ∀ c ∈ taken, isWordChar c = true := by
      refine shape.word_or_symbols.resolve_right fun all => ?_
      have none := not_word_of_symbol (all c (List.mem_of_getElem? found))
      rw [word_of_digit digit] at none
      cases none
    cases index with
    | succ index =>
        have inside : index < taken.length := by omega
        rw [List.getLast?_take, if_neg (Nat.succ_ne_zero _), Nat.add_sub_cancel,
          List.getElem?_append_left inside, List.getElem?_eq_getElem inside, Option.some_or] at before
        have word := words _ (List.getElem_mem inside)
        rw [before _ rfl] at word
        cases word
    | zero =>
        refine ⟨rfl, ?_⟩
        cases shape with
        | digits all =>
            rw [List.drop_zero, (cut_row all ((longest_digits all).1 longest)).1] at many
            exact ⟨_, if_pos many⟩
        | word letter all =>
            cases found
            rw [isLetter_of_digit digit] at letter
            cases letter
        | double known =>
            have word := words _ List.mem_cons_self
            rw [not_word_of_symbol (double?_symbol known)] at word
            cases word
        | single known =>
            have word := words _ List.mem_cons_self
            rw [not_word_of_symbol (single?_symbol known)] at word
            cases word
  · intro ⟨first, error, failed⟩
    subst first
    cases shape with
    | @digits first row all =>
        rw [Piece.lexeme] at failed
        split at failed
        · rename_i many
          refine ⟨?_, by simp, ?_⟩
          · intro hash before found
            obtain rfl := Nat.le_zero.1 before
            cases found
            exact absurd (all '#' List.mem_cons_self) (by decide)
          · rw [List.drop_zero, (cut_row all ((longest_digits all).1 longest)).1]
            exact many
        · cases failed
    | word _ _ => cases failed
    | double _ => cases failed
    | single _ => cases failed

theorem Shape.passed (shape : Shape piece taken) (longest : Longest taken rest) {lexeme : Lexeme}
    (read : piece.lexeme = .ok lexeme) : Passed taken rest where
  closed := shape.closed
  apart := shape.apart longest
  clear := by
    intro index within stops
    rcases stops with offends | long
    · exact shape.clean within offends
    · obtain ⟨_, error, failed⟩ := (shape.overlong_iff longest within).1 long
      rw [read] at failed
      cases failed

theorem offends_unread {c : Char} (solid : Solid c) (none : front? (c :: rest) = none) :
    Offends (c :: rest) 0 := by
  obtain ⟨word, single, double⟩ := front?_eq_none none
  refine ⟨?_, c, rfl, ?_, ?_⟩
  · intro hash before found
    obtain rfl := Nat.le_zero.1 before
    exact absurd (Option.some.inj found) solid.2
  · rw [usual_iff, word, solid.1, single]
    decide
  · intro ⟨bang, next⟩
    rw [bang] at double
    rw [List.getElem?_cons_succ, ← List.head?_eq_getElem?] at next
    cases double '=' next

end

/-! What reading comes to. -/

/-- The answers for a text from `start` on: tokens where nothing stops reading, and else the error of what
stops it first. -/
inductive Verdict (start : Nat) (text : List Char) : Except ScanError (List Token) → Prop
  | read {tokens : List Token} (clear : ∀ index, ¬Stops text index) : Verdict start text (.ok tokens)
  | unexpected {index : Nat} {found : Char} (known : text[index]? = some found)
      (offends : Offends text index) (first : ∀ other < index, ¬Stops text other) :
      Verdict start text (.error (.unexpected found (start + index)))
  | numeral {index : Nat} {error : Numeral.Error} (long : Overlong text index)
      (first : ∀ other < index, ¬Stops text other) : Verdict start text (.error (.numeral error))

section

variable {start : Nat} {front rest : List Char} {result : Except ScanError (List Token)}

theorem Passed.verdict (passed : Passed front rest) (verdict : Verdict (start + front.length) rest result) :
    Verdict start (front ++ rest) result := by
  have clear {index : Nat} (first : ∀ other < index, ¬Stops rest other) :
      ∀ other < front.length + index, ¬Stops (front ++ rest) other := by
    intro other before stops
    obtain ⟨later, rfl, there⟩ := passed.behind stops
    exact first later (by omega) there
  cases verdict with
  | read none =>
      refine .read fun index stops => ?_
      obtain ⟨later, _, there⟩ := passed.behind stops
      exact none later there
  | unexpected known offends first =>
      rw [Nat.add_assoc]
      rw [← getElem?_behind front] at known
      exact .unexpected known ((offends_append passed.closed).2 offends) (clear first)
  | numeral long first =>
      exact .numeral ((overlong_append passed.closed passed.apart).2 long) (clear first)

theorem Verdict.cons (token : Token) (verdict : Verdict start rest result) :
    Verdict start rest (do let tokens ← result; return token :: tokens) := by
  cases verdict with
  | read clear => exact .read clear
  | unexpected known offends first => exact .unexpected known offends first
  | numeral long first => exact .numeral long first

theorem Piece.lexeme_error {piece : Piece} {error : ScanError} (failed : piece.lexeme = .error error) :
    ∃ cause, error = .numeral cause := by
  cases piece with
  | digits row =>
      rw [Piece.lexeme] at failed
      split at failed
      · cases failed
        exact ⟨_, rfl⟩
      · cases failed
  | word _ => cases failed
  | symbol _ _ => cases failed

end

theorem verdict (start : Nat) (text : List Char) : Verdict start text (tokensFrom start text) := by
  induction length : text.length using Nat.strongRecOn generalizing start text with
  | ind size ih =>
      rcases exists_layout text with trailing | ⟨gap, c, more, rfl, layout, solid⟩
      · rw [tokensFrom_done start trailing]
        exact .read trailing.not_stops
      · cases found : front? (c :: more) with
        | none =>
            rw [tokensFrom_unexpected start layout solid found]
            apply (layout.passed (c :: more)).verdict
            exact .unexpected rfl (offends_unread solid found) nofun
        | some front =>
            obtain ⟨piece, rest⟩ := front
            obtain ⟨taken, same, shape, longest⟩ := front?_longest found
            have positive := List.length_pos_iff.2 shape.ne_nil
            rw [same, tokensFrom_piece start layout shape longest]
            apply (layout.passed (taken ++ rest)).verdict
            cases read : piece.lexeme with
            | error error =>
                obtain ⟨cause, rfl⟩ := Piece.lexeme_error read
                exact .numeral ((shape.overlong_iff longest positive).2 ⟨rfl, _, read⟩) nofun
            | ok lexeme =>
                apply (shape.passed longest read).verdict
                apply Verdict.cons
                refine ih rest.length ?_ _ rest rfl
                rw [List.length_append, same, List.length_append] at length
                omega

end Scan

open Scan

/-- Where no number is too long in front of the first character that belongs to no lexeme, reading fails
just for such a character, and the error is at the first one. -/
theorem tokenize_fails_iff (source : String)
    (short : ∀ index, Overlong source.toList index → ∃ other < index, Offends source.toList other) :
    ((∃ error, tokenize source = .error error) ↔ ∃ index, Offends source.toList index) ∧
    ∀ index, Offends source.toList index → (∀ other < index, ¬Offends source.toList other) →
      ∃ found notice, source.toList[index]? = some found ∧
        tokenize source = .error (.unexpected found index) ∧
        SourceError.notice (.scan (.unexpected found index)) = .ok notice ∧
        notice.span.start = index ∧ notice.span.stop = index + 1 := by
  have judged : Verdict 0 source.toList (tokenize source) := verdict 0 source.toList
  generalize tokenize source = result at judged ⊢
  cases judged with
  | read clear =>
      have none : ∀ index, ¬Offends source.toList index := fun index offends => clear index (.inl offends)
      exact ⟨iff_of_false nofun fun ⟨index, offends⟩ => none index offends,
        fun index offends => absurd offends (none index)⟩
  | @unexpected first found known offends clear =>
      refine ⟨iff_of_true ⟨_, rfl⟩ ⟨first, offends⟩, ?_⟩
      intro index here least
      have same : index = first := by
        rcases Nat.lt_trichotomy index first with before | same | after
        · exact absurd (.inl here) (clear index before)
        · exact same
        · exact absurd offends (least first after)
      rw [same, Nat.zero_add]
      exact ⟨found, _, known, rfl, rfl, rfl, rfl⟩
  | @numeral first error long clear =>
      obtain ⟨other, before, offends⟩ := short first long
      exact absurd (.inl offends) (clear other before)

theorem tokenize_fails_at_bang :
    Offends "a != 1 # no $\n!b".toList 14 ∧ (∀ other < 14, ¬Offends "a != 1 # no $\n!b".toList other) ∧
    tokenize "a != 1 # no $\n!b" = .error (.unexpected '!' 14) := by
  have offends : Offends "a != 1 # no $\n!b".toList 14 := by decide
  have least : ∀ other < 14, ¬Offends "a != 1 # no $\n!b".toList other := by decide
  have short : ∀ index, Overlong "a != 1 # no $\n!b".toList index →
      ∃ other < index, Offends "a != 1 # no $\n!b".toList other :=
    fun index long => absurd long.limit_lt (by decide)
  obtain ⟨found, notice, known, failed, _⟩ := (tokenize_fails_iff _ short).2 14 offends least
  obtain rfl : '!' = found := Option.some.inj known
  exact ⟨offends, least, failed⟩

end FernLang
