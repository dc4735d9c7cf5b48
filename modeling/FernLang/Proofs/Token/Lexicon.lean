import Mathlib.Data.List.Induction
import Mathlib.Data.List.TakeWhile
import Mathlib.Tactic.IntervalCases
import Mathlib.Tactic.Tauto
import FernLang.Token.Scan

/-!
What texts tokens are written as, and what may stand around them. Every lexeme has its texts, numbers
with any zeros in front; layout is blanks and comments. The pieces that a text is cut into are such
texts, and a piece ends only where no longer text would do.
-/

namespace FernLang
namespace Scan

inductive Layout : List Char → Prop
  | nil : Layout []
  | blank {c : Char} {text : List Char} (space : isSpace c = true) (rest : Layout text) :
      Layout (c :: text)
  | comment {inside text : List Char} (line : '\n' ∉ inside) (rest : Layout text) :
      Layout ('#' :: (inside ++ '\n' :: text))

/-- Layout at the end of a text, which ends the last line as well. -/
inductive Trailing : List Char → Prop
  | layout {text : List Char} (all : Layout text) : Trailing text
  | comment {text inside : List Char} (front : Layout text) (line : '\n' ∉ inside) :
      Trailing (text ++ '#' :: inside)

def reserved : List String := ["true", "false"] ++ Keyword.all.map Keyword.text

/-- The texts of a lexeme. A number is written in decimal digits, with any zeros in front. -/
inductive Spells : Lexeme → List Char → Prop
  | number (value zeros : Nat) :
      Spells (.number value) (List.replicate zeros '0' ++ Nat.toDigits 10 value)
  | name {first : Char} {text : List Char} (letter : isLetter first = true)
      (word : ∀ c ∈ text, isWordChar c = true) (free : String.ofList (first :: text) ∉ reserved) :
      Spells (.name (String.ofList (first :: text))) (first :: text)
  | truth (value : Bool) : Spells (.truth value) (if value then "true" else "false").toList
  | keyword (word : Keyword) : Spells (.keyword word) word.text.toList
  | mark (sign : Mark) : Spells (.mark sign) sign.text.toList
  | operator (sign : Operator) : Spells (.operator sign) sign.symbol.toList

/-- All that a text is made of: lexemes, runs of blanks, and comments up to the end of their line. -/
inductive Terminal : List Char → Prop
  | lexeme {lexeme : Lexeme} {text : List Char} (spelled : Spells lexeme text) : Terminal text
  | blanks {text : List Char} (some : text ≠ []) (all : ∀ c ∈ text, isSpace c = true) : Terminal text
  | comment {inside : List Char} (line : '\n' ∉ inside) : Terminal ('#' :: inside)

def Longest (text rest : List Char) : Prop :=
  ∀ more, more ≠ [] → more <+: rest → ¬Terminal (text ++ more)

/-! Characters. -/

theorem isDigit_iff (c : Char) : isDigit c = true ↔ 48 ≤ c.toNat ∧ c.toNat ≤ 57 := by
  simp only [isDigit, Bool.and_eq_true, decide_eq_true_eq, Char.le_def, UInt32.le_iff_toNat_le]
  rfl

def Solid (c : Char) : Prop := isSpace c = false ∧ c ≠ '#'

theorem not_solid {c : Char} (loose : ¬Solid c) : c ∈ [' ', '\t', '\x0c', '\r', '\n', '#'] := by
  simp only [Solid, isSpace, Bool.or_eq_false_iff, beq_eq_false_iff_ne] at loose
  simp only [List.mem_cons, List.not_mem_nil, or_false]
  tauto

theorem solid_of_word {c : Char} (word : isWordChar c = true) : Solid c := by
  by_contra loose
  have found := not_solid loose
  simp only [List.mem_cons, List.not_mem_nil, or_false] at found
  rcases found with rfl | rfl | rfl | rfl | rfl | rfl <;> exact absurd word (by decide)

theorem isLetter_of_digit {c : Char} (digit : isDigit c = true) : isLetter c = false := by
  rw [isDigit_iff] at digit
  by_contra letter
  simp only [isLetter, Bool.not_eq_false, Bool.or_eq_true, Bool.and_eq_true, decide_eq_true_eq,
    Char.le_def, UInt32.le_iff_toNat_le, beq_iff_eq] at letter
  change ((97 ≤ c.toNat ∧ c.toNat ≤ 122) ∨ 65 ≤ c.toNat ∧ c.toNat ≤ 90) ∨ c = '_' at letter
  rcases letter with (range | range) | rfl
  · omega
  · omega
  · exact absurd digit (by decide)

def symbols : List Char :=
  ['(', ')', ',', ':', '=', '<', '>', '*', '/', '%', '+', '-', '&', '|', '^', '!']

theorem solid_of_symbol {c : Char} (member : c ∈ symbols) : Solid c := by
  have apart : (symbols.all fun other => !isSpace other && other != '#') = true := by decide
  simpa [Solid] using List.all_eq_true.1 apart c member

theorem not_word_of_symbol {c : Char} (member : c ∈ symbols) : isWordChar c = false := by
  have apart : (symbols.all fun other => !isWordChar other) = true := by decide
  simpa using List.all_eq_true.1 apart c member

theorem single?_symbol {c : Char} {lexeme : Lexeme} (known : single? c = some lexeme) :
    c ∈ symbols := by
  unfold single? at known
  split at known <;> simp_all [symbols]

theorem double?_symbol {c d : Char} {lexeme : Lexeme} (known : double? c d = some lexeme) :
    c ∈ symbols := by
  unfold double? at known
  split at known <;> simp_all [symbols]

theorem double?_second {c d : Char} {lexeme : Lexeme} (known : double? c d = some lexeme) :
    d ∈ symbols := by
  unfold double? at known
  split at known <;> simp_all [symbols]

/-! Numbers. -/

theorem eq_digitChar {c : Char} (digit : isDigit c = true) : c = Nat.digitChar (c.toNat - 48) := by
  obtain ⟨low, high⟩ := (isDigit_iff c).1 digit
  have same : c = Char.ofNat c.toNat := (Char.ofNat_toNat c).symm
  generalize c.toNat = code at low high same
  subst same
  interval_cases code <;> rfl

theorem ofDigits_row (row : List Char) :
    Numeral.ofDigits (row.map (·.toNat - 48)) = Nat.ofDigitChars 10 row 0 := by
  rw [Numeral.ofDigits, List.foldl_map]
  rfl

theorem ofDigitChars_concat (front : List Char) (c : Char) :
    Nat.ofDigitChars 10 (front ++ [c]) 0 = 10 * Nat.ofDigitChars 10 front 0 + (c.toNat - 48) := by
  rw [Nat.ofDigitChars, List.foldl_append]
  rfl

/-- A row of digits is its number in decimal, behind some zeros. -/
theorem exists_zeros {row : List Char} (some : row ≠ []) (digits : ∀ c ∈ row, isDigit c = true) :
    ∃ zeros, row = List.replicate zeros '0' ++ Nat.toDigits 10 (Nat.ofDigitChars 10 row 0) := by
  induction row using List.reverseRecOn with
  | nil => exact absurd rfl some
  | append_singleton front c ih =>
      obtain ⟨before, last⟩ := List.forall_mem_append.1 digits
      have digit : isDigit c = true := last c List.mem_cons_self
      have small : c.toNat - 48 < 10 := by
        have range := (isDigit_iff c).1 digit
        omega
      have shown : Nat.toDigits 10 (c.toNat - 48) = [c] := by
        rw [Nat.toDigits_of_lt_base small, ← eq_digitChar digit]
      rw [ofDigitChars_concat]
      by_cases none : front = []
      · subst none
        refine ⟨0, ?_⟩
        rw [Nat.ofDigitChars, List.foldl_nil, Nat.mul_zero, Nat.zero_add, shown]
        rfl
      · obtain ⟨zeros, same⟩ := ih none before
        generalize Nat.ofDigitChars 10 front 0 = value at same ⊢
        rcases Nat.eq_zero_or_pos value with rfl | positive
        · refine ⟨zeros + 1, ?_⟩
          rw [Nat.mul_zero, Nat.zero_add, shown, same, Nat.toDigits_zero, List.replicate_succ']
        · refine ⟨zeros, ?_⟩
          rw [← Nat.toDigits_append_toDigits (by decide) positive small, shown, same, List.append_assoc]

theorem ofDigitChars_number (value zeros : Nat) :
    Nat.ofDigitChars 10 (List.replicate zeros '0' ++ Nat.toDigits 10 value) 0 = value := by
  have none : ∀ zeros, Nat.ofDigitChars 10 (List.replicate zeros '0') 0 = 0 := by
    intro zeros
    induction zeros with
    | zero => rfl
    | succ zeros ih => rw [List.replicate_succ', ofDigitChars_concat, ih]; rfl
  rw [Nat.ofDigitChars, List.foldl_append]
  change Nat.ofDigitChars 10 (Nat.toDigits 10 value) (Nat.ofDigitChars 10 (List.replicate zeros '0') 0) = _
  rw [none, Nat.ofDigitChars_toDigits (by decide) (by decide)]

theorem isDigit_number {value zeros : Nat} :
    ∀ c ∈ List.replicate zeros '0' ++ Nat.toDigits 10 value, isDigit c = true := by
  intro c member
  rcases List.mem_append.1 member with zero | digit
  · rw [List.eq_of_mem_replicate zero]
    decide
  · have known := Nat.isDigit_of_mem_toDigits (by decide) (by decide) digit
    simpa [Char.isDigit, isDigit, Char.le_def] using known

/-! Pieces. -/

inductive Shape : Piece → List Char → Prop
  | digits {first : Char} {row : List Char} (all : ∀ c ∈ first :: row, isDigit c = true) :
      Shape (.digits (first :: row)) (first :: row)
  | word {first : Char} {text : List Char} (letter : isLetter first = true)
      (all : ∀ c ∈ text, isWordChar c = true) : Shape (.word (first :: text)) (first :: text)
  | double {c d : Char} {lexeme : Lexeme} (known : double? c d = some lexeme) :
      Shape (.symbol lexeme 2) [c, d]
  | single {c : Char} {lexeme : Lexeme} (known : single? c = some lexeme) :
      Shape (.symbol lexeme 1) [c]

def Fits (lexeme : Lexeme) (text : List Char) : Prop :=
  ∀ value, lexeme = .number value → text.length ≤ Numeral.limit

theorem double?_spells {c d : Char} {lexeme : Lexeme} (known : double? c d = some lexeme) :
    Spells lexeme [c, d] := by
  unfold double? at known
  split at known <;> cases known
  exacts [.operator .eq, .operator .ne, .operator .le, .operator .ge, .operator .pow, .operator .and,
    .operator .or]

theorem single?_spells {c : Char} {lexeme : Lexeme} (known : single? c = some lexeme) :
    Spells lexeme [c] := by
  unfold single? at known
  split at known <;> cases known
  exacts [.mark .leftParen, .mark .rightParen, .mark .comma, .mark .colon, .mark .equals,
    .operator .lt, .operator .gt, .operator .mul, .operator .div, .operator .mod, .operator .add,
    .operator .sub, .operator .bitAnd, .operator .bitOr, .operator .bitXor]

theorem wordLexeme_spells {first : Char} {text : List Char} (letter : isLetter first = true)
    (all : ∀ c ∈ text, isWordChar c = true) :
    Spells (wordLexeme (String.ofList (first :: text))) (first :: text) := by
  have spelled {word : String} (same : String.ofList (first :: text) = word) :
      first :: text = word.toList := by
    rw [← same, String.toList_ofList]
  unfold wordLexeme
  by_cases yes : String.ofList (first :: text) = "true"
  · rw [if_pos yes, spelled yes]
    exact .truth true
  rw [if_neg yes]
  by_cases no : String.ofList (first :: text) = "false"
  · rw [if_pos no, spelled no]
    exact .truth false
  rw [if_neg no]
  cases found : Keyword.ofText? (String.ofList (first :: text)) with
  | some word =>
      have same : word.text = String.ofList (first :: text) := by
        simpa using List.find?_some found
      dsimp only
      rw [spelled same.symm]
      exact .keyword word
  | none =>
      refine .name letter all ?_
      have other : ∀ word ∈ Keyword.all, word.text ≠ String.ofList (first :: text) := by
        simpa [Keyword.ofText?] using found
      simp only [reserved, List.mem_append, List.mem_cons, List.not_mem_nil, or_false, List.mem_map]
      rintro ((same | same) | ⟨word, member, same⟩)
      · exact yes same
      · exact no same
      · exact other word member same

theorem wordLexeme_name {text : String} (free : text ∉ reserved) : wordLexeme text = .name text := by
  simp only [reserved, List.mem_append, List.mem_cons, List.not_mem_nil, or_false, List.mem_map,
    not_or, not_exists, not_and] at free
  obtain ⟨⟨yes, no⟩, other⟩ := free
  have none : Keyword.ofText? text = none := by
    simpa [Keyword.ofText?] using other
  rw [wordLexeme, if_neg yes, if_neg no, none]

theorem wordLexeme_ne_number (text : String) (value : Nat) : wordLexeme text ≠ .number value := by
  unfold wordLexeme
  split
  · simp
  · split
    · simp
    · split <;> simp

theorem Shape.width {piece : Piece} {text : List Char} (shape : Shape piece text) :
    piece.width = text.length := by
  cases shape <;> rfl

theorem Shape.solid {piece : Piece} {c : Char} {text : List Char} (shape : Shape piece (c :: text)) :
    Solid c := by
  cases shape with
  | digits all =>
      apply solid_of_word
      rw [isWordChar, all c List.mem_cons_self, Bool.or_true]
  | word letter all =>
      apply solid_of_word
      rw [isWordChar, letter, Bool.true_or]
  | double known => exact solid_of_symbol (double?_symbol known)
  | single known => exact solid_of_symbol (single?_symbol known)

theorem Shape.ne_nil {piece : Piece} {text : List Char} (shape : Shape piece text) : text ≠ [] := by
  cases shape <;> simp

theorem Shape.spells {piece : Piece} {text : List Char} {lexeme : Lexeme} (shape : Shape piece text)
    (read : piece.lexeme = .ok lexeme) : Spells lexeme text ∧ Fits lexeme text := by
  cases shape with
  | @digits first row all =>
      rw [Piece.lexeme] at read
      split at read
      · cases read
      · rename_i short
        cases read
        obtain ⟨zeros, same⟩ := exists_zeros (List.cons_ne_nil _ _) all
        rw [ofDigits_row]
        refine ⟨?_, fun _ _ => Nat.le_of_not_lt short⟩
        nth_rewrite 2 [same]
        exact .number _ zeros
  | word letter all =>
      cases read
      exact ⟨wordLexeme_spells letter all, fun value same => absurd same (wordLexeme_ne_number _ value)⟩
  | double known =>
      cases read
      exact ⟨double?_spells known, fun _ _ => by simp [Numeral.limit]⟩
  | single known =>
      cases read
      exact ⟨single?_spells known, fun _ _ => by simp [Numeral.limit]⟩

/-- A text of a lexeme is a piece, which is read as this lexeme if it is short enough. -/
theorem Spells.shape {lexeme : Lexeme} {text : List Char} (spelled : Spells lexeme text) :
    ∃ piece, Shape piece text ∧ (Fits lexeme text → piece.lexeme = .ok lexeme) := by
  cases spelled with
  | number value zeros =>
      have digits : ∀ c ∈ List.replicate zeros '0' ++ Nat.toDigits 10 value, isDigit c = true :=
        isDigit_number
      have same := ofDigitChars_number value zeros
      have some : List.replicate zeros '0' ++ Nat.toDigits 10 value ≠ [] := by simp
      generalize List.replicate zeros '0' ++ Nat.toDigits 10 value = row at digits same some ⊢
      obtain ⟨first, row, rfl⟩ := List.exists_cons_of_ne_nil some
      refine ⟨_, .digits digits, fun fits => ?_⟩
      rw [Piece.lexeme, if_neg (Nat.not_lt.2 (fits value rfl)), ofDigits_row, same]
  | name letter word free =>
      refine ⟨_, .word letter word, fun _ => ?_⟩
      rw [Piece.lexeme, wordLexeme_name free]
  | truth value =>
      cases value <;> exact ⟨_, .word rfl (List.all_eq_true.1 rfl), fun _ => rfl⟩
  | keyword word =>
      cases word <;> exact ⟨_, .word rfl (List.all_eq_true.1 rfl), fun _ => rfl⟩
  | mark sign =>
      cases sign <;> exact ⟨_, .single rfl, fun _ => rfl⟩
  | operator sign =>
      cases sign with
      | eq | ne | le | ge | pow | and | or => exact ⟨_, .double rfl, fun _ => rfl⟩
      | _ => exact ⟨_, .single rfl, fun _ => rfl⟩

theorem Shape.terminal {piece : Piece} {text : List Char} (shape : Shape piece text) :
    Terminal text := by
  cases shape with
  | digits all =>
      obtain ⟨zeros, same⟩ := exists_zeros (List.cons_ne_nil _ _) all
      rw [same]
      exact .lexeme (.number _ zeros)
  | word letter all => exact .lexeme (wordLexeme_spells letter all)
  | double known => exact .lexeme (double?_spells known)
  | single known => exact .lexeme (single?_spells known)

theorem Terminal.shape {c : Char} {text : List Char} (terminal : Terminal (c :: text))
    (solid : Solid c) : ∃ piece, Shape piece (c :: text) := by
  generalize whole : c :: text = row at terminal ⊢
  cases terminal with
  | lexeme spelled =>
      obtain ⟨piece, shape, -⟩ := spelled.shape
      exact ⟨piece, shape⟩
  | blanks some all =>
      subst whole
      have space := all c List.mem_cons_self
      rw [solid.1] at space
      cases space
  | comment line =>
      cases whole
      exact absurd rfl solid.2

/-! Where pieces end. The first character of a piece tells what it is. -/

section

variable {piece : Piece} {c : Char} {text rest : List Char}

theorem Shape.of_digit (shape : Shape piece (c :: text)) (digit : isDigit c = true) :
    ∀ d ∈ text, isDigit d = true := by
  have other (member : c ∈ symbols) : False := by
    have none := not_word_of_symbol member
    rw [isWordChar, digit, Bool.or_true] at none
    cases none
  cases shape with
  | digits all => exact fun d member => all d (List.mem_cons_of_mem _ member)
  | word letter _ =>
      rw [isLetter_of_digit digit] at letter
      cases letter
  | double known => exact (other (double?_symbol known)).elim
  | single known => exact (other (single?_symbol known)).elim

theorem Shape.of_letter (shape : Shape piece (c :: text)) (letter : isLetter c = true) :
    ∀ d ∈ text, isWordChar d = true := by
  have other (member : c ∈ symbols) : False := by
    have none := not_word_of_symbol member
    rw [isWordChar, letter, Bool.true_or] at none
    cases none
  cases shape with
  | digits all =>
      rw [isLetter_of_digit (all c List.mem_cons_self)] at letter
      cases letter
  | word _ all => exact all
  | double known => exact (other (double?_symbol known)).elim
  | single known => exact (other (single?_symbol known)).elim

theorem Shape.of_symbol (shape : Shape piece (c :: text)) (member : c ∈ symbols) :
    text = [] ∨ ∃ d, text = [d] ∧ (double? c d).isSome = true := by
  have none := not_word_of_symbol member
  cases shape with
  | digits all =>
      rw [isWordChar, all c List.mem_cons_self, Bool.or_true] at none
      cases none
  | word letter _ =>
      rw [isWordChar, letter, Bool.true_or] at none
      cases none
  | @double _ d _ known => exact .inr ⟨d, rfl, by rw [known]; rfl⟩
  | single known => exact .inl rfl

/-- One more character decides whether a text can be made longer. -/
theorem longest_iff {goesOn : Char → Bool}
    (one : ∀ c, goesOn c = true → Terminal (text ++ [c]))
    (only : ∀ c more, Terminal (text ++ c :: more) → goesOn c = true) :
    Longest text rest ↔ ∀ c ∈ rest.head?, goesOn c = false := by
  constructor
  · intro longest c member
    by_contra going
    rw [Bool.not_eq_false] at going
    obtain ⟨more, same⟩ := List.head?_eq_some_iff.1 member
    exact longest [c] (List.cons_ne_nil _ _) ⟨more, same.symm⟩ (one c going)
  · intro stops more some starts terminal
    obtain ⟨c, more, rfl⟩ := List.exists_cons_of_ne_nil some
    obtain ⟨behind, rfl⟩ := starts
    have going := only c more terminal
    rw [stops c rfl] at going
    cases going

theorem longest_digits (all : ∀ d ∈ c :: text, isDigit d = true) :
    Longest (c :: text) rest ↔ ∀ d ∈ rest.head?, isDigit d = false := by
  apply longest_iff
  · intro d digit
    exact (Shape.digits (List.forall_mem_append.2 ⟨all, List.forall_mem_singleton.2 digit⟩)).terminal
  · intro d more terminal
    obtain ⟨piece, shape⟩ := terminal.shape (Shape.digits all).solid
    exact shape.of_digit (all c List.mem_cons_self) d (by simp)

theorem longest_word (letter : isLetter c = true) (all : ∀ d ∈ text, isWordChar d = true) :
    Longest (c :: text) rest ↔ ∀ d ∈ rest.head?, isWordChar d = false := by
  apply longest_iff
  · intro d word
    exact (Shape.word letter (List.forall_mem_append.2 ⟨all, List.forall_mem_singleton.2 word⟩)).terminal
  · intro d more terminal
    obtain ⟨piece, shape⟩ := terminal.shape (Shape.word letter all).solid
    exact shape.of_letter letter d (by simp)

theorem longest_single {lexeme : Lexeme} (known : single? c = some lexeme) :
    Longest [c] rest ↔ ∀ d ∈ rest.head?, (double? c d).isSome = false := by
  apply longest_iff
  · intro d both
    obtain ⟨longer, found⟩ := Option.isSome_iff_exists.1 both
    exact (Shape.double found).terminal
  · intro d more terminal
    obtain ⟨piece, shape⟩ := terminal.shape (Shape.single known).solid
    rcases shape.of_symbol (single?_symbol known) with none | ⟨e, same, both⟩
    · cases none
    · cases same
      exact both

theorem longest_double {d : Char} {lexeme : Lexeme} (known : double? c d = some lexeme) :
    Longest [c, d] rest := by
  intro more some starts terminal
  obtain ⟨piece, shape⟩ := terminal.shape (Shape.double known).solid
  rcases shape.of_symbol (double?_symbol known) with none | ⟨e, same, _⟩
  · cases none
  · cases same
    exact some rfl

theorem Shape.all_solid (shape : Shape piece text) : ∀ d ∈ text, Solid d := by
  cases shape with
  | digits all =>
      intro d member
      apply solid_of_word
      rw [isWordChar, all d member, Bool.or_true]
  | word letter all =>
      refine List.forall_mem_cons.2 ⟨(Shape.word letter all).solid, ?_⟩
      exact fun d member => solid_of_word (all d member)
  | double known =>
      refine List.forall_mem_cons.2 ⟨solid_of_symbol (double?_symbol known), ?_⟩
      exact List.forall_mem_singleton.2 (solid_of_symbol (double?_second known))
  | single known => exact List.forall_mem_singleton.2 (solid_of_symbol (single?_symbol known))

/-- What makes a text of a lexeme longer holds no character of layout. -/
theorem Spells.all_solid {lexeme : Lexeme} {more : List Char} (spelled : Spells lexeme text)
    (terminal : Terminal (text ++ more)) : ∀ d ∈ more, Solid d := by
  obtain ⟨piece, shape, -⟩ := spelled.shape
  obtain ⟨c, text, rfl⟩ := List.exists_cons_of_ne_nil shape.ne_nil
  obtain ⟨longer, whole⟩ := terminal.shape shape.solid
  exact fun d member => whole.all_solid d (List.mem_cons_of_mem _ (List.mem_append_right _ member))

theorem Spells.longest {lexeme : Lexeme} (spelled : Spells lexeme text)
    (loose : ∀ d ∈ rest.head?, ¬Solid d) : Longest text rest := by
  intro more some starts terminal
  obtain ⟨d, more, rfl⟩ := List.exists_cons_of_ne_nil some
  obtain ⟨behind, rfl⟩ := starts
  exact loose d rfl (spelled.all_solid terminal d List.mem_cons_self)

theorem dropWhile_stops (keep : Char → Bool) (text : List Char) :
    ∀ c ∈ (text.dropWhile keep).head?, keep c = false := by
  intro c member
  have stopped := List.head?_dropWhile_not keep text
  rw [Option.mem_def.1 member] at stopped
  exact stopped

theorem front?_longest (found : front? text = some (piece, rest)) :
    ∃ taken, text = taken ++ rest ∧ Shape piece taken ∧ Longest taken rest := by
  cases text with
  | nil => cases found
  | cons c text =>
      unfold front? at found
      dsimp only at found
      by_cases digit : isDigit c = true
      · rw [if_pos digit] at found
        cases found
        have all : ∀ d ∈ c :: text.takeWhile isDigit, isDigit d = true :=
          List.forall_mem_cons.2 ⟨digit, fun _ => List.mem_takeWhile_imp⟩
        refine ⟨c :: text.takeWhile isDigit, ?_, .digits all, ?_⟩
        · rw [List.cons_append, List.takeWhile_append_dropWhile]
        · exact (longest_digits all).2 (dropWhile_stops isDigit text)
      rw [if_neg digit] at found
      by_cases letter : isLetter c = true
      · rw [if_pos letter] at found
        cases found
        have all : ∀ d ∈ text.takeWhile isWordChar, isWordChar d = true :=
          fun _ => List.mem_takeWhile_imp
        refine ⟨c :: text.takeWhile isWordChar, ?_, .word letter all, ?_⟩
        · rw [List.cons_append, List.takeWhile_append_dropWhile]
        · exact (longest_word letter all).2 (dropWhile_stops isWordChar text)
      rw [if_neg letter] at found
      cases text with
      | nil =>
          obtain ⟨lexeme, known, same⟩ := Option.map_eq_some_iff.1 found
          cases same
          exact ⟨[c], rfl, .single known, (longest_single known).2 (by simp)⟩
      | cons d text =>
          dsimp only at found
          cases both : double? c d with
          | some lexeme =>
              rw [both] at found
              cases found
              exact ⟨[c, d], rfl, .double both, longest_double both⟩
          | none =>
              rw [both] at found
              obtain ⟨lexeme, known, same⟩ := Option.map_eq_some_iff.1 found
              cases same
              refine ⟨[c], rfl, .single known, (longest_single known).2 ?_⟩
              intro e member
              cases member
              rw [both]
              rfl

theorem cut_row {keep : Char → Bool} {row : List Char} (all : ∀ c ∈ row, keep c = true)
    (stops : ∀ c ∈ rest.head?, keep c = false) :
    (row ++ rest).takeWhile keep = row ∧ (row ++ rest).dropWhile keep = rest := by
  rw [List.takeWhile_append_of_pos all, List.dropWhile_append_of_pos all]
  cases rest with
  | nil => simp
  | cons c rest => simp [stops c rfl]

theorem Shape.front {taken : List Char} (shape : Shape piece taken) (longest : Longest taken rest) :
    front? (taken ++ rest) = some (piece, rest) := by
  cases shape with
  | @digits first row all =>
      obtain ⟨taken, left⟩ := cut_row (fun c member => all c (List.mem_cons_of_mem _ member))
        ((longest_digits all).1 longest)
      unfold front?
      simp only [List.cons_append]
      rw [if_pos (all first List.mem_cons_self), taken, left]
  | @word first text letter all =>
      obtain ⟨taken, left⟩ := cut_row all ((longest_word letter all).1 longest)
      have digit : ¬isDigit first = true := by
        intro digit
        rw [isLetter_of_digit digit] at letter
        cases letter
      unfold front?
      simp only [List.cons_append]
      rw [if_neg digit, if_pos letter, taken, left]
  | @double c d lexeme known =>
      have none := not_word_of_symbol (double?_symbol known)
      rw [isWordChar, Bool.or_eq_false_iff] at none
      unfold front?
      simp [none, known]
  | @single c lexeme known =>
      have none := not_word_of_symbol (single?_symbol known)
      rw [isWordChar, Bool.or_eq_false_iff] at none
      have stops := (longest_single known).1 longest
      unfold front?
      cases rest with
      | nil => simp [none, known]
      | cons d rest =>
          have apart : double? c d = .none := by simpa using stops d rfl
          simp [none, apart, known]

end

end Scan
end FernLang
