import Mathlib
import FernLang.Proofs.Token.Laid
import FernLang.Proofs.Value.Equality

/-!
The text of data tells the data. A value is printed as a word or a number, and data with fields as its tag
in front of their texts in parentheses. A word ends where the first parenthesis or comma stands, tags
are no other values, and behind a field there is always a comma or a parenthesis; so no text can be
read in two ways, and values without closures are equal when they are printed alike.
-/

namespace FernLang
namespace Value

mutual

/-- The characters that a value is printed as, its numbers however long. -/
def letters : Value → List Char
  | .num value => (toString value).toList
  | .bool value => (if value then "true" else "false").toList
  | .closure params _ _ => (lambdaText params).toList
  | .data tag fields => tag.toList ++ enclosed fields

def enclosed : List Value → List Char
  | [] => []
  | field :: fields => '(' :: (letters field ++ further fields)

def further : List Value → List Char
  | [] => [')']
  | field :: fields => ',' :: ' ' :: (letters field ++ further fields)

end

/-- Values without closures, whose tags are names and whose numbers are short enough to be written. -/
inductive Readable : Value → Prop
  | num {value : Int} (short : (Nat.toDigits 10 value.natAbs).length ≤ Numeral.limit) :
      Readable (.num value)
  | bool (value : Bool) : Readable (.bool value)
  | data {tag : String} {fields : List Value} (name : Scan.Writable (.name tag))
      (each : ∀ field ∈ fields, Readable field) : Readable (.data tag fields)

/-! Printing. -/

theorem lt_of_digits {size width : Nat} (some : 0 < width)
    (short : (Nat.toDigits 10 size).length ≤ width) : size < Nat.pow 10 width :=
  (Nat.length_toDigits_le_iff (by decide) some).1 short

theorem write_short {value : Int} (short : (Nat.toDigits 10 value.natAbs).length ≤ Numeral.limit) :
    Numeral.write value = .ok (toString value) := by
  have small : value.natAbs < Numeral.bound := by
    unfold Numeral.bound
    exact lt_of_digits (by decide) short
  rw [Numeral.write, if_pos small]

theorem joined_letters (field : Value) (fields : List Value) :
    (", ".intercalate ((field :: fields).map fun one => String.ofList one.letters)).toList ++ [')'] =
      field.letters ++ further fields := by
  induction fields generalizing field with
  | nil => simp [further]
  | cons next fields ih =>
      have step := ih next
      simp only [List.map_cons] at step ⊢
      rw [String.intercalate_cons_cons, String.toList_append, String.toList_append, List.append_assoc,
        step, further, String.toList_ofList, List.append_assoc]
      rfl

theorem textAll_eq {fields : List Value}
    (each : ∀ field ∈ fields, field.text = .ok (String.ofList field.letters)) :
    textAll fields = .ok (fields.map fun field => String.ofList field.letters) := by
  induction fields with
  | nil => rfl
  | cons field fields ih =>
      obtain ⟨here, others⟩ := List.forall_mem_cons.1 each
      rw [textAll, here, ih others]
      rfl

theorem Readable.text {value : Value} (readable : value.Readable) :
    value.text = .ok (String.ofList value.letters) := by
  induction readable with
  | @num value short => rw [Value.text, write_short short, letters, String.ofList_toList]
  | bool value => rw [Value.text, letters, String.ofList_toList]
  | @data tag fields name each ih =>
      rw [Value.text, textAll_eq ih, letters]
      cases fields with
      | nil => simp [enclosed, pure, Except.pure, bind, Except.bind]
      | cons field fields =>
          have joined := joined_letters field fields
          have shown : tag ++ "(" ++ ", ".intercalate ((field :: fields).map fun one =>
              String.ofList one.letters) ++ ")" = String.ofList (tag.toList ++ enclosed (field :: fields)) := by
            apply String.toList_injective
            rw [enclosed, ← joined]
            simp
          rw [← shown]
          rfl

/-! Where words end. -/

def isJoined (c : Char) : Bool := Scan.isWordChar c || c == '-'

/-- Texts that may stand behind a field, or behind the whole. -/
def Closing (rest : List Char) : Prop := ∀ c ∈ rest.head?, c = ',' ∨ c = ')'

theorem closing_further (fields : List Value) (rest : List Char) : Closing (further fields ++ rest) := by
  cases fields <;> simp [Closing, further]

theorem Closing.stops {rest : List Char} (closing : Closing rest) :
    ∀ c ∈ rest.head?, isJoined c = false := by
  intro c member
  rcases closing c member with rfl | rfl <;> decide

theorem cut_unique {keep : Char → Bool} {row row' rest rest' : List Char}
    (all : ∀ c ∈ row, keep c = true) (all' : ∀ c ∈ row', keep c = true)
    (stops : ∀ c ∈ rest.head?, keep c = false) (stops' : ∀ c ∈ rest'.head?, keep c = false)
    (same : row ++ rest = row' ++ rest') : row = row' ∧ rest = rest' := by
  obtain ⟨taken, left⟩ := Scan.cut_row all stops
  obtain ⟨taken', left'⟩ := Scan.cut_row all' stops'
  rw [same] at taken left
  exact ⟨taken.symm.trans taken', left.symm.trans left'⟩

/-- What a value begins with: data with its tag, and any other value is nothing else. -/
def lead : Value → List Char
  | .data tag _ => tag.toList
  | value => value.letters

def trail : Value → List Char
  | .data _ fields => enclosed fields
  | _ => []

theorem letters_eq (value : Value) : value.letters = value.lead ++ value.trail := by
  cases value with
  | data tag fields => rw [letters, lead, trail]
  | _ => exact (List.append_nil _).symm

theorem trail_stops (value : Value) {rest : List Char} (closing : Closing rest) :
    ∀ c ∈ (value.trail ++ rest).head?, isJoined c = false := by
  cases value with
  | data tag fields =>
      cases fields with
      | nil => exact closing.stops
      | cons field fields =>
          intro c member
          cases member
          decide
  | _ => exact closing.stops

theorem toList_number (value : Int) :
    (toString value).toList = (if value < 0 then ['-'] else []) ++ Nat.toDigits 10 value.natAbs := by
  cases value with
  | ofNat size =>
      rw [if_neg (by exact Int.not_lt.2 (Int.natCast_nonneg size))]
      exact Nat.toList_repr
  | negSucc size =>
      rw [if_pos (Int.negSucc_lt_zero size)]
      exact String.toList_append.trans (congrArg _ Nat.toList_repr)

theorem isDigit_digits {size : Nat} {c : Char} (member : c ∈ Nat.toDigits 10 size) :
    Scan.isDigit c = true := by
  refine @Scan.isDigit_number size 0 c ?_
  simpa using member

theorem number_letters (value : Int) :
    (∀ c ∈ (toString value).toList, isJoined c = true) ∧
      ∃ c more, (toString value).toList = c :: more ∧ Scan.isLetter c = false := by
  rw [toList_number]
  constructor
  · intro c member
    rcases List.mem_append.1 member with sign | digit
    · split at sign <;> simp_all [isJoined]
    · simp [isJoined, Scan.isWordChar, isDigit_digits digit]
  · split
    · exact ⟨'-', _, rfl, rfl⟩
    · obtain ⟨c, more, row⟩ := List.exists_cons_of_ne_nil (@Nat.toDigits_ne_nil value.natAbs 10)
      have inside : c ∈ Nat.toDigits 10 value.natAbs := row ▸ List.mem_cons_self
      exact ⟨c, more, row, Scan.isLetter_of_digit (isDigit_digits inside)⟩

theorem number_injective {value other : Int} (same : toString value = toString other) :
    value = other := by
  have rows := congrArg String.toList same
  rw [toList_number, toList_number] at rows
  have sizes {first second : Nat} (same : Nat.toDigits 10 first = Nat.toDigits 10 second) :
      first = second := by
    have left := Scan.ofDigitChars_number first 0
    have right := Scan.ofDigitChars_number second 0
    rw [same] at left
    exact left.symm.trans right
  have unsigned {size : Nat} {row : List Char} (same : Nat.toDigits 10 size = '-' :: row) : False := by
    have digit : Scan.isDigit '-' = true := isDigit_digits (same ▸ List.mem_cons_self)
    exact absurd digit (by decide)
  split at rows <;> split at rows
  · have same := sizes (List.cons.inj rows).2
    omega
  · exact (unsigned rows.symm).elim
  · exact (unsigned rows).elim
  · have same := sizes rows
    omega

theorem name_letters {tag : String} (name : Scan.Writable (.name tag)) :
    (∀ c ∈ tag.toList, isJoined c = true) ∧
      (∃ c more, tag.toList = c :: more ∧ Scan.isLetter c = true) ∧ tag ∉ Scan.reserved := by
  cases name with
  | @name first text letter word free =>
      rw [String.toList_ofList]
      refine ⟨List.forall_mem_cons.2 ⟨?_, ?_⟩, ⟨first, text, rfl, letter⟩, free⟩
      · simp [isJoined, Scan.isWordChar, letter]
      · intro c member
        simp [isJoined, word c member]

theorem truth_letters (value : Bool) :
    (if value then "true" else "false") ∈ Scan.reserved ∧
      (∀ c ∈ (if value then "true" else "false").toList, isJoined c = true) ∧
      ∃ c more, (if value then "true" else "false").toList = c :: more ∧ Scan.isLetter c = true := by
  cases value with
  | true => exact ⟨by decide, List.all_eq_true.1 rfl, _, _, rfl, rfl⟩
  | false => exact ⟨by decide, List.all_eq_true.1 rfl, _, _, rfl, rfl⟩

theorem Readable.lead_joined {value : Value} (readable : value.Readable) :
    ∀ c ∈ value.lead, isJoined c = true := by
  cases readable with
  | num short => exact (number_letters _).1
  | bool value => exact (truth_letters value).2.1
  | data name each => exact (name_letters name).1

theorem number_ne_word {value : Int} {row : List Char}
    (word : ∃ c more, row = c :: more ∧ Scan.isLetter c = true) : (toString value).toList ≠ row := by
  obtain ⟨c, more, rfl, letter⟩ := word
  obtain ⟨d, behind, shown, other⟩ := (number_letters value).2
  intro same
  rw [shown, List.cons.injEq] at same
  rw [same.1, letter] at other
  cases other

theorem eq_of_lead {value other : Value} (readable : value.Readable) (readable' : other.Readable)
    (same : value.lead = other.lead) :
    (value = other ∧ value.trail = []) ∨
      ∃ tag fields fields', value = .data tag fields ∧ other = .data tag fields' := by
  have free {value : Bool} {tag : String} (name : Scan.Writable (.name tag))
      (same : (if value then "true" else "false").toList = tag.toList) : False := by
    apply (name_letters name).2.2
    rw [← String.toList_injective same]
    exact (truth_letters value).1
  cases readable with
  | @num value short =>
      cases readable' with
      | num short' =>
          have numbers := number_injective (String.toList_injective same)
          exact .inl ⟨congrArg _ numbers, rfl⟩
      | bool truth => exact (number_ne_word (truth_letters truth).2.2 same).elim
      | data name each => exact (number_ne_word (name_letters name).2.1 same).elim
  | bool truth =>
      cases readable' with
      | num short => exact (number_ne_word (truth_letters truth).2.2 same.symm).elim
      | bool truth' =>
          cases truth <;> cases truth'
          · exact .inl ⟨rfl, rfl⟩
          · exact absurd same (by decide)
          · exact absurd same (by decide)
          · exact .inl ⟨rfl, rfl⟩
      | data name each => exact (free name same).elim
  | @data tag fields name each =>
      cases readable' with
      | num short => exact (number_ne_word (name_letters name).2.1 same.symm).elim
      | bool truth => exact (free name same.symm).elim
      | @data tag' fields' name' each' =>
          cases String.toList_injective same
          exact .inr ⟨tag, fields, fields', rfl, rfl⟩

/-! Reading back. -/

/-- From here on a text can be read as one value in front of one rest. -/
def Unique (value : Value) : Prop :=
  ∀ {other : Value} {rest rest' : List Char}, other.Readable → Closing rest → Closing rest' →
    value.letters ++ rest = other.letters ++ rest' → value = other ∧ rest = rest'

theorem further_unique {fields fields' : List Value} {rest rest' : List Char}
    (each : ∀ field ∈ fields, field.Unique) (readable : ∀ field ∈ fields', field.Readable)
    (same : further fields ++ rest = further fields' ++ rest') : fields = fields' ∧ rest = rest' := by
  induction fields generalizing fields' with
  | nil =>
      cases fields' with
      | nil => exact ⟨rfl, List.append_cancel_left same⟩
      | cons field' fields' => simp [further] at same
  | cons field fields ih =>
      cases fields' with
      | nil => simp [further] at same
      | cons field' fields' =>
          obtain ⟨here, others⟩ := List.forall_mem_cons.1 each
          obtain ⟨here', others'⟩ := List.forall_mem_cons.1 readable
          simp only [further, List.cons_append, List.append_assoc, List.cons.injEq, true_and] at same
          obtain ⟨rfl, behind⟩ := here here' (closing_further fields rest) (closing_further fields' rest') same
          obtain ⟨rfl, rests⟩ := ih others others' behind
          exact ⟨rfl, rests⟩

theorem enclosed_unique {fields fields' : List Value} {rest rest' : List Char}
    (each : ∀ field ∈ fields, field.Unique) (readable : ∀ field ∈ fields', field.Readable)
    (closing : Closing rest) (closing' : Closing rest')
    (same : enclosed fields ++ rest = enclosed fields' ++ rest') : fields = fields' ∧ rest = rest' := by
  -- Fields open with a parenthesis, which what follows a value without fields does not begin with.
  have opened {rest more : List Char} (closing : Closing rest) (same : rest = '(' :: more) : False := by
    have first := closing '(' (by rw [same]; rfl)
    exact absurd first (by decide)
  cases fields with
  | nil =>
      cases fields' with
      | nil => exact ⟨rfl, same⟩
      | cons field' fields' => exact (opened closing same).elim
  | cons field fields =>
      cases fields' with
      | nil => exact (opened closing' same.symm).elim
      | cons field' fields' =>
          obtain ⟨here, others⟩ := List.forall_mem_cons.1 each
          obtain ⟨here', others'⟩ := List.forall_mem_cons.1 readable
          simp only [enclosed, List.cons_append, List.append_assoc, List.cons.injEq, true_and] at same
          obtain ⟨rfl, behind⟩ := here here' (closing_further fields rest) (closing_further fields' rest') same
          obtain ⟨rfl, rests⟩ := further_unique others others' behind
          exact ⟨rfl, rests⟩

theorem Readable.unique_of_fields {value : Value} (readable : value.Readable)
    (each : ∀ tag fields, value = .data tag fields → ∀ field ∈ fields, field.Unique) : value.Unique := by
  intro other rest rest' readable' closing closing' same
  rw [letters_eq value, letters_eq other, List.append_assoc, List.append_assoc] at same
  obtain ⟨leads, trails⟩ := cut_unique readable.lead_joined readable'.lead_joined
    (value.trail_stops closing) (other.trail_stops closing') same
  rcases eq_of_lead readable readable' leads with ⟨rfl, none⟩ | ⟨tag, fields, fields', rfl, rfl⟩
  · exact ⟨rfl, List.append_cancel_left trails⟩
  · cases readable' with
    | data name inside =>
        obtain ⟨rfl, rests⟩ := enclosed_unique (each tag fields rfl) inside closing closing' trails
        exact ⟨rfl, rests⟩

theorem Readable.unique {value : Value} (readable : value.Readable) : value.Unique := by
  induction readable with
  | num short => exact Readable.unique_of_fields (.num short) nofun
  | bool value => exact Readable.unique_of_fields (.bool value) nofun
  | data name each ih =>
      apply Readable.unique_of_fields (.data name each)
      intro tag fields same
      cases same
      exact ih

theorem letters_injective {value other : Value} (readable : value.Readable)
    (readable' : other.Readable) (same : value.letters = other.letters) : value = other := by
  have nothing : Closing [] := nofun
  exact (readable.unique readable' nothing nothing (congrArg (· ++ []) same)).1

theorem Readable.equal_iff {value other : Value} (readable : value.Readable) :
    value.equal other = true ↔ value = other := by
  constructor
  · intro equals
    have same := (Value.equal_iff value other).1 equals
    induction readable generalizing other with
    | num short =>
        cases same
        rfl
    | bool value =>
        cases same
        rfl
    | @data tag fields name each ih =>
        cases other with
        | data tag' fields' =>
            obtain ⟨rfl, alike⟩ := Same.data_iff.1 same
            have fieldwise : List.Forall₂ Eq fields fields' :=
              Expr.forall₂_members alike fun field member other _ here =>
                ih field member ((Value.equal_iff field other).2 here) here
            rw [List.forall₂_eq_eq_eq] at fieldwise
            rw [fieldwise]
        | _ => cases same
  · intro same
    rw [← same]
    exact equal_equivalence.refl value

theorem Readable.text_eq_iff {value other : Value} (readable : value.Readable)
    (readable' : other.Readable) : value.text = other.text ↔ value.equal other = true := by
  rw [readable.equal_iff, readable.text, readable'.text]
  constructor
  · intro same
    exact letters_injective readable readable' (String.ofList_injective (Except.ok.inj same))
  · intro same
    rw [same]

end Value
end FernLang
