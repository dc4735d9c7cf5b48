import Mathlib
import FernLang.Json.Read
import FernLang.Json.Write
import FernLang.Proofs.Scope.Dictionary
import FernLang.Proofs.Token.Lexicon

/-!
Indented JSON is read back. What is written for a value tells where it ends, so the reader comes to the
same place behind it whatever follows: a comma, a line end or nothing. Between the parts of a list or an
object stand a comma and blanks, which are skipped. Objects have to name each field once, since of two
fields of one name the reader keeps one.
-/

namespace FernLang.Json

/-- Values in which every object names each field once, and every number is whole. -/
inductive Plain : Json → Prop
  | null : Plain .null
  | bool (value : Bool) : Plain (.bool value)
  | whole (value : Int) : Plain (.whole value)
  | text (value : String) : Plain (.text value)
  | list {items : List Json} (each : ∀ item ∈ items, Plain item) : Plain (.list items)
  | object {fields : List (String × Json)} (once : (fields.map Prod.fst).Nodup)
      (each : ∀ field ∈ fields, Plain field.2) : Plain (.object fields)

/-- What the limits of a reader with `room` levels admit: lists and objects stand in one another no deeper
than that, and whole numbers are not too long. -/
def Within : Nat → Json → Prop
  | 0, _ => False
  | _ + 1, .whole value => (Nat.toDigits 10 value.natAbs).length ≤ Numeral.limit
  | room + 1, .list items => ∀ item ∈ items, Within room item
  | room + 1, .object fields => ∀ field ∈ fields, Within room field.2
  | _ + 1, .null | _ + 1, .bool _ | _ + 1, .real _ | _ + 1, .text _ => True

instance Within.decidable : (room : Nat) → (json : Json) → Decidable (Within room json)
  | 0, _ => .isFalse id
  | _ + 1, .whole _ => inferInstanceAs (Decidable (_ ≤ Numeral.limit))
  | room + 1, .list items =>
      have := Within.decidable room
      inferInstanceAs (Decidable (∀ item ∈ items, Within room item))
  | room + 1, .object fields =>
      have := fun field : String × Json => Within.decidable room field.2
      inferInstanceAs (Decidable (∀ field ∈ fields, Within room field.2))
  | _ + 1, .null | _ + 1, .bool _ | _ + 1, .real _ | _ + 1, .text _ => .isTrue trivial

def Ends (rest : List Char) : Prop := ∀ c ∈ rest.head?, c = ',' ∨ c = '\n'

theorem Ends.cases {rest : List Char} (ends : Ends rest) :
    rest = [] ∨ ∃ more, rest = ',' :: more ∨ rest = '\n' :: more := by
  cases rest with
  | nil => exact .inl rfl
  | cons c more =>
      rcases ends c rfl with rfl | rfl
      · exact .inr ⟨more, .inl rfl⟩
      · exact .inr ⟨more, .inr rfl⟩

namespace Reading

variable {α β : Type}

theorem bind_of_ok {read : Reading α} {next : α → Reading β} {text rest : List Char} {value : α}
    (ok : read text = .ok (value, rest)) : (read >>= next) text = next value rest := by
  change ((read text).bind fun result => next result.1 result.2) = _
  rw [ok]
  rfl

theorem get_apply (text : List Char) : (get : Reading (List Char)) text = .ok (text, text) := rfl

theorem set_apply (text other : List Char) : (set other : Reading PUnit) text = .ok (⟨⟩, other) := rfl

theorem skip_apply (text : List Char) : skip text = .ok ((), text.dropWhile isSpace) := rfl

theorem hexCode_hexDigits {code : Nat} (small : code < 32) (rest : List Char) :
    hexCode? (Text.hexDigits 4 code ++ rest) = some (code, rest) := by
  interval_cases code <;> rfl

theorem unicode_plain {code : Nat} (small : code < 32) (rest : List Char) :
    unicode code rest = (Char.ofNat code, rest) := by
  have low : isHigh code = false := by
    simp only [isHigh, Bool.and_eq_false_iff, decide_eq_false_iff_not]
    omega
  have high : isLow code = false := by
    simp only [isLow, Bool.and_eq_false_iff, decide_eq_false_iff_not]
    omega
  simp [unicode, low, high, guard]

theorem textChar_code {c : Char} (small : c.toNat < 32) (rest : List Char) :
    textChar ('\\' :: 'u' :: (Text.hexDigits 4 c.toNat ++ rest)) = .ok (some c, rest) := by
  rw [textChar, bind_of_ok (get_apply _)]
  simp only [hexCode_hexDigits small, unicode_plain small, Char.ofNat_toNat]
  rfl

theorem textChar_plain {c : Char} (quote : c ≠ '\x22') (slash : c ≠ '\\') (large : ¬c.toNat < 32)
    (rest : List Char) : textChar (c :: rest) = .ok (some c, rest) := by
  have usual : ¬(decide (c.toNat < 0x20) || c == '\\') = true := by simpa [slash] using large
  rw [textChar, bind_of_ok (get_apply _)]
  generalize whole : c :: rest = given
  split
  · cases whole
  · cases whole
    exact absurd rfl quote
  · cases whole
    exact absurd rfl slash
  · cases whole
    exact absurd rfl slash
  · cases whole
    rw [if_neg usual]
    rfl

theorem textChar_written (c : Char) (rest : List Char) :
    textChar (writtenChar c ++ rest) = .ok (some c, rest) := by
  unfold writtenChar
  split
  · rename_i marked
    rcases Bool.or_eq_true_iff.1 marked with quote | slash
    · rw [eq_of_beq quote]
      rfl
    · rw [eq_of_beq slash]
      rfl
  rename_i unmarked
  split
  · rename_i same
    rw [eq_of_beq same]
    rfl
  split
  · rename_i same
    rw [eq_of_beq same]
    rfl
  split
  · rename_i same
    rw [eq_of_beq same]
    rfl
  split
  · rename_i same
    rw [eq_of_beq same]
    rfl
  split
  · rename_i same
    rw [eq_of_beq same]
    rfl
  split
  · rename_i small
    exact textChar_code small rest
  · rename_i large
    simp only [Bool.or_eq_true, beq_iff_eq, not_or] at unmarked
    exact textChar_plain unmarked.1 unmarked.2 large rest

theorem textFrom_written (text : List Char) (steps : Nat) (done rest : List Char)
    (enough : text.length < steps) :
    textFrom steps done (text.flatMap writtenChar ++ '\x22' :: rest) =
      .ok (String.ofList (done.reverse ++ text), rest) := by
  induction text generalizing steps done with
  | nil =>
      obtain ⟨steps, rfl⟩ : ∃ less, steps = less + 1 := ⟨steps - 1, by simp at enough; omega⟩
      rw [List.append_nil]
      rfl
  | cons c text ih =>
      obtain ⟨steps, rfl⟩ : ∃ less, steps = less + 1 := ⟨steps - 1, by simp at enough; omega⟩
      rw [textFrom, List.flatMap_cons, List.append_assoc, bind_of_ok (textChar_written c _)]
      refine (ih steps (c :: done) (by simpa using enough)).trans ?_
      rw [List.reverse_cons, List.append_assoc]
      rfl

theorem length_written (text : List Char) : text.length ≤ (text.flatMap writtenChar).length := by
  induction text with
  | nil => rfl
  | cons c text ih =>
      have some : 0 < (writtenChar c).length := by
        rw [List.length_pos_iff]
        intro empty
        have read := textChar_written c []
        rw [empty] at read
        cases read
      rw [List.flatMap_cons, List.length_append, List.length_cons]
      omega

theorem text_written (value : String) (rest : List Char) :
    text (value.toList.flatMap writtenChar ++ '\x22' :: rest) = .ok (value, rest) := by
  rw [text, bind_of_ok (get_apply _), textFrom_written]
  · simp
  · have long := length_written value.toList
    simp only [List.length_append, List.length_cons]
    omega


/-! Whole numbers. -/

theorem isDigit_toDigits (value : Nat) : ∀ c ∈ Nat.toDigits 10 value, isDigit c = true := by
  have all := @Scan.isDigit_number value 0
  rwa [List.replicate_zero, List.nil_append] at all

/-- Only zero is written with a zero in front. -/
theorem toDigits_head {value : Nat} {more : List Char} (zero : Nat.toDigits 10 value = '0' :: more) :
    more = [] := by
  by_contra some
  have digits : ∀ c ∈ more, Scan.isDigit c = true :=
    fun c member => isDigit_toDigits value c (zero ▸ List.mem_cons_of_mem '0' member)
  obtain ⟨zeros, same⟩ := Scan.exists_zeros some digits
  have whole := Scan.ofDigitChars_number value 0
  rw [List.replicate_zero, List.nil_append, zero] at whole
  have less : Nat.ofDigitChars 10 more 0 = value := whole
  rw [less, zero] at same
  have length := congrArg List.length same
  simp only [List.length_append, List.length_cons] at length
  omega

theorem digits_apply {row rest : List Char} (each : ∀ c ∈ row, isDigit c = true)
    (stops : ∀ c ∈ rest.head?, isDigit c = false) : digits (row ++ rest) = .ok (row, rest) := by
  obtain ⟨taken, left⟩ := Scan.cut_row each stops
  change Except.ok ((row ++ rest).takeWhile isDigit, (row ++ rest).dropWhile isDigit) = _
  rw [taken, left]

theorem wholeDigits_apply (value : Nat) {rest : List Char}
    (stops : ∀ c ∈ rest.head?, isDigit c = false) :
    wholeDigits (Nat.toDigits 10 value ++ rest) = .ok (Nat.toDigits 10 value, rest) := by
  obtain ⟨c, more, row⟩ := List.exists_cons_of_ne_nil (@Nat.toDigits_ne_nil value 10)
  have each := isDigit_toDigits value
  have read := digits_apply each stops
  rw [row] at each read ⊢
  rw [wholeDigits, bind_of_ok (get_apply _)]
  generalize whole : c :: more ++ rest = given
  split
  · cases whole
    rw [toDigits_head row]
    rfl
  · cases whole
    rw [if_pos (each _ List.mem_cons_self)]
    exact read
  · cases whole

theorem fraction_none {rest : List Char} (ends : Ends rest) : fraction? rest = .ok (none, rest) := by
  rcases ends.cases with rfl | ⟨more, rfl | rfl⟩ <;> rfl

theorem exponent_none {rest : List Char} (ends : Ends rest) : exponent? rest = .ok (none, rest) := by
  rcases ends.cases with rfl | ⟨more, rfl | rfl⟩ <;> rfl

theorem number_apply (negative : Bool) (size : Nat) {rest : List Char} (ends : Ends rest)
    (short : (Nat.toDigits 10 size).length ≤ Numeral.limit) :
    number negative (Nat.toDigits 10 size ++ rest) =
      .ok (.whole (if negative then -size else size), rest) := by
  have stops : ∀ c ∈ rest.head?, isDigit c = false := by
    intro c member
    rcases ends c member with rfl | rfl <;> rfl
  have known : value (Nat.toDigits 10 size) = size := by
    have whole := Scan.ofDigitChars_number size 0
    rwa [List.replicate_zero, List.nil_append, ← Scan.ofDigits_row] at whole
  rw [number, bind_of_ok (wholeDigits_apply size stops), bind_of_ok (fraction_none ends),
    bind_of_ok (exponent_none ends)]
  simp only [Option.isNone_none, Bool.and_self, if_true, if_neg (Nat.not_lt.2 short), known]
  rfl

/-! Elements by their first character. -/

variable {room : Nat}

theorem exists_digit {c : Char} (digit : isDigit c = true) : ∃ value < 10, c = Nat.digitChar value := by
  have range := (Scan.isDigit_iff c).1 digit
  exact ⟨c.toNat - 48, by omega, Scan.eq_digitChar digit⟩

theorem element_digit {c : Char} (digit : isDigit c = true) (more : List Char) :
    element (room + 1) (c :: more) = number false (c :: more) := by
  obtain ⟨value, small, rfl⟩ := exists_digit digit
  interval_cases value <;> rfl

theorem element_minus {c : Char} (digit : isDigit c = true) (more : List Char) :
    element (room + 1) ('-' :: c :: more) = number true (c :: more) := by
  obtain ⟨value, small, rfl⟩ := exists_digit digit
  interval_cases value <;> rfl

theorem element_quote (rest : List Char) :
    element (room + 1) ('\x22' :: rest) = (do return .text (← text) : Reading Json) rest := rfl

theorem element_bracket {rest tail : List Char} (skipped : skip rest = .ok ((), tail))
    (some : ∀ more, tail ≠ ']' :: more) :
    element (room + 1) ('[' :: rest) =
      (do return .list (← items (element room) (tail.length + 1)) : Reading Json) tail := by
  rw [element, bind_of_ok (get_apply _)]
  refine (bind_of_ok (set_apply _ rest)).trans ?_
  rw [bind_of_ok skipped, bind_of_ok (get_apply _)]
  generalize same : tail = given
  split
  · exact absurd same (some _)
  · rfl

theorem element_brace {rest tail : List Char} (skipped : skip rest = .ok ((), tail))
    (some : ∀ more, tail ≠ '\x7d' :: more) :
    element (room + 1) ('\x7b' :: rest) =
      (do return .object (Bindings.ofPairs (← fields (element room) (tail.length + 1))) :
        Reading Json) tail := by
  rw [element, bind_of_ok (get_apply _)]
  refine (bind_of_ok (set_apply _ rest)).trans ?_
  rw [bind_of_ok skipped, bind_of_ok (get_apply _)]
  generalize same : tail = given
  split
  · exact absurd same (some _)
  · rfl

/-! Parts one after the other. -/

/-- The first character is no blank, so that blanks in front are told apart from the text. -/
def Begins (text : List Char) : Prop := ∃ c more, text = c :: more ∧ isSpace c = false

theorem skip_begins {gap text : List Char} (blank : ∀ c ∈ gap, isSpace c = true) (begins : Begins text) :
    skip (gap ++ text) = .ok ((), text) := by
  obtain ⟨c, more, rfl, solid⟩ := begins
  rw [skip_apply, List.dropWhile_append_of_pos blank, List.dropWhile_cons_of_neg]
  rw [solid]
  exact Bool.false_ne_true

theorem skip_solid {text : List Char} (begins : Begins text) : skip text = .ok ((), text) :=
  skip_begins (List.forall_mem_nil _) begins

theorem Begins.ne_nil {text : List Char} (begins : Begins text) : text ≠ [] := by
  obtain ⟨c, more, rfl, -⟩ := begins
  exact List.cons_ne_nil c more

theorem Begins.append {text : List Char} (begins : Begins text) (rest : List Char) :
    Begins (text ++ rest) := by
  obtain ⟨c, more, rfl, solid⟩ := begins
  exact ⟨c, more ++ rest, rfl, solid⟩

theorem lineStart_toList (level : Nat) :
    (lineStart level).toList = '\n' :: List.replicate (2 * level) ' ' := by
  rw [lineStart, String.toList_append]
  exact congrArg _ String.toList_ofList

theorem blank_lineStart (level : Nat) : ∀ c ∈ (lineStart level).toList, isSpace c = true := by
  intro c member
  rw [lineStart_toList] at member
  rcases List.mem_cons.1 member with rfl | blank
  · rfl
  · rw [List.eq_of_mem_replicate blank]
    rfl

theorem ends_lineStart (level : Nat) (rest : List Char) : Ends ((lineStart level).toList ++ rest) := by
  intro c member
  rw [lineStart_toList] at member
  cases member
  exact .inr rfl

/-- What is read as the value, whatever may follow. The text is not taken for the end of a list. -/
structure Reads (read : Reading α) (value : α) (text : List Char) : Prop where
  begins : Begins text
  opens : ']' ∉ text.head?
  whole : ∀ rest, Ends rest → read (text ++ rest) = .ok (value, rest)

section

variable {item : Reading Json} {level outer : Nat}

def joined (level : Nat) (parts : List String) : List Char :=
  (("," ++ lineStart level).intercalate parts).toList

theorem joined_cons (part next : String) (parts : List String) :
    joined level (part :: next :: parts) =
      part.toList ++ ',' :: ((lineStart level).toList ++ joined level (next :: parts)) := by
  rw [joined, joined, String.intercalate_cons_cons, String.toList_append, String.toList_append,
    String.toList_append, List.append_assoc]
  rfl

theorem ends_comma (rest : List Char) : Ends (',' :: rest) := by
  intro c member
  cases member
  exact .inl rfl

theorem items_apply (level outer : Nat) {list : List Json} {parts : List String}
    (each : List.Forall₂ (fun value part => Reads item value part.toList) list parts) (some : list ≠ [])
    {steps : Nat} (enough : list.length ≤ steps) {gap : List Char} (blank : ∀ c ∈ gap, isSpace c = true)
    (rest : List Char) :
    items item steps (gap ++ (joined level parts ++ ((lineStart outer).toList ++ ']' :: rest))) =
      .ok (list, rest) := by
  induction each generalizing steps gap with
  | nil => exact absurd rfl some
  | @cons value part list parts one others ih =>
      obtain ⟨steps, rfl⟩ : ∃ less, steps = less + 1 := ⟨steps - 1, by simp at enough; omega⟩
      rw [items]
      cases others with
      | nil =>
          rw [joined, String.intercalate_singleton, bind_of_ok (skip_begins blank (one.begins.append _)),
            bind_of_ok (one.whole _ (ends_lineStart _ _)),
            bind_of_ok (skip_begins (blank_lineStart outer) ⟨_, _, rfl, rfl⟩)]
          rfl
      | @cons next second list parts two others =>
          have later := ih (List.cons_ne_nil _ _) (Nat.le_of_succ_le_succ enough) (blank_lineStart level)
          rw [joined_cons, List.append_assoc, List.cons_append, List.append_assoc,
            bind_of_ok (skip_begins blank (one.begins.append _)), bind_of_ok (one.whole _ (ends_comma _)),
            bind_of_ok (skip_solid ⟨_, _, rfl, rfl⟩), bind_of_ok (get_apply _)]
          refine (bind_of_ok (set_apply _ _)).trans ?_
          exact bind_of_ok later

theorem take_apply (c : Char) (rest : List Char) : take c (c :: rest) = .ok ((), rest) := by
  rw [take, bind_of_ok (get_apply _)]
  dsimp only
  rw [if_pos (beq_self_eq_true c)]
  rfl

theorem writtenText_toList (value : String) :
    (writtenText value).toList = '\x22' :: (value.toList.flatMap writtenChar ++ ['\x22']) := by
  rw [writtenText, String.toList_ofList]
  rfl

def ReadsField (item : Reading Json) (field : String × Json) (part : String) : Prop :=
  ∃ value, part = writtenText field.1 ++ ": " ++ value ∧ Reads item field.2 value.toList

theorem ReadsField.taken {field : String × Json} {part : String} (reads : ReadsField item field part)
    {gap rest : List Char} (blank : ∀ c ∈ gap, isSpace c = true) (ends : Ends rest)
    (next : String → Json → Reading β) :
    (do skip; take '\x22'; let name ← text; skip; take ':'; skip; let value ← item; next name value)
      (gap ++ (part.toList ++ rest)) = next field.1 field.2 rest := by
  obtain ⟨value, rfl, reads⟩ := reads
  have space : ∀ c ∈ [' '], isSpace c = true := by simp [isSpace]
  have written : (writtenText field.1 ++ ": " ++ value).toList ++ rest =
      '\x22' :: (field.1.toList.flatMap writtenChar ++
        '\x22' :: ':' :: ([' '] ++ (value.toList ++ rest))) := by
    rw [String.toList_append, String.toList_append, writtenText_toList]
    simp
  rw [written, bind_of_ok (skip_begins blank ⟨_, _, rfl, rfl⟩), bind_of_ok (take_apply _ _),
    bind_of_ok (text_written _ _), bind_of_ok (skip_solid ⟨_, _, rfl, rfl⟩),
    bind_of_ok (take_apply _ _), bind_of_ok (skip_begins space (reads.begins.append _)),
    bind_of_ok (reads.whole _ ends)]

theorem ReadsField.begins {field : String × Json} {part : String}
    (reads : ReadsField item field part) : Begins part.toList ∧ '\x7d' ∉ part.toList.head? := by
  obtain ⟨value, rfl, -⟩ := reads
  rw [String.toList_append, String.toList_append, writtenText_toList]
  exact ⟨⟨'\x22', _, rfl, rfl⟩, by simp⟩

theorem fields_apply (level outer : Nat) {list : List (String × Json)} {parts : List String}
    (each : List.Forall₂ (ReadsField item) list parts) (some : list ≠ [])
    {steps : Nat} (enough : list.length ≤ steps) {gap : List Char} (blank : ∀ c ∈ gap, isSpace c = true)
    (rest : List Char) :
    fields item steps (gap ++ (joined level parts ++ ((lineStart outer).toList ++ '\x7d' :: rest))) =
      .ok (list, rest) := by
  induction each generalizing steps gap with
  | nil => exact absurd rfl some
  | @cons field part list parts one others ih =>
      obtain ⟨steps, rfl⟩ : ∃ less, steps = less + 1 := ⟨steps - 1, by simp at enough; omega⟩
      rw [fields]
      cases others with
      | nil =>
          rw [joined, String.intercalate_singleton]
          refine (one.taken blank (ends_lineStart _ _) _).trans ?_
          rw [bind_of_ok (skip_begins (blank_lineStart outer) ⟨_, _, rfl, rfl⟩)]
          rfl
      | @cons next second list parts two others =>
          have later := ih (List.cons_ne_nil _ _) (Nat.le_of_succ_le_succ enough) (blank_lineStart level)
          rw [joined_cons, List.append_assoc, List.cons_append, List.append_assoc]
          refine (one.taken blank (ends_comma _) _).trans ?_
          rw [bind_of_ok (skip_solid ⟨_, _, rfl, rfl⟩), bind_of_ok (get_apply _)]
          refine (bind_of_ok (set_apply _ _)).trans ?_
          exact bind_of_ok later

theorem joined_front (level : Nat) (part : String) (parts : List String) :
    ∃ tail, joined level (part :: parts) = part.toList ++ tail := by
  cases parts with
  | nil => exact ⟨[], by rw [joined, String.intercalate_singleton, List.append_nil]⟩
  | cons next parts => exact ⟨_, joined_cons part next parts⟩

theorem skip_joined {part : String} {parts : List String} (begins : Begins part.toList)
    (rest : List Char) :
    skip ((lineStart outer).toList ++ (joined level (part :: parts) ++ rest)) =
      .ok ((), joined level (part :: parts) ++ rest) := by
  obtain ⟨tail, front⟩ := joined_front level part parts
  rw [front, List.append_assoc]
  exact skip_begins (blank_lineStart outer) (begins.append _)

theorem joined_ne {part : String} {parts : List String} {closing : Char} (begins : Begins part.toList)
    (other : closing ∉ part.toList.head?) (rest more : List Char) :
    joined level (part :: parts) ++ rest ≠ closing :: more := by
  obtain ⟨tail, front⟩ := joined_front level part parts
  obtain ⟨c, text, same, -⟩ := begins
  rw [front, same]
  rw [same] at other
  rintro ⟨⟩
  exact other rfl

theorem length_joined (level : Nat) {parts : List String} (each : ∀ part ∈ parts, part.toList ≠ []) :
    parts.length ≤ (joined level parts).length := by
  induction parts with
  | nil => exact Nat.zero_le _
  | cons part parts ih =>
      have some := List.length_pos_iff.2 (each part List.mem_cons_self)
      have later := ih fun part member => each part (List.mem_cons_of_mem _ member)
      cases parts with
      | nil => rwa [joined, String.intercalate_singleton]
      | cons next parts =>
          rw [joined_cons]
          simp only [List.length_append, List.length_cons] at later ⊢
          omega

theorem filled_parts {related : α → String → Prop} {list : List α} {parts : List String}
    (each : List.Forall₂ related list parts) (filled : ∀ value part, related value part → part.toList ≠ []) :
    ∀ part ∈ parts, part.toList ≠ [] := by
  induction each with
  | nil => exact List.forall_mem_nil _
  | cons one _ ih => exact List.forall_mem_cons.2 ⟨filled _ _ one, ih⟩

end

end Reading

open Reading

theorem indentedItems_eq (level : Nat) (items : List Json) :
    indentedItems level items = items.map (indented level) := by
  induction items with
  | nil => rw [indentedItems, List.map_nil]
  | cons item items ih => rw [indentedItems, ih, List.map_cons]

theorem indentedFields_eq (level : Nat) (fields : List (String × Json)) :
    indentedFields level fields =
      fields.map fun field => writtenText field.1 ++ ": " ++ indented level field.2 := by
  induction fields with
  | nil => rw [indentedFields, List.map_nil]
  | cons field fields ih => rw [indentedFields, ih, List.map_cons]

theorem bracketed_toList {opening closing : String} {level : Nat} {parts : List String}
    (some : parts ≠ []) : (bracketed opening closing level parts).toList =
      opening.toList ++ ((lineStart (level + 1)).toList ++ (joined (level + 1) parts ++
        ((lineStart level).toList ++ closing.toList))) := by
  have filled : ¬parts.isEmpty = true := by rwa [List.isEmpty_iff]
  rw [bracketed, if_neg filled]
  simp only [String.toList_append, List.append_assoc, joined]

theorem reads_whole {room : Nat} {value : Int} (within : Within (room + 1) (.whole value)) (level : Nat) :
    Reads (element (room + 1)) (.whole value) (indented level (.whole value)).toList := by
  obtain ⟨c, more, row⟩ := List.exists_cons_of_ne_nil (@Nat.toDigits_ne_nil value.natAbs 10)
  have digit : isDigit c = true := isDigit_toDigits value.natAbs c (row ▸ List.mem_cons_self)
  have solid : isSpace c = false ∧ c ≠ ']' := by
    obtain ⟨size, small, rfl⟩ := exists_digit digit
    interval_cases size <;> decide
  rw [indented]
  cases value with
  | ofNat size =>
      have written : (toString (Int.ofNat size)).toList = c :: more := by
        rw [← row]
        exact Nat.toList_repr
      rw [written]
      refine ⟨⟨c, more, rfl, solid.1⟩, by simpa using solid.2, fun rest ends => ?_⟩
      rw [List.cons_append, element_digit digit, ← List.cons_append, ← row]
      exact number_apply false size ends within
  | negSucc size =>
      have written : (toString (Int.negSucc size)).toList = '-' :: c :: more := by
        rw [← row]
        exact String.toList_append.trans (congrArg _ Nat.toList_repr)
      rw [written]
      refine ⟨⟨'-', _, rfl, rfl⟩, by simp, fun rest ends => ?_⟩
      rw [List.cons_append, List.cons_append, element_minus digit, ← List.cons_append, ← row]
      exact number_apply true (size + 1) ends within

theorem reads_list {room : Nat} {items : List Json} {parts : List String}
    (each : List.Forall₂ (fun value part => Reads (element room) value part.toList) items parts)
    (level : Nat) : Reads (element (room + 1)) (.list items) (bracketed "[" "]" level parts).toList := by
  have whole := each
  cases each with
  | nil =>
      have bare : (bracketed "[" "]" level []).toList = ['[', ']'] := String.toList_append
      rw [bare]
      exact ⟨⟨'[', _, rfl, rfl⟩, by decide, fun rest _ => rfl⟩
  | @cons item part items parts first others =>
      have count := length_joined (level + 1) (filled_parts whole fun _ _ reads => reads.begins.ne_nil)
      rw [bracketed_toList (List.cons_ne_nil _ _)]
      refine ⟨⟨'[', _, rfl, rfl⟩, by simp, fun rest _ => ?_⟩
      have text (middle : List Char) :
          ("[".toList ++ middle) ++ rest = '[' :: (middle ++ rest) := rfl
      rw [text]
      simp only [List.append_assoc]
      rw [element_bracket (skip_joined first.begins _) (joined_ne first.begins first.opens _)]
      refine bind_of_ok (items_apply (level + 1) level whole (List.cons_ne_nil _ _) ?_
        (List.forall_mem_nil _) rest)
      rw [whole.length_eq, List.length_append]
      omega

theorem reads_object {room : Nat} {fields : List (String × Json)} {parts : List String}
    (each : List.Forall₂ (ReadsField (element room)) fields parts) (once : (fields.map Prod.fst).Nodup)
    (level : Nat) :
    Reads (element (room + 1)) (.object fields) (bracketed "\x7b" "\x7d" level parts).toList := by
  have whole := each
  cases each with
  | nil =>
      have bare : (bracketed "\x7b" "\x7d" level []).toList = ['\x7b', '\x7d'] := String.toList_append
      rw [bare]
      exact ⟨⟨'\x7b', _, rfl, rfl⟩, by decide, fun rest _ => rfl⟩
  | @cons field part fields parts first others =>
      have count := length_joined (level + 1) (filled_parts whole fun _ _ reads => reads.begins.1.ne_nil)
      rw [bracketed_toList (List.cons_ne_nil _ _)]
      refine ⟨⟨'\x7b', _, rfl, rfl⟩, by simp, fun rest _ => ?_⟩
      have text (middle : List Char) :
          ("\x7b".toList ++ middle) ++ rest = '\x7b' :: (middle ++ rest) := rfl
      rw [text]
      simp only [List.append_assoc]
      rw [element_brace (skip_joined first.begins.1 _) (joined_ne first.begins.1 first.begins.2 _)]
      refine (bind_of_ok (fields_apply (level + 1) level whole (List.cons_ne_nil _ _) ?_
        (List.forall_mem_nil _) rest)).trans ?_
      · rw [whole.length_eq, List.length_append]
        omega
      · rw [Bindings.ofPairs, Bindings.update_eq_overridden Bindings.nodup_nil once,
          Bindings.nil_overridden]
        rfl

/-- What is written indented is read back, whatever may follow. -/
theorem reads_indented {room : Nat} {json : Json} (plain : json.Plain) (within : json.Within room)
    (level : Nat) : Reads (element room) json (indented level json).toList := by
  induction room generalizing json level with
  | zero => cases within
  | succ room ih =>
      cases plain with
      | null =>
          rw [indented]
          exact ⟨⟨'n', _, rfl, rfl⟩, by decide, fun rest _ => rfl⟩
      | bool value =>
          rw [indented]
          cases value with
          | true => exact ⟨⟨'t', _, rfl, rfl⟩, by decide, fun rest _ => rfl⟩
          | false => exact ⟨⟨'f', _, rfl, rfl⟩, by decide, fun rest _ => rfl⟩
      | whole value => exact reads_whole within level
      | text value =>
          rw [indented, writtenText_toList]
          refine ⟨⟨'\x22', _, rfl, rfl⟩, by simp, fun rest _ => ?_⟩
          rw [List.cons_append, List.append_assoc, element_quote]
          exact bind_of_ok (text_written value rest)
      | @list items each =>
          rw [indented, indentedItems_eq]
          refine reads_list (List.forall₂_map_right_iff.2 (List.forall₂_same.2 fun item member => ?_)) level
          exact ih (each item member) (within item member) _
      | @object fields once each =>
          rw [indented, indentedFields_eq]
          refine reads_object (List.forall₂_map_right_iff.2 (List.forall₂_same.2 fun field member => ?_))
            once level
          exact ⟨_, rfl, ih (each field member) (within field member) _⟩

theorem read_indented {room : Nat} {json : Json} (plain : json.Plain) (within : json.Within room) :
    read room (json.indented 0) = .ok json := by
  have reads := reads_indented plain within 0
  have whole := reads.whole [] (by simp [Ends])
  rw [List.append_nil] at whole
  have ran : (do skip; element room : Reading Json) (json.indented 0).toList = .ok (json, []) := by
    rw [bind_of_ok (skip_solid reads.begins), whole]
  rw [read, StateT.run, ran]
  rfl

/-! Controls are escaped, so of those a written text has newlines only. -/

def Clean (text : List Char) : Prop := ∀ c ∈ text, c = '\n' ∨ 0x20 ≤ c.toNat

theorem clean_append {front back : List Char} : Clean (front ++ back) ↔ Clean front ∧ Clean back :=
  List.forall_mem_append

theorem clean_cons {c : Char} {text : List Char} :
    Clean (c :: text) ↔ (c = '\n' ∨ 0x20 ≤ c.toNat) ∧ Clean text := List.forall_mem_cons

theorem clean_nil : Clean [] := List.forall_mem_nil _

theorem clean_hexDigits (width code : Nat) : Clean (Text.hexDigits width code) := by
  induction width generalizing code with
  | zero => exact clean_nil
  | succ width ih =>
      have digit : ∀ value < 16, 0x20 ≤ (Nat.digitChar value).toNat := by decide
      exact clean_append.2 ⟨ih _, clean_cons.2 ⟨.inr (digit _ (Nat.mod_lt _ (by decide))), clean_nil⟩⟩

theorem clean_writtenChar (c : Char) : Clean (writtenChar c) := by
  unfold writtenChar
  split
  · rename_i marked
    rcases Bool.or_eq_true_iff.1 marked with quote | slash
    · rw [eq_of_beq quote]
      simp [Clean]
    · rw [eq_of_beq slash]
      simp [Clean]
  split
  · simp [Clean]
  split
  · simp [Clean]
  split
  · simp [Clean]
  split
  · simp [Clean]
  split
  · simp [Clean]
  split
  · exact clean_cons.2 ⟨by simp, clean_cons.2 ⟨by simp, clean_hexDigits 4 _⟩⟩
  · rename_i large
    exact clean_cons.2 ⟨.inr (Nat.le_of_not_lt large), clean_nil⟩

theorem clean_writtenText (text : String) : Clean (writtenText text).toList := by
  have quote : Clean ['\x22'] := by simp [Clean]
  have inner : Clean (text.toList.flatMap writtenChar) := by
    intro d member
    obtain ⟨c, _, here⟩ := List.mem_flatMap.1 member
    exact clean_writtenChar c d here
  rw [writtenText_toList]
  exact clean_append.2 ⟨quote, clean_append.2 ⟨inner, quote⟩⟩

theorem clean_lineStart (level : Nat) : Clean (lineStart level).toList := by
  rw [lineStart_toList]
  refine clean_cons.2 ⟨.inl rfl, fun c member => ?_⟩
  rw [List.eq_of_mem_replicate member]
  exact .inr (by decide)

theorem clean_joined (level : Nat) {parts : List String} (each : ∀ part ∈ parts, Clean part.toList) :
    Clean (joined level parts) := by
  induction parts with
  | nil => exact clean_nil
  | cons part parts ih =>
      obtain ⟨first, others⟩ := List.forall_mem_cons.1 each
      cases parts with
      | nil => rwa [joined, String.intercalate_singleton]
      | cons next parts =>
          rw [joined_cons]
          exact clean_append.2 ⟨first, clean_cons.2
            ⟨.inr (by decide), clean_append.2 ⟨clean_lineStart level, ih others⟩⟩⟩

theorem clean_bracketed {opening closing : String} (first : Clean opening.toList)
    (last : Clean closing.toList) (level : Nat) {parts : List String}
    (each : ∀ part ∈ parts, Clean part.toList) :
    Clean (bracketed opening closing level parts).toList := by
  by_cases none : parts = []
  · have bare : bracketed opening closing level [] = opening ++ closing := rfl
    rw [none, bare, String.toList_append]
    exact clean_append.2 ⟨first, last⟩
  · rw [bracketed_toList none]
    simp only [clean_append]
    exact ⟨first, clean_lineStart _, clean_joined _ each, clean_lineStart _, last⟩

theorem clean_whole (value : Int) : Clean (toString value).toList := by
  have digits (size : Nat) : Clean (toString size).toList := by
    intro c member
    rw [show (toString size).toList = Nat.toDigits 10 size from Nat.toList_repr] at member
    obtain ⟨digit, small, rfl⟩ := exists_digit (isDigit_toDigits size c member)
    interval_cases digit <;> exact .inr (by decide)
  cases value with
  | ofNat size => exact digits size
  | negSucc size =>
      have written : (toString (Int.negSucc size)).toList = '-' :: (toString (size + 1)).toList :=
        String.toList_append
      rw [written]
      exact clean_cons.2 ⟨.inr (by decide), digits _⟩

theorem clean_indented {json : Json} (plain : json.Plain) (level : Nat) :
    Clean (indented level json).toList := by
  induction plain generalizing level with
  | null =>
      rw [indented]
      simp [Clean]
  | bool value =>
      rw [indented]
      cases value <;> simp [Clean, writtenBool]
  | whole value =>
      rw [indented]
      exact clean_whole value
  | text value =>
      rw [indented]
      exact clean_writtenText value
  | list each ih =>
      rw [indented, indentedItems_eq]
      refine clean_bracketed (by simp [Clean]) (by simp [Clean]) level (List.forall_mem_map.2 ?_)
      exact fun item member => ih item member _
  | object once each ih =>
      rw [indented, indentedFields_eq]
      refine clean_bracketed (by simp [Clean]) (by simp [Clean]) level (List.forall_mem_map.2 ?_)
      intro field member
      rw [String.toList_append, String.toList_append]
      have colon : Clean ": ".toList := by simp [Clean]
      exact clean_append.2 ⟨clean_append.2 ⟨clean_writtenText _, colon⟩, ih field member _⟩

end FernLang.Json
