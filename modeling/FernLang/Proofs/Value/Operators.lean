import Mathlib
import FernLang.Proofs.Run.Guards
import FernLang.Proofs.Value.Reading

/-!
Which operands an operator takes. Equality takes all values, every other operator two numbers or two
truth values, and division, remainder and power ask more of their numbers. What an operator refuses is
an error with a cause, unless the message would hold a number that is too long to be written. A power
that is not refused is exact and fits into `powerBits` bits; one that is refused may fit too, as its
width is judged by that of its base.
-/

namespace FernLang

namespace Bits

variable {value base : Int} {count exponent : Nat}

theorem lt_length_iff : count < length value ↔ 2 ^ count ≤ value.natAbs := by
  unfold length
  split
  · rename_i zero
    simp [zero]
  · rename_i other
    rw [Nat.lt_succ_iff, Nat.le_log2 (Int.natAbs_ne_zero.2 other)]

theorem length_le_iff : length value ≤ count ↔ value.natAbs < 2 ^ count := by
  rw [← Nat.not_lt, lt_length_iff, Nat.not_le]

theorem length_two_pow (exponent : Nat) : length (2 ^ exponent) = exponent + 1 := by
  have size : ((2 : Int) ^ exponent).natAbs = 2 ^ exponent := Int.natAbs_pow 2 exponent
  apply Nat.le_antisymm
  · rw [length_le_iff, size]
    exact Nat.pow_lt_pow_succ (by decide)
  · apply lt_length_iff.2
    rw [size]

theorem length_pow_le (some : exponent ≠ 0) : length (base ^ exponent) ≤ exponent * length base := by
  rw [length_le_iff, Int.natAbs_pow, Nat.mul_comm, Nat.pow_mul]
  exact Nat.pow_lt_pow_left (length_le_iff.1 (Nat.le_refl _)) some

theorem lt_length_pow (wide : 0 < length base) :
    exponent * (length base - 1) < length (base ^ exponent) := by
  rw [lt_length_iff, Int.natAbs_pow, Nat.mul_comm, Nat.pow_mul]
  exact Nat.pow_le_pow_left (lt_length_iff.1 (by omega)) exponent

theorem two_le_length (large : 1 < base.natAbs) : 2 ≤ length base := lt_length_iff.2 large

end Bits

theorem Value.exists_num {value : Value} (number : value.kind = .num) : ∃ found, value = .num found := by
  cases value <;> simp [Value.kind] at number ⊢

theorem Value.exists_bool {value : Value} (truth : value.kind = .bool) : ∃ found, value = .bool found := by
  cases value <;> simp [Value.kind] at truth ⊢

/-- What may be in the way of an operation on two values: a cause, or that one of them cannot be
written in the message about it. -/
def Obstacle.About (a b : Value) : Obstacle → Prop
  | .cause _ => True
  | .numeral error => error = .tooLongToWrite ∧ (a.text = .error error ∨ b.text = .error error)
  | .compoundSign | .misused _ => False

/-- The exponents that a base is raised to: none below zero, and none that makes its bits too many. -/
def Operation.Bearable (base exponent : Int) : Prop :=
  0 ≤ exponent ∧ (1 < base.natAbs → exponent * Bits.length base ≤ powerBits)

def Operator.Takes : Operator → Value → Value → Prop
  | .eq, _, _ | .ne, _, _ => True
  | .and, a, b | .or, a, b => a.kind = .bool ∧ b.kind = .bool
  | .div, a, b | .mod, a, b => (a.kind = .num ∧ b.kind = .num) ∧ b ≠ .num 0
  | .pow, a, b => (a.kind = .num ∧ b.kind = .num) ∧
      ∀ base exponent, a = .num base → b = .num exponent → Operation.Bearable base exponent
  | _, a, b => a.kind = .num ∧ b.kind = .num

def Operator.gives : Operator → Value.Kind
  | .add | .sub | .mul | .div | .mod | .pow | .bitAnd | .bitOr | .bitXor => .num
  | _ => .bool

namespace Operation

/-- An operation has a good value where a condition on its operands holds, and is stopped elsewhere. -/
inductive Settles {α : Type} (a b : Value) (condition : Prop) (good : α → Prop) : Result α → Prop
  | returns (holds : condition) (value : α) (fits : good value) : Settles a b condition good (.ok value)
  | stopped (fails : ¬condition) (obstacle : Obstacle) (about : obstacle.About a b) :
      Settles a b condition good (.error obstacle)

section

variable {α β : Type} {a b : Value} {condition other : Prop} {good : α → Prop} {fine : β → Prop}

theorem Settles.congr {result : Result α} (settles : Settles a b condition good result)
    (same : condition ↔ other) : Settles a b other good result :=
  propext same ▸ settles

theorem Settles.bind {first : Result α} {next : α → Result β} (early : Settles a b condition good first)
    (late : ∀ value, good value → Settles a b other fine (next value)) :
    Settles a b (condition ∧ other) fine (first >>= next) := by
  cases early with
  | returns holds value fits => exact (late value fits).congr (by simp [holds])
  | stopped fails obstacle about => exact .stopped (fun both => fails both.1) obstacle about

theorem Settles.bind_always {first : Result α} {next : α → Result β}
    (early : Settles a b condition good first)
    (late : ∀ value, good value → Settles a b True fine (next value)) :
    Settles a b condition fine (first >>= next) :=
  (early.bind late).congr (and_iff_left trivial)

theorem settles_ok {value : α} (holds : condition) (fits : good value) :
    Settles a b condition good (.ok value) :=
  .returns holds value fits

theorem settles_refuse (cause : Cause) (fails : ¬condition) :
    Settles a b condition good (refuse cause) :=
  .stopped fails (.cause cause) trivial

theorem settles_quoting {value : Value} (operand : value = a ∨ value = b)
    {next : String → Result α} (fails : ¬condition)
    (each : ∀ shown, Settles a b condition good (next shown)) :
    Settles a b condition good (numeral value.text >>= next) := by
  cases text : value.text with
  | ok shown => exact each shown
  | error error =>
      have long := value.writes_text error text
      refine .stopped fails (.numeral error) ⟨long, ?_⟩
      rcases operand with rfl | rfl
      · exact .inl text
      · exact .inr text

theorem settles_badFirst (fails : ¬condition) (symbol : String) :
    Settles a b condition good (badFirst symbol a) :=
  settles_quoting (.inl rfl) fails fun _ => settles_refuse _ fails

theorem settles_badSecond (fails : ¬condition) (symbol : String) :
    Settles a b condition good (badSecond symbol b) :=
  settles_quoting (.inr rfl) fails fun _ => settles_refuse _ fails

theorem settles_badBoth (fails : ¬condition) (symbol : String) :
    Settles a b condition good (badBoth symbol a b) :=
  settles_quoting (.inl rfl) fails fun _ =>
    settles_quoting (.inr rfl) fails fun _ => settles_refuse _ fails

theorem settles_check (symbol : String) (kind : Value.Kind) (a b : Value) :
    Settles a b (a.kind = kind ∧ b.kind = kind) (fun _ => a.kind = kind ∧ b.kind = kind)
      (check symbol kind a b) := by
  unfold check
  by_cases first : a.kind = kind
  · rw [if_pos first]
    by_cases second : b.kind = kind
    · rw [if_pos second]
      exact settles_ok ⟨first, second⟩ ⟨first, second⟩
    · rw [if_neg second]
      exact settles_badSecond (fun both => second both.2) symbol
  · rw [if_neg first]
    split
    · exact settles_badFirst (fun both => first both.1) symbol
    · exact settles_badBoth (fun both => first both.1) symbol

theorem settles_numbers (symbol : String) (a b : Value) :
    Settles a b (a.kind = .num ∧ b.kind = .num) (fun pair => a = .num pair.1 ∧ b = .num pair.2)
      (numbers symbol a b) := by
  apply (settles_check symbol .num a b).bind_always
  rintro - ⟨first, second⟩
  obtain ⟨x, rfl⟩ := Value.exists_num first
  obtain ⟨y, rfl⟩ := Value.exists_num second
  exact settles_ok trivial ⟨rfl, rfl⟩

theorem settles_truths (symbol : String) (a b : Value) :
    Settles a b (a.kind = .bool ∧ b.kind = .bool) (fun pair => a = .bool pair.1 ∧ b = .bool pair.2)
      (truths symbol a b) := by
  apply (settles_check symbol .bool a b).bind_always
  rintro - ⟨first, second⟩
  obtain ⟨x, rfl⟩ := Value.exists_bool first
  obtain ⟨y, rfl⟩ := Value.exists_bool second
  exact settles_ok trivial ⟨rfl, rfl⟩

end

/-! Powers. -/

/-- The shortcut for bases at most one in size gives the power as well. -/
theorem power_eq (base : Int) (exponent : Nat) : power base exponent = base ^ exponent := by
  unfold power
  split
  · rfl
  · rename_i small
    have few : base = 0 ∨ base = 1 ∨ base = -1 := by omega
    by_cases none : exponent = 0
    · simp [none]
    · rw [if_neg none]
      rcases few with rfl | rfl | rfl
      · simp [none]
      · simp
      · by_cases even : exponent % 2 = 0
        · rw [if_pos ⟨rfl, even⟩, Even.neg_one_pow (Nat.even_iff.2 even)]
        · rw [if_neg (fun both => even both.2), Odd.neg_one_pow (Nat.odd_iff.2 (by omega))]

theorem settles_raise (base exponent : Int) :
    Settles (.num base) (.num exponent) (Bearable base exponent) (· = base ^ exponent.toNat)
      (raise base exponent) := by
  have text : Numeral.write exponent = (Value.num exponent).text := by rw [Value.text]
  rw [raise_eq, text]
  split
  · rename_i negative
    have fails : ¬Bearable base exponent := fun bearable => absurd bearable.1 (Int.not_le.2 negative)
    exact settles_quoting (.inr rfl) fails fun _ => settles_refuse _ fails
  · rename_i natural
    split
    · rename_i large
      have fails : ¬Bearable base exponent := fun bearable =>
        absurd (bearable.2 large.1) (Int.not_le.2 large.2)
      exact settles_quoting (.inr rfl) fails fun _ => settles_refuse _ fails
    · rename_i small
      refine settles_ok ⟨Int.not_lt.1 natural, fun large => ?_⟩ (power_eq base _)
      exact Int.not_lt.1 fun wide => small ⟨large, wide⟩

theorem Bearable.length_le {base exponent : Int} (bearable : Bearable base exponent) :
    Bits.length (base ^ exponent.toNat) ≤ powerBits := by
  obtain ⟨natural, fits⟩ := bearable
  by_cases none : exponent.toNat = 0
  · rw [none, pow_zero]
    decide
  · by_cases large : 1 < base.natAbs
    · have width := @Bits.length_pow_le base exponent.toNat none
      have together := fits large
      rw [← Int.toNat_of_nonneg natural] at together
      norm_cast at together
      exact Nat.le_trans width together
    · rw [Bits.length_le_iff, Int.natAbs_pow]
      calc base.natAbs ^ exponent.toNat ≤ 1 ^ exponent.toNat := Nat.pow_le_pow_left (by omega) _
        _ = 1 := Nat.one_pow _
        _ < 2 ^ powerBits := Nat.one_lt_two_pow (by decide)

/-! Operators. -/

theorem settles_divided (symbol : String) (cause : Cause) (chosen : Int × Int → Int) (a b : Value) :
    Settles a b ((a.kind = .num ∧ b.kind = .num) ∧ b ≠ .num 0) (fun value : Value => value.kind = .num)
      (numbers symbol a b >>= fun pair =>
        if pair.2 = 0 then refuse cause
        else divide pair.1 pair.2 >>= fun parts => .ok (.num (chosen parts))) := by
  apply (settles_numbers symbol a b).bind
  rintro ⟨x, y⟩ ⟨-, rfl⟩
  dsimp only
  split
  · rename_i zero
    exact settles_refuse cause fun other => other (by rw [zero])
  · rename_i other
    rw [divide_eq other]
    exact settles_ok (fun same => other (Value.num.inj same)) rfl

theorem settles_power (symbol : String) (a b : Value) :
    Settles a b ((a.kind = .num ∧ b.kind = .num) ∧
        ∀ base exponent, a = .num base → b = .num exponent → Bearable base exponent)
      (fun value : Value => value.kind = .num)
      (numbers symbol a b >>= fun pair => raise pair.1 pair.2 >>= fun number => .ok (.num number)) := by
  apply (settles_numbers symbol a b).bind
  rintro ⟨base, exponent⟩ ⟨rfl, rfl⟩
  have raised : Settles (.num base) (.num exponent) (Bearable base exponent)
      (fun value : Value => value.kind = .num)
      (raise base exponent >>= fun number => .ok (.num number)) :=
    (settles_raise base exponent).bind_always fun _ _ => settles_ok trivial rfl
  exact raised.congr (by simp)

theorem settles_apply (operator : Operator) (a b : Value) :
    Settles a b (operator.Takes a b) (fun value => value.kind = operator.gives) (apply operator a b) := by
  cases operator with
  | eq | ne => exact settles_ok trivial rfl
  | and | or => exact (settles_truths _ a b).bind_always fun _ _ => settles_ok trivial rfl
  | lt | gt | le | ge | add | sub | mul | bitAnd | bitOr | bitXor =>
      exact (settles_numbers _ a b).bind_always fun _ _ => settles_ok trivial rfl
  | div => exact settles_divided _ .divisionByZero Prod.fst a b
  | mod => exact settles_divided _ .moduloByZero Prod.snd a b
  | pow => exact settles_power _ a b

theorem applySign_symbol (operator : Operator) (a b : Value) :
    applySign (.text operator.symbol) a b = apply operator a b := by
  unfold applySign
  rw [Grammar.operator?_symbol]

theorem applySign_unknown {symbol : String} (unknown : ∀ operator : Operator, operator.symbol ≠ symbol)
    (a b : Value) : applySign (.text symbol) a b = refuse (.unknownOperator symbol) := by
  have none : operator? (.text symbol) = none := by
    rw [operator?, Operator.ofSymbol?, List.find?_eq_none]
    intro operator _ same
    exact unknown operator (eq_of_beq same)
  unfold applySign
  rw [none]
  rfl

def Fails {α : Type} (result : Result α) : Prop := ∃ obstacle, result = .error obstacle

section

variable {symbol : String} {a b : Value}

theorem Settles.fails_iff {α : Type} {condition : Prop} {good : α → Prop} {result : Result α}
    (settles : Settles a b condition good result) : Fails result ↔ ¬condition := by
  cases settles with
  | returns holds value fits => simp [Fails, holds]
  | stopped fails obstacle about => simp [Fails, fails]

theorem fails_symbol_iff (operators : List Operator) (member : symbol ∈ operators.map Operator.symbol)
    {condition : Prop} (same : ∀ operator ∈ operators, operator.Takes a b ↔ condition) :
    Fails (applySign (.text symbol) a b) ↔ ¬condition := by
  obtain ⟨operator, inside, rfl⟩ := List.mem_map.1 member
  rw [applySign_symbol, (settles_apply operator a b).fails_iff, same operator inside]

theorem kind_of_ok (operators : List Operator) (member : symbol ∈ operators.map Operator.symbol)
    {kind : Value.Kind} (same : ∀ operator ∈ operators, operator.gives = kind) {value : Value}
    (done : applySign (.text symbol) a b = .ok value) : value.kind = kind := by
  obtain ⟨operator, inside, rfl⟩ := List.mem_map.1 member
  rw [applySign_symbol] at done
  have settles := settles_apply operator a b
  rw [done] at settles
  cases settles with
  | returns holds value fits => exact fits.trans (same operator inside)

theorem applySign_power (base exponent : Int) : applySign (.text "**") (.num base) (.num exponent) =
    (raise base exponent >>= fun number => .ok (Value.num number)) :=
  rfl

theorem power_ok {base exponent : Int} {value : Value}
    (done : applySign (.text "**") (.num base) (.num exponent) = .ok value) :
    Bearable base exponent ∧ value = .num (base ^ exponent.toNat) := by
  rw [applySign_power] at done
  have settles := settles_raise base exponent
  generalize raise base exponent = raised at done settles
  cases settles with
  | returns bearable number same =>
      cases done
      exact ⟨bearable, congrArg Value.num same⟩
  | stopped fails obstacle about => cases done

/-- An operation ends with a value or an error, unless an operand that would be shown is too long. -/
theorem applySign_ends (symbol : String) (a b : Value) :
    (∃ value, applySign (.text symbol) a b = .ok value) ∨
      (∃ cause, applySign (.text symbol) a b = .error (.cause cause)) ∨
      applySign (.text symbol) a b = .error (.numeral .tooLongToWrite) ∧
        (a.text = .error .tooLongToWrite ∨ b.text = .error .tooLongToWrite) := by
  by_cases known : ∃ operator : Operator, operator.symbol = symbol
  · obtain ⟨operator, rfl⟩ := known
    have settles := settles_apply operator a b
    rw [applySign_symbol]
    generalize apply operator a b = result at settles
    cases settles with
    | returns holds value fits => exact .inl ⟨value, rfl⟩
    | stopped fails obstacle about =>
        cases obstacle with
        | cause cause => exact .inr (.inl ⟨cause, rfl⟩)
        | numeral error =>
            obtain ⟨rfl, shown⟩ := about
            exact .inr (.inr ⟨rfl, shown⟩)
        | compoundSign | misused misuse => exact about.elim
  · exact .inr (.inl ⟨_, applySign_unknown (not_exists.1 known) a b⟩)

end

/-- How an operator given by its symbol deals with two values. It ends with a value or an error, but for
messages that cannot be written; it fails exactly on the operands it does not take; numbers come out of
arithmetic only, a power that is accepted is the exact one and fits, and none has a negative exponent. -/
structure Total (symbol : String) (a b : Value) : Prop where
  ends : (∃ value, applySign (.text symbol) a b = .ok value) ∨
    (∃ cause, applySign (.text symbol) a b = .error (.cause cause)) ∨
    applySign (.text symbol) a b = .error (.numeral .tooLongToWrite) ∧
      (a.text = .error .tooLongToWrite ∨ b.text = .error .tooLongToWrite)
  numbers : symbol ∈ ["+", "-", "*", "/", "%", "**", "&", "|", "^"] →
    ∀ value, applySign (.text symbol) a b = .ok value → ∃ number : Int, value = .num number
  truths : symbol ∈ ["==", "!=", "<", ">", "<=", ">=", "&&", "||"] →
    ∀ value, applySign (.text symbol) a b = .ok value → ∃ truth, value = .bool truth
  equality : symbol ∈ ["==", "!="] → ¬Fails (applySign (.text symbol) a b)
  arithmetic : symbol ∈ ["+", "-", "*", "&", "|", "^", "<", ">", "<=", ">="] →
    (Fails (applySign (.text symbol) a b) ↔ a.kind ≠ .num ∨ b.kind ≠ .num)
  division : symbol ∈ ["/", "%"] →
    (Fails (applySign (.text symbol) a b) ↔ a.kind ≠ .num ∨ b.kind ≠ .num ∨ b = .num 0)
  logic : symbol ∈ ["&&", "||"] →
    (Fails (applySign (.text symbol) a b) ↔ a.kind ≠ .bool ∨ b.kind ≠ .bool)
  other : symbol ∉ ["==", "!=", "+", "-", "*", "&", "|", "^", "<", ">", "<=", ">=", "/", "%", "&&", "||",
    "**"] → Fails (applySign (.text symbol) a b)
  power : symbol = "**" → ∀ base exponent, a = .num base → b = .num exponent → 0 ≤ exponent →
    (∀ value, applySign (.text symbol) a b = .ok value →
      value = .num (base ^ exponent.toNat) ∧ Bits.length (base ^ exponent.toNat) ≤ 65536) ∧
    (65536 < Bits.length (base ^ exponent.toNat) → Fails (applySign (.text symbol) a b))
  noPower : symbol = "**" → (a.kind ≠ .num ∨ b.kind ≠ .num ∨ ∃ exponent < 0, b = .num exponent) →
    Fails (applySign (.text symbol) a b)

/-- Every operator is total on all values, and so is every text that is no operator. -/
theorem operators_total (symbol : String) (a b : Value) : Total symbol a b where
  ends := applySign_ends symbol a b
  numbers member value done := by
    have kind : value.kind = .num :=
      kind_of_ok [.add, .sub, .mul, .div, .mod, .pow, .bitAnd, .bitOr, .bitXor] member (by decide) done
    exact Value.exists_num kind
  truths member value done := by
    have kind : value.kind = .bool :=
      kind_of_ok [.eq, .ne, .lt, .gt, .le, .ge, .and, .or] member (by decide) done
    exact Value.exists_bool kind
  equality member := by
    have never : Fails (applySign (.text symbol) a b) ↔ ¬True :=
      fails_symbol_iff [.eq, .ne] member (by simp [Operator.Takes])
    simpa using never
  arithmetic member := by
    have fails : Fails (applySign (.text symbol) a b) ↔ ¬(a.kind = .num ∧ b.kind = .num) :=
      fails_symbol_iff [.add, .sub, .mul, .bitAnd, .bitOr, .bitXor, .lt, .gt, .le, .ge] member
        (by simp [Operator.Takes])
    rw [fails, not_and_or]
  division member := by
    have fails : Fails (applySign (.text symbol) a b) ↔
        ¬((a.kind = .num ∧ b.kind = .num) ∧ b ≠ .num 0) :=
      fails_symbol_iff [.div, .mod] member (by simp [Operator.Takes])
    rw [fails, not_and_or, not_and_or, not_not, or_assoc]
  logic member := by
    have fails : Fails (applySign (.text symbol) a b) ↔ ¬(a.kind = .bool ∧ b.kind = .bool) :=
      fails_symbol_iff [.and, .or] member (by simp [Operator.Takes])
    rw [fails, not_and_or]
  other absent := by
    rw [applySign_unknown _ a b]
    · exact ⟨_, rfl⟩
    · rintro operator rfl
      revert absent
      cases operator <;> decide
  power := by
    rintro rfl base exponent rfl rfl natural
    have fits (value : Value) (done : applySign (.text "**") (.num base) (.num exponent) = .ok value) :
        value = .num (base ^ exponent.toNat) ∧ Bits.length (base ^ exponent.toNat) ≤ 65536 := by
      obtain ⟨bearable, same⟩ := power_ok done
      exact ⟨same, bearable.length_le⟩
    refine ⟨fits, ?_⟩
    intro wide
    cases result : applySign (.text "**") (.num base) (.num exponent) with
    | ok value => exact absurd (fits value result).2 (Nat.not_le.2 wide)
    | error obstacle => exact ⟨obstacle, rfl⟩
  noPower := by
    rintro rfl unfit
    have fails : Fails (applySign (.text "**") a b) ↔ ¬Operator.pow.Takes a b :=
      fails_symbol_iff [.pow] (by decide) (by simp)
    rw [fails]
    rintro ⟨⟨first, second⟩, bearable⟩
    rcases unfit with other | other | ⟨exponent, below, rfl⟩
    · exact other first
    · exact other second
    · obtain ⟨base, rfl⟩ := Value.exists_num first
      exact absurd (bearable base exponent rfl rfl).1 (Int.not_le.2 below)

/-! Powers that are refused for their width. -/

section

variable {base exponent : Int} {shown : String}

theorem largeExponent_iff :
    applySign (.text "**") (.num base) (.num exponent) = .error (.cause (.largeExponent shown)) ↔
      (0 ≤ exponent ∧ 1 < base.natAbs ∧ powerBits < exponent * Bits.length base) ∧
        Numeral.write exponent = .ok shown := by
  rw [applySign_power, raise_eq]
  generalize Numeral.write exponent = text
  by_cases negative : exponent < 0
  · rw [if_pos negative]
    constructor
    · intro refused
      cases text <;> cases refused
    · intro ⟨⟨natural, _⟩, _⟩
      omega
  · rw [if_neg negative]
    by_cases large : 1 < base.natAbs ∧ powerBits < exponent * Bits.length base
    · rw [if_pos large]
      constructor
      · intro refused
        cases text with
        | ok text =>
            cases refused
            exact ⟨⟨Int.not_lt.1 negative, large⟩, rfl⟩
        | error error => cases refused
      · rintro ⟨-, rfl⟩
        rfl
    · rw [if_neg large]
      constructor
      · intro refused
        cases refused
      · intro known
        exact absurd known.1.2 large

end

/-- A power that is refused for its width is judged by its exponent times the width of its base. That is
more than its own width by less than the exponent, so that more than half of the limit is needed in any
case, and more than the limit where the exponent times one bit less is beyond it. -/
theorem refused_power_wide (base exponent : Int) (shown : String)
    (refused : applySign (.text "**") (.num base) (.num exponent) =
      .error (.cause (.largeExponent shown))) :
    65536 < exponent.toNat * Bits.length base ∧
      exponent.toNat * Bits.length base < Bits.length (base ^ exponent.toNat) + exponent.toNat ∧
      32769 < Bits.length (base ^ exponent.toNat) ∧
      (65536 ≤ exponent.toNat * (Bits.length base - 1) → 65536 < Bits.length (base ^ exponent.toNat)) := by
  obtain ⟨⟨natural, large, wide⟩, -⟩ := largeExponent_iff.1 refused
  have least := @Bits.lt_length_pow base exponent.toNat (Nat.zero_lt_of_lt (Bits.two_le_length large))
  rw [← Int.toNat_of_nonneg natural] at wide
  norm_cast at wide
  change 65536 < _ at wide
  obtain ⟨rest, same⟩ := Nat.exists_eq_add_of_le' (Bits.two_le_length large)
  rw [same] at wide least ⊢
  change _ * (rest + 1) < _ at least
  change _ ∧ _ ∧ _ ∧ (_ ≤ _ * (rest + 1) → _)
  generalize exponent.toNat = count at *
  have once : count * (rest + 2) = count * (rest + 1) + count := by ring
  have twice : 2 * (count * (rest + 1)) = count * (rest + 2) + count * rest := by ring
  refine ⟨wide, ?_, ?_, ?_⟩ <;> omega

theorem tower_refused_wide :
    applySign (.text "**") (.num 2) (.num 65536) = .error (.cause (.largeExponent "65536")) ∧
      65536 < Bits.length (2 ^ 65536) := by
  have refused : applySign (.text "**") (.num 2) (.num 65536) =
      .error (.cause (.largeExponent "65536")) :=
    largeExponent_iff.2 ⟨⟨by decide, by decide, by decide⟩, Value.write_short (by decide)⟩
  exact ⟨refused, (refused_power_wide 2 65536 "65536" refused).2.2.2 (by decide)⟩

/-- The power `2 ** 32769` is refused, though it needs only 32770 bits. -/
theorem narrow_power_refused :
    applySign (.text "**") (.num 2) (.num 32769) = .error (.cause (.largeExponent "32769")) ∧
      Bits.length (2 ^ 32769) = 32770 ∧ 32770 ≤ powerBits := by
  refine ⟨largeExponent_iff.2 ⟨⟨by decide, by decide, by decide⟩, Value.write_short (by decide)⟩,
    Bits.length_two_pow 32769, by decide⟩

end Operation
end FernLang
