import Mathlib
import FernLang.Proofs.Value.Operators

/-!
Division toward zero. The quotient is that of the sizes, with the sign of the product of dividend and
divisor, and the remainder is what it leaves of the dividend. No other two numbers make up the dividend
with a remainder that is smaller than the divisor and on the dividend's side of zero. A sign in front of
the dividend therefore goes to both of them, and one in front of the divisor to the quotient only.
-/

namespace FernLang
namespace Operation

variable {a b q r : Int}

/-- A dividend `a` is cut into `q` times the divisor `b` and a remainder `r`, which is smaller than the
divisor and has the sign of the dividend, unless it is zero. -/
structure Truncates (a b q r : Int) : Prop where
  whole : a = b * q + r
  small : |r| < |b|
  side : r = 0 ∨ r.sign = a.sign

/-- The test of the signs puts a dividend of zero with the positive ones: over a negative divisor its
quotient is negated, and still zero. -/
theorem quotient_eq_tdiv (a b : Int) : quotient a b = a.tdiv b := by
  have natural (n : Nat) : (Int.ofNat n < 0) = False := eq_false (Int.not_lt.2 (Int.natCast_nonneg n))
  have negative (n : Nat) : (Int.negSucc n < 0) = True := eq_true (Int.negSucc_lt_zero n)
  unfold quotient
  cases a with
  | ofNat m =>
      cases b with
      | ofNat n =>
          rw [if_pos (by rw [natural, natural])]
          rfl
      | negSucc n =>
          rw [if_neg (by rw [natural, negative]; exact false_ne_true)]
          rfl
  | negSucc m =>
      cases b with
      | ofNat n =>
          rw [if_neg (by rw [natural, negative]; exact true_ne_false)]
          rfl
      | negSucc n =>
          rw [if_pos (by rw [negative, negative])]
          rfl

theorem remainder_eq_tmod (a b : Int) : remainder a b = a.tmod b := by
  rw [remainder, quotient_eq_tdiv, Int.tmod_def]

/-! Cutting a dividend into parts. -/

theorem truncates_tdiv (a : Int) (divisor : b ≠ 0) : Truncates a b (a.tdiv b) (a.tmod b) where
  whole := (Int.mul_tdiv_add_tmod a b).symm
  small := by
    rw [Int.abs_eq_natAbs, Int.abs_eq_natAbs, Int.natAbs_tmod]
    exact Int.ofNat_lt.2 (Nat.mod_lt _ (Int.natAbs_pos.2 divisor))
  side := by
    have sign := Int.sign_tmod a b
    split at sign
    · exact .inl (Int.sign_eq_zero_iff_zero.1 sign)
    · exact .inr sign

theorem Truncates.divisor_ne_zero (cut : Truncates a b q r) : b ≠ 0 := by
  rintro rfl
  exact absurd cut.small (by simp)

theorem Truncates.remainder_nonneg (cut : Truncates a b q r) (above : 0 ≤ a) : 0 ≤ r := by
  rcases cut.side with rfl | same
  · exact le_rfl
  · rwa [← Int.sign_nonneg_iff, same, Int.sign_nonneg_iff]

theorem Truncates.remainder_nonpos (cut : Truncates a b q r) (below : a ≤ 0) : r ≤ 0 := by
  rcases cut.side with rfl | same
  · exact le_rfl
  · rwa [← Int.sign_nonpos_iff, same, Int.sign_nonpos_iff]

theorem Truncates.unique (cut : Truncates a b q r) : a.tdiv b = q ∧ a.tmod b = r := by
  have whole : r + b * q = a := by rw [cut.whole, add_comm]
  obtain ⟨low, high⟩ := abs_lt.1 cut.small
  rw [Int.abs_eq_natAbs] at low high
  -- The remainder is in the part of its range that is on the side of the dividend.
  rcases le_total 0 a with above | below
  · exact (Int.tdiv_tmod_unique above cut.divisor_ne_zero).2 ⟨whole, cut.remainder_nonneg above, high⟩
  · exact (Int.tdiv_tmod_unique' below cut.divisor_ne_zero).2 ⟨whole, low, cut.remainder_nonpos below⟩

theorem truncates_iff (divisor : b ≠ 0) :
    Truncates a b q r ↔ q = quotient a b ∧ r = remainder a b := by
  rw [quotient_eq_tdiv, remainder_eq_tmod]
  constructor
  · intro cut
    obtain ⟨rfl, rfl⟩ := cut.unique
    exact ⟨rfl, rfl⟩
  · rintro ⟨rfl, rfl⟩
    exact truncates_tdiv a divisor

/-! Signs. -/

theorem Truncates.neg_dividend (cut : Truncates a b q r) : Truncates (-a) b (-q) (-r) where
  whole := by rw [cut.whole, mul_neg, neg_add]
  small := by rw [abs_neg]; exact cut.small
  side := by rw [neg_eq_zero, Int.sign_neg, Int.sign_neg, neg_inj]; exact cut.side

theorem Truncates.neg_divisor (cut : Truncates a b q r) : Truncates a (-b) (-q) r where
  whole := by rw [neg_mul_neg]; exact cut.whole
  small := by rw [abs_neg]; exact cut.small
  side := cut.side

/-- The guard lets every divisor through that there is a quotient for. -/
theorem guarded_divide (divisor : b ≠ 0) (cause : Cause) (chosen : Int × Int → Int) :
    (if b = 0 then refuse cause else divide a b >>= fun parts => .ok (Value.num (chosen parts))) =
      .ok (.num (chosen (quotient a b, remainder a b))) := by
  rw [if_neg divisor, divide_eq divisor]
  rfl

/-- Dividing by a number other than zero, as the operators do, gives the only quotient and the only
remainder that cut the dividend. With the dividend negated both are negated, and with the divisor negated
the quotient is. -/
theorem division_truncates (a b : Int) (divisor : b ≠ 0) :
    (∀ q r, Truncates a b q r ↔ q = quotient a b ∧ r = remainder a b) ∧
    (applySign (.text "/") (.num a) (.num b) = .ok (.num (quotient a b)) ∧
      applySign (.text "%") (.num a) (.num b) = .ok (.num (remainder a b))) ∧
    (quotient (-a) b = -quotient a b ∧ remainder (-a) b = -remainder a b) ∧
    quotient a (-b) = -quotient a b ∧ remainder a (-b) = remainder a b := by
  have cut : Truncates a b (quotient a b) (remainder a b) := (truncates_iff divisor).2 ⟨rfl, rfl⟩
  obtain ⟨quotientNeg, remainderNeg⟩ := (truncates_iff divisor).1 cut.neg_dividend
  obtain ⟨quotientTurned, remainderKept⟩ := (truncates_iff (neg_ne_zero.2 divisor)).1 cut.neg_divisor
  exact ⟨fun q r => truncates_iff divisor,
    ⟨guarded_divide divisor _ Prod.fst, guarded_divide divisor _ Prod.snd⟩,
    ⟨quotientNeg.symm, remainderNeg.symm⟩, quotientTurned.symm, remainderKept.symm⟩

theorem minus_ten_truncates :
    (3 : Int) ≠ 0 ∧
      (∀ q r, Truncates (-10) 3 q r ↔ q = -3 ∧ r = -1) ∧
      (applySign (.text "/") (.num (-10)) (.num 3) = .ok (.num (-3)) ∧
        applySign (.text "%") (.num (-10)) (.num 3) = .ok (.num (-1))) ∧
      (quotient 10 3 = 3 ∧ remainder 10 3 = 1) ∧
      quotient (-10) (-3) = 3 ∧ remainder (-10) (-3) = -1 :=
  ⟨by decide, division_truncates (-10) 3 (by decide)⟩

end Operation
end FernLang
