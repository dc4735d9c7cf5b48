import Mathlib.Data.List.Basic
import Mathlib.Tactic.IntervalCases
import FernLang.Text.Quoted

/-!
Quoted text can be read back. Each character is written as itself or behind a backslash, and the letter
after the backslash tells how many digits follow. So one character at a time can be read off, and
two texts with the same quoted form are the same.
-/

namespace FernLang.Text

def hexValue (c : Char) : Nat := if c.toNat < 58 then c.toNat - 48 else c.toNat - 87

def ofHex (digits : List Char) : Nat := digits.foldl (fun value c => 16 * value + hexValue c) 0

def codeRead (width : Nat) (text : List Char) : Option (Char × List Char) :=
  some (Char.ofNat (ofHex (text.take width)), text.drop width)

def unquotedChar : List Char → Option (Char × List Char)
  | [] => none
  | c :: text =>
      if c = '\\' then
        match text with
        | [] => none
        | 'n' :: rest => some ('\n', rest)
        | 'r' :: rest => some ('\r', rest)
        | 't' :: rest => some ('\t', rest)
        | 'x' :: rest => codeRead 2 rest
        | 'u' :: rest => codeRead 4 rest
        | 'U' :: rest => codeRead 8 rest
        | mark :: rest => some (mark, rest)
      else some (c, text)

theorem hexValue_digitChar {digit : Nat} (small : digit < 16) :
    hexValue (Nat.digitChar digit) = digit := by
  interval_cases digit <;> decide

theorem length_hexDigits (width code : Nat) : (hexDigits width code).length = width := by
  induction width generalizing code with
  | zero => rfl
  | succ width ih => rw [hexDigits, List.length_append, ih, List.length_singleton]

theorem ofHex_hexDigits {width code : Nat} (fits : code < 16 ^ width) :
    ofHex (hexDigits width code) = code := by
  induction width generalizing code with
  | zero =>
      have none : code = 0 := by simpa using fits
      rw [none]
      rfl
  | succ width ih =>
      have front : code / 16 < 16 ^ width := by
        rw [Nat.div_lt_iff_lt_mul (by decide), ← Nat.pow_succ]
        exact fits
      have last := hexValue_digitChar (Nat.mod_lt code (show 0 < 16 by decide))
      have split := ih front
      unfold ofHex at split ⊢
      rw [hexDigits, List.foldl_concat, split, last]
      omega

theorem codeRead_hexDigits {width : Nat} {c : Char} (fits : c.toNat < 16 ^ width)
    (rest : List Char) : codeRead width (hexDigits width c.toNat ++ rest) = some (c, rest) := by
  unfold codeRead
  rw [List.take_left' (length_hexDigits ..), List.drop_left' (length_hexDigits ..),
    ofHex_hexDigits fits, Char.ofNat_toNat]

theorem unquotedChar_escapedCode (c : Char) (rest : List Char) :
    unquotedChar (escapedCode c.toNat ++ rest) = some (c, rest) := by
  unfold escapedCode
  split
  · rename_i small
    exact codeRead_hexDigits small rest
  · split
    · rename_i _ middle
      exact codeRead_hexDigits middle rest
    · have bound : c.toNat < 16 ^ 8 := by
        have valid := c.valid
        have below : c.toNat < 0x110000 := by
          rcases valid with low | high
          · exact Nat.lt_trans low (by decide)
          · exact high.2
        exact Nat.lt_trans below (by decide)
      exact codeRead_hexDigits bound rest

def IsQuote (quote : Char) : Prop := quote = '\x27' ∨ quote = '\x22'

theorem isQuote_quoteFor (text : List Char) : IsQuote (quoteFor text) := by
  unfold quoteFor
  split
  · exact .inr rfl
  · exact .inl rfl

theorem unquotedChar_quotedChar {quote : Char} (either : IsQuote quote) (c : Char)
    (rest : List Char) : unquotedChar (quotedChar quote c ++ rest) = some (c, rest) := by
  unfold quotedChar
  split
  · rename_i marked
    have mark : c = '\x27' ∨ c = '\x22' ∨ c = '\\' := by
      rcases either with rfl | rfl <;> grind
    rcases mark with rfl | rfl | rfl <;> rfl
  · rename_i unmarked
    split
    · rename_i same
      rw [eq_of_beq same]
      rfl
    · split
      · rename_i same
        rw [eq_of_beq same]
        rfl
      · split
        · rename_i same
          rw [eq_of_beq same]
          rfl
        · split
          · have other : c ≠ '\\' := by
              rintro rfl
              simp at unmarked
            exact if_neg other
          · exact unquotedChar_escapedCode c rest

/-- What stands between quotes is read back character by character. -/
theorem eq_of_flatMap_quotedChar {quote : Char} (either : IsQuote quote) :
    ∀ first second : List Char,
      first.flatMap (quotedChar quote) = second.flatMap (quotedChar quote) → first = second
  | [], [], _ => rfl
  | [], c :: second, same => by
      have read := unquotedChar_quotedChar either c (second.flatMap (quotedChar quote))
      rw [← List.flatMap_cons, ← same] at read
      cases read
  | c :: first, [], same => by
      have read := unquotedChar_quotedChar either c (first.flatMap (quotedChar quote))
      rw [← List.flatMap_cons, same] at read
      cases read
  | c :: first, d :: second, same => by
      have read := unquotedChar_quotedChar either c (first.flatMap (quotedChar quote))
      rw [← List.flatMap_cons, same, List.flatMap_cons, unquotedChar_quotedChar either] at read
      obtain ⟨rfl, rest⟩ := Prod.mk.injEq .. ▸ Option.some.inj read
      rw [eq_of_flatMap_quotedChar either first second rest.symm]

theorem quoted_injective : Function.Injective quoted := by
  intro first second same
  have lists := congrArg String.toList same
  simp only [quoted, String.toList_ofList, List.cons_append, List.cons.injEq] at lists
  obtain ⟨quote, inner⟩ := lists
  rw [quote, List.append_cancel_right_eq] at inner
  exact String.toList_inj.1 (eq_of_flatMap_quotedChar (isQuote_quoteFor _) _ _ inner)

end FernLang.Text
