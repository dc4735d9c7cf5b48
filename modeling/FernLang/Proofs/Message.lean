import FernLang.Cause
import FernLang.Grammar.Cursor

/-!
How messages begin. A letter or two near its start tell which cause or complaint a message is
about, whatever values and names it quotes further on.
-/

namespace FernLang

section

variable {index : Nat} {letter : Char}

theorem letter_literal {letters : List Char} (here : letters[index]? = some letter) :
    (String.ofList letters).toList[index]? = some letter := by
  rw [String.toList_ofList, here]

theorem letter_append {front : String} (here : front.toList[index]? = some letter) (back : String) :
    (front ++ back).toList[index]? = some letter := by
  obtain ⟨long, _⟩ := List.getElem?_eq_some_iff.1 here
  rw [String.toList_append, List.getElem?_append_left long, here]

end

def Cause.isUnbound : Cause → Bool
  | .unbound _ => true
  | _ => false

/-- The fifth and the tenth letter of a message. No two causes have both in common. -/
def Cause.mark : Cause → Char × Char
  | .unbound _ => ('d', 'f')
  | .condition _ => ('i', 'a')
  | .unmatched _ => ('r', ' ')
  | .notFunction _ => ('t', 'c')
  | .arity _ _ => ('t', 't')
  | .firstOperand _ _ => ('f', ' ')
  | .secondOperand _ _ => ('s', 'd')
  | .bothOperands _ _ _ => ('o', 'n')
  | .divisionByZero => ('s', 'b')
  | .moduloByZero => ('l', ' ')
  | .negativeExponent _ => ('t', 'e')
  | .largeExponent _ => ('n', 't')
  | .unknownOperator _ => ('o', 'p')
  | .innerLet => ('d', '-')
  | .innerFunction => ('t', 'd')
  | .innerData => (' ', 'a')
  | .outerLet => ('d', 'p')
  | .tooDeep => ('m', 'e')

theorem Cause.message_mark (cause : Cause) :
    cause.message.toList[4]? = some cause.mark.1 ∧ cause.message.toList[9]? = some cause.mark.2 := by
  cases cause with
  | unbound | condition | unmatched | notFunction | negativeExponent | largeExponent
  | unknownOperator =>
      exact ⟨letter_append (letter_literal rfl) _, letter_append (letter_literal rfl) _⟩
  | firstOperand | secondOperand =>
      exact ⟨letter_append (letter_append (letter_append (letter_literal rfl) _) _) _,
        letter_append (letter_append (letter_append (letter_literal rfl) _) _) _⟩
  | arity =>
      exact ⟨letter_append (letter_append (letter_append (letter_append
          (letter_literal rfl) _) _) _) _,
        letter_append (letter_append (letter_append (letter_append (letter_literal rfl) _) _) _) _⟩
  | bothOperands =>
      exact ⟨letter_append (letter_append (letter_append (letter_append (letter_append
          (letter_literal rfl) _) _) _) _) _,
        letter_append (letter_append (letter_append (letter_append (letter_append
          (letter_literal rfl) _) _) _) _) _⟩
  | _ => exact ⟨letter_literal rfl, letter_literal rfl⟩

theorem Cause.mark_of_message {cause : Cause} {front tail : String} {fifth tenth : Char}
    (starts : cause.message = front ++ tail) (first : front.toList[4]? = some fifth)
    (second : front.toList[9]? = some tenth) : cause.mark = (fifth, tenth) := by
  obtain ⟨one, two⟩ := cause.message_mark
  rw [starts, letter_append first] at one
  rw [starts, letter_append second] at two
  exact Prod.ext (Option.some.inj one).symm (Option.some.inj two).symm

theorem Cause.isUnbound_iff_mark (cause : Cause) : cause.isUnbound = true ↔ cause.mark = ('d', 'f') := by
  cases cause <;> simp [isUnbound, mark]

theorem Cause.isUnbound_of_message {cause : Cause} {tail : String}
    (starts : cause.message = "Couldn't find var in environment" ++ tail) :
    cause.isUnbound = true :=
  cause.isUnbound_iff_mark.2 (mark_of_message starts (letter_literal rfl) (letter_literal rfl))

/-- Only an item that is a scoped let is refused in these words. -/
theorem Cause.eq_outerLet_of_message {cause : Cause}
    (same : cause.message = "Found scoped let instead of top-level let at top level") :
    cause = .outerLet := by
  rw [← String.append_empty (s := "Found scoped let instead of top-level let at top level")] at same
  have marked := mark_of_message same (letter_literal rfl) (letter_literal rfl)
  cases cause <;> first | rfl | simp [mark] at marked

namespace Complaint

theorem first_letter {complaint : Complaint} (final : complaint.isIncomplete = false) :
    ∃ letter, complaint.message.toList[0]? = some letter ∧ letter ≠ 'R' := by
  cases complaint with
  | ranOut context => cases final
  | expected wanted context found =>
      exact ⟨_, letter_append (letter_append (letter_append (letter_append (letter_append
        (letter_literal rfl) _) _) _) _) _, by decide⟩
  | notSeparated | repeatedParameter =>
      exact ⟨_, letter_append (letter_append (letter_append (letter_literal rfl) _) _) _, by decide⟩
  | notExpression | notPattern | repeatedConstructor =>
      exact ⟨_, letter_append (letter_append (letter_literal rfl) _) _, by decide⟩
  | _ => exact ⟨_, letter_literal rfl, by decide⟩

theorem isIncomplete_iff (complaint : Complaint) :
    complaint.isIncomplete = true ↔ ∃ tail, complaint.message = "Ran out of tokens" ++ tail := by
  constructor
  · intro incomplete
    cases complaint with
    | ranOut context =>
        refine ⟨" while parsing " ++ context, ?_⟩
        rw [← String.append_assoc]
        rfl
    | _ => cases incomplete
  · rintro ⟨tail, starts⟩
    cases told : complaint.isIncomplete with
    | true => rfl
    | false =>
        obtain ⟨letter, found, different⟩ := first_letter told
        rw [starts, letter_append (letter_literal rfl) tail] at found
        exact absurd (Option.some.inj found).symm different

end Complaint
end FernLang
