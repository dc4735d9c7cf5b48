import FernLang.Numeral
import FernLang.Token

/-!
Reading text into tokens. Blanks and comments are passed over; otherwise the longest lexeme at
the front is taken. A word is a keyword only as a whole. Reading stops at the first character that no
lexeme starts with, or at the first number with too many digits.
-/

namespace FernLang

inductive ScanError where
  | unexpected (found : Char) (index : Nat)
  | numeral (error : Numeral.Error)
deriving DecidableEq

def unexpectedMessage (found : Char) : String :=
  "Unexpected character " ++ Text.quoted (String.singleton found)

namespace Scan

def isSpace (c : Char) : Bool := c == ' ' || c == '\t' || c == '\x0c' || c == '\r' || c == '\n'

def isDigit (c : Char) : Bool := '0' ≤ c && c ≤ '9'

def isLetter (c : Char) : Bool := ('a' ≤ c && c ≤ 'z') || ('A' ≤ c && c ≤ 'Z') || c == '_'

def isWordChar (c : Char) : Bool := isLetter c || isDigit c

/-- How many characters of blanks and comments stand in front; a comment ends with its line. -/
def layoutWidth (inComment : Bool) : List Char → Nat
  | [] => 0
  | c :: text =>
      if inComment then 1 + layoutWidth (c != '\n') text
      else if c == '#' then 1 + layoutWidth true text
      else if isSpace c then 1 + layoutWidth false text
      else 0

def double? (c d : Char) : Option Lexeme :=
  match c, d with
  | '=', '=' => some (.operator .eq)
  | '!', '=' => some (.operator .ne)
  | '<', '=' => some (.operator .le)
  | '>', '=' => some (.operator .ge)
  | '*', '*' => some (.operator .pow)
  | '&', '&' => some (.operator .and)
  | '|', '|' => some (.operator .or)
  | _, _ => none

def single? (c : Char) : Option Lexeme :=
  match c with
  | '(' => some (.mark .leftParen)
  | ')' => some (.mark .rightParen)
  | ',' => some (.mark .comma)
  | ':' => some (.mark .colon)
  | '=' => some (.mark .equals)
  | '<' => some (.operator .lt)
  | '>' => some (.operator .gt)
  | '*' => some (.operator .mul)
  | '/' => some (.operator .div)
  | '%' => some (.operator .mod)
  | '+' => some (.operator .add)
  | '-' => some (.operator .sub)
  | '&' => some (.operator .bitAnd)
  | '|' => some (.operator .bitOr)
  | '^' => some (.operator .bitXor)
  | _ => none

inductive Piece where
  | digits (row : List Char)
  | word (text : List Char)
  | symbol (lexeme : Lexeme) (width : Nat)
deriving DecidableEq

def Piece.width : Piece → Nat
  | .digits row => row.length
  | .word text => text.length
  | .symbol _ width => width

def wordLexeme (text : String) : Lexeme :=
  if text = "true" then .truth true
  else if text = "false" then .truth false
  else match Keyword.ofText? text with
    | some word => .keyword word
    | none => .name text

def Piece.lexeme : Piece → Except ScanError Lexeme
  | .digits row =>
      if Numeral.limit < row.length then .error (.numeral (.tooLongToRead row.length))
      else .ok (.number (Numeral.ofDigits (row.map (·.toNat - 48))))
  | .word text => .ok (wordLexeme (String.ofList text))
  | .symbol lexeme _ => .ok lexeme

/-- The longest piece at the front of a text and what follows it. -/
def front? : List Char → Option (Piece × List Char)
  | [] => none
  | c :: text =>
      if isDigit c then some (.digits (c :: text.takeWhile isDigit), text.dropWhile isDigit)
      else if isLetter c then
        some (.word (c :: text.takeWhile isWordChar), text.dropWhile isWordChar)
      else
        match text with
        | d :: rest =>
            match double? c d with
            | some lexeme => some (.symbol lexeme 2, rest)
            | none => (single? c).map (.symbol · 1, d :: rest)
        | [] => (single? c).map (.symbol · 1, [])

theorem length_dropWhile_le (keep : Char → Bool) (text : List Char) :
    (text.dropWhile keep).length ≤ text.length :=
  (List.dropWhile_sublist keep).length_le

theorem front?_shorter {text rest : List Char} {piece : Piece}
    (found : front? text = some (piece, rest)) : rest.length < text.length := by
  unfold front? at found
  split at found
  · simp at found
  · rename_i c tail
    split at found
    · have bound := length_dropWhile_le isDigit tail
      simp only [Option.some.injEq, Prod.mk.injEq] at found
      rw [← found.2]
      simp only [List.length_cons]
      omega
    · split at found
      · have bound := length_dropWhile_le isWordChar tail
        simp only [Option.some.injEq, Prod.mk.injEq] at found
        rw [← found.2]
        simp only [List.length_cons]
        omega
      · split at found
        · split at found
          · simp only [Option.some.injEq, Prod.mk.injEq] at found
            rw [← found.2]
            simp only [List.length_cons]
            omega
          · simp only [Option.map_eq_some_iff, Prod.mk.injEq] at found
            obtain ⟨_, _, _, same⟩ := found
            rw [← same]
            simp
        · simp only [Option.map_eq_some_iff, Prod.mk.injEq] at found
          obtain ⟨_, _, _, same⟩ := found
          rw [← same]
          simp

def tokensFrom (start : Nat) (text : List Char) : Except ScanError (List Token) :=
  let width := layoutWidth false text
  match found : front? (text.drop width) with
  | none =>
      match text.drop width with
      | [] => .ok []
      | c :: _ => .error (.unexpected c (start + width))
  | some (piece, rest) => do
      have shorter : rest.length < text.length - width := by
        simpa only [List.length_drop] using front?_shorter found
      let lexeme ← piece.lexeme
      let tokens ← tokensFrom (start + width + piece.width) rest
      return ⟨lexeme, Span.ofWidth (start + width) piece.width⟩ :: tokens
termination_by text.length

end Scan

def tokenize (source : String) : Except ScanError (List Token) := Scan.tokensFrom 0 source.toList

end FernLang
