import Mathlib
import FernLang.Proofs.Expr.Alike
import FernLang.Proofs.Grammar.Joining
import FernLang.Proofs.Grammar.Nesting
import FernLang.Proofs.Grammar.Rendering

/-!
Reading an excerpt again. The text that the span of an operation marks is scanned into the tokens that
the operation stands on, moved to the front. Parentheses around the first or the last operand are no part
of the span, so one of a pair may be left in the excerpt without the other. Where every parenthesis in
the excerpt has its partner there, the excerpt reads as the operation; where one has not, it does not read
as an expression at all.
-/

namespace FernLang
namespace Scan

variable {start : Nat} {text rest : List Char} {front back tokens : List Token}

theorem Longest.cut {inner : List Char} (longest : Longest text (inner ++ rest)) : Longest text inner :=
  fun more some starts => longest more some (starts.trans (List.prefix_append inner rest))

theorem Laid.drop (laid : Laid start text (front ++ back)) :
    ∃ before rest, text = before ++ rest ∧ Laid (start + before.length) rest back := by
  induction front generalizing start text with
  | nil => exact ⟨[], text, rfl, laid⟩
  | cons token front ih =>
      cases laid with
      | @token _ gap piece rest lexeme _ layout spelled fits longest others =>
          obtain ⟨before, rest, rfl, laid⟩ := ih others
          refine ⟨gap ++ (piece ++ before), rest, by simp, ?_⟩
          simpa only [List.length_append, Nat.add_assoc] using laid

theorem Laid.take (laid : Laid start text (front ++ back)) :
    ∃ inner rest, text = inner ++ rest ∧ Laid start inner front ∧
      stopAfter start front = start + inner.length := by
  induction front generalizing start text with
  | nil => exact ⟨[], text, rfl, .done (.layout .nil), by simp [stopAfter]⟩
  | cons token front ih =>
      cases laid with
      | @token _ gap piece rest lexeme _ layout spelled fits longest others =>
          obtain ⟨inner, rest, rfl, laid, stop⟩ := ih others
          refine ⟨gap ++ (piece ++ inner), rest, by simp, .token layout spelled fits longest.cut laid, ?_⟩
          simp only [stopAfter, Span.ofWidth, List.length_append] at stop ⊢
          push_cast at stop ⊢
          omega

theorem Laid.trim {token : Token} (laid : Laid start text tokens) (head : token ∈ tokens.head?) :
    ∃ gap rest, text = gap ++ rest ∧ token.span.start = (start + gap.length : Nat) ∧
      Laid (start + gap.length) rest tokens := by
  cases laid with
  | done => cases head
  | @token _ gap piece rest lexeme _ layout spelled fits longest others =>
      cases head
      exact ⟨gap, piece ++ rest, rfl, rfl, .token .nil spelled fits longest others⟩

theorem stopAfter_getLast {token : Token} (start : Int) (ends : token ∈ tokens.getLast?) :
    stopAfter start tokens = token.span.stop := by
  obtain ⟨front, rfl⟩ := List.getLast?_eq_some_iff.1 ends
  clear ends
  induction front generalizing start with
  | nil => rfl
  | cons first front ih => exact ih _

/-- Tokens that follow one another are those of the text from the first to the last one. -/
theorem Laid.cut {core : List Token} {first last : Token} (laid : Laid 0 text (front ++ (core ++ back)))
    (head : first ∈ core.head?) (ends : last ∈ core.getLast?) :
    ∃ before inner after, text = before ++ (inner ++ after) ∧ Laid before.length inner core ∧
      first.span.start = before.length ∧ last.span.stop = before.length + inner.length := by
  obtain ⟨skipped, rest, rfl, behind⟩ := laid.drop
  obtain ⟨gap, rest, rfl, start, trimmed⟩ := behind.trim (List.mem_head?_append_of_mem_head? head)
  obtain ⟨inner, after, rfl, here, stop⟩ := trimmed.take
  rw [stopAfter_getLast _ ends] at stop
  rw [Nat.zero_add, ← List.length_append] at here start stop
  exact ⟨skipped ++ gap, inner, after, by simp, here, start, stop⟩

end Scan

namespace Expr

mutual

theorem bare_shift (offset : Int) : ∀ tree : Expr, (tree.shift offset).bare = tree.bare
  | .number _ _ | .bool _ _ | .var _ _ | .dataType _ _ _ => rfl
  | .letIn _ binding body _ => by
      rw [shift, bare, bare, bare_shift offset binding, bare_shift offset body]
  | .letTop _ binding _ => by rw [shift, bare, bare, bare_shift offset binding]
  | .binary _ left right _ => by
      rw [shift, bare, bare, bare_shift offset left, bare_shift offset right]
  | .lambda _ body _ => by rw [shift, bare, bare, bare_shift offset body]
  | .function _ _ body _ => by rw [shift, bare, bare, bare_shift offset body]
  | .call callee args _ => by
      rw [shift, bare, bare, bare_shift offset callee, bareAll_shift offset args]
  | .cond branches otherwise _ => by
      rw [shift, bare, bare, bareBranches_shift offset branches, bare_shift offset otherwise]
  | .construct _ fields _ => by rw [shift, bare, bare, bareAll_shift offset fields]
  | .matching scrutinee arms _ => by
      rw [shift, bare, bare, bare_shift offset scrutinee, bareArms_shift offset arms]
  | .row items => by rw [shift, bare, bare, bareAll_shift offset items]

theorem bareAll_shift (offset : Int) : ∀ exprs, bareAll (shiftAll offset exprs) = bareAll exprs
  | [] => rfl
  | expr :: exprs => by
      rw [shiftAll, bareAll, bareAll, bare_shift offset expr, bareAll_shift offset exprs]

theorem bareBranches_shift (offset : Int) :
    ∀ branches, bareBranches (shiftBranches offset branches) = bareBranches branches
  | [] => rfl
  | (condition, body) :: branches => by
      rw [shiftBranches, bareBranches, bareBranches, bare_shift offset condition, bare_shift offset body,
        bareBranches_shift offset branches]

theorem bareArms_shift (offset : Int) : ∀ arms, bareArms (shiftArms offset arms) = bareArms arms
  | [] => rfl
  | (pattern, body) :: arms => by
      rw [shiftArms, bareArms, bareArms, bare_shift offset body, bareArms_shift offset arms]

end

theorem alike_shift (offset : Int) (tree : Expr) : (tree.shift offset).alike tree = true :=
  (alike_iff _ _).2 (bare_shift offset tree)

def excerpt (source : String) (node : Expr) : String :=
  .ofList (Excerpt.slice source.toList node.span)

end Expr

open Grammar

theorem tokenize_excerpt {source : String} {tokens core : List Token} {node : Expr}
    (scanned : tokenize source = .ok tokens) (sub : core <:+: tokens) (spans : Spans core node.span) :
    tokenize (node.excerpt source) = .ok (core.map (Token.shift (-node.span.start))) := by
  obtain ⟨front, back, rfl⟩ := sub
  obtain ⟨⟨first, head, start⟩, ⟨last, ends, stop⟩⟩ := spans
  have laid : Scan.Laid 0 source.toList _ := Scan.laid_of_scanned scanned
  rw [List.append_assoc] at laid
  obtain ⟨before, inner, after, whole, laid, starts, stops⟩ := laid.cut head ends
  rw [starts] at start
  rw [stops] at stop
  have text : Excerpt.slice source.toList node.span = inner := by
    rw [Excerpt.slice, start, stop, whole]
    exact Scan.stretch_middle before inner after
  have moved := laid.moved 0
  rw [Nat.cast_zero, Int.zero_sub, ← start] at moved
  rw [tokenize, Expr.excerpt, text, String.toList_ofList]
  exact moved.scanned

theorem wellBracketed_of_read {tokens : List Token} {room : Nat} {read : Expr} {last : Span}
    (ok : Parse.expression room 0 false (.ofTokens tokens) = .ok read ⟨[], last⟩) : WellBracketed tokens := by
  obtain ⟨used, taken, ⟨shape, phrase⟩, -⟩ := (Parse.expression_gives room).phrase ok
  have same : tokens = used ++ [] := taken.rest
  rw [same, List.append_nil]
  exact phrase.wellBracketed

theorem read_moved {tokens : List Token} {shape : Shape} {tree : Expr} {room : Nat}
    (phrase : Phrase .table shape tokens tree) (enough : tokens.length ≤ room) (offset : Int) :
    ∃ last, Parse.expression room 0 false (.ofTokens (tokens.map (Token.shift offset))) =
      .ok (tree.shift offset) ⟨[], last⟩ := by
  have whole := (Parse.phrase_reading phrase).whole phrase enough shape.fits_zero (stops_nil 0) .origin
  have carries : Parse.Carries offset [] _ _ _ :=
    Parse.carries_expression (Parse.begins_nil _) room 0 false
  obtain ⟨image, shifted, moved⟩ := carries _ _ _ whole
  have again := (Parse.expression_last moved .origin).1
  rw [shifted.same] at again
  simp only [Cursor.carried, List.append_nil] at again
  exact ⟨_, again⟩

/-- An operation is read again from the text that its span marks exactly if every parenthesis there has
its partner there too. What is read is the operation, with other spans; with a parenthesis alone nothing
is read. -/
theorem excerpt_reads (room : Nat) (source : String) (program : List Expr)
    (parsed : parseSource room source = .ok program) (item : Expr) (member : item ∈ program) (node : Expr)
    (inside : node.Inside item) (operation : node.applies = true) :
    ∃ tokens, tokenize (node.excerpt source) = .ok tokens ∧
      (WellBracketed tokens → ∀ wide, tokens.length ≤ wide → ∃ read last,
        Parse.expression wide 0 false (.ofTokens tokens) = .ok read ⟨[], last⟩ ∧ read.alike node = true) ∧
      (¬WellBracketed tokens → ∀ wide read last,
        Parse.expression wide 0 false (.ofTokens tokens) ≠ .ok read ⟨[], last⟩) := by
  obtain ⟨tokens, scanned, read⟩ := parseSource_ok parsed
  have ascending := ascending_of_recovers ((Scan.laid_of_scanned scanned).recovers [] rfl)
  obtain ⟨above, high, lies⟩ := ((Parse.program_ok read).strewn ascending).member member
  obtain ⟨core, low, stands⟩ := lies.inside inside
  refine ⟨_, tokenize_excerpt scanned (low.trans high) stands.here.spans, ?_, ?_⟩
  · intro balanced wide enough
    rw [WellBracketed, unclosed_shift] at balanced
    obtain ⟨shape, phrase⟩ := stands.here.whole operation balanced
    rw [List.length_map] at enough
    obtain ⟨last, again⟩ := read_moved phrase enough (-node.span.start)
    exact ⟨_, last, again, Expr.alike_shift _ node⟩
  · intro alone wide tree last again
    exact alone (wellBracketed_of_read again)

theorem negatedCall_excerpt :
    let call : Expr := .call (.var "f" (.ofWidth 2 1)) [.number 2 (.ofWidth 5 1)] (.ofWidth 2 5)
    let negated : Expr := .binary (.text "-") (.number 0 (.ofWidth 0 1)) call (.ofWidth 0 7)
    let sum : Expr := .binary (.text "+") negated (.number 1 (.ofWidth 10 1)) (.ofWidth 0 11)
    parseSource nestingLimit "-(f)(2) + 1" = .ok [sum] ∧
      ∃ tokens, tokenize (sum.excerpt "-(f)(2) + 1") = .ok tokens ∧ tokens.length = 9 ∧
        ∃ read last, Parse.expression 9 0 false (.ofTokens tokens) = .ok read ⟨[], last⟩ ∧
          read.alike sum = true := by
  intro call negated sum
  have parsed : parseSource nestingLimit "-(f)(2) + 1" = .ok [sum] := by cbv
  have scanned : tokenize (sum.excerpt "-(f)(2) + 1") =
      .ok [⟨.operator .sub, .ofWidth 0 1⟩, ⟨.mark .leftParen, .ofWidth 1 1⟩, ⟨.name "f", .ofWidth 2 1⟩,
        ⟨.mark .rightParen, .ofWidth 3 1⟩, ⟨.mark .leftParen, .ofWidth 4 1⟩, ⟨.number 2, .ofWidth 5 1⟩,
        ⟨.mark .rightParen, .ofWidth 6 1⟩, ⟨.operator .add, .ofWidth 8 1⟩,
        ⟨.number 1, .ofWidth 10 1⟩] := by cbv
  obtain ⟨tokens, same, reads, -⟩ := excerpt_reads nestingLimit "-(f)(2) + 1" [sum] parsed sum
    (List.mem_singleton_self sum) sum .whole rfl
  rw [scanned] at same
  cases same
  exact ⟨parsed, _, scanned, rfl, reads (by decide) 9 (by decide)⟩

/-- A product whose first factor is a sum in parentheses is marked from behind the first parenthesis on. -/
theorem bracketedFactor_excerpt :
    let sum : Expr :=
      .binary (.text "+") (.number 1 (.ofWidth 1 1)) (.number 2 (.ofWidth 5 1)) (.ofWidth 1 5)
    let product : Expr := .binary (.text "*") sum (.number 3 (.ofWidth 10 1)) (.ofWidth 1 10)
    parseSource nestingLimit "(1 + 2) * 3" = .ok [product] ∧
      product.excerpt "(1 + 2) * 3" = "1 + 2) * 3" ∧
      ∀ tokens, tokenize "1 + 2) * 3" = .ok tokens → ∀ wide read last,
        Parse.expression wide 0 false (.ofTokens tokens) ≠ .ok read ⟨[], last⟩ := by
  intro sum product
  have scanned : tokenize "1 + 2) * 3" =
      .ok [⟨.number 1, .ofWidth 0 1⟩, ⟨.operator .add, .ofWidth 2 1⟩, ⟨.number 2, .ofWidth 4 1⟩,
        ⟨.mark .rightParen, .ofWidth 5 1⟩, ⟨.operator .mul, .ofWidth 7 1⟩,
        ⟨.number 3, .ofWidth 9 1⟩] := by cbv
  refine ⟨by cbv, by cbv, fun tokens same wide read last again => ?_⟩
  rw [scanned] at same
  cases same
  exact absurd (wellBracketed_of_read again) (by decide)

end FernLang
