import FernLang.Proofs.Grammar.Soundness
import FernLang.Proofs.Run.Parts

/-!
Where spans lie. Tokens are cut out of the text one after another, so their spans lie in it; trees and
complaints get their spans from tokens, by merging and by taking the end of the last one, so they
lie there too.
-/

namespace FernLang

structure Span.Within (length : Nat) (span : Span) : Prop where
  start : 0 ≤ span.start
  stop : span.stop ≤ length

namespace Span.Within

variable {length : Nat} {first second : Span}

theorem origin : Span.origin.Within length := ⟨Int.le_refl 0, Int.natCast_nonneg length⟩

theorem merge (one : first.Within length) (two : second.Within length) :
    (first.merge second).Within length := by
  constructor
  · exact Int.le_min.2 ⟨one.start, two.start⟩
  · exact Int.max_le.2 ⟨one.stop, two.stop⟩

theorem point (one : first.Within length) : (Span.point first.stop).Within length :=
  ⟨Int.le_trans one.start first.ordered, one.stop⟩

theorem ofWidth {index width : Nat} (bound : index + width ≤ length) :
    (Span.ofWidth index width).Within length := by
  constructor
  · exact Int.natCast_nonneg index
  · change (index : Int) + width ≤ length
    omega

end Span.Within

namespace Scan

theorem front?_width {text rest : List Char} {piece : Piece}
    (found : front? text = some (piece, rest)) : piece.width + rest.length = text.length := by
  have cut (keep : Char → Bool) (tail : List Char) :
      (tail.takeWhile keep).length + (tail.dropWhile keep).length = tail.length := by
    rw [← List.length_append, List.takeWhile_append_dropWhile]
  unfold front? at found
  split at found
  · cases found
  · rename_i c tail
    split at found
    · cases found
      have whole := cut isDigit tail
      simp only [Piece.width, List.length_cons]
      omega
    · split at found
      · cases found
        have whole := cut isWordChar tail
        simp only [Piece.width, List.length_cons]
        omega
      · split at found
        · split at found
          · cases found
            simp only [Piece.width, List.length_cons]
            omega
          · obtain ⟨_, _, same⟩ := Option.map_eq_some_iff.1 found
            cases same
            simp only [Piece.width, List.length_cons]
            omega
        · obtain ⟨_, _, same⟩ := Option.map_eq_some_iff.1 found
          cases same
          rfl

/-- What scanning the text up to `length` may give: tokens that lie in the text, a character of it, or
the number of digits of a numeral that has too many. -/
def Placed (length : Nat) : Except ScanError (List Token) → Prop
  | .ok tokens => ∀ token ∈ tokens, token.span.Within length
  | .error (.unexpected _ index) => index < length
  | .error (.numeral error) => ∃ digits, error = .tooLongToRead digits ∧ Numeral.limit < digits

theorem Piece.lexeme_placed (piece : Piece) {error : ScanError} (refused : piece.lexeme = .error error)
    (length : Nat) : Placed length (.error error) := by
  cases piece with
  | digits row =>
      rw [lexeme] at refused
      split at refused
      · rename_i long
        cases refused
        exact ⟨row.length, rfl, long⟩
      · cases refused
  | word text => cases refused
  | symbol sign width => cases refused

theorem tokensFrom_placed (start : Nat) (text : List Char) :
    Placed (start + text.length) (tokensFrom start text) := by
  fun_induction tokensFrom start text with
  | case1 start text width none ended =>
      intro token member
      cases member
  | case2 start text width none c rest ended =>
      have some := congrArg List.length ended
      rw [List.length_drop, List.length_cons] at some
      change start + width < start + text.length
      omega
  | case3 start text width piece rest found shorter ih =>
      have whole := front?_width found
      rw [List.length_drop] at whole
      have same : start + width + piece.width + rest.length = start + text.length := by omega
      rw [same] at ih
      cases read : piece.lexeme with
      | error error => exact piece.lexeme_placed read _
      | ok lexeme =>
          change Placed _ (tokensFrom (start + width + piece.width) rest >>= fun tokens =>
            .ok (⟨lexeme, Span.ofWidth (start + width) piece.width⟩ :: tokens))
          cases others : tokensFrom (start + width + piece.width) rest with
          | error error =>
              rw [others] at ih
              exact ih
          | ok tokens =>
              rw [others] at ih
              exact List.forall_mem_cons.2 ⟨.ofWidth (by omega), ih⟩

end Scan

theorem tokenize_placed (source : String) : Scan.Placed source.length (tokenize source) := by
  have placed := Scan.tokensFrom_placed 0 source.toList
  rwa [Nat.zero_add, String.length_toList] at placed

def Expr.Within (length : Nat) (tree : Expr) : Prop := tree.Every (·.span.Within length)

theorem Expr.within_iff {length : Nat} {tree : Expr} :
    tree.Within length ↔ tree.span.Within length ∧ ∀ part ∈ tree.parts, part.Within length :=
  every_iff

/-- A cursor all of whose tokens lie in the text, the one taken last included. -/
structure Cursor.Within (length : Nat) (cursor : Cursor) : Prop where
  rest : ∀ token ∈ cursor.rest, token.span.Within length
  last : cursor.last.Within length

namespace Parse

variable {α β : Type} {length : Nat}

/-- From a cursor in the text, reading gives a value of a kind and stays in the text, or complains
about a span of the text. It asks for no token that is not there. -/
def Keeps (length : Nat) (kind : α → Prop) (read : Parse α) : Prop :=
  ∀ cursor, cursor.Within length → match read cursor with
    | .ok value after => kind value ∧ after.Within length
    | .error (.malformed error) _ => error.span.Within length
    | .error .tooDeep _ => True
    | .error (.misused _) _ => False

section

variable {kind : α → Prop} {other : β → Prop}

theorem keeps_pure {value : α} (good : kind value) : Keeps length kind (pure value) :=
  fun _ inside => ⟨good, inside⟩

theorem keeps_refuse {complaint : Complaint} {span : Span} (inside : span.Within length) :
    Keeps length kind (refuse complaint span) :=
  fun _ _ => inside

theorem keeps_tooDeep : Keeps length kind (throw .tooDeep) :=
  fun _ _ => trivial

theorem Keeps.bind {first : Parse α} {next : α → Parse β} (early : Keeps length kind first)
    (late : ∀ value, kind value → Keeps length other (next value)) :
    Keeps length other (first >>= next) := by
  intro cursor inside
  have here := early cursor inside
  rw [bind_apply]
  cases read : first cursor with
  | ok value after =>
      rw [read] at here
      exact late value here.1 after here.2
  | error refusal after =>
      rw [read] at here
      cases refusal with
      | malformed error => exact here
      | tooDeep => trivial
      | misused misuse => exact here

theorem Keeps.mono {wider : α → Prop} {read : Parse α} (keeps : Keeps length kind read)
    (sub : ∀ value, kind value → wider value) : Keeps length wider read := by
  rw [← bind_pure read]
  exact keeps.bind fun value good => keeps_pure (sub value good)

end

theorem keeps_get : Keeps length (Cursor.Within length) get :=
  fun _ inside => ⟨inside, inside⟩

theorem keeps_left : Keeps length (fun _ => True) left :=
  fun _ inside => ⟨trivial, inside⟩

theorem keeps_peek : Keeps length (fun _ => True) peek := by
  intro cursor inside
  rw [peek_apply]
  exact ⟨trivial, inside⟩

theorem keeps_looking (kind : Kind) : Keeps length (fun _ => True) (looking kind) := by
  intro cursor inside
  rw [looking_apply]
  exact ⟨trivial, inside⟩

/-- The span at which tokens run out is the end of the token taken last. -/
theorem keeps_next (context : String) :
    Keeps length (fun token => token.span.Within length) (next context) := by
  rintro ⟨rest, last⟩ inside
  cases rest with
  | nil => exact inside.last.point
  | cons token rest =>
      obtain ⟨here, later⟩ := List.forall_mem_cons.1 inside.rest
      exact ⟨here, later, here⟩

theorem keeps_expect (kind : Kind) (context : String) :
    Keeps length (fun token => token.span.Within length) (expect kind context) := by
  apply (keeps_next context).bind
  intro token inside
  split
  · exact keeps_pure inside
  · exact keeps_refuse inside

theorem keeps_expectName (context : String) :
    Keeps length (fun found => found.2.span.Within length) (expectName context) := by
  apply (keeps_next context).bind
  intro token inside
  split
  · exact keeps_pure inside
  · exact keeps_refuse inside

section

variable {kind : α → Prop} {item : List α → Parse α} (each : ∀ done, Keeps length kind (item done))
include each

theorem keeps_separated (context : String) (steps : Nat) (done : List α)
    (before : ∀ one ∈ done, kind one) :
    Keeps length (fun items => ∀ one ∈ items, kind one) (separated context item steps done) := by
  induction steps generalizing done with
  | zero => exact keeps_tooDeep
  | succ steps ih =>
      apply (each done).bind
      intro one good
      have all : ∀ each ∈ done ++ [one], kind each :=
        List.forall_mem_append.2 ⟨before, List.forall_mem_singleton.2 good⟩
      apply (keeps_next context).bind
      intro token inside
      split
      · exact keeps_pure all
      · exact ih _ all
      · exact keeps_refuse inside

theorem keeps_closed (context : String) :
    Keeps length (fun items => ∀ one ∈ items, kind one) (closed context item) := by
  apply (keeps_looking _).bind
  intro seen _
  split
  · apply (keeps_next context).bind
    intro _ _
    exact keeps_pure (by simp)
  · apply keeps_left.bind
    intro steps _
    exact keeps_separated each context _ [] (by simp)

theorem keeps_chained (opener : Kind) (context : String) (steps : Nat) (done : List α)
    (before : ∀ one ∈ done, kind one) :
    Keeps length (fun items => ∀ one ∈ items, kind one)
      (chained opener context item steps done) := by
  induction steps generalizing done with
  | zero => exact keeps_pure before
  | succ steps ih =>
      apply (keeps_looking _).bind
      intro seen _
      split
      · apply (keeps_next context).bind
        intro _ _
        apply (each done).bind
        intro one good
        exact ih _ (List.forall_mem_append.2 ⟨before, List.forall_mem_singleton.2 good⟩)
      · exact keeps_pure before

end

theorem keeps_params (context : String) : Keeps length (fun _ => True) (params context) := by
  have fits : Keeps length (fun names : List String => ∀ name ∈ names, True) (params context) := by
    apply keeps_closed
    intro done
    apply (keeps_expectName context).bind
    rintro ⟨name, token⟩ inside
    dsimp only
    split
    · exact keeps_refuse inside
    · exact keeps_pure trivial
  exact fits.mono fun _ _ => trivial

theorem keeps_pattern (room : Nat) : Keeps length (fun _ => True) (pattern room) := by
  induction room with
  | zero => exact keeps_tooDeep
  | succ room ih =>
      unfold pattern
      apply (keeps_next _).bind
      intro token inside
      split
      · exact keeps_pure trivial
      · apply (keeps_next _).bind
        intro number here
        split
        · exact keeps_pure trivial
        · exact keeps_refuse here
      · exact keeps_pure trivial
      · apply (keeps_looking _).bind
        intro seen _
        split
        · apply (keeps_next _).bind
          intro _ _
          apply (keeps_closed (fun _ => ih) _).bind
          intro _ _
          exact keeps_pure trivial
        · exact keeps_pure trivial
      · exact keeps_refuse inside

theorem keeps_variant (done : List (String × List String)) :
    Keeps length (fun _ => True) (variant done) := by
  apply (keeps_expectName _).bind
  rintro ⟨name, token⟩ inside
  dsimp only
  split
  · exact keeps_refuse inside
  · apply (keeps_looking _).bind
    intro seen _
    split
    · apply (keeps_next _).bind
      intro _ _
      apply (keeps_params _).bind
      intro _ _
      exact keeps_pure trivial
    · exact keeps_pure trivial

theorem keeps_dataForm (top : Bool) {start : Span} (here : start.Within length) :
    Keeps length (Expr.Within length) (dataForm top start) := by
  unfold dataForm
  split
  · exact keeps_refuse here
  · apply (keeps_expectName _).bind
    intro _ _
    apply (keeps_expect _ _).bind
    intro _ _
    apply (keeps_variant _).bind
    intro first _
    apply keeps_left.bind
    intro steps _
    apply (keeps_chained keeps_variant _ _ _ _ (by simp)).bind
    intro variants _
    apply keeps_get.bind
    intro cursor inside
    exact keeps_pure (Expr.within_iff.2 ⟨here.merge inside.last, by simp [Expr.parts]⟩)

/-! Forms that hold other expressions, given that those lie in the text. -/

section

variable {nested : Nat → Parse Expr} (inner : ∀ power, Keeps length (Expr.Within length) (nested power))
include inner

theorem keeps_branch (context : String) :
    Keeps length (fun branch => branch.1.Within length ∧ branch.2.Within length)
      (branch nested context) := by
  apply (inner 0).bind
  intro condition first
  apply (keeps_expect _ _).bind
  intro _ _
  apply (inner 0).bind
  intro body second
  exact keeps_pure ⟨first, second⟩

theorem keeps_arm {pattern : Parse Pattern} (shape : Keeps length (fun _ => True) pattern) :
    Keeps length (fun arm => arm.2.Within length) (arm nested pattern) := by
  apply shape.bind
  intro _ _
  apply (keeps_expect _ _).bind
  intro _ _
  apply (inner 0).bind
  intro body inside
  exact keeps_pure inside

theorem keeps_arguments :
    Keeps length (fun args => ∀ arg ∈ args, arg.Within length) (arguments nested) :=
  keeps_closed (fun _ => inner 0) _

variable {start : Span} (here : start.Within length)
include here

theorem keeps_letForm (top : Bool) :
    Keeps length (Expr.Within length) (letForm nested top start) := by
  apply (keeps_expectName _).bind
  intro _ _
  apply (keeps_expect _ _).bind
  intro _ _
  apply (inner 0).bind
  intro binding first
  split
  · refine keeps_pure (Expr.within_iff.2 ⟨here.merge first.here, ?_⟩)
    exact List.forall_mem_singleton.2 first
  · apply (inner 0).bind
    intro body second
    apply (keeps_expect _ _).bind
    intro close last
    refine keeps_pure (Expr.within_iff.2 ⟨here.merge last, ?_⟩)
    exact List.forall_mem_cons.2 ⟨first, List.forall_mem_singleton.2 second⟩

theorem keeps_lambdaForm : Keeps length (Expr.Within length) (lambdaForm nested start) := by
  apply (keeps_expect _ _).bind
  intro _ _
  apply (keeps_params _).bind
  intro names _
  apply (keeps_expect _ _).bind
  intro _ _
  apply (inner 0).bind
  intro body inside
  apply (keeps_expect _ _).bind
  intro close last
  exact keeps_pure (Expr.within_iff.2 ⟨here.merge last, List.forall_mem_singleton.2 inside⟩)

theorem keeps_functionForm (top : Bool) :
    Keeps length (Expr.Within length) (functionForm nested top start) := by
  unfold functionForm
  split
  · exact keeps_refuse here
  · apply (keeps_expectName _).bind
    intro _ _
    apply (keeps_expect _ _).bind
    intro _ _
    apply (keeps_params _).bind
    intro names _
    apply (keeps_expect _ _).bind
    intro _ _
    apply (inner 0).bind
    intro body inside
    apply (keeps_expect _ _).bind
    intro close last
    exact keeps_pure (Expr.within_iff.2 ⟨here.merge last, List.forall_mem_singleton.2 inside⟩)

theorem keeps_condForm : Keeps length (Expr.Within length) (condForm nested start) := by
  apply (keeps_branch inner _).bind
  intro first inside
  apply keeps_left.bind
  intro steps _
  apply (keeps_chained (fun _ => keeps_branch inner _) _ _ _ _
    (List.forall_mem_singleton.2 inside)).bind
  intro branches all
  apply (keeps_expect _ _).bind
  intro _ _
  apply (keeps_expect _ _).bind
  intro _ _
  apply (inner 0).bind
  intro otherwise rest
  apply (keeps_expect _ _).bind
  intro close last
  refine keeps_pure (Expr.within_iff.2 ⟨here.merge last, List.forall_mem_cons.2 ⟨rest, ?_⟩⟩)
  rw [List.forall_mem_flatMap]
  intro branch member
  obtain ⟨condition, body⟩ := all branch member
  exact List.forall_mem_cons.2 ⟨condition, List.forall_mem_singleton.2 body⟩

theorem keeps_matchForm {pattern : Parse Pattern} (shape : Keeps length (fun _ => True) pattern) :
    Keeps length (Expr.Within length) (matchForm nested pattern start) := by
  apply (inner 0).bind
  intro scrutinee whole
  apply (keeps_expect _ _).bind
  intro _ _
  apply (keeps_arm inner shape).bind
  intro first inside
  apply keeps_left.bind
  intro steps _
  apply (keeps_chained (fun _ => keeps_arm inner shape) _ _ _ _
    (List.forall_mem_singleton.2 inside)).bind
  intro arms all
  apply (keeps_expect _ _).bind
  intro close last
  refine keeps_pure (Expr.within_iff.2 ⟨here.merge last, List.forall_mem_cons.2 ⟨whole, ?_⟩⟩)
  exact List.forall_mem_map.2 all

end

section

variable {nested : Nat → Parse Expr} (inner : ∀ power, Keeps length (Expr.Within length) (nested power))
include inner

theorem keeps_opening {pattern : Parse Pattern} (shape : Keeps length (fun _ => True) pattern)
    (top : Bool) {token : Token} (here : token.span.Within length) :
    Keeps length (Expr.Within length) (opening nested pattern top token) := by
  unfold opening
  split
  · exact keeps_pure (Expr.within_iff.2 ⟨here, by simp [Expr.parts]⟩)
  · exact keeps_pure (Expr.within_iff.2 ⟨here, by simp [Expr.parts]⟩)
  · exact keeps_pure (Expr.within_iff.2 ⟨here, by simp [Expr.parts]⟩)
  · apply (inner 0).bind
    intro tree inside
    apply (keeps_expect _ _).bind
    intro _ _
    exact keeps_pure inside
  · apply (inner _).bind
    intro operand inside
    have zero : (Expr.number 0 token.span).Within length :=
      Expr.within_iff.2 ⟨here, by simp [Expr.parts]⟩
    refine keeps_pure (Expr.within_iff.2 ⟨here.merge inside.here, ?_⟩)
    exact List.forall_mem_cons.2 ⟨zero, List.forall_mem_singleton.2 inside⟩
  · exact keeps_letForm inner here top
  · exact keeps_lambdaForm inner here
  · exact keeps_functionForm inner here top
  · exact keeps_condForm inner here
  · exact keeps_dataForm top here
  · exact keeps_matchForm inner here shape
  · exact keeps_refuse here

theorem keeps_continuing (power steps : Nat) {left : Expr} (before : left.Within length) :
    Keeps length (Expr.Within length) (continuing nested power steps left) := by
  induction steps generalizing left with
  | zero => exact keeps_pure before
  | succ steps ih =>
      apply keeps_peek.bind
      intro seen _
      split
      · split
        · exact keeps_pure before
        · apply (keeps_next _).bind
          intro _ _
          apply (inner _).bind
          intro right after
          refine ih (Expr.within_iff.2 ⟨before.here.merge after.here, ?_⟩)
          exact List.forall_mem_cons.2 ⟨before, List.forall_mem_singleton.2 after⟩
      · split
        · exact keeps_pure before
        · apply (keeps_next _).bind
          intro _ _
          apply (keeps_arguments inner).bind
          intro args all
          apply keeps_get.bind
          intro cursor inside
          refine ih (Expr.within_iff.2 ⟨before.here.merge inside.last, ?_⟩)
          exact List.forall_mem_cons.2 ⟨before, all⟩
      · exact keeps_pure before

end

theorem keeps_expression (room power : Nat) (top : Bool) :
    Keeps length (Expr.Within length) (expression room power top) := by
  induction room generalizing power top with
  | zero => exact keeps_tooDeep
  | succ room ih =>
      unfold expression
      apply (keeps_next _).bind
      intro token here
      apply (keeps_opening (fun power => ih power false) (keeps_pattern room) top here).bind
      intro first inside
      split
      · exact keeps_pure inside
      · apply keeps_left.bind
        intro steps _
        exact keeps_continuing (fun power => ih power false) power steps inside

theorem keeps_items (room steps : Nat) (done : List Expr)
    (before : ∀ item ∈ done, item.Within length) :
    Keeps length (fun items => ∀ item ∈ items, item.Within length) (items room steps done) := by
  induction steps generalizing done with
  | zero => exact keeps_pure before
  | succ steps ih =>
      apply keeps_peek.bind
      intro seen _
      split
      · exact keeps_pure before
      · apply (keeps_expression room 0 true).bind
        intro item inside
        exact ih _ (List.forall_mem_append.2 ⟨before, List.forall_mem_singleton.2 inside⟩)

theorem keeps_program (room : Nat) :
    Keeps length (fun items => ∀ item ∈ items, item.Within length) (program room) := by
  apply keeps_left.bind
  intro steps _
  exact keeps_items room steps [] (by simp)

end Parse

/-- What reading tokens of a text may give: items that lie in it, or a complaint about a place in
it. -/
def Refusal.Placed (length : Nat) : Except Refusal (List Expr) → Prop
  | .ok program => ∀ item ∈ program, item.Within length
  | .error (.malformed error) => error.span.Within length
  | .error .tooDeep => True
  | .error (.misused _) => False

theorem parseTokens_placed (room : Nat) {length : Nat} {tokens : List Token}
    (inside : ∀ token ∈ tokens, token.span.Within length) :
    Refusal.Placed length (parseTokens room tokens) := by
  have kept := Parse.keeps_program room (.ofTokens tokens) ⟨inside, .origin⟩
  unfold parseTokens
  cases ended : Parse.program room (.ofTokens tokens) with
  | ok program after =>
      rw [ended] at kept
      exact kept.1
  | error refusal after =>
      rw [ended] at kept
      cases refusal with
      | malformed error => exact kept
      | tooDeep => trivial
      | misused misuse => exact kept

def SourceError.Placed (length : Nat) : Except SourceError (List Expr) → Prop
  | .ok program => ∀ item ∈ program, item.Within length
  | .error (.scan error) => Scan.Placed length (.error error)
  | .error (.parse error) => error.span.Within length
  | .error .tooDeep => True
  | .error (.misused _) => False

theorem parseSource_placed (room : Nat) (source : String) :
    SourceError.Placed source.length (parseSource room source) := by
  have tokens := tokenize_placed source
  have read := parseSource_read room source
  generalize parseSource room source = outcome at read ⊢
  cases read with
  | unscanned scanned =>
      rw [scanned] at tokens
      exact tokens
  | program scanned parsed =>
      rw [scanned] at tokens
      have placed := parseTokens_placed room tokens
      rw [parsed] at placed
      exact placed
  | malformed scanned refused =>
      rw [scanned] at tokens
      have placed := parseTokens_placed room tokens
      rw [refused] at placed
      exact placed
  | tooDeep => trivial
  | misused scanned refused =>
      rw [scanned] at tokens
      have placed := parseTokens_placed room tokens
      rw [refused] at placed
      exact placed

end FernLang
