import Mathlib
import FernLang.Excerpt
import FernLang.Proofs.Token.Lexicon

/-!
Texts laid out as tokens. A text is the tokens it is cut into when it can be taken apart into texts of
their lexemes with layout around them, such that no text of a lexeme can be made longer. Scanning finds
these tokens, and fails only where there are none. Hence tokens tell the text they were cut from, and
lexemes that are written with layout between them come back as they are.
-/

namespace FernLang
namespace Scan

/-! Layout in front of a text. -/

section

variable {gap inside text : List Char}

theorem layoutWidth_line (line : '\n' ∉ inside) : layoutWidth true inside = inside.length := by
  induction inside with
  | nil => rfl
  | cons c inside ih =>
      obtain ⟨other, line⟩ := not_or.1 (List.mem_cons.not.1 line)
      have stays : (c != '\n') = true := by simpa using Ne.symm other
      rw [layoutWidth, if_pos rfl, stays, ih line, List.length_cons, Nat.add_comm]

theorem layoutWidth_comment (line : '\n' ∉ inside) (text : List Char) :
    layoutWidth true (inside ++ '\n' :: text) = inside.length + 1 + layoutWidth false text := by
  induction inside with
  | nil =>
      simp only [List.nil_append, List.length_nil, Nat.zero_add]
      rfl
  | cons c inside ih =>
      obtain ⟨other, line⟩ := not_or.1 (List.mem_cons.not.1 line)
      have stays : (c != '\n') = true := by simpa using Ne.symm other
      rw [List.cons_append, layoutWidth, if_pos rfl, stays, ih line, List.length_cons]
      omega

theorem layoutWidth_solid {c : Char} (solid : Solid c) (text : List Char) :
    layoutWidth false (c :: text) = 0 := by
  have other : (c == '#') = false := by simpa using solid.2
  simp [layoutWidth, other, solid.1]

theorem layoutWidth_hash (text : List Char) :
    layoutWidth false ('#' :: text) = 1 + layoutWidth true text := rfl

theorem not_hash_of_space {c : Char} (space : isSpace c = true) : (c == '#') = false := by
  by_contra hash
  obtain rfl : c = '#' := by simpa using hash
  cases space

theorem Layout.width (layout : Layout gap) (text : List Char) :
    layoutWidth false (gap ++ text) = gap.length + layoutWidth false text := by
  induction layout with
  | nil => simp
  | blank space rest ih =>
      simp only [List.cons_append, layoutWidth, not_hash_of_space space, space, ih, List.length_cons]
      simp
      omega
  | comment line rest ih =>
      rw [List.cons_append, List.append_assoc, List.cons_append, layoutWidth_hash,
        layoutWidth_comment line, ih]
      simp only [List.length_cons, List.length_append]
      omega

theorem Trailing.width (layout : Trailing gap) : layoutWidth false gap = gap.length := by
  cases layout with
  | layout all => simpa [layoutWidth] using all.width []
  | comment front line =>
      rw [front.width, layoutWidth_hash, layoutWidth_line line, List.length_append, List.length_cons]
      omega

theorem Layout.append (front : Layout gap) (back : Layout text) : Layout (gap ++ text) := by
  induction front with
  | nil => exact back
  | blank space rest ih => exact .blank space ih
  | comment line rest ih =>
      rw [List.cons_append, List.append_assoc, List.cons_append]
      exact .comment line ih

theorem Layout.append_trailing (front : Layout gap) (back : Trailing text) : Trailing (gap ++ text) := by
  cases back with
  | layout all => exact .layout (front.append all)
  | comment inner line =>
      rw [← List.append_assoc]
      exact .comment (front.append inner) line

theorem exists_layout (text : List Char) :
    Trailing text ∨ ∃ gap c rest, text = gap ++ c :: rest ∧ Layout gap ∧ Solid c := by
  induction length : text.length using Nat.strongRecOn generalizing text with
  | ind size ih =>
      -- What is behind a blank or a comment is shorter; what is found there has this layout in front.
      have behind (front rest : List Char) (same : text = front ++ rest) (layout : Layout front)
          (shorter : rest.length < size) :
          Trailing text ∨ ∃ gap c rest, text = gap ++ c :: rest ∧ Layout gap ∧ Solid c := by
        rcases ih rest.length shorter rest rfl with trailing | ⟨gap, c, more, rfl, inner, solid⟩
        · exact .inl (same ▸ layout.append_trailing trailing)
        · exact .inr ⟨front ++ gap, c, more, by rw [same, List.append_assoc], layout.append inner, solid⟩
      cases text with
      | nil => exact .inl (.layout .nil)
      | cons c text =>
          rw [List.length_cons] at length
          by_cases solid : Solid c
          · exact .inr ⟨[], c, text, rfl, .nil, solid⟩
          by_cases space : isSpace c = true
          · exact behind [c] text rfl (.blank space .nil) (by omega)
          obtain rfl : c = '#' := by
            by_contra other
            exact solid ⟨by simpa using space, other⟩
          by_cases ends : '\n' ∈ text
          · obtain ⟨inside, rest, rfl, line⟩ := List.eq_append_cons_of_mem ends
            refine behind ('#' :: (inside ++ ['\n'])) rest (by simp) (.comment line .nil) ?_
            simp only [List.length_append, List.length_cons] at length
            omega
          · exact .inl (.comment .nil ends)

end

/-- The text from `start` on is laid out as tokens: layout, the longest text of a lexeme, and so on up to
layout at the end. -/
inductive Laid : Nat → List Char → List Token → Prop
  | done {start : Nat} {gap : List Char} (layout : Trailing gap) : Laid start gap []
  | token {start : Nat} {gap text rest : List Char} {lexeme : Lexeme} {tokens : List Token}
      (layout : Layout gap) (spelled : Spells lexeme text) (fits : Fits lexeme text)
      (longest : Longest text rest) (others : Laid (start + gap.length + text.length) rest tokens) :
      Laid start (gap ++ (text ++ rest))
        (⟨lexeme, .ofWidth (start + gap.length) text.length⟩ :: tokens)

/-! Scanning, one token at a time. -/

section

variable {gap text rest : List Char} {piece : Piece}

theorem tokensFrom_done (start : Nat) (layout : Trailing gap) : tokensFrom start gap = .ok [] := by
  have none : gap.drop (layoutWidth false gap) = [] := by rw [layout.width, List.drop_length]
  rw [tokensFrom]
  split
  · rw [none]
  · rename_i found
    rw [none] at found
    cases found

theorem tokensFrom_piece (start : Nat) (layout : Layout gap) (shape : Shape piece text)
    (longest : Longest text rest) :
    tokensFrom start (gap ++ (text ++ rest)) = do
      let lexeme ← piece.lexeme
      let tokens ← tokensFrom (start + gap.length + text.length) rest
      return ⟨lexeme, Span.ofWidth (start + gap.length) text.length⟩ :: tokens := by
  obtain ⟨c, more, rfl⟩ := List.exists_cons_of_ne_nil shape.ne_nil
  have width : layoutWidth false (gap ++ (c :: more ++ rest)) = gap.length := by
    rw [layout.width, List.cons_append, layoutWidth_solid shape.solid, Nat.add_zero]
  have front : front? ((gap ++ (c :: more ++ rest)).drop gap.length) = some (piece, rest) := by
    rw [List.drop_left, shape.front longest]
  rw [tokensFrom]
  split
  · rename_i none
    rw [width, front] at none
    cases none
  · rename_i found
    rw [width, front] at found
    cases found
    dsimp only
    rw [width, shape.width]

theorem tokensFrom_unexpected (start : Nat) {c : Char} (layout : Layout gap) (solid : Solid c)
    (none : front? (c :: rest) = none) :
    tokensFrom start (gap ++ c :: rest) = .error (.unexpected c (start + gap.length)) := by
  have width : layoutWidth false (gap ++ c :: rest) = gap.length := by
    rw [layout.width, layoutWidth_solid solid, Nat.add_zero]
  rw [tokensFrom]
  split
  · rw [width, List.drop_left]
  · rename_i found
    rw [width, List.drop_left, none] at found
    cases found

theorem Laid.scanned {start : Nat} {tokens : List Token} (laid : Laid start text tokens) :
    tokensFrom start text = .ok tokens := by
  induction laid with
  | done layout => exact tokensFrom_done _ layout
  | token layout spelled fits longest others ih =>
      obtain ⟨piece, shape, read⟩ := spelled.shape
      rw [tokensFrom_piece _ layout shape longest, read fits, ih]
      rfl

theorem laid_of_scanned {start : Nat} {tokens : List Token}
    (scanned : tokensFrom start text = .ok tokens) : Laid start text tokens := by
  induction length : text.length using Nat.strongRecOn generalizing start text tokens with
  | ind size ih =>
      rcases exists_layout text with trailing | ⟨gap, c, more, rfl, layout, solid⟩
      · rw [tokensFrom_done start trailing] at scanned
        cases scanned
        exact .done trailing
      · cases found : front? (c :: more) with
        | none =>
            rw [tokensFrom_unexpected start layout solid found] at scanned
            cases scanned
        | some front =>
            obtain ⟨piece, rest⟩ := front
            obtain ⟨taken, same, shape, longest⟩ := front?_longest found
            rw [same, tokensFrom_piece start layout shape longest] at scanned
            have shorter : rest.length < size := by
              have positive := List.length_pos_iff.2 shape.ne_nil
              rw [List.length_append, same, List.length_append] at length
              omega
            cases read : piece.lexeme with
            | error error =>
                rw [read] at scanned
                cases scanned
            | ok lexeme =>
                cases others : tokensFrom (start + gap.length + taken.length) rest with
                | error error =>
                    rw [read, others] at scanned
                    cases scanned
                | ok tokens =>
                    rw [read, others] at scanned
                    cases scanned
                    obtain ⟨spelled, fits⟩ := shape.spells read
                    rw [same]
                    exact .token layout spelled fits longest (ih rest.length shorter others rfl)

end

/-! What tokens keep of their text. -/

def stretch (source : List Char) (start stop : Int) : List Char :=
  (source.drop start.toNat).take (stop - start).toNat

theorem stretch_middle (front middle rest : List Char) :
    stretch (front ++ (middle ++ rest)) front.length (front.length + middle.length) = middle := by
  have width : ((front.length : Int) + middle.length - front.length).toNat = middle.length := by omega
  rw [stretch, width, Int.toNat_natCast, List.drop_left, List.take_left]

/-- Where the last one of some tokens stops, or `start` where there is none. -/
def stopAfter (start : Int) : List Token → Int
  | [] => start
  | token :: tokens => stopAfter token.span.stop tokens

/-- Tokens from which their source can be told, from `start` on: each has a span in the text that is not
empty and lies behind those before it; the text there is a text of its lexeme, and no longer one from
the same place belongs to anything; and there is nothing but layout in front of each token and at the
end. -/
structure Recovers (source : List Char) (start : Nat) (tokens : List Token) : Prop where
  inside : ∀ token ∈ tokens, (start : Int) ≤ token.span.start ∧ token.span.start < token.span.stop ∧
    token.span.stop ≤ source.length
  apart : tokens.Pairwise fun first second => first.span.stop ≤ second.span.start
  spelled : ∀ token ∈ tokens, Spells token.lexeme (Excerpt.slice source token.span)
  maximal : ∀ token ∈ tokens, ∀ stop, token.span.stop < stop → stop ≤ source.length →
    ¬Terminal (stretch source token.span.start stop)
  between : ∀ before token after, tokens = before ++ token :: after →
    Layout (stretch source (stopAfter start before) token.span.start)
  behind : Trailing (stretch source (stopAfter start tokens) source.length)

theorem Recovers.cons {front gap text rest : List Char} {lexeme : Lexeme} {tokens : List Token}
    (layout : Layout gap) (spelled : Spells lexeme text) (some : text ≠ [])
    (longest : Longest text rest)
    (later : Recovers (front ++ (gap ++ (text ++ rest))) (front.length + gap.length + text.length)
      tokens) :
    Recovers (front ++ (gap ++ (text ++ rest))) front.length
      (⟨lexeme, .ofWidth (front.length + gap.length) text.length⟩ :: tokens) := by
  have positive : 0 < text.length := List.length_pos_iff.2 some
  have gapHere := stretch_middle front gap (text ++ rest)
  have textHere := stretch_middle (front ++ gap) text rest
  rw [List.append_assoc, List.length_append] at textHere
  constructor
  · refine List.forall_mem_cons.2 ⟨?_, fun token member => ?_⟩
    · simp only [Span.ofWidth, List.length_append]
      omega
    · have bounds := later.inside token member
      omega
  · refine List.pairwise_cons.2 ⟨fun token member => ?_, later.apart⟩
    have bounds := later.inside token member
    simp only [Span.ofWidth]
    omega
  · refine List.forall_mem_cons.2 ⟨?_, later.spelled⟩
    change Spells lexeme (stretch _ _ _)
    simp only [Span.ofWidth]
    rwa [textHere]
  · refine List.forall_mem_cons.2 ⟨?_, later.maximal⟩
    intro stop beyond bound
    simp only [Span.ofWidth, List.length_append] at beyond bound ⊢
    -- A longer text from the same place takes some characters of what follows.
    obtain ⟨width, same⟩ : ∃ width : Nat, stop = ↑(front.length + gap.length) + ↑(text.length + width) :=
      ⟨(stop - ↑(front.length + gap.length + text.length)).toNat, by omega⟩
    have short : width ≤ rest.length := by omega
    have longer := stretch_middle (front ++ gap) (text ++ rest.take width) (rest.drop width)
    rw [List.append_assoc, List.append_assoc, List.take_append_drop, List.length_append,
      List.length_append, List.length_take_of_le short, ← same] at longer
    rw [longer]
    refine longest (rest.take width) ?_ (List.take_prefix width rest)
    rw [← List.length_pos_iff, List.length_take_of_le short]
    omega
  · intro before token after same
    cases before with
    | nil =>
        cases same
        simp only [stopAfter, Span.ofWidth]
        rwa [Nat.cast_add, gapHere]
    | cons head before =>
        cases same
        have here := later.between before token after rfl
        rwa [Nat.cast_add] at here
  · have last := later.behind
    rwa [Nat.cast_add] at last

theorem Laid.recovers {start : Nat} {text : List Char} {tokens : List Token}
    (laid : Laid start text tokens) (front : List Char) (length : front.length = start) :
    Recovers (front ++ text) start tokens := by
  induction laid generalizing front with
  | @done start gap layout =>
      subst length
      refine ⟨by simp, .nil, by simp, by simp, by simp, ?_⟩
      have here := stretch_middle front gap []
      rw [List.append_nil] at here
      rw [List.length_append, Nat.cast_add]
      rwa [stopAfter, here]
  | @token start gap text rest lexeme tokens layout spelled fits longest others ih =>
      subst length
      obtain ⟨piece, shape, -⟩ := spelled.shape
      have later := ih (front ++ gap ++ text) (by simp only [List.length_append])
      rw [List.append_assoc, List.append_assoc] at later
      exact later.cons layout spelled shape.ne_nil longest

end Scan

/-- Scanning loses nothing: the tokens of a source recover it. -/
theorem tokenize_recovers (source : String) (tokens : List Token)
    (scanned : tokenize source = .ok tokens) : Scan.Recovers source.toList 0 tokens :=
  (Scan.laid_of_scanned scanned).recovers [] rfl

/-- A name that begins with a keyword, a power and a product of a number with zeros in front, and a
comparison next to an equals sign. -/
theorem gluedSigns_recovers :
    ∃ tokens, tokenize "letter**007*(x!==1) # let\n\tend#" = .ok tokens ∧ tokens.length = 11 ∧
      Scan.Recovers "letter**007*(x!==1) # let\n\tend#".toList 0 tokens := by
  obtain ⟨tokens, scanned, count⟩ :
      ∃ tokens, tokenize "letter**007*(x!==1) # let\n\tend#" = .ok tokens ∧ tokens.length = 11 :=
    ⟨[⟨.name "letter", .ofWidth 0 6⟩, ⟨.operator .pow, .ofWidth 6 2⟩, ⟨.number 7, .ofWidth 8 3⟩,
      ⟨.operator .mul, .ofWidth 11 1⟩, ⟨.mark .leftParen, .ofWidth 12 1⟩, ⟨.name "x", .ofWidth 13 1⟩,
      ⟨.operator .ne, .ofWidth 14 2⟩, ⟨.mark .equals, .ofWidth 16 1⟩, ⟨.number 1, .ofWidth 17 1⟩,
      ⟨.mark .rightParen, .ofWidth 18 1⟩, ⟨.keyword .end_, .ofWidth 27 3⟩], by cbv, rfl⟩
  exact ⟨tokens, scanned, count, tokenize_recovers _ tokens scanned⟩

namespace Scan

/-! Texts made of given lexemes. -/

structure Entry where
  gap : List Char
  lexeme : Lexeme
  text : List Char
  layout : Layout gap
  spelled : Spells lexeme text
  fits : Fits lexeme text

namespace Entry

def written (last : List Char) : List Entry → List Char
  | [] => last
  | entry :: entries => entry.gap ++ (entry.text ++ written last entries)

def placed (start : Nat) : List Entry → List Token
  | [] => []
  | entry :: entries =>
      ⟨entry.lexeme, .ofWidth (start + entry.gap.length) entry.text.length⟩ ::
        placed (start + entry.gap.length + entry.text.length) entries

end Entry

theorem Layout.loose {gap : List Char} (layout : Layout gap) (some : gap ≠ []) (rest : List Char) :
    ∀ c ∈ (gap ++ rest).head?, ¬Solid c := by
  intro c member solid
  cases layout with
  | nil => exact some rfl
  | blank space _ =>
      cases member
      rw [solid.1] at space
      cases space
  | comment _ _ =>
      cases member
      exact solid.2 rfl

theorem Trailing.loose {gap : List Char} (layout : Trailing gap) : ∀ c ∈ gap.head?, ¬Solid c := by
  cases layout with
  | layout all =>
      intro c member
      have some : gap ≠ [] := by
        rintro rfl
        cases member
      exact all.loose some [] c (by simpa using member)
  | @comment text inside front line =>
      by_cases some : text = []
      · subst some
        intro c member solid
        cases member
        exact solid.2 rfl
      · exact front.loose some _

theorem laid_written {last : List Char} (ending : Trailing last) (entries : List Entry)
    (separated : ∀ entry ∈ entries.tail, entry.gap ≠ []) (start : Nat) :
    Laid start (Entry.written last entries) (Entry.placed start entries) := by
  induction entries generalizing start with
  | nil => exact .done ending
  | cons entry entries ih =>
      have rest : Laid (start + entry.gap.length + entry.text.length) (Entry.written last entries) _ :=
        ih (fun other member => separated other (List.mem_of_mem_tail member)) _
      refine .token entry.layout entry.spelled entry.fits (entry.spelled.longest ?_) rest
      cases entries with
      | nil => exact ending.loose
      | cons next entries => exact next.layout.loose (separated next List.mem_cons_self) _

/-- Lexemes that tokens can have: numbers that are not too long, names that are words and not reserved,
and all truth values, keywords, marks and operators. -/
inductive Writable : Lexeme → Prop
  | number {value : Nat} (short : (Nat.toDigits 10 value).length ≤ Numeral.limit) :
      Writable (.number value)
  | name {first : Char} {text : List Char} (letter : isLetter first = true)
      (word : ∀ c ∈ text, isWordChar c = true) (free : String.ofList (first :: text) ∉ reserved) :
      Writable (.name (String.ofList (first :: text)))
  | truth (value : Bool) : Writable (.truth value)
  | keyword (word : Keyword) : Writable (.keyword word)
  | mark (sign : Mark) : Writable (.mark sign)
  | operator (sign : Operator) : Writable (.operator sign)

theorem writable_iff (lexeme : Lexeme) :
    Writable lexeme ↔ ∃ text, Spells lexeme text ∧ Fits lexeme text := by
  have unlimited {text : List Char} (other : ∀ value, lexeme ≠ .number value) : Fits lexeme text :=
    fun value same => absurd same (other value)
  constructor
  · intro writable
    cases writable with
    | @number value short => exact ⟨_, .number value 0, fun _ _ => by simpa using short⟩
    | name letter word free => exact ⟨_, .name letter word free, unlimited (by simp)⟩
    | truth value => exact ⟨_, .truth value, unlimited (by simp)⟩
    | keyword word => exact ⟨_, .keyword word, unlimited (by simp)⟩
    | mark sign => exact ⟨_, .mark sign, unlimited (by simp)⟩
    | operator sign => exact ⟨_, .operator sign, unlimited (by simp)⟩
  · rintro ⟨text, spelled, fits⟩
    cases spelled with
    | number value zeros =>
        have short := fits value rfl
        rw [List.length_append] at short
        exact .number (by omega)
    | name letter word free => exact .name letter word free
    | truth value => exact .truth value
    | keyword word => exact .keyword word
    | mark sign => exact .mark sign
    | operator sign => exact .operator sign

def Entry.Separated (entries : List Entry) : Prop := ∀ entry ∈ entries.tail, entry.gap ≠ []

theorem exists_entries {lexemes : List Lexeme} (writable : ∀ lexeme ∈ lexemes, Writable lexeme) :
    ∃ entries : List Entry, entries.map Entry.lexeme = lexemes ∧ ∀ entry ∈ entries, entry.gap ≠ [] := by
  induction lexemes with
  | nil => exact ⟨[], rfl, by simp⟩
  | cons lexeme lexemes ih =>
      obtain ⟨here, others⟩ := List.forall_mem_cons.1 writable
      obtain ⟨text, spelled, fits⟩ := (writable_iff lexeme).1 here
      obtain ⟨entries, rfl, separated⟩ := ih others
      have blank : Layout [' '] := .blank rfl .nil
      refine ⟨⟨[' '], lexeme, text, blank, spelled, fits⟩ :: entries, rfl, ?_⟩
      exact List.forall_mem_cons.2 ⟨by simp, separated⟩

end Scan

/-- Layout is irrelevant, and all lexemes that tokens can have can be written in any order. However they
are written, with layout between any two of them, any in front and any behind, the tokens are these
lexemes, each at the place of its text. -/
theorem layout_irrelevant (lexemes : List Lexeme)
    (writable : ∀ lexeme ∈ lexemes, Scan.Writable lexeme) :
    (∃ entries : List Scan.Entry, entries.map Scan.Entry.lexeme = lexemes ∧
      Scan.Entry.Separated entries) ∧
      ∀ (entries : List Scan.Entry) (last : List Char), entries.map Scan.Entry.lexeme = lexemes →
        Scan.Entry.Separated entries → Scan.Trailing last →
          tokenize (String.ofList (Scan.Entry.written last entries)) =
            .ok (Scan.Entry.placed 0 entries) := by
  constructor
  · obtain ⟨entries, same, separated⟩ := Scan.exists_entries writable
    exact ⟨entries, same, fun entry member => separated entry (List.mem_of_mem_tail member)⟩
  · intro entries last _ separated ending
    rw [tokenize, String.toList_ofList]
    exact (Scan.laid_written ending entries separated 0).scanned

def remarks : List Scan.Entry :=
  [⟨['#', '"', '#', '\n'], .number 7, ['0', '0', '7'], @Scan.Layout.comment ['"', '#'] [] (by decide) .nil,
      .number 7 2, fun _ _ => by decide⟩,
    ⟨['\t', '#', '$', '\n'], .operator .eq, ['=', '='],
      .blank rfl (@Scan.Layout.comment ['$'] [] (by decide) .nil), .operator .eq, fun _ _ => by decide⟩,
    ⟨['\n'], .name (String.ofList ['e', 'n', 'd', 's']), ['e', 'n', 'd', 's'], .blank rfl .nil,
      @Scan.Spells.name 'e' ['n', 'd', 's'] rfl (List.all_eq_true.1 rfl) (by decide +kernel),
      fun _ _ => by decide⟩]

theorem tokenize_remarks :
    tokenize "#\"#\n007\t#$\n==\nends#=" =
      .ok [⟨.number 7, .ofWidth 4 3⟩, ⟨.operator .eq, .ofWidth 11 2⟩, ⟨.name "ends", .ofWidth 14 4⟩] := by
  have writable : ∀ lexeme ∈ remarks.map Scan.Entry.lexeme, Scan.Writable lexeme := by
    refine List.forall_mem_map.2 fun entry _ => (Scan.writable_iff entry.lexeme).2 ?_
    exact ⟨entry.text, entry.spelled, entry.fits⟩
  have separated : Scan.Entry.Separated remarks := by
    unfold Scan.Entry.Separated remarks
    simp
  exact (layout_irrelevant _ writable).2 remarks ['#', '='] rfl separated
    (.comment .nil (by decide))

end FernLang
