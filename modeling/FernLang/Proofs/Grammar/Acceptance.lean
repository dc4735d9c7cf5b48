import FernLang.Proofs.Grammar.Completion
import FernLang.Proofs.Grammar.Regrouping
import FernLang.Proofs.Grammar.Rendering

/-!
Which tokens are accepted. Not all that the bare grammar derives: a let in front of an item is a
top-level one, a body that starts with a parenthesis or a minus is read on from its binding, and a
parenthesis behind a variant opens its fields. Whatever is derived without these three is accepted, and
nothing else is. Items that run into one another make one item, so the reader may find fewer items than
were derived; what it goes by is that each item it takes ends where nothing goes on from it.
-/

namespace FernLang

namespace Grammar

def firstLexeme (tokens : List Token) : Option Lexeme := tokens.head?.map Token.lexeme

def lastLexeme (tokens : List Token) : Option Lexeme := tokens.getLast?.map Token.lexeme

/-- What comes next is not taken for the fields of a variant at the end of the tokens. -/
def FieldsApart (tokens rest : List Token) : Prop :=
  (∃ name, lastLexeme tokens = some (.name name)) → firstLexeme rest ≠ some (.mark .leftParen)

/-- Programs of the bare grammar that the reader can take apart: no item that starts with a let is an
expression, no body goes on from its binding, and no parenthesis follows a data type that ends in a
variant without fields. -/
inductive Legible : List Token → List Expr → Prop
  | empty : Legible [] []
  | more {tokens rest : List Token} {item : Expr} {items : List Expr}
      (one : Item .apart tokens item) (others : Legible rest items)
      (outer : firstLexeme tokens = some (.keyword .let_) →
        ∃ name binding span, item = .letTop name binding span)
      (apart : ∀ name variants span, item = .dataType name variants span → FieldsApart tokens rest) :
      Legible (tokens ++ rest) (item :: items)

theorem Legible.derived {tokens : List Token} {program : List Expr} (legible : Legible tokens program) :
    Program .free tokens program := by
  induction legible with
  | empty => exact .empty
  | more one others outer apart ih => exact .more one.free ih

section

variable {before after rest : List Token}

theorem lastLexeme_append (before after : List Token) :
    lastLexeme (before ++ after) = (lastLexeme after).or (lastLexeme before) := by
  simp only [lastLexeme, List.getLast?_append]
  cases after.getLast? <;> rfl

theorem fieldsApart_of_last {lexeme : Lexeme} (last : lastLexeme before = some lexeme)
    (other : ∀ name, lexeme ≠ .name name) : FieldsApart before rest := by
  intro ends
  obtain ⟨name, named⟩ := ends
  rw [last] at named
  exact absurd (Option.some.inj named) (other name)

theorem fieldsApart_nil : FieldsApart [] rest := by
  intro ends
  obtain ⟨name, named⟩ := ends
  cases named

theorem FieldsApart.append (front : FieldsApart before (after ++ rest)) (back : FieldsApart after rest) :
    FieldsApart (before ++ after) rest := by
  intro ends
  obtain ⟨name, named⟩ := ends
  cases after with
  | nil => exact front ⟨name, by simpa using named⟩
  | cons token more =>
      refine back ⟨name, ?_⟩
      rw [lastLexeme_append] at named
      obtain ⟨last, found⟩ : ∃ last, lastLexeme (token :: more) = some last := by
        simp [lastLexeme, List.getLast?_cons]
      rw [found] at named ⊢
      exact named

theorem FieldsApart.right (before : List Token) (apart : FieldsApart (before ++ after) rest) :
    FieldsApart after rest := by
  intro ends
  obtain ⟨name, named⟩ := ends
  refine apart ⟨name, ?_⟩
  rw [lastLexeme_append, named]
  rfl

theorem FieldsApart.left (apart : FieldsApart (before ++ after) rest)
    (other : firstLexeme after ≠ some (.mark .leftParen)) : FieldsApart before (after ++ rest) := by
  cases after with
  | nil => simpa using apart
  | cons token more => exact fun _ => other

end

theorem Chained.first_ne {α : Type} {opener : Lexeme} {part : List Token → α → Prop}
    {tokens : List Token} {items : List α} (all : Chained opener part tokens items) (lexeme : Lexeme)
    (other : opener ≠ lexeme) : firstLexeme tokens ≠ some lexeme := by
  cases all with
  | none => simp [firstLexeme]
  | more one others => simpa [firstLexeme] using other

/-- Of the tokens that go on from an expression, an item starts with none but a parenthesis or a minus. -/
theorem Item.opens {discipline : Discipline} {tokens : List Token} {tree : Expr}
    (item : Item discipline tokens tree) :
    ∃ token more, tokens = token :: more ∧
      (token.lexeme = .mark .leftParen ∨ token.lexeme = .operator .sub ∨ infixPower token.lexeme = none) := by
  cases item with
  | expression phrase =>
      obtain ⟨token, more, same, -, -, kind⟩ := phrase.opens
      exact ⟨token, more, same, kind⟩
  | _ => exact ⟨_, _, rfl, .inr (.inr rfl)⟩

theorem Legible.first_ne_bar {tokens : List Token} {program : List Expr}
    (legible : Legible tokens program) : firstLexeme tokens ≠ some (.operator .bitOr) := by
  cases legible with
  | empty => simp [firstLexeme]
  | more one others outer apart =>
      obtain ⟨⟨lexeme, span⟩, more, rfl, kind⟩ := one.opens
      intro starts
      cases starts
      simp [infixPower] at kind

end Grammar

namespace Parse

open Grammar

theorem looks_off {rest : List Token} {kind : Kind} {lexeme : Lexeme}
    (exact : ∀ token : Token, token.kind = kind → token = ⟨lexeme, token.span⟩)
    (other : firstLexeme rest ≠ some lexeme) (last : Span) :
    looking kind ⟨rest, last⟩ = .ok false ⟨rest, last⟩ := by
  have none : rest.head?.any (·.kind == kind) = false := by
    cases rest with
    | nil => rfl
    | cons token more =>
        by_contra found
        have same : token.kind = kind := by simpa using found
        refine other ?_
        rw [exact token same]
        rfl
  rw [looking_apply, none]

theorem variant_reads {inner rest : List Token} {one : String × List String}
    (written : Variant inner one) (done : List (String × List String))
    (fresh : one.1 ∉ done.map Prod.fst) (apart : FieldsApart inner rest) (last : Span) :
    variant done ⟨inner ++ rest, last⟩ = .ok one ⟨rest, spanAfter last inner⟩ := by
  cases written with
  | @bare name place =>
      have looks := looks_off (fun _ => Token.eq_of_mark) (apart ⟨name, rfl⟩) place
      rw [variant, List.singleton_append, bind_of_ok (expectName_cons ..)]
      simp only [if_neg fresh]
      rw [bind_of_ok looks]
      rfl
  | @fields name names tokens place opening close listed distinct =>
      have read : params "data constructor fields" ⟨tokens ++ rest, opening⟩ = .ok names ⟨rest, close⟩ :=
        params_enclosed listed distinct rest opening
      have looks : looking (.mark .leftParen)
          ⟨⟨.mark .leftParen, opening⟩ :: (tokens ++ rest), place⟩ =
            .ok true ⟨⟨.mark .leftParen, opening⟩ :: (tokens ++ rest), place⟩ := rfl
      rw [variant, List.cons_append, List.cons_append, bind_of_ok (expectName_cons ..)]
      simp only [if_neg fresh]
      rw [bind_of_ok looks, if_pos rfl, bind_of_ok (next_cons ..), bind_of_ok read]
      simp [listed.spanAfter]

/-- What may follow a variant depends on how it ends, so the chain is followed to its last variant, the
only one that `rest` follows. -/
theorem variants_read {tokens rest : List Token} {variants : List (String × List String)}
    (written : Chained (.operator .bitOr) Variant tokens variants) (context : String) (steps : Nat)
    (done : List (String × List String)) (last : Span) (enough : variants.length ≤ steps)
    (distinct : ((done ++ variants).map Prod.fst).Nodup) (apart : FieldsApart tokens rest)
    (other : firstLexeme rest ≠ some (.operator .bitOr)) :
    chained (.operator .bitOr) context variant steps done ⟨tokens ++ rest, last⟩ =
      .ok (done ++ variants) ⟨rest, spanAfter last tokens⟩ := by
  induction written generalizing steps done last with
  | none =>
      have looks := looks_off (fun _ => Token.eq_of_operator) other last
      cases steps with
      | zero => simp [chained]
      | succ steps =>
          rw [List.nil_append, chained, bind_of_ok looks]
          simp
  | @more tokens others one variants start written chain ih =>
      obtain ⟨steps, rfl⟩ : ∃ less, steps = less + 1 := ⟨steps - 1, by simp at enough; omega⟩
      have split : done ++ one :: variants = (done ++ [one]) ++ variants := by simp
      have fresh : one.1 ∉ done.map Prod.fst := by
        rw [List.map_append, List.map_cons, List.nodup_append] at distinct
        exact fun member => distinct.2.2 _ member _ List.mem_cons_self rfl
      have behind := chain.first_ne (.mark .leftParen) (by simp)
      have inner : FieldsApart (tokens ++ others) rest := FieldsApart.right [_] apart
      have read := variant_reads written done fresh (inner.left behind) start
      have looks : looking (.operator .bitOr)
          ⟨⟨.operator .bitOr, start⟩ :: (tokens ++ (others ++ rest)), last⟩ =
            .ok true ⟨⟨.operator .bitOr, start⟩ :: (tokens ++ (others ++ rest)), last⟩ := rfl
      simp only [chained, List.cons_append, List.append_assoc, bind_of_ok looks, if_true,
        bind_of_ok (next_cons ..), bind_of_ok read]
      rw [split, spanAfter_cons, spanAfter_append]
      exact ih steps _ _ (by simpa using enough) (split ▸ distinct) (inner.right tokens)

/-- In front of `rest` the reader takes exactly these tokens as an item. -/
def TakesItem (tokens rest : List Token) : Prop :=
  ∀ room last, tokens.length ≤ room →
    ∃ tree after, expression room 0 true ⟨tokens ++ rest, last⟩ = .ok tree ⟨rest, after⟩

theorem takesItem_declaration {token : Token} {tokens rest : List Token}
    (declares : opensDeclaration token = true)
    (opened : ∀ room, tokens.length ≤ room → ∃ tree after,
      opening (fun power => expression room power false) (pattern room) true token
        ⟨tokens ++ rest, token.span⟩ = .ok tree ⟨rest, after⟩) : TakesItem (token :: tokens) rest := by
  intro room last enough
  obtain ⟨room, rfl⟩ : ∃ less, room = less + 1 := ⟨room - 1, by simp at enough; omega⟩
  obtain ⟨tree, after, read⟩ := opened room (by simpa using enough)
  refine ⟨tree, after, ?_⟩
  rw [expression, List.cons_append, bind_of_ok (next_cons ..), bind_of_ok read, if_pos declares, pure_apply]

theorem takesItem_function {shape : Shape} {names tokens rest : List Token} {name : String}
    {params : List String} {body : Expr} {start place opening closing colon close : Span}
    (listed : Enclosed Named closing names params) (distinct : params.Nodup)
    (inner : Phrase .table shape tokens body) :
    TakesItem (⟨.keyword .function, start⟩ :: ⟨.name name, place⟩ :: ⟨.mark .leftParen, opening⟩ ::
      (names ++ ⟨.mark .colon, colon⟩ :: (tokens ++ [⟨.keyword .end_, close⟩]))) rest := by
  refine takesItem_declaration rfl fun room enough =>
    ⟨.function name params body (start.merge close), close, ?_⟩
  have inside : tokens.length ≤ room := by
    simp only [List.length_cons, List.length_append] at enough
    omega
  have readBody := (phrase_reading inner).whole inner inside shape.fits_zero
    (stops_keyword 0 .end_ close rest) colon
  simp only [Parse.opening, functionForm, List.cons_append, List.append_assoc, List.nil_append]
  rw [if_neg (by decide), bind_of_ok (expectName_cons ..), bind_of_ok (expect_mark ..),
    bind_of_ok (params_enclosed listed distinct _ _), bind_of_ok (expect_mark ..), bind_of_ok readBody,
    bind_of_ok (expect_keyword ..), pure_apply]

theorem takesItem_dataType {first others rest : List Token} {name : String}
    {one : String × List String} {variants : List (String × List String)} {start place equals : Span}
    (head : Variant first one) (tail : Chained (.operator .bitOr) Variant others variants)
    (distinct : ((one :: variants).map Prod.fst).Nodup)
    (apart : FieldsApart (first ++ others) rest)
    (other : firstLexeme rest ≠ some (.operator .bitOr)) :
    TakesItem (⟨.keyword .data, start⟩ :: ⟨.name name, place⟩ :: ⟨.mark .equals, equals⟩ ::
      (first ++ others)) rest := by
  refine takesItem_declaration rfl fun room enough =>
    ⟨.dataType name (one :: variants) (start.merge (spanAfter equals (first ++ others))),
      spanAfter equals (first ++ others), ?_⟩
  have behind := tail.first_ne (.mark .leftParen) (by simp)
  have readFirst := variant_reads head [] (by simp) (apart.left behind) equals
  have bound := tail.length_le
  have readRest := variants_read tail "data declaration" (others ++ rest).length [one]
    (spanAfter equals first) (by simp only [List.length_append]; omega) distinct (apart.right first) other
  simp only [Parse.opening, dataForm, List.cons_append, List.append_assoc]
  rw [if_neg (by decide), bind_of_ok (expectName_cons ..), bind_of_ok (expect_mark ..), bind_of_ok readFirst,
    bind_of_ok (left_apply _), bind_of_ok readRest, bind_of_ok (get_apply _), pure_apply, spanAfter_append]
  rfl

theorem takesItem_letTop {tokens rest : List Token} {name : String} {start place equals : Span}
    (sequence : Sequence tokens) (stops : Stops 0 rest) :
    TakesItem (⟨.keyword .let_, start⟩ :: ⟨.name name, place⟩ :: ⟨.mark .equals, equals⟩ :: tokens)
      rest := by
  intro room last enough
  obtain ⟨room, rfl⟩ : ∃ less, room = less + 1 := ⟨room - 1, by simp at enough; omega⟩
  obtain ⟨binding, shape, bound⟩ := sequence.grouped
  have inside : tokens.length ≤ room := by
    simp only [List.length_cons] at enough
    omega
  have readBinding := (phrase_reading bound).whole bound inside shape.fits_zero stops equals
  have opened : opening (fun power => expression room power false) (pattern room) true
      ⟨.keyword .let_, start⟩
      ⟨⟨.name name, place⟩ :: ⟨.mark .equals, equals⟩ :: (tokens ++ rest), start⟩ =
        .ok (.letTop name binding (start.merge binding.span)) ⟨rest, spanAfter equals tokens⟩ := by
    simp only [opening, letForm]
    rw [bind_of_ok (expectName_cons ..), bind_of_ok (expect_mark ..), bind_of_ok readBinding,
      if_pos trivial, pure_apply]
  refine ⟨.letTop name binding (start.merge binding.span), spanAfter equals tokens, ?_⟩
  simp only [expression, List.cons_append]
  rw [bind_of_ok (next_cons ..), bind_of_ok opened,
    if_neg (by simp [opensDeclaration, Token.kind, Lexeme.kind]), bind_of_ok (left_apply _),
    continuing_stops _ _ _ _ stops]

theorem takesItem_expression {tokens rest : List Token} (sequence : Sequence tokens)
    (notLet : firstLexeme tokens ≠ some (.keyword .let_)) (stops : Stops 0 rest) :
    TakesItem tokens rest := by
  intro room last enough
  obtain ⟨tree, shape, phrase⟩ := sequence.grouped
  have read := (phrase_reading phrase).whole phrase enough shape.fits_zero stops last
  obtain ⟨token, more, rfl, opens⟩ := phrase.opens
  obtain ⟨room, rfl⟩ : ∃ less, room = less + 1 := ⟨room - 1, by simp at enough; omega⟩
  refine ⟨tree, spanAfter last (token :: more), ?_⟩
  rw [← read]
  exact expression_top room 0 (more ++ rest) last (fun same => notLet (congrArg some same)) opens.2.1

def Accepted (tokens : List Token) : Prop :=
  ∀ room steps done last, tokens.length ≤ room → tokens.length ≤ steps →
    ∃ program after, items room steps done ⟨tokens, last⟩ = .ok program after

theorem accepted_nil : Accepted [] := by
  intro room steps done last _ _
  cases steps with
  | zero => exact ⟨done, _, rfl⟩
  | succ steps => exact ⟨done, _, rfl⟩

theorem accepted_append {tokens rest : List Token} (some : tokens ≠ []) (taken : TakesItem tokens rest)
    (others : Accepted rest) : Accepted (tokens ++ rest) := by
  intro room steps done last enough counted
  rw [List.length_append] at enough counted
  have positive : 0 < tokens.length := List.length_pos_iff.2 some
  obtain ⟨steps, rfl⟩ : ∃ less, steps = less + 1 := ⟨steps - 1, by omega⟩
  obtain ⟨tree, after, read⟩ := taken room last (by omega)
  obtain ⟨program, behind, readRest⟩ := others room steps (done ++ [tree]) after (by omega) (by omega)
  have present : ¬(tokens ++ rest).head?.isNone = true := by simp [some]
  refine ⟨program, behind, ?_⟩
  rw [items, bind_of_ok (peek_apply _), if_neg present, bind_of_ok read, readRest]

/-- Tokens that are accepted on their own and behind an expression, which takes from them a sequence that
goes on from it. -/
structure Resumes (tokens : List Token) : Prop where
  accepted : Accepted tokens
  splits : ¬Stops 0 tokens →
    ∃ head more, tokens = head ++ more ∧ Sequence head ∧ Stops 0 more ∧ Accepted more

theorem Resumes.of_stops {tokens : List Token} (accepted : Accepted tokens) (stops : Stops 0 tokens) :
    Resumes tokens :=
  ⟨accepted, fun goesOn => absurd stops goesOn⟩

theorem stops_append {power : Nat} {token : Token} {more rest : List Token} :
    Stops power (token :: more ++ rest) ↔ Stops power (token :: more) := by
  rw [List.cons_append, stops_cons, stops_cons]

theorem Resumes.absorbed {tokens rest : List Token} (resumes : Resumes rest) (front : Sequence tokens) :
    ∃ taken more, rest = taken ++ more ∧ Sequence (tokens ++ taken) ∧ Stops 0 more ∧ Accepted more := by
  by_cases stops : Stops 0 rest
  · exact ⟨[], rest, rfl, by simpa using front, stops, resumes.accepted⟩
  · obtain ⟨head, more, rfl, back, apart, accepted⟩ := resumes.splits stops
    obtain ⟨token, others, rfl, -⟩ := back.opens
    rw [stops_append] at stops
    exact ⟨token :: others, more, rfl, front.join back stops, apart, accepted⟩

/-- An item in front of tokens that can be read behind an expression. The induction goes from the last
item to the first, since an item takes from those behind it. -/
theorem resumes_item {tokens rest : List Token} {tree : Expr} (item : Item .apart tokens tree)
    (outer : firstLexeme tokens = some (.keyword .let_) →
      ∃ name binding span, tree = .letTop name binding span)
    (apart : ∀ name variants span, tree = .dataType name variants span → FieldsApart tokens rest)
    (other : firstLexeme rest ≠ some (.operator .bitOr)) (resumes : Resumes rest) :
    Resumes (tokens ++ rest) := by
  cases item with
  | function listed distinct inner =>
      obtain ⟨body, shape, inner⟩ := inner.sequence.grouped
      exact .of_stops (accepted_append (by simp) (takesItem_function listed distinct inner)
        resumes.accepted) (stops_keyword 0 _ _ _)
  | @dataType name first others variant variants start place equals head tail distinct =>
      have apart : FieldsApart (first ++ others) rest := (apart _ _ _ rfl).right
        [⟨.keyword .data, start⟩, ⟨.name name, place⟩, ⟨.mark .equals, equals⟩]
      exact .of_stops (accepted_append (by simp) (takesItem_dataType head tail distinct apart other)
        resumes.accepted) (stops_keyword 0 _ _ _)
  | @letTop _ tokens _ _ _ _ _ bound =>
      -- What goes on from the binding becomes part of it, up to where the next item is read from.
      obtain ⟨head, more, rfl, sequence, stops, accepted⟩ := resumes.absorbed bound.sequence
      rw [← List.append_assoc]
      exact .of_stops (accepted_append (by simp) (takesItem_letTop sequence stops) accepted)
        (stops_keyword 0 _ _ _)
  | expression phrase =>
      have inner : ∀ name binding span, tree ≠ .letTop name binding span := by
        intro name binding span same
        subst same
        cases phrase.surface
      have notLet : firstLexeme tokens ≠ some (.keyword .let_) := by
        intro same
        obtain ⟨name, binding, span, same⟩ := outer same
        exact inner _ _ _ same
      obtain ⟨token, others, rfl, -⟩ := phrase.opens
      obtain ⟨head, more, rfl, sequence, stops, accepted⟩ := resumes.absorbed phrase.sequence
      have whole := accepted_append (by simp) (takesItem_expression sequence notLet stops) accepted
      rw [← List.append_assoc]
      exact ⟨whole, fun _ => ⟨_, more, rfl, sequence, stops, accepted⟩⟩

theorem legible_resumes {tokens : List Token} {program : List Expr} (legible : Legible tokens program) :
    Resumes tokens := by
  induction legible with
  | empty => exact .of_stops accepted_nil (stops_nil 0)
  | more one others outer apart ih => exact resumes_item one outer apart others.first_ne_bar ih

section

variable {α : Type} {room : Nat} {cursor middle after : Cursor} {used more tokens : List Token} {tree : Expr}

def LeavesApart (read : Parse α) : Prop :=
  ∀ cursor value after, read cursor = .ok value after →
    ∃ used, cursor.Takes used after ∧ FieldsApart used after.rest

theorem fieldsApart_trans (second : middle.Takes more after) (front : FieldsApart used middle.rest)
    (back : FieldsApart more after.rest) : FieldsApart (used ++ more) after.rest := by
  rw [second.rest] at front
  exact front.append back

theorem lastLexeme_enclosed {part : List Token → α → Prop} {close : Span} {items : List α}
    (all : Enclosed part close tokens items) : lastLexeme tokens = some (.mark .rightParen) := by
  cases all with
  | empty => rfl
  | listed all =>
      induction all with
      | last one => simp [lastLexeme]
      | @more tokens rest item items comma one others ih =>
          rw [List.append_cons, lastLexeme_append, ih]
          rfl

theorem leavesApart_variant (done : List (String × List String)) : LeavesApart (variant done) := by
  intro cursor one after read
  obtain ⟨⟨name, token⟩, middle, named, read⟩ := bind_ok read
  have named := expectName_ok named
  by_cases known : name ∈ done.map Prod.fst
  · simp only [if_pos known] at read
    cases read
  · simp only [if_neg known] at read
    rw [bind_of_ok (looking_apply ..)] at read
    split at read
    next =>
        obtain ⟨paren, behind, opened, read⟩ := bind_ok read
        obtain ⟨names, last, listed, read⟩ := bind_ok read
        cases read
        obtain ⟨used, close, taken, -, listed, -⟩ := params_ok listed
        have last : lastLexeme ([⟨.name name, token.span⟩, paren] ++ used) = some (.mark .rightParen) := by
          rw [lastLexeme_append, lastLexeme_enclosed listed]
          rfl
        exact ⟨_, named.cons ((next_ok opened).cons taken), fieldsApart_of_last last (by simp)⟩
    next unseen =>
        cases read
        refine ⟨_, named, fun _ starts => unseen ?_⟩
        obtain ⟨paren, found, same⟩ := Option.map_eq_some_iff.1 starts
        simp [found, Token.kind, same, Lexeme.kind]

theorem leavesApart_chained {kind : Kind} {context : String} {item : List α → Parse α}
    (each : ∀ done, LeavesApart (item done))
    (quiet : ∀ token : Token, token.kind = kind → ∀ name, token.lexeme ≠ .name name) (steps : Nat)
    (done : List α) : LeavesApart (chained kind context item steps done) := by
  induction steps generalizing done with
  | zero =>
      intro cursor items after read
      cases read
      exact ⟨[], .nothing _, fieldsApart_nil⟩
  | succ steps ih =>
      intro cursor items after read
      rcases looking_ok read with ⟨token, middle, opened, same, read⟩ | stopped
      · obtain ⟨one, behind, first, read⟩ := bind_ok read
        obtain ⟨used, taken, apart⟩ := each done _ _ _ first
        obtain ⟨others, beyond, apartOthers⟩ := ih _ _ _ _ read
        have front : FieldsApart [token] middle.rest := fieldsApart_of_last rfl (quiet token same)
        exact ⟨_, opened.cons (taken.trans beyond), fieldsApart_trans (taken.trans beyond) front
          (fieldsApart_trans beyond apart apartOthers)⟩
      · cases stopped
        exact ⟨[], .nothing _, fieldsApart_nil⟩

theorem leavesApart_dataForm (start : Span) : LeavesApart (dataForm true start) := by
  intro cursor tree after read
  obtain ⟨⟨name, token⟩, middle, named, read⟩ := bind_ok read
  obtain ⟨equals, behind, second, read⟩ := bind_ok read
  obtain ⟨one, beyond, third, read⟩ := bind_ok read
  obtain ⟨count, _, counted, read⟩ := bind_ok read
  cases counted
  obtain ⟨variants, last, chain, read⟩ := bind_ok read
  cases read
  have quiet (token : Token) (same : token.kind = .operator .bitOr) (name : String) :
      token.lexeme ≠ .name name := by
    rw [Token.eq_of_operator same]
    simp
  obtain ⟨first, takenFirst, apartFirst⟩ := leavesApart_variant [] _ _ _ third
  obtain ⟨others, takenRest, apartRest⟩ := leavesApart_chained leavesApart_variant quiet _ _ _ _ _ chain
  have taken := takenFirst.trans takenRest
  have front : FieldsApart [⟨.name name, token.span⟩, ⟨.mark .equals, equals.span⟩] behind.rest :=
    fieldsApart_of_last rfl (by simp)
  exact ⟨_, (expectName_ok named).cons ((expect_mark_ok second).cons taken),
    fieldsApart_trans taken front (fieldsApart_trans takenRest apartFirst apartRest)⟩

theorem expression_dataType {last : Span} {rest : List Token} {start : Span}
    (read : expression room 0 true ⟨⟨.keyword .data, start⟩ :: rest, last⟩ = .ok tree after) :
    ∃ used, (⟨⟨.keyword .data, start⟩ :: rest, last⟩ : Cursor).Takes used after ∧
      FieldsApart used after.rest := by
  cases room with
  | zero => cases read
  | succ room =>
      rw [expression, bind_of_ok (next_cons ..)] at read
      obtain ⟨item, middle, opened, read⟩ := bind_ok read
      cases read
      obtain ⟨used, taken, apart⟩ := leavesApart_dataForm start _ _ _ opened
      have front : FieldsApart [⟨.keyword .data, start⟩] rest := fieldsApart_of_last rfl (by simp)
      exact ⟨_, Cursor.Takes.cons ⟨rfl, rfl⟩ taken, fieldsApart_trans taken front apart⟩

theorem legible_item {items : List Expr} (read : expression room 0 true cursor = .ok tree middle)
    (others : Legible middle.rest items) : Legible cursor.rest (tree :: items) := by
  obtain ⟨⟨lexeme, span⟩, used, taken, item⟩ := expression_item read
  obtain ⟨rest, last⟩ := cursor
  obtain rfl : rest = ⟨lexeme, span⟩ :: used ++ middle.rest := taken.rest
  refine .more (item.mono Discipline.table_stricter_apart) others ?_ ?_
  · intro starts
    cases starts
    exact expression_letTop read
  · intro name variants place same
    subst same
    have declared : lexeme = .keyword .data := by
      cases item with
      | expression phrase => cases phrase.surface
      | dataType head tail distinct => rfl
    subst declared
    obtain ⟨same, takenSame, apart⟩ := expression_dataType read
    have whole : ⟨.keyword .data, span⟩ :: used ++ middle.rest = same ++ middle.rest := takenSame.rest
    rw [List.append_cancel_right whole]
    exact apart

end

end Parse

open Grammar

theorem parseTokens_legible {room : Nat} {tokens : List Token} {program : List Expr}
    (parsed : parseTokens room tokens = .ok program) : Legible tokens program :=
  Parse.parseTokens_run Legible .empty Parse.legible_item parsed

theorem parseTokens_accepted {room : Nat} {tokens : List Token} (accepted : Parse.Accepted tokens)
    (enough : tokens.length ≤ room) : ∃ program, parseTokens room tokens = .ok program := by
  obtain ⟨program, after, read⟩ := accepted room tokens.length [] .origin enough (Nat.le_refl _)
  refine ⟨program, ?_⟩
  rw [parseTokens, Parse.program, Parse.bind_of_ok (Parse.left_apply _)]
  simp only [Cursor.ofTokens, read]

/-- Legible programs are derived by the bare grammar and accepted, unless there is less room than tokens
and it does not do; and whatever is accepted is legible, as the program that is read. -/
theorem legible_accepted (room : Nat) (tokens : List Token) :
    (∀ program, Legible tokens program →
      Program .free tokens program ∧
        ((∃ read, parseTokens room tokens = .ok read) ∨
          room ≤ tokens.length ∧ parseTokens room tokens = .error .tooDeep)) ∧
      ∀ program, parseTokens room tokens = .ok program → Legible tokens program := by
  constructor
  · intro program legible
    refine ⟨legible.derived, ?_⟩
    have accepted := (Parse.legible_resumes legible).accepted
    obtain ⟨read, parsed⟩ := parseTokens_accepted accepted (Nat.le_max_right room tokens.length)
    rcases parseTokens_more (Nat.le_max_left room tokens.length) tokens with same | deep
    · exact .inl ⟨read, same.trans parsed⟩
    · exact .inr ⟨parseTokens_tooDeep deep, deep⟩
  · intro program parsed
    exact parseTokens_legible parsed

/-- The tokens of `let a = 1 (2) data T = A -3`. -/
def runTogether : List Token :=
  [⟨.keyword .let_, .ofWidth 0 3⟩, ⟨.name "a", .ofWidth 4 1⟩, ⟨.mark .equals, .ofWidth 6 1⟩,
    ⟨.number 1, .ofWidth 8 1⟩, ⟨.mark .leftParen, .ofWidth 10 1⟩, ⟨.number 2, .ofWidth 11 1⟩,
    ⟨.mark .rightParen, .ofWidth 12 1⟩, ⟨.keyword .data, .ofWidth 14 4⟩, ⟨.name "T", .ofWidth 19 1⟩,
    ⟨.mark .equals, .ofWidth 21 1⟩, ⟨.name "A", .ofWidth 23 1⟩, ⟨.operator .sub, .ofWidth 25 1⟩,
    ⟨.number 3, .ofWidth 26 1⟩]

theorem runTogether_legible : ∃ program, Legible runTogether program ∧ program.length = 4 := by
  refine ⟨[_, _, _, _], .more (.letTop .number) (.more (.expression (.paren .number))
    (.more (.dataType .bare .none (by simp)) (.more (.expression (.negation .number trivial)) .empty
      (by simp [firstLexeme]) (by simp)) (by simp [firstLexeme]) ?_) (by simp [firstLexeme]) (by simp))
    (fun _ => ⟨_, _, _, rfl⟩) (by simp), rfl⟩
  intro _ _ _ _ _
  simp [firstLexeme]

theorem runTogether_accepted :
    ∃ program read, Legible runTogether program ∧ program.length = 4 ∧
      parseTokens nestingLimit runTogether = .ok read ∧ read.length = 3 ∧ Legible runTogether read := by
  obtain ⟨program, legible, four⟩ := runTogether_legible
  have accepts := legible_accepted nestingLimit runTogether
  have three : (parseTokens nestingLimit runTogether).toOption.map List.length = some 3 := rfl
  rcases (accepts.1 program legible).2 with ⟨read, parsed⟩ | ⟨short, -⟩
  · rw [parsed] at three
    exact ⟨program, read, legible, four, parsed, Option.some.inj three, accepts.2 read parsed⟩
  · exact absurd short (by decide)

theorem refused_anywhere {tokens : List Token} {error : ParseError}
    (refused : parseTokens nestingLimit tokens = .error (.malformed error)) :
    ¬∃ room program, parseTokens room tokens = .ok program := by
  intro accepted
  obtain ⟨room, program, parsed⟩ := accepted
  exact parseTokens_not_both parsed refused

/-- The tokens of `let x = 1 x end`. -/
def letExpression : List Token :=
  [⟨.keyword .let_, .ofWidth 0 3⟩, ⟨.name "x", .ofWidth 4 1⟩, ⟨.mark .equals, .ofWidth 6 1⟩,
    ⟨.number 1, .ofWidth 8 1⟩, ⟨.name "x", .ofWidth 10 1⟩, ⟨.keyword .end_, .ofWidth 12 3⟩]

/-- The tokens of `(let x = 1 (2) end)`. -/
def letWithParens : List Token :=
  [⟨.mark .leftParen, .ofWidth 0 1⟩, ⟨.keyword .let_, .ofWidth 1 3⟩, ⟨.name "x", .ofWidth 5 1⟩,
    ⟨.mark .equals, .ofWidth 7 1⟩, ⟨.number 1, .ofWidth 9 1⟩, ⟨.mark .leftParen, .ofWidth 11 1⟩,
    ⟨.number 2, .ofWidth 12 1⟩, ⟨.mark .rightParen, .ofWidth 13 1⟩, ⟨.keyword .end_, .ofWidth 15 3⟩,
    ⟨.mark .rightParen, .ofWidth 18 1⟩]

/-- The tokens of `data T = A (1)`. -/
def variantWithParens : List Token :=
  [⟨.keyword .data, .ofWidth 0 4⟩, ⟨.name "T", .ofWidth 5 1⟩, ⟨.mark .equals, .ofWidth 7 1⟩,
    ⟨.name "A", .ofWidth 9 1⟩, ⟨.mark .leftParen, .ofWidth 11 1⟩, ⟨.number 1, .ofWidth 12 1⟩,
    ⟨.mark .rightParen, .ofWidth 13 1⟩]

/-- Each of the three ways to run on is derived by the bare grammar and refused. -/
theorem runningOn_refused :
    (∃ program, Program .free letExpression program) ∧
      (¬∃ room program, parseTokens room letExpression = .ok program) ∧
      (∃ program, Program .free letWithParens program) ∧
      (¬∃ room program, parseTokens room letWithParens = .ok program) ∧
      (∃ program, Program .free variantWithParens program) ∧
      ¬∃ room program, parseTokens room variantWithParens = .ok program := by
  refine ⟨⟨[_], .more (.expression (.letIn .number .var trivial)) .empty⟩, ?_,
    ⟨[_], .more (.expression (.paren (.letIn .number (.paren .number) trivial))) .empty⟩, ?_,
    ⟨[_, _], .more (.dataType .bare .none (by simp)) (.more (.expression (.paren .number)) .empty)⟩, ?_⟩
  · exact refused_anywhere rfl
  · exact refused_anywhere rfl
  · exact refused_anywhere rfl

end FernLang
