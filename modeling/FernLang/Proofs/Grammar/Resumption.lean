import FernLang.Proofs.Grammar.Room

/-!
Reading when more tokens follow. From any cursor, reading ends with a value that stays the same
whatever follows, as long as it does not go on from what was read; or it is refused for good; or it
is unfinished, and some tokens complete it. Kinds that may follow a form and kinds that may complete
the next one meet when forms are read one after the other.
-/

namespace FernLang

def Cursor.append (cursor : Cursor) (more : List Token) : Cursor := ⟨cursor.rest ++ more, cursor.last⟩

@[simp] theorem Cursor.append_nil (cursor : Cursor) : cursor.append [] = cursor := by
  rw [append, List.append_nil]

namespace Parse

variable {α β σ : Type}

def Begins (kinds : Kind → Prop) (tokens : List Token) : Prop :=
  ∀ token ∈ tokens.head?, kinds token.kind

theorem begins_nil (kinds : Kind → Prop) : Begins kinds [] := by
  intro token member
  cases member

theorem Begins.mono {kinds wider : Kind → Prop} (sub : ∀ kind, kinds kind → wider kind)
    {tokens : List Token} (begins : Begins kinds tokens) : Begins wider tokens :=
  fun token member => sub _ (begins token member)

def Starts (kinds : Kind → Prop) (tokens : List Token) : Prop :=
  ∃ token ∈ tokens.head?, kinds token.kind

theorem Starts.mono {kinds wider : Kind → Prop} (sub : ∀ kind, kinds kind → wider kind)
    {tokens : List Token} (starts : Starts kinds tokens) : Starts wider tokens := by
  obtain ⟨token, member, kind⟩ := starts
  exact ⟨token, member, sub _ kind⟩

theorem Starts.append {kinds : Kind → Prop} {tokens : List Token} (starts : Starts kinds tokens)
    (more : List Token) : Starts kinds (tokens ++ more) := by
  obtain ⟨token, member, kind⟩ := starts
  refine ⟨token, ?_, kind⟩
  rw [List.head?_append, Option.mem_def.1 member]
  rfl

theorem Starts.begins {kinds : Kind → Prop} {tokens : List Token} (starts : Starts kinds tokens) :
    Begins kinds tokens := by
  obtain ⟨token, member, kind⟩ := starts
  intro head same
  cases Option.mem_unique member same
  exact kind

/-- What becomes of reading when tokens of the kinds in `follow` come after it, or none. Where there
is nothing to read yet, tokens that complete it begin with one of the kinds in `first`. -/
inductive Fate (first follow : Kind → Prop) (read : Parse α) (cursor : Cursor) : Prop
  | ended (value : α) (after : Cursor) (short : after.rest.length ≤ cursor.rest.length)
      (stable : ∀ more, (after.rest = [] → Begins follow more) →
        read (cursor.append more) = .ok value (after.append more))
      (through : cursor.rest = [] → ∀ kind, follow kind → first kind)
  | refused (error : ParseError) (final : error.complaint.isIncomplete = false)
      (some : cursor.rest ≠ [])
      (stable : ∀ more, ∃ after, read (cursor.append more) = .error (.malformed error) after)
  | unfinished (error : ParseError) (after : Cursor) (added : List Token) (value : α) (last : Span)
      (incomplete : error.complaint.isIncomplete = true)
      (stopped : read cursor = .error (.malformed error) after)
      (completed : ∀ more, Begins follow more →
        read (cursor.append (added ++ more)) = .ok value ⟨more, last⟩)
      (starts : cursor.rest = [] → Starts first added)

/-- Reading has a fate wherever at most `size` tokens are left. -/
def Resumable (size : Nat) (first follow : Kind → Prop) (read : Parse α) : Prop :=
  ∀ cursor, cursor.rest.length ≤ size → Fate first follow read cursor

section

variable {first follow last : Kind → Prop} {read other : Parse α} {cursor : Cursor}

theorem Fate.congr (fate : Fate first follow other cursor)
    (same : ∀ more, read (cursor.append more) = other (cursor.append more)) :
    Fate first follow read cursor := by
  cases fate with
  | ended value after short stable through =>
      exact .ended value after short (fun more begins => (same more).trans (stable more begins))
        through
  | refused error final some stable =>
      refine .refused error final some fun more => ?_
      rw [same]
      exact stable more
  | unfinished error after added value last incomplete stopped completed starts =>
      have here : read cursor = other cursor := by simpa using same []
      exact .unfinished error after added value last incomplete (here.trans stopped)
        (fun more begins => (same _).trans (completed more begins)) starts

theorem Fate.mono {wider narrower : Kind → Prop} (fate : Fate first follow read cursor)
    (wide : ∀ kind, first kind → wider kind) (narrow : ∀ kind, narrower kind → follow kind) :
    Fate wider narrower read cursor := by
  cases fate with
  | ended value after short stable through =>
      refine .ended value after short
        (fun more begins => stable more fun none => (begins none).mono narrow) ?_
      intro none kind member
      exact wide kind (through none kind (narrow kind member))
  | refused error final some stable => exact .refused error final some stable
  | unfinished error after added value last incomplete stopped completed starts =>
      exact .unfinished error after added value last incomplete stopped
        (fun more begins => completed more (begins.mono narrow)) fun none => (starts none).mono wide

theorem Fate.of_some (fate : Fate first follow read cursor) (some : cursor.rest ≠ [])
    (wider : Kind → Prop) : Fate wider follow read cursor := by
  cases fate with
  | ended value after short stable through =>
      exact .ended value after short stable fun none => absurd none some
  | refused error final _ stable => exact .refused error final some stable
  | unfinished error after added value last incomplete stopped completed starts =>
      exact .unfinished error after added value last incomplete stopped completed
        fun none => absurd none some

theorem fate_pure (value : α) : Fate follow follow (pure value) cursor :=
  .ended value cursor (Nat.le_refl _) (fun _ _ => rfl) fun _ _ member => member

theorem rest_eq_nil {before after : Cursor} (short : after.rest.length ≤ before.rest.length)
    (none : before.rest = []) : after.rest = [] := by
  rw [none] at short
  exact List.eq_nil_of_length_eq_zero (Nat.le_zero.1 short)

theorem Fate.bind_ended {next : α → Parse β} {value : α} {middle : Cursor}
    (short : middle.rest.length ≤ cursor.rest.length)
    (stable : ∀ more, (middle.rest = [] → Begins follow more) →
      read (cursor.append more) = .ok value (middle.append more))
    (through : cursor.rest = [] → ∀ kind, follow kind → first kind)
    (late : Fate follow last (next value) middle) : Fate first last (read >>= next) cursor := by
  cases late with
  | ended result after less steady onward =>
      refine .ended result after (Nat.le_trans less short) ?_ ?_
      · intro more begins
        have stays := stable more fun none => (begins (rest_eq_nil less none)).mono (onward none)
        rw [bind_of_ok stays]
        exact steady more begins
      · intro none kind member
        exact through none kind (onward (rest_eq_nil short none) kind member)
  | refused error final some steady =>
      refine .refused error final (fun none => some (rest_eq_nil short none)) ?_
      intro more
      rw [bind_of_ok (stable more fun none => absurd none some)]
      exact steady more
  | unfinished error after added result place incomplete stopped completed starts =>
      have done : read cursor = .ok value middle := by
        simpa using stable [] fun _ => begins_nil follow
      refine .unfinished error after added result place incomplete
        ((bind_of_ok done next).trans stopped) ?_ ?_
      · intro more begins
        rw [bind_of_ok (stable (added ++ more) fun none => ((starts none).append more).begins)]
        exact completed more begins
      · intro none
        exact (starts (rest_eq_nil short none)).mono (through none)

/-- The first form is unfinished: what completes it leaves nothing for the second one to read. -/
theorem Fate.bind_unfinished {next : α → Parse β} {error : ParseError} {after : Cursor}
    (added : List Token) (value : α) (place : Span)
    (incomplete : error.complaint.isIncomplete = true)
    (stopped : read cursor = .error (.malformed error) after)
    (completed : ∀ more, Begins follow more →
      read (cursor.append (added ++ more)) = .ok value ⟨more, place⟩)
    (starts : cursor.rest = [] → Starts first added)
    (late : Fate follow last (next value) ⟨[], place⟩) : Fate first last (read >>= next) cursor := by
  have halted : (read >>= next) cursor = .error (.malformed error) after := by
    rw [bind_apply, stopped]
  cases late with
  | ended result final less steady onward =>
      have none : final.rest = [] := rest_eq_nil less rfl
      refine .unfinished error after added result final.last incomplete halted ?_ starts
      intro more begins
      rw [bind_of_ok (completed more (begins.mono (onward rfl)))]
      have stays := steady more fun _ => begins
      rwa [Cursor.append, Cursor.append, none] at stays
  | refused _ _ some _ => exact absurd rfl some
  | unfinished _ _ rest result final _ _ completed' starts' =>
      refine .unfinished error after (added ++ rest) result final incomplete halted ?_
        fun none => (starts none).append rest
      intro more begins
      rw [List.append_assoc, bind_of_ok (completed _ ((starts' rfl).append more).begins)]
      exact completed' more begins

theorem Fate.bind {next : α → Parse β} (early : Fate first follow read cursor)
    (late : ∀ value after, after.rest.length ≤ cursor.rest.length →
      Fate follow last (next value) after) :
    Fate first last (read >>= next) cursor := by
  cases early with
  | ended value middle short stable through =>
      exact bind_ended short stable through (late value middle short)
  | refused error final some stable =>
      refine .refused error final some ?_
      intro more
      obtain ⟨after, stopped⟩ := stable more
      exact ⟨after, by rw [bind_apply, stopped]⟩
  | unfinished error after added value place incomplete stopped completed starts =>
      exact bind_unfinished added value place incomplete stopped completed starts
        (late value _ (Nat.zero_le _))

end

section

variable {size : Nat} {first follow last : Kind → Prop}

def anyKind (_ : Kind) : Prop := True

section

variable {read : Parse α}

theorem Resumable.le {smaller : Nat} (resumable : Resumable size first follow read)
    (less : smaller ≤ size) : Resumable smaller first follow read :=
  fun cursor short => resumable cursor (Nat.le_trans short less)

theorem Resumable.before {narrower : Kind → Prop} (resumable : Resumable size first follow read)
    (narrow : ∀ kind, narrower kind → follow kind) : Resumable size first narrower read :=
  fun cursor short => (resumable cursor short).mono (fun _ member => member) narrow

theorem Resumable.anywhere (resumable : Resumable size first follow read) :
    Resumable size anyKind follow read :=
  fun cursor short => (resumable cursor short).mono (fun _ _ => trivial) fun _ member => member

end

theorem resumable_pure (value : α) : Resumable size follow follow (pure value) :=
  fun _ _ => fate_pure value

theorem Resumable.bind {read : Parse α} {next : α → Parse β} {start : Kind → Prop}
    (early : Resumable size first follow read) (meet : ∀ kind, start kind → follow kind)
    (late : ∀ value, Resumable size start last (next value)) :
    Resumable size first last (read >>= next) := by
  intro cursor short
  apply (early cursor short).bind
  intro value after less
  exact (late value after (Nat.le_trans less short)).mono meet fun _ member => member

theorem fate_next {context : String} {next : Token → Parse α} {token : Token} {rest : List Token}
    {place : Span} (late : Resumable rest.length anyKind follow (next token)) :
    Fate first follow (Parse.next context >>= next) ⟨token :: rest, place⟩ := by
  have fate : Fate anyKind follow (Parse.next context >>= next) ⟨token :: rest, place⟩ := by
    refine Fate.bind_ended (Nat.le_succ _) ?_ ?_ (late ⟨rest, token.span⟩ (Nat.le_refl _))
    · intro more _
      rfl
    · intro none
      cases none
  exact fate.of_some (List.cons_ne_nil _ _) first

def Refuses (read : Parse α) : Prop :=
  ∃ error, error.complaint.isIncomplete = false ∧
    ∀ cursor, read cursor = .error (.malformed error) cursor

theorem refuses {complaint : Complaint} (final : complaint.isIncomplete = false) (span : Span) :
    Refuses (refuse complaint span : Parse α) :=
  ⟨⟨complaint, span⟩, final, fun _ => rfl⟩

theorem Refuses.bind {read : Parse α} (refuses : Refuses read) (next : α → Parse β) :
    Refuses (read >>= next) := by
  obtain ⟨error, final, stops⟩ := refuses
  refine ⟨error, final, fun cursor => ?_⟩
  rw [bind_apply, stops]

theorem Refuses.fate {context : String} {next : Token → Parse α} {token : Token}
    (refuses : Refuses (next token)) (rest : List Token) (place : Span) :
    Fate first follow (Parse.next context >>= next) ⟨token :: rest, place⟩ := by
  obtain ⟨error, final, stops⟩ := refuses
  refine .refused error final (List.cons_ne_nil _ _) ?_
  intro more
  exact ⟨⟨rest ++ more, token.span⟩, stops _⟩

/-- Taking a token: every token leads on or is refused, and one leads on from nothing. -/
theorem resumable_next (context : String) {next : Token → Parse α} (token : Token)
    (opens : first token.kind) (base : Resumable 0 anyKind follow (next token))
    (each : ∀ token, ∀ smaller < size,
      Resumable smaller anyKind follow (next token) ∨ Refuses (next token)) :
    Resumable size first follow (Parse.next context >>= next) := by
  rintro ⟨rest, place⟩ short
  cases rest with
  | nil =>
      have late : Fate anyKind follow (next token) ⟨[], token.span⟩ := base _ (Nat.le_refl _)
      refine Fate.bind_unfinished [token] token token.span rfl rfl (fun more _ => rfl) ?_ late
      intro _
      exact ⟨token, rfl, opens⟩
  | cons head rest =>
      rcases each head rest.length short with resumable | refuses
      · exact fate_next resumable
      · exact refuses.fate rest place

/-- Looking at the next token: what is done at the end of tokens is also done before those that
may complete it. -/
theorem resumable_peek {next : Option Token → Parse α}
    (atEnd : Resumable size first follow (next none))
    (same : ∀ token : Token, first token.kind → next (some token) = next none)
    (before : ∀ token rest place, rest.length < size →
      Fate anyKind follow (next (some token)) ⟨token :: rest, place⟩) :
    Resumable size first follow (peek >>= next) := by
  rintro ⟨rest, place⟩ short
  cases rest with
  | nil =>
      have begins (more : List Token) (begins : Begins first more) :
          (peek >>= next) (Cursor.append ⟨[], place⟩ more) =
            next none (Cursor.append ⟨[], place⟩ more) := by
        rw [bind_of_ok (peek_apply _)]
        cases more with
        | nil => rfl
        | cons token more =>
            have opens : first token.kind := begins token rfl
            exact congrFun (same token opens) _
      cases atEnd ⟨[], place⟩ short with
      | ended value after less stable through =>
          have empty : after.rest = [] := rest_eq_nil less rfl
          refine .ended value after less ?_ through
          intro more follows
          rw [begins more ((follows empty).mono (through rfl))]
          exact stable more follows
      | refused _ _ some _ => exact absurd rfl some
      | unfinished error after added value last incomplete stopped completed starts =>
          refine .unfinished error after added value last incomplete stopped ?_ starts
          intro more follows
          rw [begins _ ((starts rfl).append more).begins]
          exact completed more follows
  | cons token rest =>
      have fate : Fate anyKind follow (peek >>= next) ⟨token :: rest, place⟩ :=
        (before token rest place short).congr fun more => rfl
      exact fate.of_some (List.cons_ne_nil _ _) first

/-- Looking for a token of one kind in order to take it, where no such token completes what is done
otherwise. -/
theorem resumable_option {kind : Kind} {context : String} {taken : Token → Parse α}
    {otherwise : Parse α} (without : Resumable size first follow otherwise)
    (different : ∀ other, first other → other ≠ kind)
    (each : ∀ token, ∀ smaller < size, Resumable smaller anyKind follow (taken token)) :
    Resumable size first follow (do
      if ← looking kind then Parse.next context >>= taken else otherwise) := by
  have same : (do if ← looking kind then Parse.next context >>= taken else otherwise) =
      (peek >>= fun seen => if seen.any (·.kind == kind) = true then Parse.next context >>= taken
        else otherwise) := by
    simp only [looking, bind_assoc, pure_bind]
  rw [same]
  apply resumable_peek
  · exact without
  · intro token opens
    have other : (token.kind == kind) = false := by simpa using different _ opens
    simp [other]
  · intro token rest place less
    dsimp only [Option.any_some]
    split
    · exact fate_next (each token rest.length less)
    · exact (without ⟨token :: rest, place⟩ less).of_some (List.cons_ne_nil _ _) anyKind

theorem Counts.resumable {loop : Nat → σ → Parse α} {round : (σ → Parse α) → σ → Parse α}
    (counts : Counts loop round)
    (step : ∀ smaller ≤ size,
      (∀ less < smaller, ∀ state, Resumable less first follow (running loop state)) →
        ∀ state, Resumable smaller first follow (round (running loop) state))
    (state : σ) : Resumable size first follow (running loop state) := by
  suffices all : ∀ smaller ≤ size, ∀ state, Resumable smaller first follow (running loop state) from
    all size (Nat.le_refl _) state
  intro smaller
  induction smaller using Nat.strongRecOn with
  | ind smaller ih =>
      intro bound state
      rw [counts.running_eq]
      apply step smaller bound
      intro less below
      exact ih less below (Nat.le_trans (Nat.le_of_lt below) bound)

end

theorem exists_token (kind : Kind) : ∃ token : Token, token.kind = kind := by
  cases kind with
  | number => exact ⟨⟨.number 0, .origin⟩, rfl⟩
  | name => exact ⟨⟨.name "x", .origin⟩, rfl⟩
  | truth value => exact ⟨⟨.truth value, .origin⟩, rfl⟩
  | keyword word => exact ⟨⟨.keyword word, .origin⟩, rfl⟩
  | mark sign => exact ⟨⟨.mark sign, .origin⟩, rfl⟩
  | operator sign => exact ⟨⟨.operator sign, .origin⟩, rfl⟩

section

variable {size : Nat} {follow : Kind → Prop} {context : String}

theorem resumable_expect (kind : Kind) :
    Resumable size (· = kind) anyKind (expect kind context) := by
  obtain ⟨token, same⟩ := exists_token kind
  apply resumable_next context token same
  · rw [if_pos same]
    exact resumable_pure token
  · intro found smaller _
    by_cases wanted : found.kind = kind
    · rw [if_pos wanted]
      exact .inl (resumable_pure found)
    · rw [if_neg wanted]
      exact .inr (refuses rfl _)

theorem resumable_name {next : String × Token → Parse α} (fresh : String)
    (base : ∀ token, Resumable 0 anyKind follow (next (fresh, token)))
    (each : ∀ pair, ∀ smaller < size,
      Resumable smaller anyKind follow (next pair) ∨ Refuses (next pair)) :
    Resumable size (· = .name) follow (expectName context >>= next) := by
  rw [expectName, bind_assoc]
  refine resumable_next context ⟨.name fresh, .origin⟩ (by rfl) ?_ ?_
  · exact base _
  · rintro ⟨lexeme, span⟩ smaller less
    cases lexeme with
    | name text => exact each _ smaller less
    | _ => exact .inr ((refuses rfl _).bind next)

theorem resumable_closed {item : List α → Parse α} {start : Kind → Prop}
    (shrinks : ∀ done, Shrinks (item done)) (different : ∀ kind, start kind → kind ≠ .mark .rightParen)
    (each : ∀ done, Resumable size start (· = .mark .rightParen) (item done)) :
    Resumable size start anyKind (closed context item) := by
  have listed : Resumable size start anyKind
      (running (fun steps => separated context item (steps + 1)) []) := by
    apply (separated_counts shrinks).resumable
    intro smaller bound ih done
    apply ((each done).le bound).bind fun _ member => member
    intro one
    refine resumable_next context ⟨.mark .rightParen, .origin⟩ (by rfl) (resumable_pure _) ?_
    rintro ⟨lexeme, span⟩ less below
    cases lexeme with
    | mark sign =>
        cases sign with
        | rightParen => exact .inl (resumable_pure _)
        | comma => exact .inl (ih less below _).anywhere
        | _ => exact .inr (refuses rfl _)
    | _ => exact .inr (refuses rfl _)
  exact resumable_option listed different fun _ _ _ => resumable_pure _

theorem resumable_chained {kind : Kind} {item : List α → Parse α} {stop : Kind → Prop}
    (shrinks : ∀ done, Shrinks (item done)) (different : ∀ other, stop other → other ≠ kind)
    (each : ∀ done, ∀ smaller < size, Resumable smaller anyKind stop (item done)) (done : List α) :
    Resumable size stop stop (running (chained kind context item) done) := by
  apply (chained_counts shrinks).resumable
  intro smaller bound ih done
  apply resumable_option (resumable_pure done) different
  intro token less below
  apply (each done less (Nat.lt_of_lt_of_le below bound)).bind (fun _ member => member)
  intro one
  exact ih less below _

end

end Parse
end FernLang
