import FernLang.Proofs.Diagnosis.Placement
import FernLang.Proofs.Grammar.Completion
import FernLang.Proofs.Grammar.Soundness
import FernLang.Proofs.Message
import FernLang.Proofs.Run.Items
import FernLang.Shell

/-!
Guards that no source gets to. Evaluation guards against trees that no source has: declarations inside
expressions, signs that are no operator, rows of expressions. What is read from sources has no such
node, and neither have the functions that a session keeps from the sources before, whether their
runs failed or not. The guards that sources do get to come before every operation that has no answer for
some operands, so that no division, lookup, part of a value or token is ever asked for in vain.
-/

namespace FernLang

inductive Reception where
  | refused (error : SourceError)
  | ran (result : Except Fault (List Value))

namespace Session

/-- Reads a source and runs it. A source that is refused leaves the session as it is. -/
def receive (limits : Limits) (level : Nat) (session : Session) (source : String) :
    Session × Reception :=
  match parseSource limits.nesting source with
  | .error error => (session, .refused error)
  | .ok program =>
      let outcome := session.run limits.frames level program
      (outcome.session, .ran outcome.result)

def after (limits : Limits) (level : Nat) (sources : List String) : Session :=
  sources.foldl (fun session source => (session.receive limits level source).1) .fresh

end Session

/-- How the messages begin that speak of trees no source has. -/
def Cause.guards : List String :=
  ["Found top-level let inside an expression", "Function definition not at top level",
    "Data declaration not at top level", "Unknown operator"]

/-- The receptions that a source may have: values, an error that no guard raised, a character that
begins no token, a malformed sequence of tokens, a number with too many digits to be read or written, or
more tokens than forms may nest. The misuse of an operation is none of them. -/
inductive Reception.Proper (limits : Limits) (source : String) : Reception → Prop
  | values (found : List Value) : Proper limits source (.ran (.ok found))
  | raised {error : RuntimeError}
      (unguarded : ∀ guard ∈ Cause.guards, ∀ tail, error.cause.message ≠ guard ++ tail) :
      Proper limits source (.ran (.error (.raised error)))
  | unexpected {found : Char} {index : Nat} (inside : index < source.length) :
      Proper limits source (.refused (.scan (.unexpected found index)))
  | malformed (error : ParseError) : Proper limits source (.refused (.parse error))
  | longNumber {digits : Nat} (exceeds : Numeral.limit < digits) :
      Proper limits source (.refused (.scan (.numeral (.tooLongToRead digits))))
  | longText : Proper limits source (.ran (.error (.numeral .tooLongToWrite)))
  | deepNesting {tokens : List Token} (scanned : tokenize source = .ok tokens)
      (deep : limits.nesting ≤ tokens.length) : Proper limits source (.refused .tooDeep)

namespace Cause

theorem defect?_eq_none_iff_mark (cause : Cause) :
    cause.defect? = none ↔ cause.mark ∉ [('d', '-'), ('t', 'd'), (' ', 'a'), ('o', 'p')] := by
  cases cause <;> simp [defect?, mark]

theorem unguarded {cause : Cause} (formless : cause.defect? = none) :
    ∀ guard ∈ guards, ∀ tail, cause.message ≠ guard ++ tail := by
  have other := cause.defect?_eq_none_iff_mark.1 formless
  intro guard member tail starts
  simp only [guards, List.mem_cons, List.not_mem_nil, or_false] at member
  rcases member with rfl | rfl | rfl | rfl <;>
  · rw [mark_of_message starts (letter_literal rfl) (letter_literal rfl)] at other
    simp at other

end Cause

namespace Grammar

theorem operator?_symbol (operator : Operator) :
    Operation.operator? (.text operator.symbol) = some operator := by
  cases operator <;> decide

theorem Surface.every (good : Expr → Prop) (each : ∀ tree, Surface tree → good tree) {tree : Expr}
    (surface : Surface tree) : tree.Every good := by
  induction surface with
  | number value span => exact Expr.every_leaf rfl (each _ (.number value span))
  | bool value span => exact Expr.every_leaf rfl (each _ (.bool value span))
  | var name span => exact Expr.every_leaf rfl (each _ (.var name span))
  | letIn bound inner ihBound ihInner =>
      exact Expr.every_iff.2 ⟨each _ (.letIn bound inner), List.forall_mem_cons.2
        ⟨ihBound, List.forall_mem_singleton.2 ihInner⟩⟩
  | binary operator front back ihFront ihBack =>
      exact Expr.every_iff.2 ⟨each _ (.binary operator front back), List.forall_mem_cons.2
        ⟨ihFront, List.forall_mem_singleton.2 ihBack⟩⟩
  | lambda distinct inner ih =>
      exact Expr.every_iff.2 ⟨each _ (.lambda distinct inner), List.forall_mem_singleton.2 ih⟩
  | call front args ihFront ihArgs =>
      exact Expr.every_iff.2 ⟨each _ (.call front args), List.forall_mem_cons.2 ⟨ihFront, ihArgs⟩⟩
  | cond some conditions bodies last ihConditions ihBodies ihLast =>
      refine Expr.every_iff.2 ⟨each _ (.cond some conditions bodies last),
        List.forall_mem_cons.2 ⟨ihLast, ?_⟩⟩
      rw [List.forall_mem_flatMap]
      intro branch member
      exact List.forall_mem_cons.2
        ⟨ihConditions branch member, List.forall_mem_singleton.2 (ihBodies branch member)⟩
  | matching some subject bodies ihSubject ihBodies =>
      exact Expr.every_iff.2 ⟨each _ (.matching some subject bodies), List.forall_mem_cons.2
        ⟨ihSubject, List.forall_mem_map.2 ihBodies⟩⟩

/-- No node of an expression that can be written is one that a guard is for. -/
theorem Surface.formed {tree : Expr} (surface : Surface tree) : tree.Every (·.defect? = none) := by
  refine Surface.every (·.defect? = none) ?_ surface
  intro node written
  cases written with
  | binary operator front back =>
      rw [Expr.defect?, operator?_symbol]
      rfl
  | _ => rfl

variable {item : Expr}

theorem SurfaceItem.formed_parts (surface : SurfaceItem item) :
    ∀ part ∈ item.parts, part.Every (·.defect? = none) := by
  cases surface with
  | function distinct inner => exact List.forall_mem_singleton.2 inner.formed
  | dataType => simp [Expr.parts]
  | letTop bound => exact List.forall_mem_singleton.2 bound.formed
  | expression inner => exact (Expr.every_iff.1 inner.formed).2

/-- Declarations are not evaluated, so what is has no defect. -/
theorem SurfaceItem.formed_subject (surface : SurfaceItem item) {expr : Expr}
    (subject : item.subject? = some expr) : expr.Every (·.defect? = none) := by
  cases surface with
  | function | dataType => cases subject
  | letTop bound =>
      cases subject
      exact bound.formed
  | expression inner =>
      rcases Expr.subject?_cases subject with rfl | member
      · exact inner.formed
      · exact (Expr.every_iff.1 inner.formed).2 _ (Expr.mem_parts_of_open item _ member)

theorem surface_of_parsed {room : Nat} {source : String} {program : List Expr}
    (parsed : parseSource room source = .ok program) : ∀ item ∈ program, SurfaceItem item := by
  obtain ⟨tokens, _, read⟩ := parseSource_ok parsed
  exact (Parse.program_ok read).surface

theorem supported_surface {program : List Expr} (surface : ∀ item ∈ program, SurfaceItem item) :
    Expr.Supported (Functions.every (·.defect? = none)) program := by
  apply Expr.supported_every
  · intro item member
    exact (surface item member).formed_parts
  · intro name variants span member variant _
    refine Expr.every_iff.2 ⟨rfl, List.forall_mem_map.2 fun field _ => ?_⟩
    exact Expr.every_iff.2 ⟨rfl, by simp [Expr.parts]⟩

end Grammar

theorem Fault.Stops.proper {item : Expr} {fault : Fault} (surface : Grammar.SurfaceItem item)
    (stops : fault.Stops (Functions.every (·.defect? = none)) item) (limits : Limits)
    (source : String) : (Reception.ran (.error fault)).Proper limits source := by
  cases stops with
  | @arisen _ expr subject arises caught =>
      have whole := surface.formed_subject subject
      cases arises with
      | raised chain inner defect =>
          have site := (chain.every whole).1
          refine .raised (Cause.unguarded (Option.eq_none_iff_forall_ne_some.2 ?_))
          intro found speaks
          rw [defect found speaks] at site
          cases site
      | tooDeep chain => exact .raised (Cause.unguarded rfl)
      | bareRow chain defect | compoundSign chain defect =>
          have site := (chain.every whole).1
          rw [defect] at site
          cases site
      | long => exact .longText
      | outOfRoom => exact absurd rfl caught
  | outerLet same => exact .raised (Cause.unguarded rfl)
  | tooDeep => exact .raised (Cause.unguarded rfl)

theorem parseSource_refused {limits : Limits} {source : String} {error : SourceError}
    (refused : parseSource limits.nesting source = .error error) :
    (Reception.refused error).Proper limits source := by
  have placed := parseSource_placed limits.nesting source
  have read := parseSource_read limits.nesting source
  rw [refused] at placed read
  cases read with
  | @unscanned error scanned =>
      cases error with
      | unexpected found index => exact .unexpected placed
      | numeral error =>
          obtain ⟨digits, rfl, exceeds⟩ := placed
          exact .longNumber exceeds
  | malformed => exact .malformed _
  | tooDeep scanned deep => exact .deepNesting scanned (parseTokens_tooDeep deep)
  | misused => exact placed.elim

namespace Session

variable {session : Session}

theorem receive_proper (made : session.Made (Functions.every (·.defect? = none))) (limits : Limits)
    (level : Nat) (source : String) :
    (session.receive limits level source).1.Made (Functions.every (·.defect? = none)) ∧
      (session.receive limits level source).2.Proper limits source := by
  unfold receive
  cases read : parseSource limits.nesting source with
  | error error => exact ⟨made, parseSource_refused read⟩
  | ok program =>
      have surface := Grammar.surface_of_parsed read
      have supported := Grammar.supported_surface surface
      refine ⟨run_made made supported Functions.every_closed _ _, ?_⟩
      dsimp only
      cases ended : (session.run limits.frames level program).result with
      | ok values => exact .values values
      | error fault =>
          obtain ⟨item, member, _, stops⟩ := run_stops made supported Functions.every_closed ended
          exact stops.proper (surface item member) limits source

theorem after_made (limits : Limits) (level : Nat) (sources : List String) :
    (after limits level sources).Made (Functions.every (·.defect? = none)) := by
  unfold after
  induction sources using List.reverseRecOn with
  | nil => exact made_fresh _
  | append_singleton sources source ih =>
      rw [List.foldl_concat]
      exact (receive_proper ih limits level source).1

end Session

/-- Whatever sources a session has received, the next one gives values, is refused, or stops with an
error that none of the guards raised, apart from numbers and nesting beyond the limits. -/
theorem receive_after_proper (limits : Limits) (level : Nat) (sources : List String)
    (source : String) :
    ((Session.after limits level sources).receive limits level source).2.Proper limits source :=
  (Session.receive_proper (Session.after_made limits level sources) limits level source).2

end FernLang
