import Mathlib
import FernLang.Proofs.Run.Guards
import FernLang.Proofs.Value.Reading

/-!
The tags of data. Data is built by the constructors that a source declares, whose names are words of its
text, so the tags of all values that a session computes from sources are names. Among values with such
tags, without closures and with numbers that can be written, what is printed tells the value.
-/

namespace FernLang

/-- Where a tree names constructors, the tags are names. -/
def Expr.Tagged : Expr → Prop
  | .construct tag _ _ => Scan.Writable (.name tag)
  | .dataType _ variants _ => ∀ variant ∈ variants, Scan.Writable (.name variant.1)
  | _ => True

/-- A value all of whose data has names for tags, and all of whose closures build such data only. -/
inductive Value.Tagged : Value → Prop
  | num (value : Int) : Tagged (.num value)
  | bool (value : Bool) : Tagged (.bool value)
  | closure {params : List String} {body : Expr} {scope : Scope Value} (inside : body.Every Expr.Tagged)
      (captured : ∀ layer ∈ scope.layers, ∀ entry ∈ layer, Tagged entry.2) :
      Tagged (.closure params body scope)
  | data {tag : String} {fields : List Value} (name : Scan.Writable (.name tag))
      (each : ∀ field ∈ fields, Tagged field) : Tagged (.data tag fields)

theorem Value.Tagged.fields (tag : String) (values : List Value)
    (tagged : (Value.data tag values).Tagged) : ∀ value ∈ values, value.Tagged := by
  cases tagged with
  | data name each => exact each

theorem Value.Plain.tagged {value : Value} (plain : value.Plain) : value.Tagged := by
  cases plain with
  | num value => exact .num value
  | bool value => exact .bool value

namespace Eval

def Tags (eval : Expr → Scope Value → Stack → Eval Value) : Prop :=
  ∀ {tree : Expr} {scope : Scope Value} (stack : Stack), tree.Every Expr.Tagged →
    scope.Holds Value.Tagged → Ends Value.Tagged (fun _ => True) (eval tree scope stack)

section

variable {eval : Expr → Scope Value → Stack → Eval Value} {tree : Expr} {scope : Scope Value}

theorem Tags.part (tags : Tags eval) {part : Expr} (member : part ∈ tree.parts)
    (whole : tree.Every Expr.Tagged) (held : scope.Holds Value.Tagged) (stack : Stack) :
    Ends Value.Tagged (fun _ => True) (eval part scope stack) :=
  tags stack (whole.inside (.part member)) held

theorem Tags.call (tags : Tags eval) (setting : Setting) {callee : Expr} {args : List Expr} {span : Span}
    (whole : (Expr.call callee args span).Every Expr.Tagged) (held : scope.Holds Value.Tagged)
    (stack : Stack) :
    Ends Value.Tagged (fun _ => True) (Eval.call setting eval callee args span scope stack) := by
  refine ends_call trivial setting (tags.part List.mem_cons_self whole held stack)
    (fun arg member => tags.part (List.mem_cons_of_mem _ member) whole held stack)
    (fun _ => trivial) (fun _ _ => trivial) ?_
  intro params body captured values tagged _ each inner bound
  have holds : inner.Holds Value.Tagged := by
    rw [bound]
    exact Scope.holds_ofBindings fun entry member => each _ (Bindings.mem_ofPairs_zip member)
  cases tagged with
  | closure inside captured =>
      have ended := tags (stack ++ [⟨span, inner⟩]) inside (Scope.Holds.union captured holds)
      exact ended.withinRoom trivial fun _ _ _ => trivial

end
end Eval

open Eval in
theorem evaluate_tags (setting : Setting) (table : setting.functions.Holds Value.Tagged) (room : Nat) :
    Tags (evaluate setting room) := by
  induction room using Nat.strongRecOn with
  | ind room ih =>
      intro tree scope stack whole held
      cases room with
      | zero => exact ends_throw trivial
      | succ room =>
          have inner : Tags (evaluate setting room) := ih room (Nat.lt_succ_self room)
          cases tree with
          | number value span => exact ends_pure (.num value)
          | bool value span => exact ends_pure (.bool value)
          | var name span =>
              rw [evaluate, lookUp_eq]
              cases found : meaning? setting scope name with
              | some value => exact ends_pure (meaning?_holds table held found)
              | none => exact ends_raise trivial
          | letIn name binding body span =>
              apply (inner.part (by simp [Expr.parts]) whole held stack).bind
              intro value tagged
              exact inner.part (by simp [Expr.parts]) whole (held.extend tagged name) stack
          | binary sign left right span =>
              apply (inner.part (by simp [Expr.parts]) whole held stack).bind
              intro first _
              apply (inner.part (by simp [Expr.parts]) whole held stack).bind
              intro second _
              exact ends_applied trivial (Operation.answers_applySign sign first second)
                (fun _ => Value.Plain.tagged) (fun _ _ => trivial) fun _ => trivial
          | lambda params body span =>
              exact ends_pure (.closure (whole.inside (.part List.mem_cons_self)) held)
          | call callee args span =>
              cases room with
              | zero => exact ends_throw trivial
              | succ room =>
                  have lower : Tags (evaluate setting room) := ih room (by omega)
                  exact lower.call setting whole held stack
          | cond choices otherwise span =>
              have below {choice : Expr × Expr} (member : choice ∈ choices) :
                  choice.1 ∈ (Expr.cond choices otherwise span).parts ∧
                    choice.2 ∈ (Expr.cond choices otherwise span).parts := by
                constructor <;>
                  exact List.mem_cons_of_mem _ (List.mem_flatMap.2 ⟨choice, member, by simp⟩)
              exact ends_branches trivial setting (inner.part List.mem_cons_self whole held stack)
                (fun choice member => inner.part (below member).1 whole held stack)
                (fun choice member => inner.part (below member).2 whole held stack)
                fun _ _ _ => trivial
          | construct tag fields span =>
              apply (ends_mapM fun field member => inner.part member whole held stack).bind
              intro values all
              exact ends_pure (.data whole.here all.2)
          | matching scrutinee arms span =>
              apply (inner.part List.mem_cons_self whole held stack).bind
              intro value tagged
              refine ends_matching trivial setting ?_ fun _ => trivial
              intro pattern body bindings member fits
              have matched := Pattern.bindings?_kind Value.Tagged.fields fits tagged
              exact inner.part (List.mem_cons_of_mem _ (List.mem_map.2 ⟨_, member, rfl⟩)) whole
                (held.union (Scope.holds_ofBindings matched)) stack
          | letTop | function | dataType => exact ends_raise trivial
          | row items => exact ends_throw trivial

namespace Session

structure Tagged (session : Session) : Prop where
  globals : session.globals.Holds Value.Tagged
  functions : session.functions.Holds Value.Tagged

section

variable (room : Nat) {setting : Setting} (table : setting.functions.Holds Value.Tagged)
  {globals : Scope Value}
include table

theorem leads_tagged {item : Expr} (tagged : item.Every Expr.Tagged)
    (held : globals.Holds Value.Tagged) :
    Leads (fun value after => (∀ found ∈ value, found.Tagged) ∧ after.Holds Value.Tagged)
      (fun _ after => after.Holds Value.Tagged) (runItem room setting item) globals := by
  have evaluated (expr : Expr) (subject : item.subject? = some expr) :
      Eval.Ends Value.Tagged (fun _ => globals.Holds Value.Tagged)
        (Eval.withinRoom ⟨.tooDeep, item.span, globals, .root⟩
          (evaluate setting room expr globals .root)) := by
    have inside : expr.Every Expr.Tagged := by
      rcases Expr.subject?_cases subject with rfl | member
      · exact tagged
      · exact tagged.inside (.part (Expr.mem_parts_of_open item expr member))
    have ends := evaluate_tags setting table room .root inside held
    exact ends.withinRoom held fun _ _ _ => held
  refine leads_value room setting evaluated (fun _ => held) ?_ (fun _ _ _ _ _ => held) ?_
  · intro name binding span value _ found
    exact held.extend found name
  · exact fun _ _ _ after => after

theorem leads_tagged_items {items : List Expr} (tagged : ∀ item ∈ items, item.Every Expr.Tagged)
    (held : globals.Holds Value.Tagged) :
    Leads (fun values after => (∀ found ∈ values, found.Tagged) ∧ after.Holds Value.Tagged)
      (fun _ after => after.Holds Value.Tagged) (runItems room setting items) globals := by
  induction items generalizing globals with
  | nil => exact leads_pure ⟨by simp, held⟩
  | cons item items ih =>
      obtain ⟨here, others⟩ := List.forall_mem_cons.1 tagged
      apply (leads_tagged room table here held).bind
      intro value after early
      apply (ih others early.2).bind
      intro values last late
      refine leads_pure ⟨?_, late.2⟩
      simpa [List.forall_mem_append, or_imp, forall_and] using ⟨early.1, late.1⟩

end

theorem functionTable_tagged {program : List Expr} (tagged : ∀ item ∈ program, item.Every Expr.Tagged) :
    (functionTable program).Holds Value.Tagged := by
  have supported : Expr.Supported (Functions.every Expr.Tagged) program := by
    apply Expr.supported_every
    · intro item member part below
      exact (tagged item member).inside (.part below)
    · intro name variants span member variant among
      have names : (Expr.dataType name variants span).Tagged := (tagged _ member).here
      refine Expr.every_iff.2 ⟨names variant among, List.forall_mem_map.2 fun field _ => ?_⟩
      exact Expr.every_leaf rfl trivial
  apply functionTable_holds
  intro name params body span member
  exact .closure (supported.declared name params body span member) (Scope.holds_empty _)

theorem run_tagged {session : Session} (kept : session.Tagged) {program : List Expr}
    (tagged : ∀ item ∈ program, item.Every Expr.Tagged) (room level : Nat) :
    (session.run room level program).session.Tagged ∧
      ∀ values, (session.run room level program).result = .ok values → ∀ value ∈ values, value.Tagged := by
  have table : (session.setting level program).functions.Holds Value.Tagged :=
    kept.functions.union (functionTable_tagged tagged)
  have leads := leads_tagged_items room table tagged kept.globals #[]
  cases ended : runItems room (session.setting level program) program ⟨session.globals, #[]⟩ with
  | ok values after =>
      rw [ended] at leads
      rw [run_ok ended]
      refine ⟨⟨leads.2, table⟩, ?_⟩
      intro found same
      cases same
      exact leads.1
  | error fault after =>
      rw [ended] at leads
      rw [run_error ended]
      exact ⟨⟨leads, table⟩, nofun⟩

end Session

/-! Tags of sources. -/

theorem Scan.Laid.writable {start : Nat} {text : List Char} {tokens : List Token}
    (laid : Laid start text tokens) : ∀ token ∈ tokens, Writable token.lexeme := by
  induction laid with
  | done => simp
  | token layout spelled fits longest others ih =>
      exact List.forall_mem_cons.2 ⟨(writable_iff _).2 ⟨_, spelled, fits⟩, ih⟩

namespace Grammar

variable {tokens : List Token} (spelled : ∀ token ∈ tokens, Scan.Writable token.lexeme)
include spelled

theorem Variant.writable {variant : String × List String} (written : Variant tokens variant) :
    Scan.Writable (.name variant.1) := by
  cases written with
  | bare => exact spelled _ List.mem_cons_self
  | fields listed distinct => exact spelled _ List.mem_cons_self

theorem Chained.writable {opener : Lexeme} {variants : List (String × List String)}
    (chained : Chained opener Variant tokens variants) :
    ∀ variant ∈ variants, Scan.Writable (.name variant.1) := by
  induction chained with
  | none => simp
  | more one others ih =>
      obtain ⟨_, rest⟩ := List.forall_mem_cons.1 spelled
      obtain ⟨first, later⟩ := List.forall_mem_append.1 rest
      exact List.forall_mem_cons.2 ⟨Variant.writable first one, ih later⟩

omit spelled in
theorem Surface.tagged {tree : Expr} (surface : Surface tree) : tree.Every Expr.Tagged := by
  refine Surface.every Expr.Tagged ?_ surface
  intro node written
  cases written <;> trivial

theorem Item.tagged {discipline : Discipline} {tree : Expr} (item : Item discipline tokens tree) :
    tree.Every Expr.Tagged := by
  cases item with
  | function listed distinct inner =>
      exact Expr.every_iff.2 ⟨trivial, List.forall_mem_singleton.2 inner.surface.tagged⟩
  | letTop bound => exact Expr.every_iff.2 ⟨trivial, List.forall_mem_singleton.2 bound.surface.tagged⟩
  | expression phrase => exact phrase.surface.tagged
  | dataType head tail distinct =>
      obtain ⟨_, rest⟩ := List.forall_mem_cons.1 spelled
      obtain ⟨_, rest⟩ := List.forall_mem_cons.1 rest
      obtain ⟨_, rest⟩ := List.forall_mem_cons.1 rest
      obtain ⟨first, later⟩ := List.forall_mem_append.1 rest
      refine Expr.every_leaf (by rfl) ?_
      exact List.forall_mem_cons.2 ⟨Variant.writable first head, Chained.writable later tail⟩

theorem Program.tagged {discipline : Discipline} {program : List Expr}
    (written : Program discipline tokens program) : ∀ item ∈ program, item.Every Expr.Tagged := by
  induction written with
  | empty => simp
  | more one others ih =>
      obtain ⟨first, later⟩ := List.forall_mem_append.1 spelled
      exact List.forall_mem_cons.2 ⟨Item.tagged first one, ih later⟩

end Grammar

theorem parseSource_tagged {room : Nat} {source : String} {program : List Expr}
    (parsed : parseSource room source = .ok program) : ∀ item ∈ program, item.Every Expr.Tagged := by
  obtain ⟨tokens, scanned, read⟩ := parseSource_ok parsed
  exact Grammar.Program.tagged (Scan.laid_of_scanned scanned).writable (Parse.program_ok read)

namespace Session

theorem receive_tagged {session : Session} (kept : session.Tagged) (limits : Limits) (level : Nat)
    (source : String) :
    (session.receive limits level source).1.Tagged ∧
      ∀ values, (session.receive limits level source).2 = .ran (.ok values) →
        ∀ value ∈ values, value.Tagged := by
  unfold receive
  cases read : parseSource limits.nesting source with
  | error error => exact ⟨kept, nofun⟩
  | ok program =>
      obtain ⟨after, each⟩ := run_tagged kept (parseSource_tagged read) limits.frames level
      refine ⟨after, fun values ended => ?_⟩
      exact each values (Reception.ran.inj ended)

theorem after_tagged (limits : Limits) (level : Nat) (sources : List String) :
    (after limits level sources).Tagged := by
  unfold after
  induction sources using List.reverseRecOn with
  | nil => exact ⟨Scope.holds_empty _, Scope.holds_empty _⟩
  | append_singleton sources source ih =>
      rw [List.foldl_concat]
      exact (receive_tagged ih limits level source).1

end Session

inductive Value.Literal : Value → Prop
  | num {value : Int} (short : (Nat.toDigits 10 value.natAbs).length ≤ Numeral.limit) :
      Literal (.num value)
  | bool (value : Bool) : Literal (.bool value)
  | data {tag : String} {fields : List Value} (each : ∀ field ∈ fields, Literal field) :
      Literal (.data tag fields)

theorem Value.Literal.readable {value : Value} (literal : value.Literal) (tagged : value.Tagged) :
    value.Readable := by
  induction literal with
  | num short => exact .num short
  | bool value => exact .bool value
  | data each ih =>
      cases tagged with
      | data name inside => exact .data name fun field member => ih field member (inside field member)

/-- Printed data is unambiguous. Values without closures, whose tags are names and whose numbers can be
written, have texts, and the texts are the same when the values are equal and only then. The tags of
all values that a session computes from sources are names. -/
theorem printed_unambiguous :
    (∀ value other : Value, value.Literal → value.Tagged → other.Literal → other.Tagged →
      ∃ text text', value.text = .ok text ∧ other.text = .ok text' ∧
        (text = text' ↔ value.equal other = true)) ∧
    ∀ limits level sources source values,
      ((Session.after limits level sources).receive limits level source).2 = .ran (.ok values) →
        ∀ value ∈ values, value.Tagged := by
  constructor
  · intro value other literal tagged literal' tagged'
    have readable := literal.readable tagged
    have readable' := literal'.readable tagged'
    refine ⟨_, _, readable.text, readable'.text, ?_⟩
    rw [← readable.text_eq_iff readable', readable.text, readable'.text, Except.ok.injEq]
  · intro limits level sources source values ended
    exact (Session.receive_tagged (Session.after_tagged limits level sources) limits level source).2
      values ended

/-- The parts of `F(F(1), -2)`, and of `F(F(1, -2))`, which has the same tags and numbers. -/
def regrouped : Value × Value :=
  (.data "F" [.data "F" [.num 1], .num (-2)], .data "F" [.data "F" [.num 1, .num (-2)]])

theorem regrouped_unambiguous :
    ((Session.after ⟨20, 50⟩ 0 ["data T = F(a)"]).receive ⟨20, 50⟩ 0 "F(F(1))").2 =
        .ran (.ok [.data "F" [.data "F" [.num 1]]]) ∧
      (Value.data "F" [.data "F" [.num 1]]).Tagged ∧
      ∃ text text', regrouped.1.text = .ok text ∧ regrouped.2.text = .ok text' ∧ text ≠ text' := by
  have ran : ((Session.after ⟨20, 50⟩ 0 ["data T = F(a)"]).receive ⟨20, 50⟩ 0 "F(F(1))").2 =
      .ran (.ok [.data "F" [.data "F" [.num 1]]]) := by cbv
  have name : Scan.Writable (.name "F") := @Scan.Writable.name 'F' [] rfl (by simp) (by decide +kernel)
  have one : (Value.num 1).Literal := .num (by decide)
  have two : (Value.num (-2)).Literal := .num (by decide)
  have literal : regrouped.1.Literal ∧ regrouped.2.Literal := by
    refine ⟨.data (List.forall_mem_cons.2 ⟨.data ?_, ?_⟩), .data (List.forall_mem_singleton.2 (.data ?_))⟩
    all_goals simp [one, two]
  have tagged : regrouped.1.Tagged ∧ regrouped.2.Tagged := by
    refine ⟨.data name (List.forall_mem_cons.2 ⟨.data name ?_, ?_⟩),
      .data name (List.forall_mem_singleton.2 (.data name ?_))⟩
    all_goals simp [Value.Tagged.num]
  obtain ⟨text, text', shown, shown', same⟩ :=
    printed_unambiguous.1 _ _ literal.1 tagged.1 literal.2 tagged.2
  have apart : regrouped.1.equal regrouped.2 = false := by decide +kernel
  refine ⟨ran, ?_, text, text', shown, shown', ?_⟩
  · exact printed_unambiguous.2 _ _ _ _ _ ran _ List.mem_cons_self
  · rw [Ne, same, apart]
    decide

end FernLang
