import Mathlib
import FernLang.Proofs.Grammar.Brackets
import FernLang.Proofs.Grammar.Soundness
import FernLang.Proofs.Run.Parts
import FernLang.Proofs.Token.Laid

/-!
How the spans of a parsed program nest. The span of a node runs over tokens that follow one another:
all tokens of its phrase, except that a parenthesis around an operand at either end is left out.
Within them lie the tokens of its children, one child after the other. That tokens are in order and not
empty is then enough for spans to nest.
-/

namespace FernLang
namespace Expr

def children : Expr → List Expr
  | .cond branches otherwise _ =>
      (branches.flatMap fun branch => [branch.1, branch.2]) ++ [otherwise]
  | tree => tree.parts

theorem mem_children {part tree : Expr} : part ∈ tree.children ↔ part ∈ tree.parts := by
  cases tree with
  | cond branches otherwise span =>
      rw [children, parts, List.mem_append, List.mem_singleton, List.mem_cons]
      exact or_comm
  | _ => exact Iff.rfl

def applies : Expr → Bool
  | .binary _ _ _ _ | .call _ _ _ => true
  | _ => false

end Expr

namespace Grammar

section

variable {tokens inner front rest : List Token} {token first last : Token} {span a b : Span}

structure Ascending (tokens : List Token) : Prop where
  filled : ∀ token ∈ tokens, token.span.start < token.span.stop
  apart : tokens.Pairwise fun first second => first.span.stop ≤ second.span.start

namespace Ascending

theorem part (ascending : Ascending tokens) (sub : inner <:+: tokens) : Ascending inner :=
  ⟨fun token member => ascending.filled token (sub.subset member),
    ascending.apart.sublist sub.sublist⟩

theorem tail (ascending : Ascending (token :: rest)) : Ascending rest :=
  ascending.part (List.suffix_cons token rest).isInfix

theorem left (ascending : Ascending (front ++ rest)) : Ascending front :=
  ascending.part (List.prefix_append front rest).isInfix

theorem right (ascending : Ascending (front ++ rest)) : Ascending rest :=
  ascending.part (List.suffix_append front rest).isInfix

theorem before (ascending : Ascending (front ++ rest)) (member : first ∈ front)
    (later : last ∈ rest) : first.span.stop ≤ last.span.start :=
  (List.pairwise_append.1 ascending.apart).2.2 first member last later

theorem head_le (ascending : Ascending tokens) (head : first ∈ tokens.head?)
    (member : token ∈ tokens) : first.span.start ≤ token.span.start := by
  obtain ⟨rest, rfl⟩ := List.head?_eq_some_iff.1 head
  rcases List.mem_cons.1 member with rfl | later
  · exact Int.le_refl _
  · have filled := ascending.filled first List.mem_cons_self
    have apart := (List.pairwise_cons.1 ascending.apart).1 token later
    omega

theorem le_last (ascending : Ascending tokens) (end_ : last ∈ tokens.getLast?)
    (member : token ∈ tokens) : token.span.stop ≤ last.span.stop := by
  obtain ⟨front, rfl⟩ := List.getLast?_eq_some_iff.1 end_
  rcases List.mem_append.1 member with earlier | same
  · have apart := ascending.before earlier (List.mem_singleton_self last)
    have filled := ascending.filled last (by simp)
    omega
  · rw [List.mem_singleton.1 same]

end Ascending

/-- The span ends with the tokens, and starts with one of them. -/
structure Closes (tokens : List Token) (span : Span) : Prop where
  start : ∃ token ∈ tokens, span.start = token.span.start
  stop : ∃ token ∈ tokens.getLast?, span.stop = token.span.stop

/-- The span of tokens: from the start of the first to the end of the last. -/
structure Spans (tokens : List Token) (span : Span) : Prop where
  start : ∃ token ∈ tokens.head?, span.start = token.span.start
  stop : ∃ token ∈ tokens.getLast?, span.stop = token.span.stop

theorem closes_spanAfter (filled : tokens ≠ []) (span : Span) : Closes tokens (spanAfter span tokens) := by
  obtain ⟨front, last, rfl⟩ := List.eq_nil_or_concat tokens |>.resolve_left filled
  rw [List.concat_eq_append, spanAfter_append]
  exact ⟨⟨last, by simp, rfl⟩, ⟨last, by simp, rfl⟩⟩

theorem spans_single (token : Token) : Spans [token] token.span :=
  ⟨⟨token, rfl, rfl⟩, ⟨token, rfl, rfl⟩⟩

namespace Spans

theorem closes (spans : Spans inner span) (gap : List Token) : Closes (gap ++ inner) span := by
  obtain ⟨⟨first, head, start⟩, ⟨last, ends, stop⟩⟩ := spans
  refine ⟨⟨first, List.mem_append_right gap (List.mem_of_head? head), start⟩, ⟨last, ?_, stop⟩⟩
  exact List.mem_getLast?_append_of_mem_getLast? ends

theorem merge (spans : Spans front a) (ascending : Ascending (front ++ rest))
    (closes : Closes rest b) : Spans (front ++ rest) (a.merge b) := by
  obtain ⟨⟨first, head, start⟩, ⟨middle, frontEnd, stop⟩⟩ := spans
  obtain ⟨⟨next, member, start'⟩, ⟨last, ends, stop'⟩⟩ := closes
  have lower := ascending.before (List.mem_of_head? head) member
  have upper := ascending.before (List.mem_of_getLast? frontEnd) (List.mem_of_getLast? ends)
  have firstFilled := ascending.filled first (List.mem_append_left _ (List.mem_of_head? head))
  have lastFilled := ascending.filled last (List.mem_append_right _ (List.mem_of_getLast? ends))
  refine ⟨⟨first, ?_, ?_⟩, ⟨last, ?_, ?_⟩⟩
  · exact List.mem_head?_append_of_mem_head? head
  · simp only [Span.merge]
    omega
  · exact List.mem_getLast?_append_of_mem_getLast? ends
  · simp only [Span.merge]
    omega

theorem filled (spans : Spans tokens span) (ascending : Ascending tokens) : span.start < span.stop := by
  obtain ⟨⟨first, head, start⟩, ⟨last, ends, stop⟩⟩ := spans
  have lower := ascending.head_le head (List.mem_of_head? head)
  have upper := ascending.le_last ends (List.mem_of_head? head)
  have filled := ascending.filled first (List.mem_of_head? head)
  omega

theorem contains (spans : Spans tokens span) (ascending : Ascending tokens) (part : Spans inner a)
    (sub : inner <:+: tokens) : span.start ≤ a.start ∧ a.stop ≤ span.stop := by
  obtain ⟨⟨first, head, start⟩, ⟨last, ends, stop⟩⟩ := spans
  obtain ⟨⟨next, head', start'⟩, ⟨middle, ends', stop'⟩⟩ := part
  have lower := ascending.head_le head (sub.subset (List.mem_of_head? head'))
  have upper := ascending.le_last ends (sub.subset (List.mem_of_getLast? ends'))
  omega

end Spans

theorem spans_form (ascending : Ascending (first :: rest)) (filled : rest ≠ [])
    (ends : spanAfter first.span rest = span) : Spans (first :: rest) (first.span.merge span) := by
  subst ends
  exact (spans_single first).merge ascending (closes_spanAfter filled first.span)

end

section

variable {α β : Type} {part other : List Token → α → Prop} {tokens rest : List Token}

/-- Items that stand somewhere in the tokens, one behind the other. -/
inductive Strewn (part : List Token → α → Prop) : List Token → List α → Prop
  | none {tokens : List Token} : Strewn part tokens []
  | more {gap inner rest : List Token} {item : α} {items : List α} (one : part inner item)
      (others : Strewn part rest items) : Strewn part (gap ++ (inner ++ rest)) (item :: items)

namespace Strewn

variable {items others : List α}

theorem behind (gap : List Token) (strewn : Strewn part tokens items) :
    Strewn part (gap ++ tokens) items := by
  cases strewn with
  | none => exact .none
  | more one others =>
      rw [← List.append_assoc]
      exact .more one others

theorem append (front : Strewn part tokens items) (back : Strewn part rest others) :
    Strewn part (tokens ++ rest) (items ++ others) := by
  induction front with
  | none => exact back.behind _
  | more one _ ih =>
      rw [List.append_assoc, List.append_assoc]
      exact .more one ih

theorem before (strewn : Strewn part tokens items) (rest : List Token) :
    Strewn part (tokens ++ rest) items := by
  have all := strewn.append (.none : Strewn part rest [])
  rwa [List.append_nil] at all

theorem member (strewn : Strewn part tokens items) {item : α} (member : item ∈ items) :
    ∃ inner, inner <:+: tokens ∧ part inner item := by
  induction strewn with
  | none => cases member
  | @more gap inner rest first items one _ ih =>
      rcases List.mem_cons.1 member with rfl | later
      · exact ⟨inner, ⟨gap, rest, by simp⟩, one⟩
      · obtain ⟨found, sub, holds⟩ := ih later
        refine ⟨found, sub.trans ?_, holds⟩
        exact (List.suffix_append_of_suffix (List.suffix_append inner rest)).isInfix

theorem mono (strewn : Strewn part tokens items)
    (weaker : ∀ inner item, part inner item → other inner item) : Strewn other tokens items := by
  induction strewn with
  | none => exact .none
  | more one _ ih => exact .more (weaker _ _ one) ih

theorem pairwise {place : α → Span} (strewn : Strewn part tokens items)
    (ascending : Ascending tokens) (spans : ∀ inner item, part inner item → Spans inner (place item)) :
    items.Pairwise fun first second => (place first).stop ≤ (place second).start := by
  induction strewn with
  | none => exact List.Pairwise.nil
  | @more gap inner rest item items one others ih =>
      have narrowed := ascending.right
      refine List.pairwise_cons.2 ⟨fun next later => ?_, ?_⟩
      · obtain ⟨found, sub, holds⟩ := others.member later
        obtain ⟨-, ⟨last, ends, stop⟩⟩ := spans _ _ one
        obtain ⟨⟨first, head, start⟩, -⟩ := spans _ _ holds
        have apart := narrowed.before (List.mem_of_getLast? ends) (sub.subset (List.mem_of_head? head))
        omega
      · exact ih narrowed.right

end Strewn

section

variable {listed : List Token → β → Prop} (place : β → List α) {items : List β} {close : Span}

theorem Listed.strewn (all : Listed listed close tokens items)
    (each : ∀ inner item, inner <:+: tokens → listed inner item → Strewn part inner (place item)) :
    Strewn part tokens (items.flatMap place) := by
  induction all with
  | last one =>
      rw [List.flatMap_singleton]
      exact (each _ _ (List.prefix_append ..).isInfix one).before _
  | @more inner rest item items comma one others ih =>
      have tail : rest <:+: inner ++ ⟨.mark .comma, comma⟩ :: rest :=
        ⟨inner ++ [⟨.mark .comma, comma⟩], [], by simp⟩
      rw [List.flatMap_cons]
      refine (each _ _ (List.prefix_append ..).isInfix one).append (.behind [⟨.mark .comma, comma⟩] ?_)
      exact ih fun found item sub => each found item (sub.trans tail)

theorem Enclosed.strewn (all : Enclosed listed close tokens items)
    (each : ∀ inner item, inner <:+: tokens → listed inner item → Strewn part inner (place item)) :
    Strewn part tokens (items.flatMap place) := by
  cases all with
  | empty => exact .none
  | listed all => exact all.strewn place each

theorem Chained.strewn {opener : Lexeme} (all : Chained opener listed tokens items)
    (each : ∀ inner item, inner <:+: tokens → listed inner item → Strewn part inner (place item)) :
    Strewn part tokens (items.flatMap place) := by
  induction all with
  | none => exact .none
  | @more inner rest item items start one others ih =>
      have head : inner <:+: ⟨opener, start⟩ :: (inner ++ rest) := ⟨[⟨opener, start⟩], rest, by simp⟩
      have tail : rest <:+: ⟨opener, start⟩ :: (inner ++ rest) :=
        ⟨⟨opener, start⟩ :: inner, [], by simp⟩
      rw [List.flatMap_cons]
      refine .behind [⟨opener, start⟩] ((each _ _ head one).append ?_)
      exact ih fun found item sub => each found item (sub.trans tail)

theorem Coloned.strewn {γ : Type} {body : List Token → γ → Prop} {pair : β × γ}
    (bodyPlace : γ → List α) (whole : Coloned listed body tokens pair)
    (each : ∀ inner item, inner <:+: tokens → listed inner item → Strewn part inner (place item))
    (each' : ∀ inner item, inner <:+: tokens → body inner item → Strewn part inner (bodyPlace item)) :
    Strewn part tokens (place pair.1 ++ bodyPlace pair.2) := by
  cases whole with
  | @pair before after a b colon head body =>
      have tail : after <:+: before ++ ⟨.mark .colon, colon⟩ :: after :=
        ⟨before ++ [⟨.mark .colon, colon⟩], [], by simp⟩
      refine (each _ _ (List.prefix_append ..).isInfix head).append ?_
      exact .behind [⟨.mark .colon, colon⟩] (each' _ _ tail body)

end
end

/-- A tree each node of which has tokens of its own that are good for it. Those of its children lie
among them, one child behind the other. -/
inductive Lies (good : List Token → Expr → Prop) : List Token → Expr → Prop
  | node {core : List Token} {tree : Expr} (part : List Token → Expr → Prop)
      (each : ∀ inner child, part inner child → Lies good inner child) (here : good core tree)
      (below : Strewn part core tree.children) : Lies good core tree

namespace Lies

variable {good : List Token → Expr → Prop} {core : List Token} {tree node : Expr}

theorem of_children (here : good core tree) (below : Strewn (Lies good) core tree.children) :
    Lies good core tree :=
  .node (Lies good) (fun _ _ lies => lies) here below

theorem here (lies : Lies good core tree) : good core tree := by
  cases lies with
  | node part each here below => exact here

theorem children (lies : Lies good core tree) : Strewn (Lies good) core tree.children := by
  cases lies with
  | node part each here below => exact below.mono each

theorem inside (lies : Lies good core tree) (reached : node.Inside tree) :
    ∃ inner, inner <:+: core ∧ Lies good inner node := by
  induction reached generalizing core with
  | whole => exact ⟨core, List.infix_rfl, lies⟩
  | under member _ ih =>
      obtain ⟨found, sub, part⟩ := lies.children.member (Expr.mem_children.2 member)
      obtain ⟨inner, low, holds⟩ := ih part
      exact ⟨inner, low.trans sub, holds⟩

end Lies

/-- The tokens that the span of a tree runs over. For an operation they are the tokens of a phrase
unless they are out of balance. -/
structure Stands (discipline : Discipline) (core : List Token) (tree : Expr) : Prop where
  spans : Spans core tree.span
  whole : tree.applies = true → WellBracketed core → Shaped (Phrase discipline) core tree

/-- A tree stands on the tokens of its phrase that are left when some parentheses at either end
are taken away. -/
def Held (discipline : Discipline) (tokens : List Token) (tree : Expr) : Prop :=
  ∃ front core back, tokens = front ++ (core ++ back) ∧
    (∀ token ∈ front, token.lexeme = .mark .leftParen) ∧
    (∀ token ∈ back, token.lexeme = .mark .rightParen) ∧ Lies (Stands discipline) core tree

section

variable {discipline : Discipline} {tokens : List Token} {tree : Expr}

theorem Held.strewn (held : Held discipline tokens tree) :
    Strewn (Lies (Stands discipline)) tokens [tree] := by
  obtain ⟨front, core, back, rfl, -, -, lies⟩ := held
  exact .more lies .none

theorem lies_of_spans (spans : Spans tokens tree.span) (plain : tree.applies = false)
    (below : Strewn (Lies (Stands discipline)) tokens tree.children) :
    Lies (Stands discipline) tokens tree := by
  refine .of_children ⟨spans, fun applies => ?_⟩ below
  rw [plain] at applies
  cases applies

theorem Lies.held (lies : Lies (Stands discipline) tokens tree) : Held discipline tokens tree :=
  ⟨[], tokens, [], by simp, by simp, by simp, lies⟩

theorem strewn_parts {part : Shape → List Token → Expr → Prop} (ascending : Ascending tokens)
    (parts : ∀ shape inner tree, part shape inner tree → Ascending inner → Held discipline inner tree)
    (inner : List Token) (tree : Expr) (sub : inner <:+: tokens) (one : Shaped part inner tree) :
    Strewn (Lies (Stands discipline)) inner [tree] := by
  obtain ⟨shape, one⟩ := one
  exact (parts shape inner tree one (ascending.part sub)).strewn

theorem strewn_branch {part : Shape → List Token → Expr → Prop} {branch : Expr × Expr}
    (whole : Coloned (Shaped part) (Shaped part) tokens branch) (ascending : Ascending tokens)
    (parts : ∀ shape inner tree, part shape inner tree → Ascending inner → Held discipline inner tree) :
    Strewn (Lies (Stands discipline)) tokens [branch.1, branch.2] :=
  whole.strewn (fun tree => [tree]) (fun tree => [tree]) (strewn_parts ascending parts)
    (strewn_parts ascending parts)

theorem strewn_arm {part : Shape → List Token → Expr → Prop} {arm : Pattern × Expr}
    (whole : Coloned Match (Shaped part) tokens arm) (ascending : Ascending tokens)
    (parts : ∀ shape inner tree, part shape inner tree → Ascending inner → Held discipline inner tree) :
    Strewn (Lies (Stands discipline)) tokens [arm.2] :=
  whole.strewn (fun _ => []) (fun tree => [tree]) (fun _ _ _ _ => .none) (strewn_parts ascending parts)

/-- An operation stands on balanced tokens only if its phrase has no parentheses to be left out: those
in front would be closed by the first operand, and those behind would have to be opened by the last. -/
theorem held_operation {shape : Shape} (phrase : Phrase discipline shape tokens tree)
    (ascending : Ascending tokens) (lefts operand core rights : List Token)
    (same : tokens = lefts ++ (core ++ rights))
    (opens : ∀ token ∈ lefts, token.lexeme = .mark .leftParen)
    (closes : ∀ token ∈ rights, token.lexeme = .mark .rightParen)
    (begins : operand <+: core) (whole : WellBracketed (lefts ++ operand))
    (spans : Ascending core → Spans core tree.span)
    (below : Strewn (Lies (Stands discipline)) core tree.children) : Held discipline tokens tree := by
  subst same
  refine ⟨lefts, core, rights, rfl, opens, closes, .of_children ⟨?_, fun _ balanced => ?_⟩ below⟩
  · exact spans ascending.right.left
  · obtain ⟨rest, rfl⟩ := begins
    obtain rfl := front_eq_nil opens whole balanced
    obtain rfl := back_eq_nil closes phrase.wellBracketed balanced
    exact ⟨shape, by simpa using phrase⟩

theorem Phrase.held {shape : Shape} (phrase : Phrase discipline shape tokens tree)
    (ascending : Ascending tokens) : Held discipline tokens tree := by
  induction phrase with
  | number => exact (lies_of_spans (spans_single _) rfl .none).held
  | truth => exact (lies_of_spans (spans_single _) rfl .none).held
  | var => exact (lies_of_spans (spans_single _) rfl .none).held
  | @paren shape tokens tree start close inner ih =>
      obtain ⟨front, core, back, rfl, opens, closes, lies⟩ := ih ascending.tail.left
      refine ⟨⟨.mark .leftParen, start⟩ :: front, core, back ++ [⟨.mark .rightParen, close⟩], ?_, ?_, ?_,
        lies⟩
      · simp
      · simpa using opens
      · intro token member
        rcases List.mem_append.1 member with earlier | last
        · exact closes token earlier
        · rw [List.mem_singleton.1 last]
  | @negation shape tokens tree start inner fits ih =>
      have phrase : Phrase discipline _ (⟨.operator .sub, start⟩ :: tokens) _ := .negation inner fits
      have zero : Lies (Stands discipline) [⟨.operator .sub, start⟩] (.number 0 start) :=
        lies_of_spans (spans_single _) rfl .none
      obtain ⟨front, core, back, rfl, -, closes, lies⟩ := ih ascending.tail
      refine held_operation phrase ascending [] [] (⟨.operator .sub, start⟩ :: (front ++ core)) back
        (by simp) (by simp) closes List.nil_prefix rfl (fun ascending => ?_) ?_
      · exact (spans_single _).merge ascending (lies.here.spans.closes front)
      · exact zero.held.strewn.append (.behind front lies.held.strewn)
  | letIn bound inner apart ihBound ih =>
      have bound := ihBound ascending.tail.tail.tail.left
      have inner := ih ascending.tail.tail.tail.right.left
      refine (lies_of_spans (spans_form ascending (by simp) (by simp)) rfl ?_).held
      exact .behind [_, _, _] (bound.strewn.append (inner.strewn.before _))
  | @lambda shape names tokens params body start opening closing colon close listed distinct inner ih =>
      have inner := ih ascending.tail.tail.right.tail.left
      refine (lies_of_spans (spans_form ascending (by simp) (by simp)) rfl ?_).held
      exact .behind [_, _] (.behind names (.behind [_] (inner.strewn.before _)))
  | cond part each head tail last ihParts ih =>
      have first := strewn_branch head ascending.tail.left ihParts
      have rest := tail.strewn (fun branch => [branch.1, branch.2]) fun inner branch sub whole =>
        strewn_branch whole (ascending.tail.right.left.part sub) ihParts
      have last := ih ascending.tail.right.right.tail.tail.left
      refine (lies_of_spans (spans_form ascending (by simp) (by simp)) rfl ?_).held
      exact .behind [_] (first.append (rest.append (.behind [_, _] (last.strewn.before _))))
  | matching part each subject head tail ihParts ih =>
      have subject := ih ascending.tail.left
      have first := strewn_arm head ascending.tail.right.tail.left ihParts
      have rest := tail.strewn (fun arm => [arm.2]) fun inner arm sub whole =>
        strewn_arm whole (ascending.tail.right.tail.right.left.part sub) ihParts
      refine (lies_of_spans (spans_form ascending (by simp) (by simp)) rfl ?_).held
      rw [← List.map_eq_flatMap] at rest
      exact .behind [_] (subject.strewn.append (.behind [_] (first.append (rest.before _))))
  | @binary first second before after left right operator place front back leftFits rightFits ihFront
      ihBack =>
      have phrase : Phrase discipline _ (before ++ ⟨.operator operator, place⟩ :: after) _ :=
        .binary front back leftFits rightFits
      obtain ⟨lefts, core, inward, rfl, opens, -, lies⟩ := ihFront ascending.left
      obtain ⟨outward, core', rights, rfl, -, closes, lies'⟩ := ihBack ascending.right.tail
      refine held_operation phrase ascending lefts (core ++ inward)
        (core ++ ((inward ++ ⟨.operator operator, place⟩ :: outward) ++ core')) rights (by simp) opens
        closes (by simp) front.wellBracketed (fun ascending => ?_) ?_
      · exact lies.here.spans.merge ascending (lies'.here.spans.closes _)
      · exact lies.held.strewn.append (.behind _ lies'.held.strewn)
  | @call shape before after callee args opening close part each front fits listed ihParts ih =>
      have phrase : Phrase discipline _ (before ++ ⟨.mark .leftParen, opening⟩ :: after) _ :=
        .call part each front fits listed
      have parts := listed.strewn (fun tree => [tree]) (strewn_parts ascending.right.tail ihParts)
      rw [List.flatMap_singleton'] at parts
      obtain ⟨lefts, core, inward, rfl, opens, -, lies⟩ := ih ascending.left
      have closing : Closes (inward ++ ⟨.mark .leftParen, opening⟩ :: after) _ :=
        closes_spanAfter (by simp) opening
      rw [spanAfter_append, spanAfter_cons, listed.spanAfter] at closing
      refine held_operation phrase ascending lefts (core ++ inward)
        (core ++ (inward ++ ⟨.mark .leftParen, opening⟩ :: after)) [] (by simp) opens (by simp) (by simp)
        front.wellBracketed (fun ascending => ?_) ?_
      · exact lies.here.spans.merge ascending closing
      · exact lies.held.strewn.append (.behind inward (.behind [_] parts))

theorem Item.strewn (item : Item discipline tokens tree) (ascending : Ascending tokens) :
    Strewn (Lies (Stands discipline)) tokens [tree] := by
  cases item with
  | @function shape names tokens name params body start place opening closing colon close listed distinct
      inner =>
      have inner := inner.held ascending.tail.tail.tail.right.tail.left
      refine (lies_of_spans (spans_form ascending (by simp) (by simp)) rfl ?_).held.strewn
      exact .behind [_, _, _] (.behind names (.behind [_] (inner.strewn.before _)))
  | dataType head tail distinct =>
      exact (lies_of_spans (spans_form ascending (by simp) rfl) rfl .none).held.strewn
  | @letTop shape tokens name binding start place equals bound =>
      obtain ⟨front, core, back, rfl, -, -, lies⟩ := bound.held ascending.tail.tail.tail
      rw [← List.append_assoc] at ascending ⊢
      have whole : Lies (Stands discipline) (⟨.keyword .let_, start⟩ :: ⟨.name name, place⟩ ::
          ⟨.mark .equals, equals⟩ :: (front ++ core)) (.letTop name binding (start.merge binding.span)) := by
        refine lies_of_spans ?_ rfl (.behind (_ :: _ :: _ :: front) lies.held.strewn)
        exact (spans_single _).merge ascending.left (lies.here.spans.closes (_ :: _ :: front))
      exact whole.held.strewn.before back
  | expression phrase => exact (phrase.held ascending).strewn

theorem Program.strewn {program : List Expr} (written : Program discipline tokens program)
    (ascending : Ascending tokens) : Strewn (Lies (Stands discipline)) tokens program := by
  induction written with
  | empty => exact .none
  | more one _ ih => exact (one.strewn ascending.left).append (ih ascending.right)

end

theorem ascending_of_recovers {source : List Char} {start : Nat} {tokens : List Token}
    (recovers : Scan.Recovers source start tokens) : Ascending tokens :=
  ⟨fun token member => (recovers.inside token member).2.1, recovers.apart⟩

end Grammar

/-- A node whose span lies in a text of the given length, from where one of its tokens starts to where
one ends. The children lie in it, each behind the one before. -/
structure Expr.Nested (length : Nat) (tokens : List Token) (node : Expr) : Prop where
  lower : 0 ≤ node.span.start
  filled : node.span.start < node.span.stop
  upper : node.span.stop ≤ length
  start : ∃ token ∈ tokens, node.span.start = token.span.start
  stop : ∃ token ∈ tokens, node.span.stop = token.span.stop
  contains : ∀ child ∈ node.children,
    node.span.start ≤ child.span.start ∧ child.span.stop ≤ node.span.stop
  apart : node.children.Pairwise fun first second => first.span.stop ≤ second.span.start

theorem Grammar.Lies.nested {discipline : Discipline} {source : List Char} {tokens core : List Token}
    {node : Expr} (lies : Lies (Stands discipline) core node) (sub : core <:+: tokens)
    (recovers : Scan.Recovers source 0 tokens) : node.Nested source.length tokens := by
  have ascending := (ascending_of_recovers recovers).part sub
  have spans := lies.here.spans
  obtain ⟨⟨first, head, start⟩, ⟨last, ends, stop⟩⟩ := lies.here.spans
  have firstMem := sub.subset (List.mem_of_head? head)
  have lastMem := sub.subset (List.mem_of_getLast? ends)
  refine ⟨?_, spans.filled ascending, ?_, ⟨first, firstMem, start⟩, ⟨last, lastMem, stop⟩, ?_, ?_⟩
  · rw [start]
    exact (recovers.inside first firstMem).1
  · rw [stop]
    exact (recovers.inside last lastMem).2.2
  · intro child member
    obtain ⟨inner, low, part⟩ := lies.children.member member
    exact spans.contains ascending part.here.spans low
  · exact lies.children.pairwise ascending fun inner child part => part.here.spans

/-- The spans of a program nest: every node at every depth lies in the source with its children in order
inside it, and so do the items of the program. -/
theorem spans_nested (room : Nat) (source : String) (program : List Expr)
    (parsed : parseSource room source = .ok program) :
    ∃ tokens, tokenize source = .ok tokens ∧
      (∀ item ∈ program, ∀ node : Expr, node.Inside item → node.Nested source.length tokens) ∧
      program.Pairwise fun first second => first.span.stop ≤ second.span.start := by
  obtain ⟨tokens, scanned, read⟩ := parseSource_ok parsed
  have recovers := (Scan.laid_of_scanned scanned).recovers [] rfl
  have ascending := Grammar.ascending_of_recovers recovers
  have strewn := (Parse.program_ok read).strewn ascending
  refine ⟨tokens, scanned, fun item member node inside => ?_, ?_⟩
  · obtain ⟨core, high, lies⟩ := strewn.member member
    obtain ⟨inner, low, part⟩ := lies.inside inside
    exact part.nested (low.trans high) recovers
  · exact strewn.pairwise ascending fun inner item lies => lies.here.spans

theorem bracketedEnds_nested :
    let program : List Expr :=
      [.binary (.text "*") (.var "b" (.ofWidth 0 1))
        (.binary (.text "-") (.number 0 (.ofWidth 5 1)) (.number 1 (.ofWidth 6 1)) (.ofWidth 5 2))
        (.ofWidth 0 7),
       .letTop "a" (.call (.var "f" (.ofWidth 18 1)) [.number 2 (.ofWidth 21 1)] (.ofWidth 18 5))
        (.ofWidth 9 14)]
    parseSource nestingLimit "b * (-1)\nlet a = (f)(2)" = .ok program ∧
      ∃ tokens, tokenize "b * (-1)\nlet a = (f)(2)" = .ok tokens ∧
        (∀ item ∈ program, ∀ node : Expr, node.Inside item → node.Nested 23 tokens) ∧
        program.Pairwise fun first second => first.span.stop ≤ second.span.start := by
  intro program
  have parsed : parseSource nestingLimit "b * (-1)\nlet a = (f)(2)" = .ok program := by cbv
  exact ⟨parsed, spans_nested nestingLimit "b * (-1)\nlet a = (f)(2)" program parsed⟩

end FernLang
