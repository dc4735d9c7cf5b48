import FernLang.Proofs.Run.Endings
import FernLang.Proofs.Run.Parts
import FernLang.Proofs.Scope.Contents

/-!
Where faults come from. Every closure that a run holds is one of the functions that the run started
with, or was made by a lambda of one of them. So a fault of an evaluation arises at a node that
is reached from the evaluated tree by a chain of calls, each of which stands open in the body of the
one before, and the calls under way are the frames of that chain.
-/

namespace FernLang

/-- What is wrong with a node that has no value because of its form alone. -/
inductive Defect where
  | innerLet
  | innerFunction
  | innerData
  | unknownSign
  | bareRow
deriving DecidableEq

def Expr.defect? : Expr → Option Defect
  | .letTop _ _ _ => some .innerLet
  | .function _ _ _ _ => some .innerFunction
  | .dataType _ _ _ => some .innerData
  | .binary sign _ _ _ => if (Operation.operator? sign).isNone then some .unknownSign else none
  | .row _ => some .bareRow
  | _ => none

def Cause.defect? : Cause → Option Defect
  | .innerLet => some .innerLet
  | .innerFunction => some .innerFunction
  | .innerData => some .innerData
  | .unknownOperator _ => some .unknownSign
  | _ => none

theorem Cause.defect?_of_isOperand {cause : Cause} (operand : cause.isOperand = true) :
    cause.defect? = none := by
  cases cause <;> first | rfl | cases operand

theorem Expr.defect?_of_sign {sign : Json} {left right : Expr} {span : Span}
    (unknown : Operation.operator? sign = none) :
    (Expr.binary sign left right span).defect? = some .unknownSign := by
  rw [defect?, unknown]
  rfl

section

abbrev Functions := List String → Expr → Prop

variable (functions : Functions)

/-- A value all of whose closures are among the functions. -/
inductive Value.Made : Value → Prop
  | num (value : Int) : Made (.num value)
  | bool (value : Bool) : Made (.bool value)
  | closure {params : List String} {body : Expr} {scope : Scope Value} (known : functions params body)
      (captured : ∀ layer ∈ scope.layers, ∀ entry ∈ layer, Made entry.2) :
      Made (.closure params body scope)
  | data {tag : String} {fields : List Value} (each : ∀ field ∈ fields, Made field) :
      Made (.data tag fields)

def Expr.Covered (tree : Expr) : Prop :=
  ∀ params body span, (Expr.lambda params body span).Exposed tree → functions params body

/-- Functions whose bodies make closures of functions only. -/
def Functions.Closed : Prop := ∀ params body, functions params body → body.Covered functions

/-- Calls that lead from a tree to a site: each frame is that of a call that is open in the tree or in
the body of the function called before, and binds the parameters of the function that it calls. The
site is open in the body of the last one. -/
inductive CallChain (site : Expr) : Expr → List Frame → Prop
  | here {tree : Expr} (exposed : site.Exposed tree) : CallChain site tree []
  | call {tree callee body : Expr} {args : List Expr} {params : List String} {frame : Frame}
      {frames : List Frame} (exposed : (Expr.call callee args frame.span).Exposed tree)
      (known : functions params body)
      (bound : ∀ name, frame.arguments.contains name ↔ name ∈ params)
      (rest : CallChain site body frames) : CallChain site tree (frame :: frames)

/-- The faults that evaluating a tree may end with when the calls in `stack` are under way. -/
inductive Fault.Arises (tree : Expr) (stack : Stack) : Fault → Prop
  | raised {site : Expr} {frames : List Frame} {cause : Cause} {scope : Scope Value}
      (chain : CallChain functions site tree frames) (inner : cause ≠ .outerLet)
      (defect : ∀ found, cause.defect? = some found → site.defect? = some found) :
      Arises tree stack (.raised ⟨cause, site.span, scope, stack ++ frames⟩)
  | tooDeep {site : Expr} {frames : List Frame} {last : Frame} {scope : Scope Value}
      (chain : CallChain functions site tree (frames ++ [last])) :
      Arises tree stack (.raised ⟨.tooDeep, last.span, scope, stack ++ (frames ++ [last])⟩)
  | bareRow {site : Expr} {frames : List Frame} (chain : CallChain functions site tree frames)
      (defect : site.defect? = some .bareRow) : Arises tree stack .bareRow
  | compoundSign {site : Expr} {frames : List Frame} (chain : CallChain functions site tree frames)
      (defect : site.defect? = some .unknownSign) : Arises tree stack .compoundSign
  | long : Arises tree stack (.numeral .tooLongToWrite)
  | outOfRoom : Arises tree stack .outOfRoom

end

variable {functions : Functions}

theorem Value.Made.fields (tag : String) (values : List Value)
    (made : (Value.data tag values).Made functions) : ∀ value ∈ values, value.Made functions := by
  cases made with
  | data each => exact each

theorem Value.made_of_all (all : ∀ params body, functions params body) (value : Value) :
    value.Made functions := by
  induction value using Value.induction with
  | num value => exact .num value
  | bool value => exact .bool value
  | closure params body scope held => exact .closure (all params body) held
  | data tag fields each => exact .data each

theorem Value.Plain.made {value : Value} (plain : value.Plain) : value.Made functions := by
  cases plain with
  | num value => exact .num value
  | bool value => exact .bool value

section

variable {site part tree : Expr} {frames : List Frame} {stack : Stack} {fault : Fault}

theorem Expr.Covered.under (covered : tree.Covered functions) (member : part ∈ tree.openParts) :
    part.Covered functions :=
  fun params body span exposed => covered params body span (.under member exposed)

theorem CallChain.under (member : part ∈ tree.openParts)
    (chain : CallChain functions site part frames) : CallChain functions site tree frames := by
  cases chain with
  | here exposed => exact .here (.under member exposed)
  | call exposed known bound rest => exact .call (.under member exposed) known bound rest

namespace Fault.Arises

theorem under (member : part ∈ tree.openParts) (arises : fault.Arises functions part stack) :
    fault.Arises functions tree stack := by
  cases arises with
  | raised chain inner defect => exact .raised (chain.under member) inner defect
  | tooDeep chain => exact .tooDeep (chain.under member)
  | bareRow chain defect => exact .bareRow (chain.under member) defect
  | compoundSign chain defect => exact .compoundSign (chain.under member) defect
  | long => exact .long
  | outOfRoom => exact .outOfRoom

theorem enter {callee body : Expr} {args : List Expr} {params : List String} {frame : Frame}
    (exposed : (Expr.call callee args frame.span).Exposed tree) (known : functions params body)
    (bound : ∀ name, frame.arguments.contains name ↔ name ∈ params)
    (arises : fault.Arises functions body (stack ++ [frame])) :
    fault.Arises functions tree stack := by
  cases arises with
  | raised chain inner defect =>
      rw [List.append_assoc]
      exact .raised (.call exposed known bound chain) inner defect
  | @tooDeep _ frames last _ chain =>
      rw [List.append_assoc, ← List.append_assoc [frame]]
      exact .tooDeep (.call exposed known bound chain)
  | bareRow chain defect => exact .bareRow (.call exposed known bound chain) defect
  | compoundSign chain defect => exact .compoundSign (.call exposed known bound chain) defect
  | long => exact .long
  | outOfRoom => exact .outOfRoom

theorem own {cause : Cause} {scope : Scope Value} (inner : cause ≠ .outerLet)
    (defect : ∀ found, cause.defect? = some found → tree.defect? = some found) :
    (Fault.raised ⟨cause, tree.span, scope, stack⟩).Arises functions tree stack := by
  have arises : (Fault.raised ⟨cause, tree.span, scope, stack ++ []⟩).Arises functions tree stack :=
    .raised (.here .whole) inner defect
  rwa [List.append_nil] at arises

theorem plain {cause : Cause} {scope : Scope Value} (exposed : site.Exposed tree)
    (inner : cause ≠ .outerLet) (formless : cause.defect? = none) :
    (Fault.raised ⟨cause, site.span, scope, stack⟩).Arises functions tree stack := by
  have arises : (Fault.raised ⟨cause, site.span, scope, stack ++ []⟩).Arises functions tree stack :=
    .raised (.here exposed) inner (by simp [formless])
  rwa [List.append_nil] at arises

end Fault.Arises
end

namespace Eval

/-- What is asked of an evaluator: from values that are made of the functions, a tree covered by them
has such a value, or its fault arises in it. -/
def Traces (functions : Functions) (eval : Expr → Scope Value → Stack → Eval Value) : Prop :=
  ∀ {tree : Expr} {scope : Scope Value} (stack : Stack), tree.Covered functions →
    scope.Holds (Value.Made functions) →
      Ends (Value.Made functions) (Fault.Arises functions tree stack) (eval tree scope stack)

section

variable {eval : Expr → Scope Value → Stack → Eval Value} {tree : Expr} {scope : Scope Value}

theorem Traces.part (traces : Traces functions eval) {part : Expr} (member : part ∈ tree.openParts)
    (covered : tree.Covered functions) (held : scope.Holds (Value.Made functions)) (stack : Stack) :
    Ends (Value.Made functions) (Fault.Arises functions tree stack) (eval part scope stack) :=
  (traces stack (covered.under member) held).mono (fun _ made => made) fun _ => .under member

theorem arguments_made {params : List String} {values : List Value}
    (same : values.length = params.length) (each : ∀ value ∈ values, value.Made functions)
    {inner : Scope Value} (bound : inner = .ofBindings (Bindings.ofPairs (params.zip values))) :
    inner.Holds (Value.Made functions) ∧ ∀ name, inner.contains name ↔ name ∈ params := by
  subst bound
  constructor
  · exact Scope.holds_ofBindings fun entry member => each _ (Bindings.mem_ofPairs_zip member)
  · intro name
    rw [Scope.contains_ofBindings, Bindings.mem_names_ofPairs_zip same]

theorem ends_traced_call (setting : Setting) (traces : Traces functions eval)
    (closed : functions.Closed) {callee : Expr} {args : List Expr} {span : Span} {scope : Scope Value}
    (stack : Stack) (covered : (Expr.call callee args span).Covered functions)
    (held : scope.Holds (Value.Made functions)) :
    Ends (Value.Made functions) (Fault.Arises functions (.call callee args span) stack)
      (call setting eval callee args span scope stack) := by
  refine ends_call .long setting (traces.part List.mem_cons_self covered held stack)
    (fun arg member => traces.part (List.mem_cons_of_mem _ member) covered held stack)
    (fun shown => .own (by simp) (by simp [Cause.defect?]))
    (fun wanted given => .own (by simp) (by simp [Cause.defect?])) ?_
  intro params body captured values made same each inner bound
  obtain ⟨holds, named⟩ := arguments_made same each bound
  cases made with
  | closure known held =>
      have inside := traces (stack ++ [⟨span, inner⟩]) (closed _ _ known)
        (Scope.Holds.union held holds)
      have entered : (Expr.call callee args span).Exposed (.call callee args span) := .whole
      have chain : CallChain functions body (.call callee args span) ([] ++ [⟨span, inner⟩]) :=
        .call entered known named (.here .whole)
      refine inside.withinRoom (.tooDeep chain) ?_
      intro fault _ arises
      exact .enter entered known named arises

end
end Eval

open Eval in
theorem evaluate_traces (setting : Setting) (closed : functions.Closed)
    (table : setting.functions.Holds (Value.Made functions)) (room : Nat) :
    Traces functions (evaluate setting room) := by
  -- A call takes two frames at once, so the induction reaches below the last frame.
  induction room using Nat.strongRecOn with
  | ind room ih =>
      intro tree scope stack covered held
      cases room with
      | zero => exact ends_throw .outOfRoom
      | succ room =>
          have inner : Traces functions (evaluate setting room) := ih room (Nat.lt_succ_self room)
          cases tree with
          | number value span => exact ends_pure (.num value)
          | bool value span => exact ends_pure (.bool value)
          | var name span =>
              rw [evaluate, lookUp_eq]
              cases found : meaning? setting scope name with
              | some value => exact ends_pure (meaning?_holds table held found)
              | none => exact ends_raise (.own (by simp) (by simp [Cause.defect?]))
          | letIn name binding body span =>
              apply (inner.part (by simp [Expr.openParts, Expr.parts]) covered held stack).bind
              intro value made
              exact inner.part (by simp [Expr.openParts, Expr.parts]) covered
                (held.extend made name) stack
          | binary sign left right span =>
              apply (inner.part (by simp [Expr.openParts, Expr.parts]) covered held stack).bind
              intro first _
              apply (inner.part (by simp [Expr.openParts, Expr.parts]) covered held stack).bind
              intro second _
              refine ends_applied .long (Operation.answers_applySign sign first second)
                (fun _ => Value.Plain.made) ?_
                fun unknown => .compoundSign (.here .whole) (Expr.defect?_of_sign unknown)
              intro cause obstacle
              cases obstacle with
              | operand operand =>
                  refine .own (by rintro rfl; cases operand) ?_
                  simp [Cause.defect?_of_isOperand operand]
              | unknown shown unknown =>
                  refine .own (by simp) ?_
                  rintro _ ⟨⟩
                  exact Expr.defect?_of_sign unknown
          | lambda params body span => exact ends_pure (.closure (covered _ _ _ .whole) held)
          | call callee args span =>
              cases room with
              | zero => exact ends_throw .outOfRoom
              | succ room =>
                  exact ends_traced_call setting (ih room (by omega)) closed stack covered held
          | cond choices otherwise span =>
              have opened {choice : Expr × Expr} (member : choice ∈ choices) :
                  choice.1 ∈ (Expr.cond choices otherwise span).openParts ∧
                    choice.2 ∈ (Expr.cond choices otherwise span).openParts := by
                constructor <;>
                  exact List.mem_cons_of_mem _ (List.mem_flatMap.2 ⟨choice, member, by simp⟩)
              refine ends_branches .long setting (inner.part List.mem_cons_self covered held stack)
                (fun choice member => inner.part (opened member).1 covered held stack)
                (fun choice member => inner.part (opened member).2 covered held stack) ?_
              intro choice member shown
              exact .plain (.part (opened member).1) (by simp) rfl
          | construct tag fields span =>
              apply (ends_mapM fun field member => inner.part member covered held stack).bind
              intro values ⟨_, all⟩
              exact ends_pure (.data all)
          | matching scrutinee arms span =>
              apply (inner.part List.mem_cons_self covered held stack).bind
              intro value made
              refine ends_matching .long setting ?_ fun shown => .own (by simp) (by simp [Cause.defect?])
              intro pattern body bindings member fits
              have matched := Pattern.bindings?_kind Value.Made.fields fits made
              exact inner.part (List.mem_cons_of_mem _ (List.mem_map.2 ⟨_, member, rfl⟩)) covered
                (held.union (Scope.holds_ofBindings matched)) stack
          | letTop | function | dataType => exact ends_raise (.own (by simp) fun _ same => same)
          | row items => exact ends_throw (.bareRow (.here .whole) rfl)

end FernLang
