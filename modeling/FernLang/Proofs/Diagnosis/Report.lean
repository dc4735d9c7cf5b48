import Mathlib
import FernLang.Notice
import FernLang.Proofs.Diagnosis.Placement
import FernLang.Proofs.Run.Items

/-!
Reports of failures. A span that lies in a source can be shown there: its ends have positions, and
all the lines between them exist. The failures of a source, in reading it or in running it, have
spans that lie in it, and so have the calls under way. So every such failure has its report.
-/

namespace FernLang

namespace Text

theorem length_pieces (sign : Char) (text : List Char) :
    (pieces sign text).length = text.count sign + 1 := by
  induction text with
  | nil => rfl
  | cons c text ih =>
      rw [pieces]
      split
      · rename_i same
        rw [same, List.count_cons_self, List.length_cons, ih]
      · rename_i other
        rw [List.count_cons_of_ne other, ← ih]
        cases cut : pieces sign text with
        | nil =>
            rw [cut] at ih
            cases ih
        | cons piece rest => rfl

end Text

namespace Excerpt

variable {source : List Char}

theorem position_ok {index : Int} (low : 0 ≤ index) (high : index ≤ source.length) :
    position source index = .ok (positionAfter (source.take index.toNat)) := by
  rw [position, if_neg (by omega)]

theorem line_lt_lines (source : List Char) (index : Nat) :
    (positionAfter (source.take index)).line < (lines source).length := by
  have fewer := (List.take_sublist index source).count_le '\n'
  rw [lines, Text.length_pieces]
  exact Nat.lt_succ_of_le fewer

theorem line_mono {first last : Nat} (before : first ≤ last) :
    (positionAfter (source.take first)).line ≤ (positionAfter (source.take last)).line :=
  (List.take_sublist_take_left before).count_le '\n'

theorem lastPosition_line (source : List Char) {start stop : Position}
    (before : start.line ≤ stop.line) :
    start.line ≤ (lastPosition source start stop).line ∧
      (lastPosition source start stop).line ≤ stop.line := by
  unfold lastPosition
  split
  · dsimp only
    omega
  · exact ⟨before, Nat.le_refl _⟩

theorem row_line (start stop : Position) (line : Nat) (text : List Char) :
    (row start stop line text).line = line := by
  unfold row
  split
  · rfl
  · split
    · rfl
    · split <;> rfl

theorem row_text (start stop : Position) (line : Nat) (text : List Char) :
    (row start stop line text).text = text := by
  unfold row
  split
  · rfl
  · split
    · rfl
    · split <;> rfl

/-- The rows of a span are those of the lines from its start to the last one underlined, at least one,
and the source has all of these lines. -/
def Shows (source : List Char) (span : Span) (rows : List Row) : Prop :=
  ∃ start stop, position source span.start = .ok start ∧ position source span.stop = .ok stop ∧
    start.line ≤ (lastPosition source start stop).line ∧
      rows.map (fun row => (row.line, some row.text)) =
        (List.range' start.line ((lastPosition source start stop).line + 1 - start.line)).map
          fun line => (line, (lines source)[line]?)

theorem rows_eq {start stop : Position} (last : stop.line < (lines source).length) :
    ((((lines source).drop start.line).take (stop.line + 1 - start.line)).zipIdx start.line).map
        (fun (text, line) => ((row start stop line text).line, some (row start stop line text).text)) =
      (List.range' start.line (stop.line + 1 - start.line)).map
        fun line => (line, (lines source)[line]?) := by
  apply List.ext_getElem?
  intro index
  simp only [row_line, row_text, List.getElem?_map, List.getElem?_zipIdx, List.getElem?_take,
    List.getElem?_drop]
  by_cases among : index < stop.line + 1 - start.line
  · have bound : start.line + index < (lines source).length := by omega
    simp [among, List.getElem?_eq_getElem bound]
  · simp [among]

theorem underline_shows {span : Span} (inside : span.Within source.length) :
    ∃ rows, underline source span = .ok rows ∧ Shows source span rows := by
  have ordered := span.ordered
  have first := position_ok inside.start (Int.le_trans ordered inside.stop)
  have last := position_ok (Int.le_trans inside.start ordered) inside.stop
  have before : (positionAfter (source.take span.start.toNat)).line ≤
      (positionAfter (source.take span.stop.toNat)).line := line_mono (by omega)
  have bound := line_lt_lines source span.stop.toNat
  generalize positionAfter (source.take span.start.toNat) = start at first before
  generalize positionAfter (source.take span.stop.toNat) = stop at last before bound
  obtain ⟨low, high⟩ := lastPosition_line source before
  rw [underline, first, last]
  refine ⟨_, rfl, start, stop, first, last, low, ?_⟩
  rw [List.map_map]
  exact rows_eq (Nat.lt_of_le_of_lt high bound)

theorem renderCall_ok {span : Span} (low : 0 ≤ span.start) (high : span.start ≤ source.length)
    (name : String) (index : Nat) : ∃ entry, renderCall source name index span = .ok entry := by
  rw [renderCall, label, position_ok low high]
  exact ⟨_, rfl⟩

theorem renderCalls_ok {calls : List Span} {source : String}
    (inside : ∀ call ∈ calls, 0 ≤ call.start ∧ call.start ≤ source.length) (name : String) :
    ∃ report, renderCalls calls source name = .ok report := by
  have each : ∀ entry ∈ calls.zipIdx,
      ∃ text, renderCall source.toList name entry.2 entry.1 = .ok text := by
    intro entry member
    have here := inside _ (List.fst_mem_of_mem_zipIdx member)
    rw [← String.length_toList] at here
    exact renderCall_ok here.1 here.2 name entry.2
  obtain ⟨entries, shown⟩ := mapM_ok each
  rw [renderCalls, shown]
  exact ⟨_, rfl⟩

end Excerpt

/-- A notice that a source is long enough for: its span lies there, and its calls start there. -/
structure Notice.Fits (source : String) (notice : Notice) : Prop where
  span : notice.span.Within source.length
  calls : ∀ call ∈ notice.calls, 0 ≤ call.start ∧ call.start ≤ source.length

theorem Notice.Fits.render {source : String} {notice : Notice} (fits : notice.Fits source)
    (name : String) : ∃ report, notice.render source name = .ok report := by
  have here := fits.span
  rw [← String.length_toList] at here
  obtain ⟨rows, underlined, _⟩ := Excerpt.underline_shows here
  rw [Notice.render, Excerpt.renderError, underlined]
  by_cases none : notice.calls.isEmpty
  · simp only [none]
    exact ⟨_, rfl⟩
  · obtain ⟨report, shown⟩ := Excerpt.renderCalls_ok fits.calls name
    simp only [none, shown]
    exact ⟨_, rfl⟩

/-- A notice that can be shown against a source: its span and its calls lie there, the lines that are
underlined exist, and it has its report. -/
structure Notice.Shown (source name : String) (notice : Notice) : Prop where
  span : notice.span.Within source.length
  calls : ∀ call ∈ notice.calls, call.Within source.length
  rows : ∃ rows, Excerpt.underline source.toList notice.span = .ok rows ∧
    Excerpt.Shows source.toList notice.span rows
  report : ∃ report, notice.render source name = .ok report

theorem Notice.fits {source : String} {notice : Notice} (inside : notice.span.Within source.length)
    (calls : ∀ call ∈ notice.calls, call.Within source.length) : notice.Fits source :=
  ⟨inside, fun call member =>
    ⟨(calls call member).start, Int.le_trans call.ordered (calls call member).stop⟩⟩

theorem Notice.shown {source : String} {notice : Notice} (inside : notice.span.Within source.length)
    (calls : ∀ call ∈ notice.calls, call.Within source.length) (name : String) :
    notice.Shown source name := by
  have here := inside
  rw [← String.length_toList] at here
  exact ⟨inside, calls, Excerpt.underline_shows here, (Notice.fits inside calls).render name⟩

theorem SourceError.notice_within {room : Nat} {source : String} {error : SourceError} {notice : Notice}
    (refused : parseSource room source = .error error) (known : error.notice = .ok notice) :
    notice.span.Within source.length ∧ notice.calls = [] := by
  have placed := parseSource_placed room source
  rw [refused] at placed
  cases error with
  | scan error =>
      cases error with
      | unexpected found index =>
          cases known
          exact ⟨.ofWidth placed, rfl⟩
      | numeral error => cases known
  | parse error =>
      cases known
      exact ⟨placed, rfl⟩
  | tooDeep | misused => cases known

section

variable {length : Nat}

/-- The functions of a program that lies in the text lie there; those of variants have the span of
their declaration. -/
theorem Expr.supported_within {program : List Expr} (inside : ∀ item ∈ program, item.Within length) :
    Supported (Functions.every (·.span.Within length)) program := by
  apply supported_every
  · intro item member part under
    exact (within_iff.1 (inside item member)).2 part under
  · intro name variants span member variant _
    have here : span.Within length := (inside _ member).here
    refine within_iff.2 ⟨here, List.forall_mem_map.2 fun field _ => ?_⟩
    exact within_iff.2 ⟨here, by simp [parts]⟩

theorem Fault.Stops.within {item : Expr} {error : RuntimeError} (inside : item.Within length)
    (stops : (Fault.raised error).Stops (Functions.every (·.span.Within length)) item) :
    error.span.Within length ∧ ∀ frame ∈ error.stack, frame.span.Within length := by
  have framed {frames : List Frame}
      (calls : ∀ frame ∈ frames, ∃ call : Expr, call.span.Within length ∧ call.span = frame.span) :
      ∀ frame ∈ Stack.root ++ frames, frame.span.Within length := by
    refine List.forall_mem_append.2 ⟨List.forall_mem_singleton.2 .origin, ?_⟩
    intro frame member
    obtain ⟨call, here, same⟩ := calls frame member
    exact same ▸ here
  cases stops with
  | @arisen _ expr subject arises caught =>
      have whole : expr.Within length := by
        rcases Expr.subject?_cases subject with rfl | member
        · exact inside
        · exact (Expr.within_iff.1 inside).2 _ (Expr.mem_parts_of_open item _ member)
      cases arises with
      | raised chain _ _ =>
          obtain ⟨site, calls⟩ := chain.every whole
          exact ⟨site, framed calls⟩
      | tooDeep chain =>
          obtain ⟨_, calls⟩ := chain.every whole
          have all := framed calls
          exact ⟨all _ (by simp), all⟩
  | outerLet same => exact ⟨inside.here, List.forall_mem_singleton.2 .origin⟩
  | tooDeep => exact ⟨inside.here, List.forall_mem_singleton.2 .origin⟩

theorem Session.Made.error_within {session : Session}
    (made : session.Made (Functions.every (·.span.Within length))) {program : List Expr}
    (inside : ∀ item ∈ program, item.Within length) {room level : Nat} {error : RuntimeError}
    (failed : (session.run room level program).result = .error (.raised error)) :
    error.span.Within length ∧ ∀ frame ∈ error.stack, frame.span.Within length := by
  obtain ⟨item, member, _, stops⟩ := Session.run_stops made (Expr.supported_within inside)
    Functions.every_closed failed
  exact stops.within (inside item member)

theorem run_error_within {program : List Expr} (inside : ∀ item ∈ program, item.Within length)
    {room level : Nat} {error : RuntimeError}
    (failed : (Session.fresh.run room level program).result = .error (.raised error)) :
    error.span.Within length ∧ ∀ frame ∈ error.stack, frame.span.Within length :=
  (Session.made_fresh _).error_within inside failed

end

/-- A failure of a source lies in it and has its report there: a refusal to read it, and an error
that running it raises, with all the calls under way. -/
theorem failures_shown (room frames level : Nat) (source name : String) :
    (∀ error notice, parseSource room source = .error error → error.notice = .ok notice →
      notice.Shown source name) ∧
    ∀ program error, parseSource room source = .ok program →
      (Session.fresh.run frames level program).result = .error (.raised error) →
        (∀ frame ∈ error.stack, frame.span.Within source.length) ∧
          error.notice.Shown source name := by
  constructor
  · intro error notice refused known
    obtain ⟨inside, none⟩ := SourceError.notice_within refused known
    exact Notice.shown inside (by simp [none]) name
  · intro program error parsed failed
    have placed := parseSource_placed room source
    rw [parsed] at placed
    obtain ⟨span, stack⟩ := run_error_within placed failed
    refine ⟨stack, Notice.shown span ?_ name⟩
    intro call member
    obtain ⟨frame, among, rfl⟩ := List.mem_map.1 member
    exact stack frame (List.mem_of_mem_tail among)

/-- A call over two lines of a function that divides by zero on a line of its own. -/
def dividingCall : String := "function half(n):\n  n / 0\nend\nhalf(\n  7)"

def dividingCallItems : List Expr :=
  [ .function "half" ["n"]
      (.binary (.text "/") (.var "n" (.ofWidth 20 1)) (.number 0 (.ofWidth 24 1)) (.ofWidth 20 5))
      (.ofWidth 0 29),
    .call (.var "half" (.ofWidth 30 4)) [.number 7 (.ofWidth 38 1)] (.ofWidth 30 10) ]

theorem dividingCall_shown :
    (∃ error notice, parseSource 10 "let x =\n" = .error error ∧ error.notice = .ok notice ∧
      notice.Shown "let x =\n" "open") ∧
    ∃ error, parseSource 10 dividingCall = .ok dividingCallItems ∧
      (Session.fresh.run 20 0 dividingCallItems).result = .error (.raised error) ∧
        error.stack.map (·.span) = [.origin, .ofWidth 30 10] ∧
          (∀ frame ∈ error.stack, frame.span.Within dividingCall.length) ∧
            error.notice.Shown dividingCall "half" := by
  have refused : parseSource 10 "let x =\n" = .error (.parse ⟨.ranOut "expression", .point 7⟩) := by
    cbv
  have parsed : parseSource 10 dividingCall = .ok dividingCallItems := by cbv
  constructor
  · exact ⟨_, _, refused, rfl, (failures_shown 10 20 0 "let x =\n" "open").1 _ _ refused rfl⟩
  · exact ⟨_, parsed, rfl, rfl, (failures_shown 10 20 0 dividingCall "half").2 _ _ parsed rfl⟩

end FernLang
