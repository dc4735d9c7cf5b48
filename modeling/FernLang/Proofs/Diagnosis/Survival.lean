import Mathlib
import FernLang.Proofs.Diagnosis.Report
import FernLang.Proofs.Run.Guards

/-!
How the shell lives through failures. Every line that is refused has its report, and so has every error
that a run raises within the source of that run. An error in a function of an earlier line has the spans
of that earlier source: when the source of the current line does not reach them, there is no report, and
the failure escapes. Nothing else does, apart from numbers and nesting beyond the limits. In every case
the shell goes on from the session that the run left.
-/

namespace FernLang

namespace Excerpt

variable {source : List Char}

theorem bounds_of_position {index : Int} {place : Position}
    (found : position source index = .ok place) : 0 ≤ index ∧ index ≤ source.length := by
  unfold position at found
  split at found
  · cases found
  · rename_i inside
    omega

theorem within_of_underline {span : Span} {rows : List Row} (shown : underline source span = .ok rows) :
    span.Within source.length := by
  obtain ⟨start, first, shown⟩ := ok_of_bind shown
  obtain ⟨stop, last, _⟩ := ok_of_bind shown
  exact ⟨(bounds_of_position first).1, (bounds_of_position last).2⟩

theorem bounds_of_renderCall {span : Span} {name : String} {index : Nat} {entry : List String}
    (shown : renderCall source name index span = .ok entry) :
    0 ≤ span.start ∧ span.start ≤ source.length := by
  obtain ⟨text, labelled, _⟩ := ok_of_bind shown
  obtain ⟨place, first, _⟩ := ok_of_bind labelled
  exact bounds_of_position first

theorem bounds_of_renderCalls {calls : List Span} {source name report : String}
    (shown : renderCalls calls source name = .ok report) :
    ∀ call ∈ calls, 0 ≤ call.start ∧ call.start ≤ source.length := by
  obtain ⟨entries, rendered, _⟩ := ok_of_bind shown
  intro call member
  obtain ⟨index, bound, rfl⟩ := List.mem_iff_getElem.1 member
  have among : (calls[index], index) ∈ calls.zipIdx :=
    List.mk_mem_zipIdx_iff_getElem?.2 (List.getElem?_eq_getElem bound)
  obtain ⟨entry, one⟩ := ok_of_mapM rendered _ among
  rw [← String.length_toList]
  exact bounds_of_renderCall one

end Excerpt

/-- A notice has a report against a source exactly when the source is long enough for it. -/
theorem Notice.fits_iff {source : String} {notice : Notice} (name : String) :
    notice.Fits source ↔ ∃ report, notice.render source name = .ok report := by
  refine ⟨fun fits => fits.render name, ?_⟩
  rintro ⟨report, shown⟩
  obtain ⟨front, rendered, shown⟩ := ok_of_bind shown
  obtain ⟨rows, underlined, _⟩ := ok_of_bind rendered
  have span := Excerpt.within_of_underline underlined
  rw [String.length_toList] at span
  by_cases none : notice.calls.isEmpty
  · exact ⟨span, by simp [List.isEmpty_iff.1 none]⟩
  · rw [if_neg none] at shown
    obtain ⟨calls, listed, _⟩ := ok_of_bind shown
    exact ⟨span, Excerpt.bounds_of_renderCalls listed⟩

/-- Escapes that are due to a limit: a number with too many digits, or forms nested too deep. -/
inductive Escape.HostLimit : Escape → Prop
  | numeral (error : Numeral.Error) : HostLimit (.numeral error)
  | tooDeep : HostLimit .tooDeep

theorem SourceError.hostLimit {room : Nat} {source : String} {error : SourceError} {escape : Escape}
    (refused : parseSource room source = .error error) (known : error.notice = .error escape) :
    escape.HostLimit := by
  have placed := parseSource_placed room source
  rw [refused] at placed
  cases error with
  | scan error =>
      cases error with
      | unexpected found index => cases known
      | numeral error =>
          cases known
          exact .numeral error
  | parse error => cases known
  | tooDeep =>
      cases known
      exact .tooDeep
  | misused misuse => exact placed.elim

namespace Shell

variable {limits : Limits} {shell : Shell} {line source : String}

def source? (line : String) (shell : Shell) : Option String :=
  match command line with
  | .code text => some (shell.pending ++ text)
  | _ => none

def after (limits : Limits) (shell : Shell) (lines : List String) : Shell :=
  lines.foldl (fun shell line => (shell.read limits line).1) shell

def accepted (limits : Limits) : Shell → List String → List String
  | _, [] => []
  | shell, line :: lines =>
      ((shell.source? line).filter fun source => (parseSource limits.nesting source).isOk).toList ++
        accepted limits (shell.read limits line).1 lines

/-- A line fails: its source is refused, and not for being unfinished, or the run of it raises an error.
The notice is what there is to report, and the shell is to go on with nothing kept, from the session
that the run left. -/
inductive Failure (limits : Limits) (shell : Shell) (line source : String) : Notice → Shell → Prop
  | refused {error : SourceError} {notice : Notice} (found : shell.source? line = some source)
      (refused : parseSource limits.nesting source = .error error)
      (finished : error.isIncomplete = false) (known : error.notice = .ok notice) :
      Failure limits shell line source notice shell.reset
  | raised {program : List Expr} {error : RuntimeError} (found : shell.source? line = some source)
      (parsed : parseSource limits.nesting source = .ok program)
      (failed : (shell.session.run limits.frames shell.level program).result =
        .error (.raised error)) :
      Failure limits shell line source error.notice
        { shell.reset with
          session := (shell.session.run limits.frames shell.level program).session }

theorem read_of_source (limits : Limits) (found : shell.source? line = some source) :
    ∃ text, source = shell.pending ++ text ∧ shell.read limits line = shell.code limits text := by
  unfold source? at found
  unfold read
  split at found
  · rename_i text same
    cases found
    exact ⟨text, rfl, by rw [same]⟩
  · cases found

theorem read_of_none (none : shell.source? line = none) :
    (shell.read limits line).1 = shell ∧
      ∀ escape, (shell.read limits line).2.ending ≠ .breaks escape := by
  unfold source? at none
  unfold read
  cases same : command line with
  | code text =>
      rw [same] at none
      cases none
  | nothing | help | exit | leave => exact ⟨rfl, nofun⟩

theorem read_parsed (found : shell.source? line = some source) {program : List Expr}
    (parsed : parseSource limits.nesting source = .ok program) :
    shell.read limits line =
      ({ shell.reset with session := (shell.session.run limits.frames shell.level program).session },
        answer (shell.session.run limits.frames shell.level program) source shell.name) := by
  obtain ⟨text, rfl, same⟩ := read_of_source limits found
  rw [same, code, parsed]

theorem read_refused (found : shell.source? line = some source) {error : SourceError}
    (refused : parseSource limits.nesting source = .error error) :
    shell.read limits line =
      if error.isIncomplete then
        ({ shell with pending := source ++ "\n", prompt := .secondary }, writes "")
      else
        (if error.notice.isOk then shell.reset else shell, reported error.notice source shell.name) := by
  obtain ⟨text, rfl, same⟩ := read_of_source limits found
  rw [same, code, refused]

theorem name_read (limits : Limits) (line : String) (shell : Shell) :
    (shell.read limits line).1.name = shell.name := by
  cases found : shell.source? line with
  | none => rw [(read_of_none found).1]
  | some source =>
      cases parsed : parseSource limits.nesting source with
      | ok program =>
          rw [read_parsed found parsed]
          rfl
      | error error =>
          rw [read_refused found parsed]
          split
          · rfl
          · split <;> rfl

theorem name_after (limits : Limits) (shell : Shell) (lines : List String) :
    (after limits shell lines).name = shell.name := by
  induction lines generalizing shell with
  | nil => rfl
  | cons line lines ih => exact (ih (shell.read limits line).1).trans (name_read limits line shell)

variable {functions : Functions}

theorem read_made (closed : functions.Closed) (made : shell.session.Made functions)
    (supports : ∀ source program, shell.source? line = some source →
      parseSource limits.nesting source = .ok program → Expr.Supported functions program) :
    (shell.read limits line).1.session.Made functions := by
  cases found : shell.source? line with
  | none =>
      rw [(read_of_none found).1]
      exact made
  | some source =>
      cases parsed : parseSource limits.nesting source with
      | ok program =>
          rw [read_parsed found parsed]
          exact Session.run_made made (supports source program found parsed) closed _ _
      | error error =>
          rw [read_refused found parsed]
          split
          · exact made
          · split <;> exact made

theorem after_made (closed : functions.Closed) (lines : List String)
    (made : shell.session.Made functions)
    (supports : ∀ source ∈ accepted limits shell lines, ∀ program,
      parseSource limits.nesting source = .ok program → Expr.Supported functions program) :
    (after limits shell lines).session.Made functions := by
  induction lines generalizing shell with
  | nil => exact made
  | cons line lines ih =>
      refine ih (read_made closed made ?_) ?_
      · intro source program found parsed
        refine supports source (List.mem_append_left _ ?_) program parsed
        rw [found, Option.filter_some, parsed]
        exact List.mem_singleton_self source
      · exact fun source member => supports source (List.mem_append_right _ member)

theorem formed_after (limits : Limits) (name : String) (level : Nat) (lines : List String) :
    (after limits (start name level) lines).session.Made (Functions.every (·.defect? = none)) :=
  after_made Functions.every_closed lines (Session.made_fresh _)
    fun _ _ _ parsed => Grammar.supported_surface (Grammar.surface_of_parsed parsed)

/-- All that a shell holds lies within a length that no source run so far exceeds. -/
theorem within_after (limits : Limits) (name : String) (level : Nat) {lines : List String}
    {length : Nat}
    (short : ∀ source ∈ accepted limits (start name level) lines, source.length ≤ length) :
    (after limits (start name level) lines).session.Made (Functions.every (·.span.Within length)) := by
  refine after_made Functions.every_closed lines (Session.made_fresh _) ?_
  intro source member program parsed
  have placed := parseSource_placed limits.nesting source
  rw [parsed] at placed
  apply Expr.supported_within
  intro item inside node within
  have here := placed item inside node within
  have bound := short source member
  exact ⟨here.start, by have stop := here.stop; omega⟩

theorem printed_ending (values : List Value) {escape : Escape}
    (breaks : (printed values).2 = .breaks escape) : escape.HostLimit := by
  induction values with
  | nil => cases breaks
  | cons value values ih =>
      unfold printed at breaks
      split at breaks
      · exact ih breaks
      · cases breaks
        exact .numeral _

theorem reported_ok {notice : Notice} {name report : String}
    (shown : notice.render source name = .ok report) :
    reported (.ok notice) source name = writes (report ++ "\n") := by
  have whole : (Except.ok notice >>= fun notice => notice.report source name) =
      .ok (report ++ "\n") := by
    change notice.report source name = _
    rw [Notice.report, shown]
  rw [reported, whole]

theorem reported_error {notice : Notice} (name : String) (outside : ¬notice.Fits source) :
    ∃ error, reported (.ok notice) source name = breaksOff (.outOfRange error) := by
  cases shown : notice.render source name with
  | ok report => exact absurd ((Notice.fits_iff name).2 ⟨report, shown⟩) outside
  | error error =>
      have whole : (Except.ok notice >>= fun notice => notice.report source name) =
          .error (.outOfRange error) := by
        change notice.report source name = _
        rw [Notice.report, shown]
      exact ⟨error, by rw [reported, whole]⟩

variable {notice : Notice} {next : Shell}

theorem Failure.read (failure : Failure limits shell line source notice next) :
    (shell.read limits line).1 = next ∧ ∃ lines, (shell.read limits line).2 =
      { reported (.ok notice) source shell.name with lines := lines } := by
  cases failure with
  | refused found refused finished known =>
      rw [read_refused found refused, finished, known]
      exact ⟨rfl, _, rfl⟩
  | @raised program error found parsed failed =>
      rw [read_parsed found parsed, answer, failed]
      exact ⟨rfl, (shell.session.run limits.frames shell.level program).lines, rfl⟩

theorem Failure.shown (failure : Failure limits shell line source notice next)
    (fits : notice.Fits source) :
    ∃ report lines, notice.render source shell.name = .ok report ∧
      (shell.read limits line).2 = ⟨report ++ "\n", lines, .goesOn⟩ := by
  obtain ⟨report, shown⟩ := fits.render shell.name
  obtain ⟨_, lines, reply⟩ := failure.read
  rw [reported_ok shown] at reply
  exact ⟨report, lines, shown, reply⟩

theorem Failure.escapes (failure : Failure limits shell line source notice next)
    (outside : ¬notice.Fits source) :
    ∃ error, (shell.read limits line).2.ending = .breaks (.outOfRange error) := by
  obtain ⟨error, broken⟩ := reported_error shell.name outside
  obtain ⟨_, lines, reply⟩ := failure.read
  rw [reply, broken]
  exact ⟨error, rfl⟩

theorem Failure.fits_of_refused (failure : Failure limits shell line source notice next)
    {error : SourceError} (refused : parseSource limits.nesting source = .error error) :
    notice.Fits source := by
  cases failure with
  | refused found again finished known =>
      obtain ⟨inside, none⟩ := SourceError.notice_within again known
      exact Notice.fits inside (by simp [none])
  | raised found parsed failed =>
      rw [parsed] at refused
      cases refused

theorem Failure.fits_of_made (failure : Failure limits shell line source notice next)
    (made : shell.session.Made (Functions.every (·.span.Within source.length))) :
    notice.Fits source := by
  cases failure with
  | refused found refused finished known =>
      exact (Failure.refused found refused finished known).fits_of_refused refused
  | @raised program error found parsed failed =>
      have placed := parseSource_placed limits.nesting source
      rw [parsed] at placed
      obtain ⟨span, stack⟩ := made.error_within placed failed
      refine Notice.fits span ?_
      intro call member
      obtain ⟨frame, among, rfl⟩ := List.mem_map.1 member
      exact stack frame (List.mem_of_mem_tail among)

theorem failure_of_breaks (made : shell.session.Made (Functions.every (·.defect? = none)))
    {escape : Escape} (breaks : (shell.read limits line).2.ending = .breaks escape) :
    escape.HostLimit ∨
      ∃ source notice next, Failure limits shell line source notice next ∧ ¬notice.Fits source := by
  have unfit {source : String} {notice : Notice} {next : Shell}
      (failure : Failure limits shell line source notice next) : ¬notice.Fits source := by
    intro fits
    obtain ⟨report, lines, _, reply⟩ := failure.shown fits
    rw [reply] at breaks
    cases breaks
  cases found : shell.source? line with
  | none => exact absurd breaks ((read_of_none found).2 escape)
  | some source =>
      cases parsed : parseSource limits.nesting source with
      | error error =>
          rw [read_refused found parsed] at breaks
          cases finished : error.isIncomplete with
          | true =>
              rw [finished] at breaks
              cases breaks
          | false =>
              cases known : error.notice with
              | ok notice =>
                  have failure := Failure.refused found parsed finished known
                  exact .inr ⟨source, notice, _, failure, unfit failure⟩
              | error other =>
                  rw [finished, known] at breaks
                  cases breaks
                  exact .inl (SourceError.hostLimit parsed known)
      | ok program =>
          cases ended : (shell.session.run limits.frames shell.level program).result with
          | ok values =>
              rw [read_parsed found parsed, answer, ended] at breaks
              exact .inl (printed_ending values breaks)
          | error fault =>
              have surface := Grammar.surface_of_parsed parsed
              obtain ⟨item, member, _, stops⟩ := Session.run_stops made
                (Grammar.supported_surface surface) Functions.every_closed ended
              cases stops.proper (surface item member) limits source with
              | @raised error unguarded =>
                  have failure := Failure.raised found parsed ended
                  exact .inr ⟨source, error.notice, _, failure, unfit failure⟩
              | longText =>
                  rw [read_parsed found parsed, answer, ended] at breaks
                  cases breaks
                  exact .inl (.numeral _)

end Shell

/-- Whatever lines a shell has read, what the next one makes escape is due to a limit, or to an error
that its source is too short to show. Every failure leaves the shell ready for the next line, and is
reported unless the source is too short for it. No source is too short for its own refusal, and one that
is as long as all that were run before is not too short for an error of its run. -/
theorem shell_survives (limits : Limits) (name : String) (level : Nat) (lines : List String)
    (line : String) :
    (∀ escape, ((Shell.after limits (.start name level) lines).read limits line).2.ending =
        .breaks escape →
      escape.HostLimit ∨ ∃ source notice next,
        Shell.Failure limits (.after limits (.start name level) lines) line source notice next ∧
          ¬notice.Fits source) ∧
    ∀ source notice next,
      Shell.Failure limits (.after limits (.start name level) lines) line source notice next →
        ((Shell.after limits (.start name level) lines).read limits line).1 = next ∧
        (notice.Fits source → ∃ report traced, notice.render source name = .ok report ∧
          ((Shell.after limits (.start name level) lines).read limits line).2 =
            ⟨report ++ "\n", traced, .goesOn⟩) ∧
        (¬notice.Fits source → ∃ error,
          ((Shell.after limits (.start name level) lines).read limits line).2.ending =
            .breaks (.outOfRange error)) ∧
        (∀ error, parseSource limits.nesting source = .error error → notice.Fits source) ∧
        ((∀ earlier ∈ Shell.accepted limits (.start name level) lines,
          earlier.length ≤ source.length) → notice.Fits source) := by
  constructor
  · exact fun escape => Shell.failure_of_breaks (Shell.formed_after limits name level lines)
  · intro source notice next failure
    refine ⟨failure.read.1, ?_, failure.escapes, fun error => failure.fits_of_refused, ?_⟩
    · intro fits
      have shown := failure.shown fits
      rwa [Shell.name_after] at shown
    · exact fun short => failure.fits_of_made (Shell.within_after limits name level short)

def dividerLine : String := "let f = lambda(x): 1 / x end"

def dividerItems : List Expr :=
  [ .letTop "f"
      (.lambda ["x"]
        (.binary (.text "/") (.number 1 (.ofWidth 19 1)) (.var "x" (.ofWidth 23 1)) (.ofWidth 19 5))
        (.ofWidth 8 20))
      (.ofWidth 0 28) ]

def dividerCall : Expr :=
  .call (.var "f" (.ofWidth 0 1)) [.number 0 (.ofWidth 2 1)] (.ofWidth 0 4)

def longLine : String := "f(0) + 1000000000000000000000000"

def longItems : List Expr :=
  [ .binary (.text "+") dividerCall (.number (10 ^ 24) (.ofWidth 7 25)) (.ofWidth 0 32) ]

theorem dividerLine_read :
    Shell.after .standard (.start "<repl>" 0) [dividerLine] =
      { Shell.start "<repl>" 0 with
        session := (Session.fresh.run Session.frameLimit 0 dividerItems).session } := by
  have command : Shell.command dividerLine = .code dividerLine := by cbv
  have parsed : parseSource nestingLimit dividerLine = .ok dividerItems := by cbv
  have found : (Shell.start "<repl>" 0).source? dividerLine = some dividerLine := by
    rw [Shell.source?, command]
    rfl
  exact congrArg Prod.fst (Shell.read_parsed found parsed)

theorem dividerLine_accepted :
    ∀ earlier ∈ Shell.accepted .standard (.start "<repl>" 0) [dividerLine], earlier = dividerLine := by
  intro earlier member
  have command : Shell.command dividerLine = .code dividerLine := by cbv
  rw [Shell.accepted, Shell.accepted, List.append_nil, Option.mem_toList,
    Option.filter_eq_some_iff, Shell.source?, command] at member
  exact (Option.some.inj member.1).symm

theorem divider_fails {line : String} {items : List Expr} (command : Shell.command line = .code line)
    (parsed : parseSource nestingLimit line = .ok items) {error : RuntimeError}
    (failed : ((Session.fresh.run Session.frameLimit 0 dividerItems).session.run Session.frameLimit 0
      items).result = .error (.raised error)) :
    ∃ next, Shell.Failure .standard (.after .standard (.start "<repl>" 0) [dividerLine]) line line
      error.notice next ∧ next.pending = "" ∧ next.prompt = .primary := by
  rw [dividerLine_read]
  refine ⟨_, .raised ?_ parsed failed, rfl, rfl⟩
  rw [Shell.source?, command]
  exact congrArg some String.empty_append

theorem longLine_survives :
    ∃ (error : RuntimeError) (next : Shell),
      Shell.Failure .standard (.after .standard (.start "<repl>" 0) [dividerLine]) longLine longLine
        error.notice next ∧
      error.cause = .divisionByZero ∧ next.prompt = .primary ∧ error.notice.Fits longLine ∧
      ((Shell.after .standard (.start "<repl>" 0) [dividerLine]).read .standard longLine).1 = next ∧
      ∃ report traced, error.notice.render longLine "<repl>" = .ok report ∧
        ((Shell.after .standard (.start "<repl>" 0) [dividerLine]).read .standard longLine).2 =
          ⟨report ++ "\n", traced, .goesOn⟩ := by
  have command : Shell.command longLine = .code longLine := by cbv
  have parsed : parseSource nestingLimit longLine = .ok longItems := by cbv
  obtain ⟨next, failure, _, prompt⟩ := divider_fails command parsed rfl
  obtain ⟨after, shown, _, _, reaches⟩ :=
    (shell_survives .standard "<repl>" 0 [dividerLine] longLine).2 _ _ _ failure
  have fits := reaches fun earlier among => by
    have same : earlier = dividerLine := dividerLine_accepted earlier among
    rw [same]
    decide
  exact ⟨_, next, failure, rfl, prompt, fits, after, shown fits⟩

/-- A call that is shorter than the line of the function that fails escapes. -/
theorem shortCall_escapes :
    ∃ (error : RuntimeError) (next : Shell),
      Shell.Failure .standard (.after .standard (.start "<repl>" 0) [dividerLine]) "f(0)" "f(0)"
        error.notice next ∧
      error.cause = .divisionByZero ∧
      ((Shell.after .standard (.start "<repl>" 0) [dividerLine]).read .standard "f(0)").2.ending =
        .breaks (.outOfRange ⟨19, 4⟩) := by
  have command : Shell.command "f(0)" = .code "f(0)" := by cbv
  have parsed : parseSource nestingLimit "f(0)" = .ok [dividerCall] := by cbv
  obtain ⟨next, failure, _, _⟩ := divider_fails command parsed rfl
  obtain ⟨_, lines, reply⟩ := failure.read
  refine ⟨_, next, failure, rfl, ?_⟩
  rw [reply]
  rfl

end FernLang
