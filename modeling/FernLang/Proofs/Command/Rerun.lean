import Mathlib
import FernLang.Proofs.Command.Setting
import FernLang.Proofs.Diagnosis.Survival
import FernLang.Proofs.Expr.Exchange
import FernLang.Proofs.Json.RoundTrip
import FernLang.Proofs.Run.Guards

/-!
A source and its tree. The tree that is written for a source is read back as the program it was written
for, so running the one does what running the other does. They differ in how a failure is put into words:
a source is there to show it against, and a tree has its message only.
-/

namespace FernLang

/-! The tree of a source is plain JSON. -/

theorem Json.Plain.pair {first second : Json} (left : first.Plain) (right : second.Plain) :
    (Json.list [first, second]).Plain :=
  .list (List.forall_mem_cons.2 ⟨left, List.forall_mem_singleton.2 right⟩)

theorem Expr.plain_spanJson (span : Span) : (spanJson span).2.Plain := .pair (.whole _) (.whole _)

theorem Expr.plain_namesJson (names : List String) : (namesJson names).Plain :=
  .list (List.forall_mem_map.2 fun name _ => .text name)

theorem Expr.toJsonAll_eq (exprs : List Expr) : toJsonAll exprs = exprs.map toJson := by
  induction exprs with
  | nil => rw [toJsonAll, List.map_nil]
  | cons expr exprs ih => rw [toJsonAll, ih, List.map_cons]

theorem Expr.toJsonBranches_eq (branches : List (Expr × Expr)) : toJsonBranches branches =
    branches.map fun branch => .list [branch.1.toJson, branch.2.toJson] := by
  induction branches with
  | nil => rw [toJsonBranches, List.map_nil]
  | cons branch branches ih => rw [toJsonBranches, ih, List.map_cons]

theorem Expr.toJsonArms_eq (arms : List (Pattern × Expr)) : toJsonArms arms =
    arms.map fun arm => .list [arm.1.toJson, arm.2.toJson] := by
  induction arms with
  | nil => rw [toJsonArms, List.map_nil]
  | cons arm arms ih => rw [toJsonArms, ih, List.map_cons]

open Json (Plain)

mutual

theorem Pattern.plain_toJson : ∀ pattern : Pattern, pattern.toJson.Plain
  | .bool value => by
      rw [toJson]
      exact .object (by simp) (by simp [Plain.text, Plain.bool])
  | .number value => by
      rw [toJson]
      exact .object (by simp) (by simp [Plain.text, Plain.whole])
  | .var name => by
      rw [toJson]
      exact .object (by simp) (by simp [Plain.text])
  | .data tag fields => by
      rw [toJson]
      exact .object (by simp) (by simp [Plain.text, Plain.list (plain_toJsonAll fields)])

theorem Pattern.plain_toJsonAll : ∀ patterns : List Pattern, ∀ item ∈ toJsonAll patterns, item.Plain
  | [] => by
      rw [toJsonAll]
      exact List.forall_mem_nil _
  | pattern :: patterns => by
      rw [toJsonAll]
      exact List.forall_mem_cons.2 ⟨plain_toJson pattern, plain_toJsonAll patterns⟩

end

namespace Grammar

open FernLang.Expr (plain_spanJson plain_namesJson toJsonAll_eq toJsonBranches_eq toJsonArms_eq)

theorem Surface.plain {tree : Expr} (surface : Surface tree) : tree.toJson.Plain := by
  induction surface with
  | number value span =>
      rw [Expr.toJson]
      exact .object (by simp [Expr.spanJson]) (by simp [Plain.text, Plain.whole, plain_spanJson])
  | bool value span =>
      rw [Expr.toJson]
      exact .object (by simp [Expr.spanJson]) (by simp [Plain.text, Plain.bool, plain_spanJson])
  | var name span =>
      rw [Expr.toJson]
      exact .object (by simp [Expr.spanJson]) (by simp [Plain.text, plain_spanJson])
  | letIn bound inner ihBound ihInner =>
      rw [Expr.toJson]
      exact .object (by simp [Expr.spanJson]) (by simp [Plain.text, ihBound, ihInner, plain_spanJson])
  | binary operator front back ihFront ihBack =>
      rw [Expr.toJson]
      exact .object (by simp [Expr.spanJson]) (by simp [Plain.text, ihFront, ihBack, plain_spanJson])
  | lambda distinct inner ih =>
      rw [Expr.toJson]
      exact .object (by simp [Expr.spanJson]) (by simp [Plain.text, plain_namesJson, ih, plain_spanJson])
  | @call callee args span front each ihFront ihEach =>
      have listed : (Json.list (args.map Expr.toJson)).Plain := .list (List.forall_mem_map.2 ihEach)
      rw [Expr.toJson, toJsonAll_eq]
      exact .object (by simp [Expr.spanJson]) (by simp [Plain.text, ihFront, listed, plain_spanJson])
  | @cond branches otherwise span some conditions bodies last ihConditions ihBodies ihLast =>
      have listed : (Json.list (Expr.toJsonBranches branches)).Plain := by
        rw [toJsonBranches_eq]
        exact .list (List.forall_mem_map.2 fun branch member =>
          Plain.pair (ihConditions branch member) (ihBodies branch member))
      rw [Expr.toJson]
      exact .object (by simp [Expr.spanJson]) (by simp [Plain.text, listed, ihLast, plain_spanJson])
  | @matching scrutinee arms span some subject bodies ihSubject ihBodies =>
      have listed : (Json.list (Expr.toJsonArms arms)).Plain := by
        rw [toJsonArms_eq]
        exact .list (List.forall_mem_map.2 fun arm member =>
          Plain.pair arm.1.plain_toJson (ihBodies arm member))
      rw [Expr.toJson]
      exact .object (by simp [Expr.spanJson]) (by simp [Plain.text, listed, ihSubject, plain_spanJson])

theorem SurfaceItem.plain {tree : Expr} (surface : SurfaceItem tree) : tree.toJson.Plain := by
  cases surface with
  | function distinct inner =>
      rw [Expr.toJson]
      exact .object (by simp [Expr.spanJson])
        (by simp [Plain.text, plain_namesJson, inner.plain, plain_spanJson])
  | @dataType name variants span some distinct fields =>
      have listed : (Json.list (variants.map Expr.variantJson)).Plain :=
        .list (List.forall_mem_map.2 fun variant _ => Plain.pair (.text _) (plain_namesJson _))
      rw [Expr.toJson]
      exact .object (by simp [Expr.spanJson]) (by simp [Plain.text, listed, plain_spanJson])
  | letTop bound =>
      rw [Expr.toJson]
      exact .object (by simp [Expr.spanJson]) (by simp [Plain.text, bound.plain, plain_spanJson])
  | expression inner => exact inner.plain

theorem plain_program {program : List Expr} (surface : ∀ item ∈ program, SurfaceItem item) :
    (Expr.programToJson program).Plain := by
  have listed : (Json.list (Expr.toJsonAll program)).Plain := by
    rw [toJsonAll_eq]
    exact .list (List.forall_mem_map.2 fun item member => (surface item member).plain)
  exact .object (by simp) (by simp [Plain.text, listed])

end Grammar

theorem Text.newlines_clean {text : List Char} (clean : Json.Clean text) : newlines text = text := by
  induction text with
  | nil => rfl
  | cons c text ih =>
      obtain ⟨first, others⟩ := Json.clean_cons.1 clean
      have other : c ≠ '\r' := by
        rintro rfl
        exact absurd first (by decide)
      have kept : newlines (c :: text) = c :: newlines text := by
        generalize whole : c :: text = given
        rw [newlines.eq_def]
        split
        · cases whole
        · cases whole
          exact absurd rfl other
        · cases whole
          exact absurd rfl other
        · cases whole
          rfl
      rw [kept, ih others]

theorem intercalate_front (front : String) (lines : List String) (more : String) :
    ∃ rest, "\n".intercalate (front :: lines) ++ "\n" ++ more = front ++ "\n" ++ rest := by
  cases lines with
  | nil => exact ⟨more, by rw [String.intercalate_singleton]⟩
  | cons line lines =>
      refine ⟨"\n".intercalate (line :: lines) ++ "\n" ++ more, ?_⟩
      rw [String.intercalate_cons_cons]
      simp only [String.append_assoc]

theorem Notice.Fits.report_front {source : String} {notice : Notice} (fits : notice.Fits source)
    (name : String) : ∃ rest, notice.report source name =
      .ok (s!"error in {name}: {notice.message}" ++ "\n" ++ rest) := by
  have here := fits.span
  rw [← String.length_toList] at here
  obtain ⟨rows, underlined, _⟩ := Excerpt.underline_shows here
  generalize front : s!"error in {name}: {notice.message}" = first
  have error : Excerpt.renderError notice.message notice.span source name =
      .ok ("\n".intercalate (first :: rows.flatMap Excerpt.Row.render)) := by
    rw [Excerpt.renderError, underlined, ← front]
    rfl
  generalize rows.flatMap Excerpt.Row.render = lines at error
  by_cases none : notice.calls.isEmpty
  · have render : notice.render source name = .ok ("\n".intercalate (first :: lines)) := by
      rw [Notice.render, error]
      simp only [none]
      rfl
    obtain ⟨rest, same⟩ := intercalate_front first lines ""
    refine ⟨rest, ?_⟩
    rw [Notice.report, render, ← same, String.append_empty]
  · obtain ⟨calls, listed⟩ := Excerpt.renderCalls_ok fits.calls name
    have render : notice.render source name =
        .ok ("\n".intercalate (first :: lines) ++ "\ncall stack:\n" ++ calls) := by
      rw [Notice.render, error]
      simp only [none, listed]
      rfl
    obtain ⟨rest, same⟩ := intercalate_front first lines ("call stack:\n" ++ calls ++ "\n")
    have title : "\ncall stack:\n" = "\n" ++ "call stack:\n" := rfl
    refine ⟨rest, ?_⟩
    rw [Notice.report, render, ← same, title]
    simp only [String.append_assoc]

namespace Command

theorem readText_written {files : Files} {path : FilePath} {text : String}
    (lies : files path = .file text.toUTF8) (clean : Json.Clean text.toList) :
    readText files path = .ok text := by
  have decoded : String.fromUTF8? text.toUTF8 = some text := dif_pos text.isValidUTF8
  rw [readText, lies]
  dsimp only
  rw [decoded]
  dsimp only
  rw [Text.newlines_clean clean, String.ofList_toList]

theorem readTree_written {files : Files} {path : FilePath} {program : List Expr}
    (lies : files path = .file ((Expr.programToJson program).indented 0).toUTF8)
    (plain : (Expr.programToJson program).Plain)
    (within : (Expr.programToJson program).Within treeLimit) : readTree files path = .ok program := by
  have text := readText_written lies (Json.clean_indented plain 0)
  have json := Json.read_indented plain within
  have tree := Expr.programOfJson_programToJson program
  simp only [readTree, text, json, tree, bind, Except.bind, pure, Except.pure]

/-- Outcomes of a source that is shown under a name, and of its tree. Where an error is raised, they put
the same message into their words. -/
structure Outcome.SameRun (name : String) (source tree : Outcome) : Prop where
  status : source.status = tree.status
  output : source.output = tree.output
  written : source.written = tree.written
  raised : source.status = .ok 1 → ∃ message rest : String,
    source.errors = s!"error in {name}: {message}" ++ "\n" ++ rest ∧
      tree.errors = s!"Runtime error: {message}\n"
  silent : source.status ≠ .ok 1 → source.errors = "" ∧ tree.errors = ""

theorem Outcome.sameRun_silent {outcome : Outcome} (other : outcome.status ≠ .ok 1)
    (silent : outcome.errors = "") (name : String) : outcome.SameRun name outcome :=
  ⟨rfl, rfl, rfl, fun failed => absurd failed other, fun _ => ⟨silent, silent⟩⟩

theorem Outcome.sameRun_crashes (crash : Crash) (name output : String) :
    SameRun name { crashes crash with output := output } { crashes crash with output := output } := by
  refine sameRun_silent ?_ rfl name
  intro same
  cases same

theorem finished_sameRun {result : Except Fault (List Value)} {source : String}
    (fits : ∀ error, result = .error (.raised error) → error.notice.Fits source) (name : String) :
    Outcome.SameRun name (finished result fun notice => notice.report source name)
      (finished result fun notice => .ok s!"Runtime error: {notice.message}\n") := by
  cases result with
  | ok values =>
      simp only [finished]
      split
      · exact Outcome.sameRun_crashes _ name _
      · refine Outcome.sameRun_silent ?_ rfl name
        intro same
        cases same
  | error fault =>
      cases fault with
      | raised error =>
          obtain ⟨rest, report⟩ := (fits error rfl).report_front name
          have shown : finished (.error (.raised error)) (fun notice => notice.report source name) =
              .reports (error.notice.report source name) := rfl
          rw [shown, report]
          exact ⟨rfl, rfl, rfl, fun _ => ⟨_, _, rfl, rfl⟩, fun other => absurd rfl other⟩
      | numeral error => exact Outcome.sameRun_crashes _ name ""
      | bareRow => exact Outcome.sameRun_crashes _ name ""
      | compoundSign => exact Outcome.sameRun_crashes _ name ""
      | misused misuse => exact Outcome.sameRun_crashes _ name ""
      | outOfRoom => exact Outcome.sameRun_crashes _ name ""

theorem Outcome.SameRun.traced {name : String} {source tree : Outcome} (same : SameRun name source tree)
    (files : Files) (level : Nat) (lines : Array String) :
    SameRun name (traced files level lines source) (traced files level lines tree) := by
  unfold Command.traced
  split
  · exact same
  · split
    · exact sameRun_crashes _ name ""
    · exact ⟨same.status, same.output, rfl, same.raised, same.silent⟩

section

variable {limits : Limits} {files : Files} {path : FilePath} {source : String} {program : List Expr}

theorem readProgram_parsed (content : readText files path = .ok source)
    (parsed : parseSource limits.nesting source = .ok program) :
    readProgram limits files path = .ok (source, program) := by
  rw [readProgram, content]
  simp only [parsed, bind, Except.bind]
  rfl

theorem readProgram_refused (content : readText files path = .ok source) {error : SourceError}
    (refused : parseSource limits.nesting source = .error error) :
    readProgram limits files path =
      .error (.reports (error.notice >>= fun notice => notice.report source path.text)) := by
  rw [readProgram, content]
  simp only [refused, bind, Except.bind]

theorem raised_fits (parsed : parseSource limits.nesting source = .ok program) {frames level : Nat}
    {error : RuntimeError}
    (raised : (Session.fresh.run frames level program).result = .error (.raised error)) :
    error.notice.Fits source := by
  have placed := parseSource_placed limits.nesting source
  rw [parsed] at placed
  obtain ⟨span, stack⟩ := run_error_within placed raised
  refine Notice.fits span (List.forall_mem_map.2 fun frame among => ?_)
  exact stack frame (List.mem_of_mem_tail among)

theorem sameRun_tree {tree : FilePath} (content : readText files path = .ok source)
    (parsed : parseSource limits.nesting source = .ok program)
    (lies : files tree = .file ((Expr.programToJson program).indented 0).toUTF8)
    (within : (Expr.programToJson program).Within treeLimit) (level : Nat) :
    (runSource limits files level path).SameRun path.text (runTree limits files level tree) := by
  have plain := Grammar.plain_program (Grammar.surface_of_parsed parsed)
  rw [runSource, readProgram_parsed content parsed, runTree, readTree_written lies plain within]
  exact (finished_sameRun (fun error raised => raised_fits parsed raised) path.text).traced files level _

end

def Refused (limits : Limits) (source : String) (notice : Notice) : Prop :=
  ∃ error, parseSource limits.nesting source = .error error ∧ error.notice = .ok notice

def CanWrite (limits : Limits) (files : Files) (source : String) (target : FilePath) : Prop :=
  ∃ program, parseSource limits.nesting source = .ok program ∧
    Expr.heightAll program ≤ Expr.heightLimit ∧ files target ≠ .folder

/-- The ways in which writing the tree of a source ends. -/
inductive Emission (limits : Limits) (files : Files) (path : FilePath) (source : String) : Outcome → Prop
  | written {program : List Expr} (parsed : parseSource limits.nesting source = .ok program)
      (can : CanWrite limits files source (treePath path)) : Emission limits files path source
        { Outcome.succeeds ((treePath path).text ++ "\n") with
          written := [(treePath path, (Expr.programToJson program).indented 0)] }
  | broken {outcome : Outcome} {crash : Crash} (status : outcome.status = .error crash)
      (cannot : ¬CanWrite limits files source (treePath path))
      (accepted : ∀ notice, ¬Refused limits source notice) : Emission limits files path source outcome
  | refused {notice : Notice} {report : String} (refused : Refused limits source notice)
      (shown : notice.report source path.text = .ok report) :
      Emission limits files path source (.fails 1 report)

section

variable {limits : Limits} {files : Files} {path : FilePath} {source : String}

theorem not_canWrite {target : FilePath} {error : SourceError}
    (parsed : parseSource limits.nesting source = .error error) :
    ¬CanWrite limits files source target := by
  rintro ⟨program, read, _⟩
  cases parsed.symm.trans read

theorem not_refused {program : List Expr} (parsed : parseSource limits.nesting source = .ok program)
    (notice : Notice) : ¬Refused limits source notice := by
  rintro ⟨error, read, _⟩
  cases parsed.symm.trans read

theorem Refused.unique {notice other : Notice} (refused : Refused limits source notice)
    (again : Refused limits source other) : notice = other := by
  obtain ⟨error, read, known⟩ := refused
  obtain ⟨second, reread, unknown⟩ := again
  cases read.symm.trans reread
  exact Except.ok.inj (known.symm.trans unknown)

theorem emission (limits : Limits) (content : readText files path = .ok source) :
    Emission limits files path source (emitTree limits files path) := by
  cases parsed : parseSource limits.nesting source with
  | error error =>
      have emitted : emitTree limits files path =
          .reports (error.notice >>= fun notice => notice.report source path.text) := by
        rw [emitTree, readProgram_refused content parsed]
        rfl
      rw [emitted]
      cases known : error.notice with
      | error escape =>
          refine .broken rfl (not_canWrite parsed) ?_
          rintro notice ⟨other, read, shown⟩
          cases parsed.symm.trans read
          cases known.symm.trans shown
      | ok notice =>
          obtain ⟨inside, none⟩ := SourceError.notice_within parsed known
          have fits := Notice.fits inside (none ▸ List.forall_mem_nil _)
          obtain ⟨rest, report⟩ := fits.report_front path.text
          have shown : (Except.ok notice >>= fun notice => notice.report source path.text) =
              .ok _ := report
          rw [shown]
          exact .refused ⟨error, parsed, known⟩ report
  | ok program =>
      have only {other : List Expr} (read : parseSource limits.nesting source = .ok other) :
          other = program := Except.ok.inj (read.symm.trans parsed)
      rw [emitTree, readProgram_parsed content parsed]
      simp only [bind, Except.bind]
      split
      · rename_i taken
        refine .broken rfl ?_ (not_refused parsed)
        rintro ⟨_, _, _, free⟩
        exact free taken
      · rename_i free
        split
        · rename_i high
          refine .broken rfl ?_ (not_refused parsed)
          rintro ⟨other, read, low, _⟩
          rw [only read] at low
          omega
        · rename_i low
          exact .written parsed ⟨program, parsed, Nat.le_of_not_lt low, free⟩

/-- A source that is refused is refused whatever is asked of it. -/
theorem runSource_refused (content : readText files path = .ok source) {notice : Notice}
    (refused : Refused limits source notice) (level : Nat) :
    runSource limits files level path = .reports (notice.report source path.text) := by
  obtain ⟨error, parsed, known⟩ := refused
  rw [runSource, readProgram_refused content parsed, known]
  rfl

end

def Outcome.stored (outcome : Outcome) (folder : Folder) : Folder :=
  outcome.written.foldl (fun folder file => folder.write file.1 file.2.toUTF8) folder

/-- A source has its file, so its tree finds its place beside it, and both lie there afterwards. -/
theorem readText_beside {folder : Folder} {path : FilePath} {source : String}
    (content : readText folder.entry path = .ok source) (named : path.names ≠ []) (tree : String) :
    readText (folder.write (treePath path) tree.toUTF8).entry path = .ok source ∧
      (folder.write (treePath path) tree.toUTF8).entry (treePath path) = .file tree.toUTF8 := by
  obtain ⟨bytes, lies⟩ : ∃ bytes, folder.entry path = .file bytes := by
    rw [readText] at content
    split at content
    · cases content
    · cases content
    · rename_i bytes lies
      exact ⟨bytes, lies⟩
  obtain ⟨front, last, has, place, apart⟩ :=
    Folder.resolve_append lies named (show 2 < ".ast.json".length by decide)
  have entries := Folder.entry_write last tree.toUTF8 has place
  constructor
  · rw [readText, treePath, entries path, if_neg apart]
    exact content
  · rw [treePath, entries, if_pos rfl]

end Command

open Command

/-- Writing the tree of a source and running the tree does what running the source does. The tree is
written unless the source is refused, nests too deep for it, or a folder is in the way; where the source is
refused, writing the tree and running the source fail alike. -/
theorem tree_reruns (limits : Limits) (folder : Folder) (input : String) (counts : List Nat)
    {name source : String} (word : Options.IsWord name) (ends : FilePath.EndsInName name)
    (content : readText folder.entry (.ofText name) = .ok source)
    (limited : ∀ program, parseSource limits.nesting source = .ok program →
      (Expr.programToJson program).Within treeLimit) :
    let emitted := run limits folder.entry input ["--emit-ast", name]
    let later := (emitted.stored folder).entry
    let ran := run limits later input (counts.map Options.verbose ++ [name])
    let reran := run limits later input
      (counts.map Options.verbose ++ ["--ast", name ++ ".ast.json"])
    let shown := (FilePath.ofText name).text
    (emitted.status = .ok 0 ↔ CanWrite limits folder.entry source (treePath (.ofText name))) ∧
      (emitted.status = .ok 0 → ran.SameRun shown reran) ∧
        (emitted.status = .ok 1 ↔ ∃ notice, Refused limits source notice) ∧
          ∀ notice, Refused limits source notice → ∃ report,
            notice.report source shown = .ok report ∧ emitted = .fails 1 report ∧ ran = emitted := by
  obtain ⟨named, target⟩ := FilePath.ofText_append ends (show '/' ∉ ".ast.json".toList by decide)
  dsimp only
  rw [run_emitAst limits folder.entry input word, run_program limits _ input counts word,
    run_ast limits _ input counts (word.append _), target]
  have emitted := emission limits content
  generalize emitTree limits folder.entry (.ofText name) = outcome at emitted
  cases emitted with
  | @written program parsed can =>
      obtain ⟨still, lies⟩ := readText_beside content named ((Expr.programToJson program).indented 0)
      refine ⟨⟨fun _ => can, fun _ => rfl⟩, fun _ => ?_, ⟨fun failed => ?_, fun refused => ?_⟩,
        fun notice refused => ?_⟩
      · exact sameRun_tree still parsed lies (limited program parsed) _
      · cases failed
      · obtain ⟨notice, refused⟩ := refused
        exact absurd refused (not_refused parsed notice)
      · exact absurd refused (not_refused parsed notice)
  | broken status cannot accepted =>
      rw [status]
      refine ⟨⟨fun ok => ?_, fun can => absurd can cannot⟩, fun ok => ?_, ⟨fun failed => ?_,
        fun refused => ?_⟩, fun notice refused => absurd refused (accepted notice)⟩
      · cases ok
      · cases ok
      · cases failed
      · obtain ⟨notice, refused⟩ := refused
        exact absurd refused (accepted notice)
  | @refused notice report refused reported =>
      refine ⟨⟨fun ok => ?_, fun can => ?_⟩, fun ok => ?_, ⟨fun _ => ⟨notice, refused⟩, fun _ => rfl⟩,
        fun other again => ?_⟩
      · cases ok
      · obtain ⟨error, parsed, _⟩ := refused
        exact absurd can (not_canWrite parsed)
      · cases ok
      · cases refused.unique again
        refine ⟨report, reported, rfl, ?_⟩
        have still : readText ((Outcome.fails 1 report).stored folder).entry (.ofText name) = .ok source :=
          content
        rw [runSource_refused still refused, reported]
        rfl

def quotientFolder : Folder := ⟨[(["F.fern"], "1 / 0".toUTF8)]⟩

def quotientItems : List Expr :=
  [.binary (.text "/") (.number 1 (.ofWidth 0 1)) (.number 0 (.ofWidth 4 1)) (.ofWidth 0 5)]

theorem quotient_content :
    readText quotientFolder.entry (.ofText "F.fern") = .ok "1 / 0" := by
  refine readText_written ?_ (by simp [Json.Clean])
  rfl

theorem quotient_parsed : parseSource Limits.standard.nesting "1 / 0" = .ok quotientItems := by cbv

theorem quotient_word : Options.IsWord "F.fern" := ⟨'F', _, rfl, by decide⟩

theorem quotient_fails :
    let emitted := run .standard quotientFolder.entry "" ["--emit-ast", "F.fern"]
    (run .standard (emitted.stored quotientFolder).entry "" ["-vv", "F.fern"]).status = .ok 1 := by
  let target := treePath (.ofText "F.fern")
  let tree := (Expr.programToJson quotientItems).indented 0
  have emitted : run .standard quotientFolder.entry "" ["--emit-ast", "F.fern"] =
      { Outcome.succeeds (target.text ++ "\n") with written := [(target, tree)] } := by
    rw [run_emitAst _ _ _ quotient_word, emitTree,
      readProgram_parsed quotient_content quotient_parsed]
    rfl
  have ran := run_program .standard (quotientFolder.write target tree.toUTF8).entry "" [1]
    quotient_word
  have still := (readText_beside quotient_content (by decide) tree).1
  rw [runSource, readProgram_parsed still quotient_parsed] at ran
  rw [emitted]
  exact congrArg Outcome.status ran

theorem quotient_reruns :
    let emitted := run .standard quotientFolder.entry "" ["--emit-ast", "F.fern"]
    let later := (emitted.stored quotientFolder).entry
    let ran := run .standard later "" ["-vv", "F.fern"]
    emitted.status = .ok 0 ∧ ran.status = .ok 1 ∧
      ran.SameRun "F.fern" (run .standard later "" ["-vv", "--ast", "F.fern.ast.json"]) := by
  have ends : FilePath.EndsInName "F.fern" := ⟨['F', '.', 'f', 'e', 'r'], 'n', rfl, by decide, by decide⟩
  have limited : ∀ program, parseSource Limits.standard.nesting "1 / 0" = .ok program →
      (Expr.programToJson program).Within treeLimit := by
    intro program read
    cases quotient_parsed.symm.trans read
    decide +kernel
  have can : CanWrite .standard quotientFolder.entry "1 / 0"
      (treePath (.ofText "F.fern")) := by
    refine ⟨quotientItems, quotient_parsed, by decide, ?_⟩
    intro taken
    cases taken
  have reruns := tree_reruns .standard quotientFolder "" [1] quotient_word ends quotient_content limited
  have written := reruns.1.2 can
  exact ⟨written, quotient_fails, reruns.2.1 written⟩

end FernLang
