import Mathlib
import FernLang.Proofs.Diagnosis.Survival
import FernLang.Proofs.Grammar.Joining
import FernLang.Proofs.Message

/-!
Lines that are kept. A line that leaves a form open is kept, and the next one is read behind it. Whatever
lines a shell has read, what it keeps is those that were left open since it last forgot all of them; these
are unfinished when they are read together; and the prompt tells whether there are any.
-/

namespace FernLang

namespace Shell

variable {limits : Limits} {shell : Shell} {line source : String} {kept : List String}

def stripped (line : String) : String := String.ofList (Text.strip line.toList)

/-- What a line means for the lines kept before it: it is kept with them, they are forgotten, or they
stay as they are. -/
inductive Turn where
  | keeps
  | forgets
  | leaves
deriving DecidableEq

/-- A line of code is kept when it is unfinished. It has all lines forgotten when it is finished or
refused with a report. No other line matters, nor does one that breaks off while it is read. -/
def turn (limits : Limits) (shell : Shell) (line : String) : Turn :=
  match shell.source? line with
  | none => .leaves
  | some source =>
      match parseSource limits.nesting source with
      | .ok _ => .forgets
      | .error error =>
          if error.isIncomplete then .keeps
          else if error.notice.isOk then .forgets
          else .leaves

def turns (limits : Limits) : Shell → List String → List (String × Turn)
  | _, [] => []
  | shell, line :: lines =>
      (line, shell.turn limits line) :: turns limits (shell.read limits line).1 lines

def openLines (limits : Limits) (shell : Shell) (lines : List String) : List String :=
  (((turns limits shell lines).rtakeWhile (·.2 != .forgets)).filter (·.2 == .keeps)).map
    fun entry => stripped entry.1

def joined (lines : List String) : String := String.join (lines.map (· ++ "\n"))

theorem joined_concat (lines : List String) (line : String) :
    joined (lines ++ [line]) = joined lines ++ line ++ "\n" := by
  rw [joined, joined, List.map_append, List.map_singleton, String.join_append, String.append_assoc]
  simp

theorem source?_eq (found : shell.source? line = some source) :
    source = shell.pending ++ stripped line := by
  unfold source? command at found
  split at found
  · rename_i same
    split at same
    · cases same
    · cases same
    · split at same
      · cases same
      · cases same
      · cases same
      · cases same
        exact (Option.some.inj found).symm
  · cases found

/-! One line. -/

/-- A shell that keeps exactly these lines: the prompt tells whether there are any, and if so, they are
unfinished. -/
structure Keeps (limits : Limits) (shell : Shell) (kept : List String) : Prop where
  pending : shell.pending = joined kept
  prompt : shell.prompt = .secondary ↔ shell.pending ≠ ""
  unfinished : shell.pending ≠ "" → ∃ error, parseSource limits.nesting shell.pending = .error (.parse error) ∧
    error.complaint.isIncomplete = true

theorem keeps_nothing (limits : Limits) (none : shell.pending = "") (prompt : shell.prompt = .primary) :
    shell.Keeps limits [] := by
  refine ⟨none, ?_, fun some => absurd none some⟩
  rw [prompt, none]
  simp

theorem keeps_start (limits : Limits) (name : String) (level : Nat) : (start name level).Keeps limits [] :=
  keeps_nothing limits rfl rfl

theorem parseSource_line {room : Nat} {error : ParseError}
    (refused : parseSource room source = .error (.parse error)) :
    parseSource room (source ++ "\n") = .error (.parse error) := by
  have read := parseSource_read room source
  rw [refused] at read
  cases read with
  | @malformed tokens _ scanned refused =>
      have nothing : tokenize "" = .ok [] := by cbv
      have longer := tokenize_joined scanned nothing
      rw [String.append_empty, List.map_nil, List.append_nil] at longer
      rw [parseSource, longer]
      dsimp only
      rw [refused]

def Turn.keptAfter (line : String) (kept : List String) : Turn → List String
  | .keeps => kept ++ [stripped line]
  | .forgets => []
  | .leaves => kept

theorem Keeps.read (keeps : shell.Keeps limits kept) (line : String) :
    (shell.read limits line).1.Keeps limits ((shell.turn limits line).keptAfter line kept) := by
  rw [turn]
  cases found : shell.source? line with
  | none =>
      rw [(read_of_none found).1]
      exact keeps
  | some source =>
      dsimp only
      cases parsed : parseSource limits.nesting source with
      | ok program =>
          rw [read_parsed found parsed]
          exact keeps_nothing limits rfl rfl
      | error error =>
          rw [read_refused found parsed]
          dsimp only
          cases incomplete : error.isIncomplete with
          | true =>
              have some : source ++ "\n" ≠ "" := by simp
              obtain ⟨error, rfl⟩ : ∃ complaint, error = .parse complaint := by
                cases error with
                | parse complaint => exact ⟨complaint, rfl⟩
                | _ => cases incomplete
              refine ⟨?_, iff_of_true rfl some, fun _ => ⟨error, parseSource_line parsed, incomplete⟩⟩
              change source ++ "\n" = joined (kept ++ [stripped line])
              rw [joined_concat, source?_eq found, keeps.pending]
          | false =>
              cases error.notice.isOk with
              | true => exact keeps_nothing limits rfl rfl
              | false => exact keeps

theorem read_silent (found : shell.source? line = some source)
    (some : (shell.read limits line).1.pending ≠ "") :
    (shell.read limits line).1.session = shell.session ∧ (shell.read limits line).2.output = "" ∧
      (shell.read limits line).2.lines = #[] := by
  cases parsed : parseSource limits.nesting source with
  | ok program =>
      rw [read_parsed found parsed] at some
      exact absurd rfl some
  | error error =>
      rw [read_refused found parsed] at some ⊢
      cases incomplete : error.isIncomplete with
      | true => exact ⟨rfl, rfl, rfl⟩
      | false =>
          rw [incomplete] at some
          cases known : error.notice with
          | ok notice =>
              rw [known] at some
              exact absurd rfl some
          | error escape => exact ⟨rfl, rfl, rfl⟩

/-! All lines. -/

theorem after_concat (limits : Limits) (shell : Shell) (lines : List String) (line : String) :
    after limits shell (lines ++ [line]) = ((after limits shell lines).read limits line).1 := by
  rw [after, List.foldl_append]
  rfl

theorem turns_concat (limits : Limits) (shell : Shell) (lines : List String) (line : String) :
    turns limits shell (lines ++ [line]) =
      turns limits shell lines ++ [(line, (after limits shell lines).turn limits line)] := by
  induction lines generalizing shell with
  | nil => rfl
  | cons first lines ih =>
      rw [List.cons_append, turns, ih]
      rfl

theorem openLines_concat (limits : Limits) (shell : Shell) (lines : List String) (line : String) :
    openLines limits shell (lines ++ [line]) =
      ((after limits shell lines).turn limits line).keptAfter line (openLines limits shell lines) := by
  rw [openLines, turns_concat, List.rtakeWhile_concat, openLines]
  cases (after limits shell lines).turn limits line with
  | keeps => simp [Turn.keptAfter]
  | forgets => rfl
  | leaves => simp [Turn.keptAfter]

theorem keeps_after (limits : Limits) (none : shell.Keeps limits []) (lines : List String) :
    (after limits shell lines).Keeps limits (openLines limits shell lines) := by
  induction lines using List.reverseRecOn with
  | nil => exact none
  | append_singleton lines line ih =>
      rw [after_concat, openLines_concat]
      exact ih.read line

end Shell

/-- Whatever lines a shell has read since it was started, and however they ended: the prompt is the second
one exactly when lines are kept; kept are those lines, without the blanks around them, that were unfinished
since lines were last forgotten, in order and each with its end; together they run out of tokens; and a
line of code that leaves lines kept changes nothing in the session and writes nothing. -/
theorem continuation_invariant (limits : Limits) (name : String) (level : Nat) (lines : List String) :
    ((Shell.after limits (.start name level) lines).prompt = .secondary ↔
      (Shell.after limits (.start name level) lines).pending ≠ "") ∧
    (Shell.after limits (.start name level) lines).pending =
      String.join ((Shell.openLines limits (.start name level) lines).map (· ++ "\n")) ∧
    ((Shell.after limits (.start name level) lines).pending ≠ "" → ∃ error tail,
      parseSource limits.nesting (Shell.after limits (.start name level) lines).pending =
        .error (.parse error) ∧ error.complaint.message = "Ran out of tokens" ++ tail) ∧
    ∀ line text, Shell.command line = .code text →
      ((Shell.after limits (.start name level) lines).read limits line).1.pending ≠ "" →
        ((Shell.after limits (.start name level) lines).read limits line).1.session =
            (Shell.after limits (.start name level) lines).session ∧
          ((Shell.after limits (.start name level) lines).read limits line).2.output = "" ∧
          ((Shell.after limits (.start name level) lines).read limits line).2.lines = #[] := by
  have keeps := Shell.keeps_after limits (Shell.keeps_start limits name level) lines
  refine ⟨keeps.prompt, keeps.pending, ?_, ?_⟩
  · intro some
    obtain ⟨error, refused, incomplete⟩ := keeps.unfinished some
    obtain ⟨tail, message⟩ := (Complaint.isIncomplete_iff _).1 incomplete
    exact ⟨error, tail, refused, message⟩
  · intro line text code some
    have found : (Shell.after limits (.start name level) lines).source? line =
        Option.some ((Shell.after limits (.start name level) lines).pending ++ text) := by
      rw [Shell.source?, code]
    exact Shell.read_silent found some

/-- A binding left open, with a blank line, a call for help and forms nested too deep before it goes on. -/
def openBinding : List String := ["let f =", "", "? ", "((((", "  lambda(x):\t"]

theorem openBinding_continuation :
    Shell.openLines ⟨3, 10⟩ (.start "<repl>" 0) openBinding = ["let f =", "lambda(x):"] ∧
      (Shell.after ⟨3, 10⟩ (.start "<repl>" 0) openBinding).pending = "let f =\nlambda(x):\n" ∧
      (Shell.after ⟨3, 10⟩ (.start "<repl>" 0) openBinding).prompt = .secondary := by
  have kept : Shell.openLines ⟨3, 10⟩ (.start "<repl>" 0) openBinding = ["let f =", "lambda(x):"] := by
    cbv
  obtain ⟨prompt, pending, _⟩ := continuation_invariant ⟨3, 10⟩ "<repl>" 0 openBinding
  have text : String.join (["let f =", "lambda(x):"].map (· ++ "\n")) = "let f =\nlambda(x):\n" := by
    decide
  rw [kept, text] at pending
  refine ⟨kept, pending, prompt.2 ?_⟩
  rw [pending]
  decide

end FernLang
