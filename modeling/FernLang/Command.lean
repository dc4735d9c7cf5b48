import FernLang.Expr.Exchange
import FernLang.Expr.Height
import FernLang.Folder
import FernLang.Json.Read
import FernLang.Json.Write
import FernLang.Options
import FernLang.Shell

/-!
The command line program. It runs a source file, writes the tree of a source file next to it, runs
a tree, or answers standard input line by line. Files are seen through a function from paths to
entries, and what is written to them is part of the outcome.
-/

namespace FernLang

inductive Crash where
  | escape (escape : Escape)
  | exchange (error : ExchangeError)
  | badText
  | badJson
  | isFolder

def Crash.message : Crash → String
  | .escape (.numeral error) => error.message
  | .escape (.outOfRange error) => error.message
  | .escape .tooDeep => "nested too deep"
  | .escape .bareRow => "a row of expressions has no value"
  | .escape .compoundSign => "no operator's sign"
  | .escape (.misused _) => "an operation has no answer"
  | .exchange error => error.message?.getD "not a tree"
  | .badText => "not a text file"
  | .badJson => "not a JSON file"
  | .isFolder => "is a folder"

namespace Command

abbrev Files := FilePath → Entry

structure Outcome where
  status : Except Crash Nat
  output : String
  errors : String
  written : List (FilePath × String)

namespace Outcome

def succeeds (output : String) : Outcome := ⟨.ok 0, output, "", []⟩

def fails (status : Nat) (errors : String) : Outcome := ⟨.ok status, "", errors, []⟩

def crashes (crash : Crash) : Outcome := ⟨.error crash, "", "", []⟩

def reports : Except Escape String → Outcome
  | .ok report => fails 1 report
  | .error escape => crashes (.escape escape)

def stopped : UsageStop → Outcome
  | .help => succeeds Options.helpText
  | .wrong error => fails 2 (Options.usageLine ++ s!"fern: error: {error.message}\n")

end Outcome

/-- The text of a file with newlines at its line ends, or the outcome when there is none. -/
def readText (files : Files) (path : FilePath) : Except Outcome String :=
  match files path with
  | .missing => .error (.fails 1 s!"Error: file {path.text} not found\n")
  | .folder => .error (.crashes .isFolder)
  | .file bytes =>
      match String.fromUTF8? bytes with
      | some text => .ok (String.ofList (Text.newlines text.toList))
      | none => .error (.crashes .badText)

def readProgram (limits : Limits) (files : Files) (path : FilePath) :
    Except Outcome (String × List Expr) := do
  let source ← readText files path
  match parseSource limits.nesting source with
  | .ok program => return (source, program)
  | .error error =>
      .error (.reports (error.notice >>= fun notice => notice.report source path.text))

def treeLimit : Nat := 1000

def readTree (files : Files) (path : FilePath) : Except Outcome (List Expr) := do
  let text ← readText files path
  match Json.read treeLimit text with
  | .error .malformed => .error (.crashes .badJson)
  | .error (.numeral error) => .error (.crashes (.escape (.numeral error)))
  | .error .tooDeep => .error (.crashes (.escape .tooDeep))
  | .ok json =>
      match Expr.programOfJson json with
      | .ok program => return program
      | .error error => .error (.crashes (.exchange error))

def tracePath : FilePath := .ofText "debug.txt"

/-- The trace goes to a file of its own when there is a level; the file is made first. -/
def traced (files : Files) (level : Nat) (lines : Array String) (outcome : Outcome) : Outcome :=
  if level = 0 then outcome
  else match files tracePath with
    | .folder => .crashes .isFolder
    | _ => { outcome with
        written := [(tracePath, traceText lines)] }

/-- The outcome of a run. Values are printed once all of them are known; `report` puts a failure
into words. -/
def finished (result : Except Fault (List Value)) (report : Notice → Except Escape String) :
    Outcome :=
  match result with
  | .error fault => .reports (fault.notice >>= report)
  | .ok values =>
      match Shell.printed values with
      | (output, .breaks escape) => { Outcome.crashes (.escape escape) with output := output }
      | (output, _) => .succeeds output

def settle : Except Outcome Outcome → Outcome
  | .ok outcome | .error outcome => outcome

def runSource (limits : Limits) (files : Files) (level : Nat) (path : FilePath) : Outcome :=
  settle do
    let (source, program) ← readProgram limits files path
    let outcome := Session.fresh.run limits.frames level program
    return traced files level outcome.lines <|
      finished outcome.result fun notice => notice.report source path.text

def runTree (limits : Limits) (files : Files) (level : Nat) (path : FilePath) : Outcome :=
  settle do
    let program ← readTree files path
    let outcome := Session.fresh.run limits.frames level program
    return traced files level outcome.lines <|
      finished outcome.result fun notice => .ok s!"Runtime error: {notice.message}\n"

def treePath (path : FilePath) : FilePath := path.append ".ast.json"

/-- Writes the tree of a source file next to it, and prints where. A tree too high to be written
leaves an empty file. -/
def emitTree (limits : Limits) (files : Files) (path : FilePath) : Outcome :=
  settle do
    let (_, program) ← readProgram limits files path
    let target := treePath path
    match files target with
    | .folder => return .crashes .isFolder
    | _ =>
      if Expr.heightLimit < Expr.heightAll program then
        return { Outcome.crashes (.escape .tooDeep) with written := [(target, "")] }
      else return { Outcome.succeeds (target.text ++ "\n") with
        written := [(target, (Expr.programToJson program).indented 0)] }

def shellName : String := "<repl>"

/-- Answers lines in turn, each after the prompt, until the shell stops: what it wrote, the lines
traced, and the escape it broke off with. The end of the input is read as the line EOF. -/
def converse (limits : Limits) (shell : Shell) : List String → String × Array String × Option Escape
  | [] => (shell.prompt.text ++ (shell.read limits "EOF").2.output, #[], none)
  | line :: rest =>
      let (next, reply) := shell.read limits line
      let output := shell.prompt.text ++ reply.output
      match reply.ending with
      | .stops => (output, reply.lines, none)
      | .breaks escape => (output, reply.lines, some escape)
      | .goesOn =>
          let (later, lines, escape?) := converse limits next rest
          (output ++ later, reply.lines ++ lines, escape?)

def talk (limits : Limits) (files : Files) (level : Nat) (input : String) : Outcome :=
  let lines := (Text.lines (Text.newlines input.toList)).map String.ofList
  let (output, lines, escape?) := converse limits (.start shellName level) lines
  let output := Shell.intro ++ "\n" ++ output
  traced files level lines <|
    match escape? with
    | none => .succeeds output
    | some escape => { Outcome.crashes (.escape escape) with output := output }

inductive Task where
  | emit (path : FilePath)
  | tree (path : FilePath)
  | source (path : FilePath)
  | talk
deriving DecidableEq

/-- The path in an option's value; an empty value counts as none. -/
def path? (value : Option String) : Option FilePath :=
  (value.filter (!·.isEmpty)).map .ofText

def task (options : Options) : Task :=
  match path? options.emitAst, path? options.ast, path? options.program with
  | some path, _, _ => .emit path
  | none, some path, _ => .tree path
  | none, none, some path => .source path
  | none, none, none => .talk

def perform (limits : Limits) (files : Files) (input : String) (options : Options) : Outcome :=
  match task options with
  | .emit path => emitTree limits files path
  | .tree path => runTree limits files options.verbosity path
  | .source path => runSource limits files options.verbosity path
  | .talk => talk limits files options.verbosity input

def run (limits : Limits) (files : Files) (input : String) (arguments : List String) : Outcome :=
  match Options.parse arguments with
  | .error stop => .stopped stop
  | .ok options => perform limits files input options

end Command
end FernLang
