import FernLang.Notice
import FernLang.Session
import FernLang.Text.Blank

/-!
The interactive shell. It reads one line at a time. A line that leaves a form open is kept, and the
lines after it go on from it until the form is closed or malformed. The words help, exit and EOF at
the front of a line are commands, also while a form is open.
-/

namespace FernLang

structure Limits where
  nesting : Nat
  frames : Nat

def Limits.standard : Limits := ⟨nestingLimit, Session.frameLimit⟩

inductive Prompt where
  | primary
  | secondary
deriving DecidableEq

def Prompt.text : Prompt → String
  | .primary => "> "
  | .secondary => ". "

structure Shell where
  name : String
  level : Nat
  session : Session
  pending : String
  prompt : Prompt

inductive Ending where
  | goesOn
  | stops
  | breaks (escape : Escape)

structure Reply where
  output : String
  lines : Array String
  ending : Ending

namespace Shell

def start (name : String) (level : Nat) : Shell := ⟨name, level, .fresh, "", .primary⟩

def intro : String :=
  "Fern interpreter\nType 'help' for more information, 'exit' to leave."

def helpText : String :=
  "Fern is a small functional language.\n\n" ++
  "Try 'let double = lambda(x): x * 2 end' and then 'double(21)'.\n" ++
  "Functions are defined with 'function name(args): body end', data types\n" ++
  "with 'data Shape = Circle(r) | Square(side)' and taken apart with\n" ++
  "'match value case Circle(r): r case Square(s): s end'.\n"

inductive Command where
  | nothing
  | help
  | exit
  | leave
  | code (line : String)
deriving DecidableEq

/-- The command of a line: the word at its front decides, whatever follows it. -/
def command (line : String) : Command :=
  match Text.strip line.toList with
  | [] => .nothing
  | '?' :: _ => .help
  | text =>
      match String.ofList (text.takeWhile Scan.isWordChar) with
      | "help" => .help
      | "exit" => .exit
      | "EOF" => .leave
      | _ => .code (String.ofList text)

def reset (shell : Shell) : Shell := { shell with pending := "", prompt := .primary }

def writes (output : String) : Reply := ⟨output, #[], .goesOn⟩

def breaksOff (escape : Escape) : Reply := ⟨"", #[], .breaks escape⟩

def reported (notice : Except Escape Notice) (source name : String) : Reply :=
  match notice >>= fun notice => notice.report source name with
  | .ok report => writes report
  | .error escape => breaksOff escape

/-- Values on a line each, up to the first that cannot be written. -/
def printed : List Value → String × Ending
  | [] => ("", .goesOn)
  | value :: values =>
      match value.text with
      | .ok text => (text ++ "\n" ++ (printed values).1, (printed values).2)
      | .error error => ("", .breaks (.numeral error))

def answer (outcome : Session.Outcome) (source name : String) : Reply :=
  match outcome.result with
  | .ok values => ⟨(printed values).1, outcome.lines, (printed values).2⟩
  | .error fault => { reported fault.notice source name with lines := outcome.lines }

/-- Reads a line of code together with the lines kept before it. They are forgotten as soon as they
make a program or are found malformed, not when they escape. -/
def code (limits : Limits) (line : String) (shell : Shell) : Shell × Reply :=
  let source := shell.pending ++ line
  match parseSource limits.nesting source with
  | .ok program =>
      let outcome := shell.session.run limits.frames shell.level program
      ({ shell.reset with session := outcome.session }, answer outcome source shell.name)
  | .error error =>
      if error.isIncomplete then
        ({ shell with pending := source ++ "\n", prompt := .secondary }, writes "")
      else
        (if error.notice.isOk then shell.reset else shell, reported error.notice source shell.name)

def read (limits : Limits) (line : String) (shell : Shell) : Shell × Reply :=
  match command line with
  | .nothing => (shell, writes "")
  | .help => (shell, writes helpText)
  | .exit => (shell, ⟨"", #[], .stops⟩)
  | .leave => (shell, ⟨"\n", #[], .stops⟩)
  | .code line => shell.code limits line

end Shell
end FernLang
