import FernLang.Text.Blank
import FernLang.Text.Quoted

/-!
Command line options. A long option may be cut short as long as no other starts so, and may carry
its value behind an equals sign; short options may share one dash. After a bare double dash there
are words only. One word names the program; what is left over is reported together at the end, so
every other complaint comes before it.
-/

namespace FernLang

inductive Flag where
  | help
  | verbose
  | emitAst
  | ast
deriving DecidableEq

namespace Flag

def names : Flag → List String
  | .help => ["-h", "--help"]
  | .verbose => ["-v"]
  | .emitAst => ["--emit-ast"]
  | .ast => ["--ast"]

def title (flag : Flag) : String := "/".intercalate flag.names

def takesValue : Flag → Bool
  | .emitAst | .ast => true
  | .help | .verbose => false

def spellings : List (String × Flag) :=
  [Flag.help, .verbose, .emitAst, .ast].flatMap fun flag => flag.names.map fun name => (name, flag)

def named? (name : String) : Option Flag := (spellings.find? (·.1 == name)).map (·.2)

end Flag

inductive UsageError where
  | unrecognized (arguments : List String)
  | expectedValue (flag : Flag)
  | ignoredValue (flag : Flag) (value : String)
  | notAllowed (flag other : Flag)
  | ambiguous (argument : String) (candidates : List String)
deriving DecidableEq

def UsageError.message : UsageError → String
  | .unrecognized arguments => "unrecognized arguments: " ++ " ".intercalate arguments
  | .expectedValue flag => s!"argument {flag.title}: expected one argument"
  | .ignoredValue flag value =>
      s!"argument {flag.title}: ignored explicit argument " ++ Text.quoted value
  | .notAllowed flag other => s!"argument {flag.title}: not allowed with argument {other.title}"
  | .ambiguous argument candidates =>
      s!"ambiguous option: {argument} could match " ++ ", ".intercalate candidates

structure Options where
  verbosity : Nat
  emitAst : Option String
  ast : Option String
  program : Option String
deriving DecidableEq

inductive UsageStop where
  | help
  | wrong (error : UsageError)
deriving DecidableEq

namespace Options

def usageLine : String :=
  "usage: fern [-h] [-v] [--emit-ast FERN_FILE | --ast AST_JSON_FILE] [program]\n"

def helpText : String :=
  usageLine ++
  "\nFern language interpreter\n" ++
  "\npositional arguments:\n" ++
  "  program               Fern program file (.fern) to execute\n" ++
  "\noptions:\n" ++
  "  -h, --help            show this help message and exit\n" ++
  "  -v                    increase debug verbosity (can be repeated)\n" ++
  "  --emit-ast FERN_FILE  emit AST JSON for the given .fern file\n" ++
  "  --ast AST_JSON_FILE   execute AST from a JSON file\n"

def splitEquals : List Char → List Char × Option String
  | [] => ([], none)
  | c :: text =>
      if c = '=' then ([], some (String.ofList text))
      else (c :: (splitEquals text).1, (splitEquals text).2)

/-- How the options in one argument end: in an option that has no text behind it, or in one with
its value. -/
inductive RowEnd where
  | bare (flag : Flag)
  | given (flag : Flag) (value : String)
deriving DecidableEq

def give (flag : Flag) (value : String) : Except UsageError (List Flag × RowEnd) :=
  if flag.takesValue then .ok ([], .given flag value) else .error (.ignoredValue flag value)

/-- The options that share a dash, from one of them on: those before the last, and the last. Text
behind an option that needs no value has to go on with the letter of another option. -/
def shortRow (flag : Flag) : List Char → Except UsageError (List Flag × RowEnd)
  | [] => .ok ([], .bare flag)
  | c :: rest =>
      match flag.takesValue, Flag.named? (String.ofList ['-', c]) with
      | false, some next => do
          let (row, last) ← shortRow next rest
          return (flag :: row, last)
      | _, _ => give flag (String.ofList (c :: rest))

def longRow (flag : Flag) : Option String → Except UsageError (List Flag × RowEnd)
  | none => .ok ([], .bare flag)
  | some value => give flag value

/-- Digits with at most one point among them, which digits follow; a newline may end them. -/
def looksNumeric (text : List Char) : Bool :=
  let isDigit := fun c => (Text.digitValue? c).isSome
  let text := if text.getLast? == some '\n' then text.dropLast else text
  match text.dropWhile isDigit with
  | [] => !text.isEmpty
  | '.' :: rest => !rest.isEmpty && rest.all isDigit
  | _ => false

inductive Argument where
  | option (row : Except UsageError (List Flag × RowEnd))
  | unknown (text : String)
  | word (text : String)
  | divider

/-- An argument that begins with two dashes. An exact name wins over a longer one that starts with
it. -/
def classifyLong (text : List Char) : Except UsageError Argument :=
  let (front, value) := splitEquals text
  let argument := String.ofList text
  match Flag.named? (String.ofList front) with
  | some flag => .ok (.option (longRow flag value))
  | none =>
      match Flag.spellings.filter fun spelling => front.isPrefixOf spelling.1.toList with
      | [(_, flag)] => .ok (.option (longRow flag value))
      | [] => .ok (if text.contains ' ' then .word argument else .unknown argument)
      | several => .error (.ambiguous argument (several.map (·.1)))

/-- An argument that begins with one dash and a letter. An equals sign right behind the letter is
passed over. A negative number is a word. -/
def classifyShort (letter : Char) (rest : List Char) : Argument :=
  let argument := String.ofList ('-' :: letter :: rest)
  match Flag.named? (String.ofList ['-', letter]) with
  | some flag =>
      match rest with
      | ['='] => .option (give flag "")
      | '=' :: value => .option (shortRow flag value)
      | _ => .option (shortRow flag rest)
  | none =>
      if looksNumeric (letter :: rest) || (letter :: rest).contains ' ' then .word argument
      else .unknown argument

def classify (argument : String) : Except UsageError Argument :=
  match argument.toList with
  | '-' :: '-' :: rest => classifyLong ('-' :: '-' :: rest)
  | '-' :: letter :: rest => .ok (classifyShort letter rest)
  | _ => .ok (.word argument)

def classifyAll : List String → Except UsageError (List Argument)
  | [] => .ok []
  | argument :: arguments =>
      if argument = "--" then .ok (.divider :: arguments.map .word)
      else do return (← classify argument) :: (← classifyAll arguments)

/-- What is known of a command line so far. A settled program takes no further word. -/
structure Known where
  options : Options
  settled : Bool
  extras : List String

namespace Known

def start : Known := ⟨⟨0, none, none, none⟩, false, []⟩

def note (flag : Flag) (known : Known) : Except UsageStop Known :=
  match flag with
  | .help => .error .help
  | .verbose => .ok { known with options.verbosity := known.options.verbosity + 1 }
  | .emitAst | .ast => .error (.wrong (.expectedValue flag))

def noteAll (flags : List Flag) (known : Known) : Except UsageStop Known :=
  flags.foldlM (fun known flag => known.note flag) known

/-- Takes in an option with its value, where a double dash stands for an empty one. The two options
with a value exclude each other. -/
def set (flag : Flag) (value : String) (known : Known) : Except UsageStop Known :=
  let value := if value = "--" then "" else value
  match flag with
  | .emitAst =>
      if known.options.ast.isSome then .error (.wrong (.notAllowed .emitAst .ast))
      else .ok { known with options.emitAst := some value }
  | .ast =>
      if known.options.emitAst.isSome then .error (.wrong (.notAllowed .ast .emitAst))
      else .ok { known with options.ast := some value }
  | .help | .verbose => .error (.wrong (.ignoredValue flag value))

def spare (text : String) (known : Known) : Known :=
  { known with extras := known.extras ++ [text] }

def settle (program : Option String) (known : Known) : Known :=
  { known with options.program := program, settled := true }

end Known

/-- Takes in the arguments in order. The first word names the program; the divider next to it, or
before it, is passed over. -/
def consume : List Argument → Known → Except UsageStop Known
  | [], known => .ok known
  | .unknown text :: arguments, known => consume arguments (known.spare text)
  | .word text :: arguments, known =>
      if known.settled then consume arguments (known.spare text)
      else match arguments with
        | .divider :: arguments => consume arguments (known.settle (some text))
        | arguments => consume arguments (known.settle (some text))
  | .divider :: arguments, known =>
      if known.settled then consume arguments (known.spare "--")
      else match arguments with
        | .word text :: arguments => consume arguments (known.settle (some text))
        | arguments => consume arguments (known.settle none)
  | .option (.error error) :: _, _ => .error (.wrong error)
  | .option (.ok (flags, .given flag value)) :: arguments, known => do
      consume arguments (← (← known.noteAll flags).set flag value)
  | .option (.ok (flags, .bare flag)) :: arguments, known =>
      if flag.takesValue then
        match arguments with
        | .word value :: arguments => do
            consume arguments (← (← known.noteAll flags).set flag value)
        | _ => .error (.wrong (.expectedValue flag))
      else do consume arguments (← (← known.noteAll flags).note flag)

/-- The options of a command line. All arguments are told apart before any is taken in, so an
ambiguous one comes before everything else. -/
def parse (arguments : List String) : Except UsageStop Options :=
  match classifyAll arguments with
  | .error error => .error (.wrong error)
  | .ok arguments => do
      let known ← consume arguments .start
      if known.extras.isEmpty then .ok known.options
      else .error (.wrong (.unrecognized known.extras))

end Options
end FernLang
