import FernLang.Command

/-!
The program at the operating system: it looks files up, prints, and writes what the pure part says.
-/

namespace FernLang.Command

def look (path : FilePath) : IO Entry := do
  try return .file (← IO.FS.readBinFile path.text)
  catch
    | .inappropriateType .. => return .folder
    | _ => return .missing

def lookAll (task : Task) : IO Files := do
  let paths := tracePath :: match task with
    | .emit path => [path, treePath path]
    | .tree path | .source path => [path]
    | .talk => []
  let entries ← paths.mapM fun path => return (path, ← look path)
  return fun path => ((entries.find? (·.1 == path)).map (·.2)).getD .missing

def breakOff (crash : Crash) : IO UInt32 := do
  IO.eprintln s!"fern: {crash.message}"
  return 1

def carryOut (outcome : Outcome) : IO UInt32 := do
  for (path, text) in outcome.written do
    IO.FS.writeFile path.text text
  IO.print outcome.output
  IO.eprint outcome.errors
  match outcome.status with
  | .ok status => return status.toUInt32
  | .error crash => breakOff crash

/-- Answers lines as they come, and writes down what is traced at once. -/
partial def answerLines (stdin stdout : IO.FS.Stream) (trace? : Option IO.FS.Handle) (shell : Shell) :
    IO UInt32 := do
  stdout.putStr shell.prompt.text
  stdout.flush
  let line ← stdin.getLine
  let line := if line.isEmpty then "EOF" else
    String.ofList ((Text.lines (Text.newlines line.toList)).headD [])
  let (shell, reply) := shell.read .standard line
  if let some trace := trace? then
    reply.lines.forM trace.putStrLn
    trace.flush
  stdout.putStr reply.output
  match reply.ending with
  | .goesOn => answerLines stdin stdout trace? shell
  | .stops => return 0
  | .breaks escape => breakOff (.escape escape)

def interact (level : Nat) : IO UInt32 := do
  let trace? ← if level = 0 then pure none
    else some <$> IO.FS.Handle.mk tracePath.text .write
  IO.println Shell.intro
  answerLines (← IO.getStdin) (← IO.getStdout) trace? (.start shellName level)

end FernLang.Command

open FernLang in
def main (arguments : List String) : IO UInt32 := do
  match Options.parse arguments with
  | .error stop => Command.carryOut (.stopped stop)
  | .ok options =>
      let task := Command.task options
      if task = .talk then Command.interact options.verbosity
      else Command.carryOut (Command.perform .standard (← Command.lookAll task) "" options)
