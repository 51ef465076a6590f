import LongDivision.Program

/-!
The program at a terminal.
-/

namespace LongDivision.Terminal

/-- Reads bytes up to and with the next line feed, or up to the end of the input. -/
partial def readLine (stream : IO.FS.Stream) (line : ByteArray) : IO ByteArray := do
  let next ← stream.read 1
  if next.isEmpty then return line
  let line := line ++ next
  if next[0]! == lineFeed then return line else readLine stream line

/-- Holds a dialogue at the terminal: output is shown at once, and events go to the error
output. -/
def hold (verbosity : Verbosity) : Program.ProgramDialogue Program.Exit → IO Program.Exit
  | .done exit => return exit
  | .write text rest => do
      let output ← IO.getStdout
      output.putStr text
      output.flush
      hold verbosity rest
  | .report event rest => do
      if verbosity.admits event.level then IO.eprintln event.line
      hold verbosity rest
  | .readLine rest => do
      let line ← readLine (← IO.getStdin) .empty
      hold verbosity (rest line.toList)

def look (path : String) : IO ConfigurationFile := do
  try
    let bytes ← IO.FS.readBinFile path
    return .content bytes.toList
  catch
    | .noFileOrDirectory .. => return .missing
    -- The path leads through a file.
    | .inappropriateType _ 20 _ => return .missing
    | .inappropriateType _ code cause => return unreadable code cause
    | .permissionDenied _ code cause => return unreadable code cause
    | error => return .unreadable (toString error)
where
  unreadable (code : UInt32) (cause : String) : ConfigurationFile :=
    .unreadable s!"{cause} (os error {code})"

end LongDivision.Terminal

open LongDivision in
def main (arguments : List String) : IO UInt32 := do
  let override ← IO.getEnv Configuration.pathVariable
  let found ← Terminal.look (Configuration.path override)
  let environment : Program.Environment :=
    { arguments, configurationPath? := override, file := fun _ => found }
  let verbosity := (Program.standard.configuration environment).verbosity
  let exit ← Terminal.hold verbosity (Program.standard.dialogue environment)
  if let some line := exit.errorLine? then IO.eprintln line
  return exit.code.toUInt32
