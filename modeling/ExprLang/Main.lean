import ExprLang.CommandLine

/-!
# The program
-/

open ExprLang

/-- Writes a text to a stream, unless the stream fails. -/
def tryWrite (stream : IO.FS.Stream) (text : String) : IO Bool := do
  try
    stream.putStr text
    return true
  catch _ => return false

/-- Runs the command that the arguments ask for. Errors go to the error stream, in colours if it is
a terminal or the environment asks for them. -/
def main (arguments : List String) : IO UInt32 := do
  let stderr ← IO.getStderr
  match Command.ofArguments arguments with
  | .error e =>
    stderr.putStrLn ("error: " ++ e.message)
    return 2
  | .ok command =>
    let forced := ((← IO.getEnv "FORCE_COLOR").getD "") != ""
    let colour := forced || (← stderr.isTty)
    let transcript := command.run
    IO.print transcript.stdout
    let written ← tryWrite stderr (transcript.stderr colour)
    return transcript.exitCode written
