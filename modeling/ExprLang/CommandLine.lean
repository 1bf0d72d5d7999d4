import ExprLang.Diagnostic.Rendering
import ExprLang.Expr.Outline
import ExprLang.Expr.Printer
import ExprLang.Session

/-!
# The command line

A `Command` is what the arguments ask for; `Command.run` answers with a `Transcript`: the lines of
the output, and the errors of every line of the language that was looked at. The rest is layout:
errors are rendered against their lines, and after any error a last line counts them and the exit
code is one. A transcript is all that is to be written. Whether the error stream takes its part is
known only to the program that writes it, which tells `Transcript.exitCode`.
-/

namespace ExprLang

/-- What the arguments ask for. -/
inductive Command where
  /-- Interprets lines in one session. -/
  | eval (lines : List String) (maxDepth : Nat)
  /-- Lists the tokens of a line. -/
  | lex (line : String)
  /-- Lists the statements of a line, as program text or as outlines. -/
  | parse (line : String) (outlines : Bool)
  /-- Lists the functions of a fresh session. -/
  | functions

/-- Why arguments are no command. -/
inductive UsageError where
  | missingCommand
  | unknownCommand (name : String)
  | unknownOption (name : String)
  | invalidNumber (text : String)
  | missingValue (option : String)
  | missingLine
  | extraArgument (text : String)
  deriving DecidableEq, Repr

/-- The message about arguments that are no command. -/
def UsageError.message : UsageError → String
  | missingCommand => "a command is required: eval, lex, parse or functions"
  | unknownCommand name => "unknown command '" ++ name ++ "'"
  | unknownOption name => "unexpected option '" ++ name ++ "'"
  | invalidNumber text => "invalid number '" ++ text ++ "'"
  | missingValue option => "a value is required for '" ++ option ++ "'"
  | missingLine => "a line is required"
  | extraArgument text => "unexpected argument '" ++ text ++ "'"

/-- The arguments behind a command: its lines and its options. -/
structure Arguments where
  lines : List String := []
  maxDepth : Nat := defaultMaxDepth
  outlines : Bool := false

namespace Arguments

/-- The option that limits active calls. -/
def maxDepthOption : String := "--max-depth"

/-- The option that asks for outlines. -/
def outlineOption : String := "--print-ast"

/-- A number of calls: digits, which may follow a plus sign. It fits a machine word. -/
def readNumber (text : String) : Except UsageError Nat :=
  let digits :=
    match text.toList with
    | '+' :: cs => cs
    | cs => cs
  let n := digits.foldl (fun n c => 10 * n + (c.toNat - '0'.toNat)) 0
  if !digits.isEmpty && digits.all Char.isDigit && n ≤ wordMax then .ok n
  else .error (.invalidNumber text)

/-- Whether an argument is an option. A single dash is not. -/
def isOption (argument : String) : Bool := argument.startsWith "-" && argument != "-"

/-- Reads lines and those options that a command has. Behind `--` everything is a line. -/
def read (limits outlines : Bool) : List String → Arguments → Except UsageError Arguments
  | [], done => .ok done
  | "--" :: rest, done => .ok { done with lines := done.lines ++ rest }
  | argument :: rest, done =>
    if limits && argument == maxDepthOption then
      match rest with
      | [] => .error (.missingValue maxDepthOption)
      | value :: rest => do read limits outlines rest { done with maxDepth := ← readNumber value }
    else if limits && argument.startsWith (maxDepthOption ++ "=") then do
      let value := String.ofList (argument.toList.drop (maxDepthOption.length + 1))
      read limits outlines rest { done with maxDepth := ← readNumber value }
    else if outlines && argument == outlineOption then
      read limits outlines rest { done with outlines := true }
    else if isOption argument then .error (.unknownOption argument)
    else read limits outlines rest { done with lines := done.lines ++ [argument] }

/-- The only line of a command that takes one. -/
def onlyLine (a : Arguments) : Except UsageError String :=
  match a.lines with
  | [] => .error .missingLine
  | [line] => .ok line
  | _ :: extra :: _ => .error (.extraArgument extra)

end Arguments

namespace Command

/-- The command that arguments ask for. -/
def ofArguments : List String → Except UsageError Command
  | [] => .error .missingCommand
  | "eval" :: rest => do
    let a ← Arguments.read true false rest {}
    if a.lines.isEmpty then .error .missingLine else .ok (.eval a.lines a.maxDepth)
  | "lex" :: rest => do
    let a ← Arguments.read false false rest {}
    return .lex (← a.onlyLine)
  | "parse" :: rest => do
    let a ← Arguments.read false true rest {}
    return .parse (← a.onlyLine) a.outlines
  | "functions" :: rest => do
    let a ← Arguments.read false false rest {}
    match a.lines with
    | [] => .ok .functions
    | extra :: _ => .error (.extraArgument extra)
  | name :: _ => .error (.unknownCommand name)

end Command

/-- What came of a command. -/
structure Transcript where
  /-- The lines of the output. -/
  output : List String := []
  /-- The lines that were looked at, with their errors. -/
  reports : List (String × List Error) := []

namespace Transcript

/-- The number of errors. -/
def errorCount (t : Transcript) : Nat := (t.reports.flatMap Prod.snd).length

/-- The exit code: one after any error, and two when the errors could not be written. -/
def exitCode (t : Transcript) (written : Bool := true) : UInt32 :=
  if t.errorCount = 0 then 0 else if written then 1 else 2

/-- The output, each line ended. -/
def stdout (t : Transcript) : String := String.join (t.output.map (· ++ "\n"))

/-- The line that counts the errors. Its first word is aligned with the words of other such lines,
eleven columns wide. -/
def failedLine (count : Nat) : List Piece :=
  [.ink .alert, .text "     Failed", .ink .off,
    .text (" " ++ toString count ++ " diagnostic(s) reported\n")]

/-- The rendered errors, and their number if there are any. -/
def stderr (t : Transcript) (colour : Bool) : String :=
  let rendered := t.reports.flatMap fun r => r.2.map fun e => Diagnostic.pretty e r.1 colour
  let failed :=
    if t.errorCount = 0 then "" else Piece.writeAll colour (failedLine t.errorCount)
  String.join rendered ++ failed

end Transcript

namespace Command

/-- The lines of output for a statement. -/
def statementLine (outlines : Bool) : Option Expr → String
  | some e => if outlines then e.outline.text else e.text
  | none => Program.lost

/-- The values of an interpreted line that are shown. -/
def shownResults (i : Interpretation) : List String :=
  (i.results.filter fun v => !v.isNothing).map Value.text

/-- What comes of a command. Lines are interpreted on the hosts that are given. -/
def run (command : Command) (hosts : Nat → Host := fun _ => .thread) : Transcript :=
  match command with
  | eval lines maxDepth =>
    let is := ((Session.new maxDepth).interpretAll lines hosts).1
    { output := is.flatMap shownResults
      reports := lines.zip (is.map (·.errors)) }
  | lex line =>
    let (tokens, errors) := tokenize line
    { output := tokens.map Token.listing
      reports := [(line, errors.map Error.ofLexical)] }
  | parse line outlines =>
    let parsed := parseProgram line
    { output := parsed.statements.map (statementLine outlines)
      reports := [(line, parsed.allErrors)] }
  | functions => { output := Session.new.signatures.map Signature.text }

end Command

end ExprLang
