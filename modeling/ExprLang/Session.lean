import ExprLang.Evaluation
import ExprLang.Parser.Statement

/-!
# Sessions

A `Session` interprets one line after the other. Functions stay from line to line, the diagnostics
are those of the last line. Every statement of a line has an evaluation of its own, so an error in
one does not touch the others.

The statements of a line are evaluated on a thread, with a stack of the size that their limits ask
for. When the system starts no thread, they are evaluated on the stack of the caller, with a lower
limit on calls. Which of the two it is, a session cannot know; a `Host` says it for one line.
-/

namespace ExprLang

/-- What came of a line: a value for every statement, and everything that was wrong. -/
structure Interpretation where
  results : List Value := []
  errors : List Error := []

namespace Interpretation

/-- Whether anything was wrong. -/
def hasErrors (i : Interpretation) : Bool := !i.errors.isEmpty

/-- The messages of the errors. -/
def diagnostics (i : Interpretation) : List String := i.errors.map fun e => e.val.message

end Interpretation

/-- The lexical and the syntax errors of a line, in the order of their places. -/
def Parsed.allErrors (p : Parsed) : List Error :=
  (p.lexErrors.map Error.ofLexical ++ p.errors.map Error.ofSyntactic).mergeSort fun d e =>
    d.span.start ≤ e.span.start

/-- What came of a statement: a value, or an error in its place. -/
abbrev Outcome := Except Error Value

namespace Outcome

/-- The value to show for a statement; there is none after an error. -/
def result : Outcome → Value
  | .ok v => v
  | .error _ => .nothing

/-- The error of a statement. -/
def error? : Outcome → Option Error
  | .ok _ => none
  | .error e => some e

end Outcome

/-- Evaluates a statement. One that was given up has nothing to show. -/
def evalStatement (maxDepth : Nat) (registry : Registry) : Option Expr → Outcome × Registry
  | some e =>
    let (outcome, s) := ({ registry, maxDepth : Evaluator }).eval .empty e
    (outcome, s.registry)
  | none => (.ok .nothing, registry)

/-- Evaluates statements one after the other. -/
def evalStatements (maxDepth : Nat) : Registry → Program → List Outcome × Registry
  | registry, [] => ([], registry)
  | registry, statement :: rest =>
    let (outcome, registry) := evalStatement maxDepth registry statement
    let (outcomes, registry) := evalStatements maxDepth registry rest
    (outcome :: outcomes, registry)

/-- Where the statements of a line are evaluated. -/
inductive Host where
  /-- On a thread, with a stack of its own. -/
  | thread
  /-- On the stack of the caller, when no thread could be started. -/
  | caller
  deriving DecidableEq, Repr

/-- How many calls may be active on a host, in a session that allows for `maxDepth`. -/
def Host.ceiling : Host → Nat → Nat
  | thread, maxDepth => maxDepth
  | caller, maxDepth => min maxDepth inlineMaxDepth

/-- What outlives a line. -/
structure Session where
  registry : Registry := .builtins
  /-- The errors of the last line. -/
  diagnostics : List Error := []
  maxDepth : Nat := defaultMaxDepth

namespace Session

/-- A session without declarations, with a limit on active calls. -/
def new (maxDepth : Nat := defaultMaxDepth) : Session := { maxDepth }

/-- Forgets the errors of the last line. -/
def resetDiagnostics (s : Session) : Session := { s with diagnostics := [] }

/-- The signatures of the functions that can be called. -/
def signatures (s : Session) : List Signature := s.registry.signatures

/-- Interprets a line. The limit of the session stays what it is on every host. -/
def interpret (s : Session) (line : String) (host : Host := .thread) : Interpretation × Session :=
  let parsed := parseProgram line
  let (outcomes, registry) :=
    evalStatements (host.ceiling s.maxDepth) s.registry parsed.statements
  let errors := parsed.allErrors ++ outcomes.filterMap Outcome.error?
  (⟨outcomes.map Outcome.result, errors⟩, { s with registry, diagnostics := errors })

/-- Interprets lines one after the other, each on the host of its number. -/
def interpretAll (s : Session) (lines : List String) (hosts : Nat → Host := fun _ => .thread) :
    List Interpretation × Session :=
  match lines with
  | [] => ([], s)
  | line :: lines =>
    let (i, s) := s.interpret line (hosts 0)
    let (is, s) := s.interpretAll lines fun n => hosts (n + 1)
    (i :: is, s)

end Session

end ExprLang
