import ExprLang.Parser.Expression

/-!
# Reading the statements of a line

A line is a sequence of statements with semicolons between them; a statement is a declaration or
an expression. A statement with an error is given up: its slot in the program is empty, and reading
goes on behind the next semicolon. So one broken statement costs one error and no other statement.
-/

namespace ExprLang

/-- A line as it was read. -/
structure Parsed where
  statements : Program
  lexErrors : List (Located LexicalError)
  errors : List (Located SyntaxError)

namespace Parsed

/-- Whether anything is wrong with the line. -/
def hasErrors (p : Parsed) : Bool := !p.lexErrors.isEmpty || !p.errors.isEmpty

end Parsed

namespace Parser

/-- The parameters of a declaration, up to its closing parenthesis. -/
def params : Parse (List Name) := do
  if (← get).current.kind = .identifier then commaSeparated (return (← expect .identifier).toName)
  else return []

/-- A declaration, from its first keyword on. -/
def declaration : Parse Expr := do
  let start ← advance
  let name ← expect .identifier
  let _ ← expect (.symbol .leftParen)
  let params ← params
  let _ ← expectClosing .declaration
  let _ ← expect (.symbol .arrow)
  let body ← expression maxNesting .lowest
  return .declaration name.toName params body (start.span.union body.span)

/-- Whether a lexical error begins in the current statement, which ends before an offset. -/
def lexErrorBefore (p : Parser) (stop : Nat) : Bool :=
  p.lexErrors.any fun e => p.statementStart ≤ e.span.start && e.span.start < stop

/-- Complains if the statement does not end here. -/
def terminator : Parse Unit := do
  let found := (← get).current
  if endsStatement found.kind then return ()
  else report (.missingTerminator found.kind) found.span

/-- Passes the semicolon behind a statement. -/
def passSemicolon : Parse Unit := do
  if (← get).current.kind = .symbol .semicolon then
    let semicolon ← advance
    modify fun p => { p with statementStart := semicolon.span.stop }

/-- One statement and the semicolon behind it. A statement is kept if neither its tokens nor its
characters have an error. -/
def statement : Parse (Option Expr) := do
  modify fun p => { p with recovering := false }
  let e ←
    if (← get).current.kind = .keyword .functionWord then declaration
    else expression maxNesting .lowest
  terminator
  if (← get).recovering then skipStatement
  let p ← get
  passSemicolon
  return if p.recovering || p.lexErrorBefore p.current.span.start then none else some e

/-- The statements that are left. Every round reads a token, so there are no more rounds than
tokens. -/
def statements : Nat → Parse Program
  | 0 => return []
  | rounds + 1 => do
    if (← get).ahead.isEmpty then return []
    else
      let s ← statement
      return s :: (← statements rounds)

/-- Reads what is left of a line. -/
def parse (p : Parser) : Parsed :=
  let (program, p) := (statements p.size).run p
  ⟨program, p.lexErrors, p.errors.toList⟩

end Parser

/-- Reads a line. -/
def parseProgram (line : String) : Parsed := (Parser.ofLine line).parse

end ExprLang
