import ExprLang.Main
import ExprLang.Proofs.Lexing.Scan
import ExprLang.Proofs.Lexing.Tiling
import ExprLang.Proofs.Grammar.Canonical
import ExprLang.Proofs.Grammar.Written
import ExprLang.Proofs.Parsing.Step
import ExprLang.Proofs.Grammar.Soundness
import ExprLang.Proofs.Statements.Account
import ExprLang.Proofs.Grammar.Completeness
import ExprLang.Proofs.Statements.Recovery
import ExprLang.Proofs.Grammar.Forms
import ExprLang.Proofs.Statements.Acceptance
import ExprLang.Proofs.Evaluation.Agreement
import ExprLang.Proofs.Evaluation.Ceilings
import ExprLang.Proofs.Number.Bits
import ExprLang.Proofs.Number.Rounding
import ExprLang.Proofs.Number.Shortest
import ExprLang.Proofs.Number.Reading
import ExprLang.Proofs.Lexing.Pieces
import ExprLang.Proofs.Lexing.Spelling
import ExprLang.Proofs.Grammar.Printing
import ExprLang.Proofs.Statements.RoundTrip
import ExprLang.Proofs.Evaluation.Scope
import ExprLang.Proofs.Evaluation.Plain
import ExprLang.Proofs.Evaluation.Strict
import ExprLang.Proofs.Session.History
import ExprLang.Proofs.Session.Results
import ExprLang.Proofs.Session.Hosts
import ExprLang.Proofs.Session.Order
import ExprLang.Proofs.Lexing.Places
import ExprLang.Proofs.Lexing.Stream
import ExprLang.Proofs.Session.Undeclared
import ExprLang.Proofs.Parsing.Parallel
import ExprLang.Proofs.Parsing.SideBySide
import ExprLang.Proofs.Statements.Reading
import ExprLang.Proofs.Lexing.Joined
import ExprLang.Proofs.Statements.Joined
import ExprLang.Proofs.Evaluation.Places
import ExprLang.Proofs.Session.Joined
import ExprLang.Proofs.Session.Layout
import ExprLang.Proofs.Evaluation.FreeVariables
import ExprLang.Proofs.Evaluation.Extension
import ExprLang.Proofs.Session.CommandLine
import ExprLang.Proofs.Lexing.Extent
import ExprLang.Proofs.Lexing.Cut
import ExprLang.Proofs.Grammar.Nodes
import ExprLang.Proofs.Statements.Nodes
import ExprLang.Proofs.Evaluation.Counters
import ExprLang.Proofs.Evaluation.Budget
import ExprLang.Proofs.Lexing.Munch
import ExprLang.Proofs.Parsing.Rounds
import ExprLang.Proofs.Grammar.Phrases
import ExprLang.Proofs.Grammar.Prompt
import ExprLang.Proofs.Grammar.FirstError
import ExprLang.Proofs.Statements.Impossible
import ExprLang.Proofs.Statements.Flaws
import ExprLang.Proofs.Lexing.Respacing
import ExprLang.Proofs.Evaluation.Bindings
import ExprLang.Proofs.Evaluation.Application
import ExprLang.Proofs.Evaluation.Origins
import ExprLang.Proofs.Session.Shown
import ExprLang.Proofs.Parsing.Unbounded
import ExprLang.Proofs.Statements.Unbounded
import ExprLang.Proofs.Statements.Progress
