import ExprLang.Text.Extending
import ExprLang.Text.Hidden

/-!
# Escapes

How a text is shown inside a message. A tab, a line end, a NUL and a backslash have two-character
escapes, a quote has one where the rule asks for it, and characters that cannot be seen become
`\u` with the code point in braces. The three rules in use differ in the quotes they escape and in
whether a combining mark counts as unseen.
-/

namespace ExprLang.Text

/-- Which characters are escaped beside those that always are. -/
structure EscapeRule where
  /-- Whether `'` is escaped. -/
  apostrophe : Bool
  /-- Whether `"` is escaped. -/
  quote : Bool
  /-- Whether a combining mark is escaped. -/
  extending : Bool

namespace EscapeRule

/-- A character alone in running text: both quotes and combining marks are escaped. -/
def message : EscapeRule := ⟨true, true, true⟩

/-- A character between apostrophes: the quote stays. -/
def character : EscapeRule := ⟨true, false, true⟩

/-- A text between quotes: the apostrophe stays. -/
def quoted : EscapeRule := ⟨false, true, true⟩

/-- A character that follows another one: a combining mark has something to stand on. -/
def following : EscapeRule := ⟨true, true, false⟩

end EscapeRule

/-- The code point of a character in lower-case hexadecimal, in braces after `\u`. -/
def codePointEscape (c : Char) : String :=
  "\\u\x7b" ++ String.ofList (Nat.toDigits 16 c.toNat) ++ "\x7d"

/-- One character under a rule. -/
def escapeChar (rule : EscapeRule) (c : Char) : String :=
  if c == '\t' then "\\t"
  else if c == '\r' then "\\r"
  else if c == '\n' then "\\n"
  else if c == '\x00' then "\\0"
  else if c == '\\' then "\\\\"
  else if c == '\'' && rule.apostrophe then "\\'"
  else if c == '"' && rule.quote then "\\\""
  else if (rule.extending && isExtending c) || isHidden c then codePointEscape c
  else String.singleton c

/-- A text, its first character under one rule and the others under another. -/
def escapeWith (first others : EscapeRule) (s : String) : String :=
  match s.toList with
  | [] => ""
  | c :: cs => escapeChar first c ++ String.join (cs.map (escapeChar others))

/-- A text shown in a message: a combining mark is escaped only where nothing precedes it. -/
def escape (s : String) : String := escapeWith .message .following s

/-- A text in quotes. -/
def quote (s : String) : String := "\"" ++ escapeWith .quoted .quoted s ++ "\""

/-- A character in apostrophes. -/
def quoteChar (c : Char) : String := "'" ++ escapeChar .character c ++ "'"

end ExprLang.Text
