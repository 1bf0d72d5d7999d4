import ExprLang.Expr

/-!
# Expressions as outlines

An outline shows the tree itself, one field a line, with every place. `Outline` is the shape of
such a listing: an atom, a named record of fields, a named tuple or a list; `Outline.text` lays it
out with four spaces a level and a comma after every item.
-/

namespace ExprLang

/-- The shape of an indented listing. -/
inductive Outline where
  | atom (text : String)
  | record (name : String) (fields : List (String × Outline))
  | tuple (name : String) (items : List Outline)
  | list (items : List Outline)

namespace Outline

/-- The indentation of a level. -/
def indent (level : Nat) : String := String.ofList (List.replicate (4 * level) ' ')

mutual

/-- The pieces of an outline whose first line is already indented to a level. -/
def pieces (level : Nat) : Outline → List String → List String
  | atom text, rest => text :: rest
  | record name fields, rest =>
    name :: " \x7b\n" :: fieldPieces (level + 1) fields (indent level :: "\x7d" :: rest)
  | tuple name items, rest =>
    name :: "(\n" :: itemPieces (level + 1) items (indent level :: ")" :: rest)
  | list [], rest => "[]" :: rest
  | list (x :: xs), rest =>
    "[\n" :: indent (level + 1) :: x.pieces (level + 1)
      (",\n" :: itemPieces (level + 1) xs (indent level :: "]" :: rest))

/-- One line, or group of lines, for each field. -/
def fieldPieces (level : Nat) : List (String × Outline) → List String → List String
  | [], rest => rest
  | (name, x) :: more, rest =>
    indent level :: name :: ": " :: x.pieces level (",\n" :: fieldPieces level more rest)

/-- One line, or group of lines, for each item. -/
def itemPieces (level : Nat) : List Outline → List String → List String
  | [], rest => rest
  | x :: more, rest => indent level :: x.pieces level (",\n" :: itemPieces level more rest)

end

/-- The text of an outline. -/
def text (o : Outline) : String := String.join (o.pieces 0 [])

end Outline

/-- The outline of a place. -/
def Span.outline (s : Span) : Outline :=
  .record "SrcSpan" [("start", .atom (toString s.start)), ("end", .atom (toString s.stop))]

/-- The outline of a name. -/
def Located.nameOutline (name : Name) : Outline :=
  .record "Identifier" [("value", .atom (Text.quote name.val)), ("location", name.span.outline)]

/-- The outline of a literal. -/
def Literal.outline : Literal → Outline
  | .number x => .tuple "Number" [.atom (Number.detail x)]
  | .string s => .tuple "Str" [.atom (Text.quote s)]
  | .boolean b => .tuple "Bool" [.atom (toString b)]

namespace Expr

mutual

/-- The outline of an expression. -/
def outline : Expr → Outline
  | literal value s => .record "Literal" [("value", value.outline), ("location", s.outline)]
  | unary op operand s =>
    .record "Unary"
      [("operator", .atom op.name), ("operand", operand.outline), ("location", s.outline)]
  | binary left op right s =>
    .record "Binary"
      [("left", left.outline), ("operator", .atom op.name), ("right", right.outline),
        ("location", s.outline)]
  | group inner s =>
    .record "Parenthesized" [("expression", inner.outline), ("location", s.outline)]
  | var name => .tuple "Variable" [name.nameOutline]
  | conditional c r a s =>
    .record "Conditional"
      [("condition", c.outline), ("resolution", r.outline), ("alternative", a.outline),
        ("location", s.outline)]
  | letIn bindings body s =>
    .record "LetBinding"
      [("bindings", .list (bindingOutlines bindings)), ("body", body.outline),
        ("location", s.outline)]
  | declaration name params body s =>
    .record "FunctionDeclaration"
      [("name", name.nameOutline), ("params", .list (params.map (·.nameOutline))),
        ("body", body.outline), ("location", s.outline)]
  | call name args s =>
    .record "FunctionCall"
      [("name", name.nameOutline), ("args", .list (argOutlines args)), ("location", s.outline)]

/-- The outlines of bindings. -/
def bindingOutlines : List (Name × Expr) → List Outline
  | [] => []
  | (name, value) :: rest =>
    .record "Binding" [("name", name.nameOutline), ("value", value.outline)] ::
      bindingOutlines rest

/-- The outlines of arguments. -/
def argOutlines : List Expr → List Outline
  | [] => []
  | e :: rest => e.outline :: argOutlines rest

end

end Expr

end ExprLang
