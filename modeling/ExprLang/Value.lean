import ExprLang.Token

/-!
# Values

What an expression evaluates to: a number, a truth value, a string, or nothing where there is no
value to show.
-/

namespace ExprLang

/-- The types of values. -/
inductive ValueType where
  | number | boolean | string | nothing
  deriving DecidableEq, Repr

namespace ValueType

/-- The name of a type in a message. -/
def name : ValueType → String
  | number => "Number"
  | boolean => "Boolean"
  | string => "String"
  | nothing => "Nothing"

/-- Every type, once. -/
def all : List ValueType := [number, boolean, string, nothing]

end ValueType

/-- The result of an expression. -/
inductive Value where
  | number (x : Float)
  | boolean (b : Bool)
  | string (s : String)
  | nothing
  deriving DecidableEq, Inhabited

namespace Value

/-- The type of a value. -/
def type : Value → ValueType
  | number _ => .number
  | boolean _ => .boolean
  | string _ => .string
  | nothing => .nothing

/-- The text of a value as a result and as a part of a joined string. -/
def text : Value → String
  | number x => Number.text x
  | boolean b => toString b
  | string s => s
  | nothing => ""

/-- Whether there is no value to show. -/
def isNothing : Value → Bool
  | nothing => true
  | _ => false

/-- The value of a literal. -/
def ofLiteral : Literal → Value
  | .number x => number x
  | .string s => string s
  | .boolean b => boolean b

/-- Equality of values as the language sees it: numbers compare as doubles, so an undefined number
differs from itself and the two zeros are equal. -/
def same : Value → Value → Bool
  | number x, number y => x == y
  | boolean a, boolean b => a == b
  | string s, string t => s == t
  | nothing, nothing => true
  | _, _ => false

end Value

end ExprLang
