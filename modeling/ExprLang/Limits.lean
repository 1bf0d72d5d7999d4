/-!
# Limits of an evaluation

An evaluation may have a number of calls active at once, and for each of them sixteen levels of
nested expressions. The second limit is capped so that the stack set aside for an evaluation stays
below a gibibyte. Numbers are machine words; what exceeds a word counts as the greatest one.
-/

namespace ExprLang

/-- The greatest number of a machine word. -/
def wordMax : Nat := UInt64.size - 1

/-- A number as a machine word holds it, at most the greatest. -/
def saturate (n : Nat) : Nat := min n wordMax

/-- How many calls may be active unless another number is asked for. -/
def defaultMaxDepth : Nat := 1000

/-- How many calls may be active at most on a stack that was not set aside for the evaluation. -/
def inlineMaxDepth : Nat := 8

/-- The levels of nesting for each call that may be active. -/
def nestingPerCall : Nat := 16

/-- The bytes of stack for one level of nesting. -/
def levelStack : Nat := 4 * 1024

/-- The bytes of stack that every evaluation needs. -/
def baseStack : Nat := 1024 * 1024

/-- The bytes of stack that no evaluation exceeds. -/
def maxStack : Nat := 1024 * 1024 * 1024

/-- How many expressions may be under evaluation at once when `maxDepth` calls may be active. -/
def nestingLimit (maxDepth : Nat) : Nat :=
  min (saturate (saturate (maxDepth + 1) * nestingPerCall)) ((maxStack - baseStack) / levelStack)

/-- The bytes of stack that an evaluation needs when `maxDepth` calls may be active. -/
def stackSize (maxDepth : Nat) : Nat := baseStack + nestingLimit maxDepth * levelStack

end ExprLang
