import ExprLang.Value

/-!
# Scopes

A `Scope` gives values to names. It is never changed: `extend` makes a new scope, in which later
bindings hide earlier ones of the same name. A name has at most one entry, the newest first.
-/

namespace ExprLang

/-- The values of the names in sight. -/
structure Scope where
  entries : List (String × Value) := []

namespace Scope

/-- The scope without names. -/
def empty : Scope := {}

/-- The value of a name. -/
def get? (s : Scope) (name : String) : Option Value := s.entries.lookup name

/-- Whether a name has a value. -/
def contains (s : Scope) (name : String) : Bool := (s.get? name).isSome

/-- The number of names. -/
def size (s : Scope) : Nat := s.entries.length

/-- Gives a value to a name. -/
def bind (s : Scope) (name : String) (v : Value) : Scope :=
  ⟨(name, v) :: s.entries.filter fun e => e.1 != name⟩

/-- Gives values to names, one after the other. -/
def extend (s : Scope) (bindings : List (String × Value)) : Scope :=
  bindings.foldl (fun s b => s.bind b.1 b.2) s

/-- The scope of the given bindings alone. -/
def ofList (bindings : List (String × Value)) : Scope := empty.extend bindings

/-- Whether two scopes give the same values to the same names, as the language compares values. -/
def same (s t : Scope) : Bool :=
  s.size == t.size && s.entries.all fun e =>
    match t.get? e.1 with
    | some v => e.2.same v
    | none => false

end Scope

end ExprLang
