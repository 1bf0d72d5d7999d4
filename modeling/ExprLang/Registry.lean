import ExprLang.Expr
import ExprLang.Operation

/-!
# Functions

A function is built in or declared; name and number of parameters tell functions apart. A
`Registry` keeps functions in the order of their declaration and never forgets or replaces one. Each
stands behind the signature that it was registered by, and every search compares these: a function
is not asked for its own signature again. That the two agree is an invariant of the registry
(`Registry.keyed`), which `Registry.add` keeps.
-/

namespace ExprLang

/-- Functions that need no declaration, of one parameter each. -/
inductive Builtin where
  | sin | cos | tan | print
  deriving DecidableEq, Repr

namespace Builtin

/-- The name of the function. -/
def name : Builtin → String
  | sin => "sin"
  | cos => "cos"
  | tan => "tan"
  | print => "print"

/-- The number of parameters. -/
def arity (_ : Builtin) : Nat := 1

/-- Every built-in function, in the order of registration. -/
def all : List Builtin := [sin, cos, tan, print]

/-- A function of one number. -/
def onNumber (f : Float → Float) (b : Builtin) (v : Value) (span : Span) : Except Error Value :=
  (v.asNumberArgument b.name span).map fun x => .number (f x)

/-- The value of a built-in function at an argument. What is printed is the value itself: the
result of the statement shows it. -/
def applyTo (b : Builtin) (v : Value) (span : Span) : Except Error Value :=
  match b with
  | print => .ok v
  | sin => onNumber Float.sin b v span
  | cos => onNumber Float.cos b v span
  | tan => onNumber Float.tan b v span

/-- The value of a built-in function at a list of arguments, of which the last one counts. -/
def apply (b : Builtin) (args : List Value) (span : Span) : Except Error Value :=
  b.applyTo (args.getLastD .nothing) span

end Builtin

/-- What a function is called by. -/
structure Signature where
  name : String
  arity : Nat
  deriving DecidableEq, Repr

/-- The name, a slash and the number of parameters. -/
def Signature.text (s : Signature) : String := s.name ++ "/" ++ toString s.arity

/-- A built-in function, or the name, the parameters and the body of a declared one. -/
inductive Function where
  | builtin (b : Builtin)
  | declared (name : String) (params : List String) (body : Expr)

namespace Function

/-- The signature of a function. A declared one takes as many arguments as it has parameters; a
function keeps no other number of them, and a `Registry` keeps the signature in front of it. -/
def signature : Function → Signature
  | builtin b => ⟨b.name, b.arity⟩
  | declared name params _ => ⟨name, params.length⟩

end Function

/-- Functions behind signatures: every signature is that of its function. -/
def Registry.Keyed (entries : List (Signature × Function)) : Prop :=
  ∀ key f, (key, f) ∈ entries → key = f.signature

theorem Registry.Keyed.append_own {entries : List (Signature × Function)} (h : Keyed entries)
    (f : Function) : Keyed (entries ++ [(f.signature, f)]) := by
  intro key g hmem
  rcases List.mem_append.1 hmem with hmem | hmem
  · exact h key g hmem
  · cases List.mem_singleton.1 hmem
    rfl

/-- The functions that can be called, oldest first, each behind the signature it is called by. -/
@[ext]
structure Registry where
  entries : List (Signature × Function)
  keyed : Registry.Keyed entries

namespace Registry

/-- The registry without functions. -/
def empty : Registry := ⟨[], nofun⟩

/-- The functions, oldest first. -/
def functions (r : Registry) : List Function := r.entries.map Prod.snd

/-- The function of a signature. -/
def get? (r : Registry) (s : Signature) : Option Function :=
  (r.entries.find? fun entry => entry.1 == s).map Prod.snd

/-- Whether a signature is taken. -/
def contains (r : Registry) (s : Signature) : Bool := (r.get? s).isSome

/-- The number of functions. -/
def size (r : Registry) : Nat := r.entries.length

/-- The signatures of the functions, in the order of declaration. -/
def signatures (r : Registry) : List Signature := r.functions.map Function.signature

/-- Adds a function unless its signature is taken. -/
def add (r : Registry) (f : Function) : Registry :=
  if r.contains f.signature then r
  else ⟨r.entries ++ [(f.signature, f)], r.keyed.append_own f⟩

/-- Adds the built-in functions that are missing. -/
def seed (r : Registry) : Registry := (Builtin.all.map Function.builtin).foldl add r

/-- The registry of the built-in functions. -/
def builtins : Registry := empty.seed

/-- Declares a function. A signature is declared only once. -/
def declare (r : Registry) (f : Function) (span : Span) : Except Error Registry :=
  if r.contains f.signature then
    .error ⟨.semantic (.duplicateFunction f.signature.name f.signature.arity), span⟩
  else .ok (r.add f)

end Registry

end ExprLang
