import Stencil.Function

/-!
# Typed functions

A function is made of a curried function whose parameters have types: its declared kinds follow from the types, and each
argument is taken out as a value of its type. An absent argument of a variadic tail is the empty list, any other absent
argument is null.

* `extract_of_coerce`: a coerced value that is not null is always taken out.
-/

namespace Stencil

/-- What an argument of a type is taken out as. -/
@[reducible] def ArgType.Carrier : ArgType → Type
  | .any => Value
  | .bool => Bool
  | .integer => Int64
  | .float => Binary64
  | .string => String
  | .date => DateTime

/-- Takes a value of a type out; no value is converted here. -/
def ArgType.extract : (type : ArgType) → Value → Except ConversionFault type.Carrier
  | .any, v => .ok v
  | .bool, .bool b => .ok b
  | .integer, .integer n => .ok n
  | .float, .float x => .ok x
  | .string, .string s => .ok s
  | .date, .date t => .ok t
  | type, v => .error (.mismatch type.name v.typeName)

/-- The type of a parameter of a typed function. -/
inductive ParamType where
  | value (type : ArgType)
  /-- A parameter that may be null. -/
  | optional (type : ParamType)
  | rest
  deriving DecidableEq, Repr

namespace ParamType

def any : ParamType := .value .any
def bool : ParamType := .value .bool
def integer : ParamType := .value .integer
def float : ParamType := .value .float
def string : ParamType := .value .string
def date : ParamType := .value .date

@[reducible] def Carrier : ParamType → Type
  | .value type => type.Carrier
  | .optional p => Option p.Carrier
  | .rest => List String

def kind : ParamType → ParamKind
  | .value type => .value type
  | .optional p => p.kind
  | .rest => .rest

/-- Takes an argument out. A single value stands for a list of its text. -/
def extract : (p : ParamType) → Arg → Except ConversionFault p.Carrier
  | .value type, .value v => type.extract v
  | .value _, .strings _ => .error .notSingle
  | .optional _, .value .null => .ok none
  | .optional p, arg => (p.extract arg).map some
  | .rest, .strings texts => .ok texts
  | .rest, .value v => .ok [v.text]

/-- What stands in for an argument that is absent. -/
def absent (p : ParamType) : Arg := if p.kind = .rest then .strings [] else .value .null

end ParamType

/-- Functions of arguments of the given types. -/
@[reducible] def Curried (α : Type) : List ParamType → Type
  | [] => α
  | p :: ps => p.Carrier → Curried α ps

/-- Applies a function of the given types to arguments, the first of which is at a position. The fault of an absent
argument is told at position zero. -/
def applyArgs {α : Type} (name : String) (position : Nat) :
    (ps : List ParamType) → Curried α ps → List Arg → Except Error α
  | [], f, _ => .ok f
  | p :: ps, f, [] =>
    match p.extract p.absent with
    | .ok x => applyArgs name (position + 1) ps (f x) []
    | .error fault => .error (.parameterConversion name 0 fault)
  | p :: ps, f, arg :: rest =>
    match p.extract arg with
    | .ok x => applyArgs name (position + 1) ps (f x) rest
    | .error fault => .error (.parameterConversion name position fault)

namespace Function

/-- The function of a curried function. -/
def typed (ps : List ParamType) (f : Curried Value ps) : Function :=
  ⟨ps.map ParamType.kind, fun i => applyArgs i.name 0 ps f i.args⟩

/-- The function of a curried function that looks at the render it is called from. -/
def contextual (ps : List ParamType) (f : Curried (Surroundings → Value) ps) : Function :=
  ⟨ps.map ParamType.kind ++ [.context], fun i =>
    match i.context with
    | none => .error i.contextMissing
    | some c => (applyArgs i.name 0 ps f i.args).map fun g => g c⟩

end Function

/-! ## Laws -/

/-- A coerced value that is not null is taken out. -/
theorem ArgType.extract_of_coerce {type : ArgType} {v w : Value} (h : Value.coerce type v = .ok w)
    (notNull : v ≠ .null) : ∃ x, type.extract w = .ok x := by
  by_cases wanted : type = .any
  · subst wanted
    exact ⟨w, rfl⟩
  · cases Value.isOf_of_coerce h wanted notNull <;> exact ⟨_, rfl⟩

end Stencil
