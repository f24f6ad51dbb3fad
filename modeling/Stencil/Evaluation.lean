import Stencil.Function.Builtin
import Stencil.Scope

/-!
# Evaluation of calls

The argument texts of a call are looked up and coerced to the declared parameters of its function. Faults are told in
this order: an unknown name, a signature that cannot be called, the number of arguments, and then the first argument
that cannot be looked up or coerced.

A signature ends in its context, if it has one, and the parameters in front of it end in its variadic tail.
-/

namespace Stencil

namespace Function

/-- The parameters that are filled from argument texts: all but a context at the end. -/
def positional (params : List ParamKind) : List ParamKind :=
  if params.getLast? = some .context then params.dropLast else params

/-- Whether the parameters that are filled from argument texts end in a variadic tail. -/
def isVariadic (params : List ParamKind) : Bool := (positional params).getLast? == some .rest

/-- The parameters that take one argument text each. -/
def fixed (params : List ParamKind) : List ParamKind :=
  if isVariadic params then (positional params).dropLast else positional params

/-- Whether the kind at a position may stand there. -/
def placed (params : List ParamKind) (index : Nat) : ParamKind → Bool
  | .value _ => true
  | .context => index + 1 == params.length
  | .rest => index + 1 == (positional params).length

/-- The position of the first parameter that may not stand there. -/
def misplaced? (params : List ParamKind) : Option Nat :=
  (params.zipIdx.find? fun (kind, index) => !placed params index kind).map (·.2)

end Function

/-- The functions and bindings that a call is evaluated with. -/
structure Evaluation where
  scope : Scope
  functions : NameMap Function
  surroundings : Surroundings

namespace Evaluation

variable (e : Evaluation)

/-- The function of a name; the functions of the host come first. -/
def function? (name : String) : Option Function := (e.functions.get? name).or (Builtin.function? name)

/-- An argument text as an argument of a kind. -/
def adapt (name : String) (index : Nat) (kind : ParamKind) (text : String) : Except Error Arg := do
  let v ← e.scope.argument text
  match kind with
  | .value type =>
    match v.coerce type with
    | .ok w => return .value w
    | .error fault => throw (.parameterConversion name index fault)
  | _ => return .value v

/-- Argument texts as arguments of kinds, one by one from a position on. -/
def adaptAll (name : String) (index : Nat) : List ParamKind → List String → Except Error (List Arg)
  | kind :: kinds, text :: texts => do
    let arg ← e.adapt name index kind text
    return arg :: (← adaptAll name (index + 1) kinds texts)
  | _, _ => .ok []

/-- The texts of the values that argument texts stand for. -/
def restTexts : List String → Except Error (List String)
  | [] => .ok []
  | text :: texts => do
    let v ← e.scope.argument text
    return v.text :: (← restTexts texts)

/-- The arguments of a call, adapted to the declared parameters. -/
def arguments (name : String) (params : List ParamKind) (texts : List String) : Except Error (List Arg) :=
  let fixed := Function.fixed params
  match Function.misplaced? params with
  | some index => .error (.invalidSignature name index)
  | none =>
    if texts.length < fixed.length ∨ (!Function.isVariadic params ∧ fixed.length < texts.length) then
      .error (.argumentCount name params.length texts.length)
    else do
      let single ← e.adaptAll name 0 fixed texts
      if Function.isVariadic params then return single ++ [.strings (← e.restTexts (texts.drop fixed.length))]
      else return single

/-- The value of a call. The context is handed over if the function declares it. -/
def call (name : String) (texts : List String) : Except Error Value :=
  match e.function? name with
  | none => .error (.unknownFunction name)
  | some f => do
    let args ← e.arguments name f.params texts
    f.invoke ⟨name, args, if f.params.getLast? = some .context then some e.surroundings else none⟩

end Evaluation

end Stencil
