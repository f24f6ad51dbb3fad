import Stencil.Function.Typed

/-!
# Built-in functions

The functions that every render knows, under names in which case does not count. A function of the host under the same
name takes their place.
-/

namespace Stencil.Builtin

/-- Equality of texts; null equals null only. -/
def sameText (a b : Value) : Bool := a.isNull == b.isNull && (a.isNull || a.text == b.text)

/-- A number or a date by a pattern, in the locale of the render; null for other values. -/
def format : Function :=
  ⟨[.value .any, .value .string, .context], fun i =>
    match i.value? 0, i.value? 1 with
    | some v, some pattern =>
      match i.context with
      | none => .error i.contextMissing
      | some c => (c.locale.format v (pattern.string?.getD "")).map (Value.ofOption .string)
    | _, _ => .ok .null⟩

def table : NameMap Function :=
  .ofList [
    ("equals", .typed [.any, .any] fun (a b : Value) => .bool (sameText a b)),
    ("isnull", .typed [.any] fun (v : Value) => .bool v.isNull),
    ("isnotnull", .typed [.any] fun (v : Value) => .bool !v.isNull),
    ("istrue", .typed [.optional .bool] fun (b : Option Bool) => .bool (b == some true)),
    ("isfalse", .typed [.optional .bool] fun (b : Option Bool) => .bool (b != some true)),
    ("isempty", .typed [.any] fun (v : Value) => .bool (v.isNull || v.text == "")),
    ("format", format)]

/-- The built-in function of a name. -/
def function? (name : String) : Option Function := table.get? name

end Stencil.Builtin
