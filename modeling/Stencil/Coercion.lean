import Stencil.Calendar.Reading
import Stencil.Error
import Stencil.Text.Ascii
import Stencil.Value

/-!
# Coercion

A value taken as a value of a wanted type. Texts are read after trimming, numbers and truth values are exchanged with
each other, and nothing but a date or a text is taken as a date. Null is a value of every type.

* `isOf_of_coerce`, `typeName_of_coerce`: what a coercion gives is null or has the wanted type.
* `coerce_of_coerce`: a coerced value is not changed by the same coercion.
-/

namespace Stencil

/-- A type in which a value can be wanted. -/
inductive ArgType where
  | any
  | bool
  | integer
  | float
  | string
  | date
  deriving DecidableEq, Repr

def ArgType.name : ArgType → String
  | .any => "any"
  | .bool => "boolean"
  | .integer => "integer"
  | .float => "float"
  | .string => "string"
  | .date => "date"

namespace Value

/-- The fault of a value that has no counterpart in a type. -/
def noCounterpart (v : Value) (type : ArgType) : ConversionFault := .noConversion v.typeName type.name

def asBool : Value → Except ConversionFault Bool
  | .bool b => .ok b
  | .integer n => .ok (n != 0)
  | .float x => .ok (!x.isZero)
  | .string s =>
    if Text.sameIgnoringCase (Text.trim s) "true" then .ok true
    else if Text.sameIgnoringCase (Text.trim s) "false" then .ok false
    else .error (.notBoolean s)
  | v => .error (v.noCounterpart .bool)

/-- The integer of a whole number from `-2 ^ 63` to `2 ^ 63`. The upper end, which is one too large, is cut. -/
def wholeInteger (x : Binary64) : Option Int64 :=
  x.whole?.bind fun n =>
    if -2 ^ (63 : Nat) ≤ n ∧ n ≤ 2 ^ (63 : Nat) then some (.ofInt (min n (2 ^ (63 : Nat) - 1))) else none

def asInteger : Value → Except ConversionFault Int64
  | .integer n => .ok n
  | .float x =>
    match wholeInteger x with
    | some n => .ok n
    | none => .error ((Value.float x).noCounterpart .integer)
  | .bool b => .ok (if b then 1 else 0)
  | .string s =>
    match Decimal.readInt64 (Text.trim s).toList with
    | .ok n => .ok n
    | .error fault => .error (.notInteger s fault)
  | v => .error (v.noCounterpart .integer)

def asFloat : Value → Except ConversionFault Binary64
  | .float x => .ok x
  | .integer n => .ok (.ofInt n.toInt)
  | .bool b => .ok (.ofInt (if b then 1 else 0))
  | .string s =>
    match Binary64.read (Text.trim s).toList with
    | .ok x => .ok x
    | .error fault => .error (.notNumber s fault)
  | v => .error (v.noCounterpart .float)

/-- The text of a scalar. Lists, maps, objects and templates are no texts. -/
def asString : Value → Except ConversionFault String
  | .string s => .ok s
  | .bool b => .ok (Value.bool b).text
  | .integer n => .ok (Value.integer n).text
  | .float x => .ok (Value.float x).text
  | .date t => .ok (Value.date t).text
  | v => .error (v.noCounterpart .string)

def asDate : Value → Except ConversionFault DateTime
  | .date t => .ok t
  | .string s =>
    match DateTime.read (Text.trim s).toList with
    | some t => .ok t
    | none => .error (.notDate s)
  | v => .error (v.noCounterpart .date)

/-- The value as one of the wanted type. -/
def coerce (type : ArgType) (v : Value) : Except ConversionFault Value :=
  if v.isNull then .ok v
  else
    match type with
    | .any => .ok v
    | .bool => v.asBool.map .bool
    | .integer => v.asInteger.map .integer
    | .float => v.asFloat.map .float
    | .string => v.asString.map .string
    | .date => v.asDate.map .date

/-! ## Laws -/

@[simp] theorem coerce_any (v : Value) : coerce .any v = .ok v := by
  cases v <;> rfl

theorem isNull_eq_true_iff {v : Value} : v.isNull = true ↔ v = .null := by
  cases v <;> simp [isNull]

/-- The values of a type that wants more than any value. -/
inductive IsOf : ArgType → Value → Prop
  | bool (b : Bool) : IsOf .bool (.bool b)
  | integer (n : Int64) : IsOf .integer (.integer n)
  | float (x : Binary64) : IsOf .float (.float x)
  | string (s : String) : IsOf .string (.string s)
  | date (t : DateTime) : IsOf .date (.date t)

theorem exists_of_map_eq_ok {α β ε : Type} {f : α → β} {x : Except ε α} {b : β} (h : x.map f = .ok b) :
    ∃ a, f a = b := by
  cases x with
  | error e => cases h
  | ok a => exact ⟨a, Except.ok.inj h⟩

/-- Unless it is null, a value is coerced to a value of the wanted type. -/
theorem isOf_of_coerce {type : ArgType} {v w : Value} (h : coerce type v = .ok w) (wanted : type ≠ .any)
    (notNull : v ≠ .null) : IsOf type w := by
  unfold coerce at h
  rw [if_neg fun null => notNull (isNull_eq_true_iff.1 null)] at h
  cases type with
  | any => exact absurd rfl wanted
  | bool =>
    obtain ⟨b, rfl⟩ := exists_of_map_eq_ok h
    exact .bool b
  | integer =>
    obtain ⟨n, rfl⟩ := exists_of_map_eq_ok h
    exact .integer n
  | float =>
    obtain ⟨x, rfl⟩ := exists_of_map_eq_ok h
    exact .float x
  | string =>
    obtain ⟨s, rfl⟩ := exists_of_map_eq_ok h
    exact .string s
  | date =>
    obtain ⟨t, rfl⟩ := exists_of_map_eq_ok h
    exact .date t

/-- A coerced value that is not null has the wanted type. -/
theorem typeName_of_coerce {type : ArgType} {v w : Value} (h : coerce type v = .ok w) (wanted : type ≠ .any)
    (notNull : v ≠ .null) : w.typeName = type.name := by
  cases isOf_of_coerce h wanted notNull <;> rfl

/-- A coerced value is not changed by the same coercion. -/
theorem coerce_of_coerce {type : ArgType} {v w : Value} (h : coerce type v = .ok w) : coerce type w = .ok w := by
  by_cases wanted : type = .any
  · rw [wanted, coerce_any]
  by_cases null : v = .null
  · subst null
    obtain rfl := Except.ok.inj h
    rfl
  · cases isOf_of_coerce h wanted null <;> rfl

end Value

end Stencil
