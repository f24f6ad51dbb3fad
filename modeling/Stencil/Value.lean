import Stencil.Calendar.Pattern
import Stencil.Json
import Stencil.Syntax.Template

/-!
# Values

The dynamic values that templates are rendered against, with their own text, their JSON text and their equality.

Objects of the host have named fields and a text; objects and templates are known by their identity. Maps keep the
order in which their keys were first inserted, and no key occurs twice.
-/

namespace Stencil

inductive Value where
  | null
  | bool (b : Bool)
  | integer (n : Int64)
  | float (x : Binary64)
  | string (s : String)
  | date (t : DateTime)
  | array (items : List Value)
  | map (entries : List (String × Value))
  /-- A value of the host with named fields, its own text, and a number that tells it from other objects. -/
  | object (identity : Nat) (fields : List (String × Value)) (text : String)
  /-- A template that is rendered in place, and a number that tells it from other templates. -/
  | template (identity : Nat) (template : Template)

instance : Inhabited Value := ⟨.null⟩

namespace Value

def isNull : Value → Bool
  | .null => true
  | _ => false

def typeName : Value → String
  | .null => "null"
  | .bool _ => "boolean"
  | .integer _ => "integer"
  | .float _ => "float"
  | .string _ => "string"
  | .date _ => "date"
  | .array _ => "array"
  | .map _ => "map"
  | .object .. => "object"
  | .template .. => "template"

def string? : Value → Option String
  | .string s => some s
  | _ => none

/-- A named member: the entry of a map or the field of an object. -/
def member? (v : Value) (name : String) : Option Value :=
  match v with
  | .map entries => entries.lookup name
  | .object _ fields _ => fields.lookup name
  | _ => none

/-! ## Making values -/

/-- Sets the value of a key, which keeps its place if it is there. -/
def putEntry (key : String) (value : Value) : List (String × Value) → List (String × Value)
  | [] => [(key, value)]
  | (k, v) :: rest => if k = key then (k, value) :: rest else (k, v) :: putEntry key value rest

/-- The map of a list of entries; the last value of a key counts. -/
def mapOf (entries : List (String × Value)) : Value :=
  .map (entries.foldl (fun es e => putEntry e.1 e.2 es) [])

/-- The map with its keys in order. -/
def sortedMapOf (entries : List (String × Value)) : Value := .map (Json.sortFields entries)

/-- An integer of any size; one beyond 64 bits becomes the nearest floating-point number. -/
def ofInt (n : Int) : Value :=
  if -2 ^ (63 : Nat) ≤ n ∧ n < 2 ^ (63 : Nat) then .integer (.ofInt n) else .float (.ofInt n)

def ofOption {α : Type} (f : α → Value) : Option α → Value
  | none => .null
  | some a => f a

/-! ## Equality -/

mutual

/-- Equality of values. Numbers of different types differ, the order of map entries does not count, and objects and
templates are equal to themselves only. -/
def equal : Value → Value → Bool
  | .null, .null => true
  | .bool a, .bool b => a == b
  | .integer a, .integer b => a == b
  | .float a, .float b => a.equal b
  | .string a, .string b => a == b
  | .date a, .date b => decide (a = b)
  | .array as, .array bs => equalAll as bs
  | .map as, .map bs => as.length == bs.length && equalEntries as bs
  | .object a _ _, .object b _ _ => a == b
  | .template a _, .template b _ => a == b
  | _, _ => false

def equalAll : List Value → List Value → Bool
  | [], [] => true
  | a :: as, b :: bs => a.equal b && equalAll as bs
  | _, _ => false

/-- Whether every entry has an equal one of the same key among `bs`. -/
def equalEntries : List (String × Value) → List (String × Value) → Bool
  | [], _ => true
  | (key, a) :: as, bs =>
    (match bs.lookup key with
      | some b => a.equal b
      | none => false) && equalEntries as bs

end

/-! ## Text -/

mutual

/-- The JSON tree of a value. Dates and objects are strings, templates and numbers that are not finite are null. -/
def toJson : Value → Json
  | .null => .null
  | .bool b => .bool b
  | .integer n => .integer n.toInt
  | .float x => if x.isFinite then .float x else .null
  | .string s => .string s
  | .date t => .string t.text
  | .array items => .array (itemsToJson items)
  | .map entries => .object (entriesToJson entries)
  | .object _ _ text => .string text
  | .template _ _ => .null

def itemsToJson : List Value → List Json
  | [] => []
  | item :: items => item.toJson :: itemsToJson items

def entriesToJson : List (String × Value) → List (String × Json)
  | [] => []
  | (key, value) :: entries => (key, value.toJson) :: entriesToJson entries

end

/-- The text of a value: nothing for null and templates, the JSON text for arrays and maps. -/
def text : Value → String
  | .null => ""
  | .bool b => if b then "true" else "false"
  | .integer n => Decimal.integerText n.toInt
  | .float x => x.text
  | .string s => s
  | .date t => t.text
  | .array items => (Value.array items).toJson.text
  | .map entries => (Value.map entries).toJson.text
  | .object _ _ text => text
  | .template _ _ => ""

/-! ## JSON-like values -/

mutual

/-- The value of a JSON tree. -/
def ofJson : Json → Value
  | .null => .null
  | .bool b => .bool b
  | .integer n => .ofInt n
  | .float x => .float x
  | .string s => .string s
  | .array items => .array (itemsOfJson items)
  | .object fields => .map (entriesOfJson fields)

def itemsOfJson : List Json → List Value
  | [] => []
  | item :: items => ofJson item :: itemsOfJson items

def entriesOfJson : List (String × Json) → List (String × Value)
  | [] => []
  | (key, value) :: fields => (key, ofJson value) :: entriesOfJson fields

end

/-- The value seen through its JSON tree, with all maps in the order of their keys. -/
def serialized (v : Value) : Value := ofJson v.toJson.sorted

end Value

end Stencil
