import Mathlib.Data.List.Basic
import Stencil.Value

/-!
# Values as trees

Arrays and maps hold values; all other values are leaves, objects of the host among them, which answer for their fields
but hold nothing themselves.

* `Value.tree_induction`: what holds of leaves, and of arrays and maps if it holds of all that they hold.
* `Value.ofJson_toJson`: a value that JSON has a form for is read back from its JSON tree.
-/

namespace Stencil

namespace Value

/-- Whether a value is an array or a map. -/
def isCollection : Value → Bool
  | .array _ | .map _ => true
  | _ => false

/-- A property of leaves that collections inherit from what they hold is one of all values. -/
theorem tree_induction {P : Value → Prop} (leaf : ∀ v : Value, v.isCollection = false → P v)
    (array : ∀ items : List Value, (∀ v ∈ items, P v) → P (.array items))
    (map : ∀ entries : List (String × Value), (∀ e ∈ entries, P e.2) → P (.map entries)) : ∀ v : Value, P v
  | .array items => array items fun v _ => tree_induction leaf array map v
  | .map entries => map entries fun e _ => tree_induction leaf array map e.2
  | .null | .bool _ | .integer _ | .float _ | .string _ | .date _ | .object .. | .template .. => leaf _ rfl
termination_by v => sizeOf v
decreasing_by
  · next member =>
    have smaller := List.sizeOf_lt_of_mem member
    simp only [Value.array.sizeOf_spec]
    omega
  · next member =>
    have smaller := List.sizeOf_lt_of_mem member
    have part : sizeOf e.2 < sizeOf e := by
      cases e
      simp only [Prod.mk.sizeOf_spec]
      omega
    simp only [Value.map.sizeOf_spec]
    omega

/-- The values that JSON has a form for, with floating-point numbers of a kind only. -/
inductive JsonLike (number : Binary64 → Prop) : Value → Prop
  | null : JsonLike number .null
  | bool (b : Bool) : JsonLike number (.bool b)
  | integer (n : Int64) : JsonLike number (.integer n)
  | float (x : Binary64) (kind : number x) : JsonLike number (.float x)
  | string (s : String) : JsonLike number (.string s)
  | array (items : List Value) (each : ∀ v ∈ items, JsonLike number v) : JsonLike number (.array items)
  | map (entries : List (String × Value)) (each : ∀ e ∈ entries, JsonLike number e.2) : JsonLike number (.map entries)

theorem JsonLike.imp {number number' : Binary64 → Prop} (wider : ∀ x, number x → number' x) {v : Value}
    (h : JsonLike number v) : JsonLike number' v := by
  induction h with
  | null => exact .null
  | bool b => exact .bool b
  | integer n => exact .integer n
  | float x kind => exact .float x (wider x kind)
  | string s => exact .string s
  | array items _ ih => exact .array items ih
  | map entries _ ih => exact .map entries ih

/-! ## JSON trees -/

theorem itemsToJson_eq_map (items : List Value) : itemsToJson items = items.map toJson := by
  induction items with
  | nil => rfl
  | cons v items ih => rw [itemsToJson, ih, List.map_cons]

theorem entriesToJson_eq_map (entries : List (String × Value)) :
    entriesToJson entries = entries.map fun e => (e.1, e.2.toJson) := by
  induction entries with
  | nil => rfl
  | cons e entries ih =>
    obtain ⟨key, v⟩ := e
    rw [entriesToJson, ih, List.map_cons]

theorem itemsOfJson_eq_map (items : List Json) : itemsOfJson items = items.map ofJson := by
  induction items with
  | nil => rfl
  | cons j items ih => rw [itemsOfJson, ih, List.map_cons]

theorem entriesOfJson_eq_map (fields : List (String × Json)) :
    entriesOfJson fields = fields.map fun f => (f.1, ofJson f.2) := by
  induction fields with
  | nil => rfl
  | cons f fields ih =>
    obtain ⟨key, j⟩ := f
    rw [entriesOfJson, ih, List.map_cons]

/-- An integer of 64 bits is read back as itself. -/
theorem ofInt_toInt (n : Int64) : ofInt n.toInt = .integer n := by
  have range : -2 ^ (63 : Nat) ≤ n.toInt ∧ n.toInt < 2 ^ (63 : Nat) := ⟨Int64.le_toInt n, Int64.toInt_lt n⟩
  rw [ofInt, if_pos range, Int64.ofInt_toInt]

/-- **JSON trees can be read back.** A value with finite numbers that JSON has a form for is the value of its tree. -/
theorem ofJson_toJson {v : Value} (h : JsonLike (·.isFinite = true) v) : ofJson v.toJson = v := by
  induction h with
  | null => rfl
  | bool b => rfl
  | integer n => exact ofInt_toInt n
  | float x finite => rw [toJson, if_pos finite, ofJson]
  | string s => rfl
  | array items _ ih =>
    have same : items.map (ofJson ∘ toJson) = items.map id := List.map_congr_left ih
    rw [toJson, ofJson, itemsToJson_eq_map, itemsOfJson_eq_map, List.map_map, same, List.map_id]
  | map entries _ ih =>
    have same : entries.map ((fun f => (f.1, ofJson f.2)) ∘ fun e => (e.1, e.2.toJson)) = entries.map id :=
      List.map_congr_left fun e he => Prod.ext rfl (ih e he)
    rw [toJson, ofJson, entriesToJson_eq_map, entriesOfJson_eq_map, List.map_map, same, List.map_id]

end Value

end Stencil
