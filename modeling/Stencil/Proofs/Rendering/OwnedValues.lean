import Stencil.Proofs.Rendering.Shadowing

/-!
# Borrowed and owned values

A walk starts at a value that is borrowed: from the model or from a binding. The entries of maps and the items of lists
are borrowed in turn, but a field of an object is made by the host for the walk, which owns it from there on. What is
owned need not be copied: an item or an entry is taken out of it, and the rest is dropped.

Both ways lead to the same values and errors, so that a lookup need not tell them apart.

* `map_fst_takeAt?`, `map_fst_takeKey?`: what is taken out of a list is what stands in it.
* `Held.map_value_part?`, `Held.map_value_at?`: one step, into a part or to an index.
* `Held.map_value_walk`, `Held.resolveWith_eq`: all steps, and a whole lookup.
-/

namespace Stencil

/-! ## Taking out of a list -/

section Take

variable {α : Type}

/-- Takes an item out of a list and moves the last one into its place. -/
def swapRemove (items : List α) (position : Nat) (inside : position < items.length) : α × List α :=
  let last := items.getLast (List.ne_nil_of_length_pos (Nat.zero_lt_of_lt inside))
  (items[position], (items.set position last).dropLast)

/-- Takes the item at a position out of a list, if there is one. -/
def takeAt? (items : List α) (position : Nat) : Option (α × List α) :=
  if inside : position < items.length then some (swapRemove items position inside) else none

/-- Takes the entry of a key out of a list of entries. -/
def takeKey? (entries : List (String × α)) (key : String) : Option (α × List (String × α)) :=
  (entries.findFinIdx? fun e => key == e.1).map fun i : Fin entries.length =>
    let (entry, rest) := swapRemove entries i i.isLt
    (entry.2, rest)

/-- The item taken out is the one that stands there. -/
theorem map_fst_takeAt? (items : List α) (position : Nat) :
    (takeAt? items position).map Prod.fst = items[position]? := by
  unfold takeAt?
  split
  · next inside => exact (List.getElem?_eq_getElem inside).symm
  · next outside => exact (List.getElem?_eq_none (Nat.le_of_not_lt outside)).symm

/-- The entry taken out is the one that is found. -/
theorem map_fst_takeKey? (entries : List (String × α)) (key : String) :
    (takeKey? entries key).map Prod.fst = entries.lookup key := by
  rw [takeKey?, Option.map_map]
  induction entries with
  | nil => rfl
  | cons e es ih =>
    rw [List.lookup_cons, List.findFinIdx?_cons]
    cases key == e.1 with
    | true => rfl
    | false =>
      rw [← ih, if_neg Bool.false_ne_true, Option.map_map]
      rfl

end Take

/-! ## Steps -/

/-- A value that a walk has come to. -/
inductive Held where
  | borrowed (v : Value)
  | owned (v : Value)

namespace Held

def value : Held → Value
  | borrowed v => v
  | owned v => v

/-- A named member as a value hands it out: an entry is borrowed, a field is made for the caller. -/
def memberOf? (v : Value) (name : String) : Option Held :=
  match v with
  | .map entries => (entries.lookup name).map borrowed
  | .object _ fields _ => (fields.lookup name).map owned
  | _ => none

/-- The named member of a held value. A member of what is owned is owned. -/
def member? (h : Held) (name : String) : Option Held :=
  match h with
  | borrowed v => memberOf? v name
  | owned v => (memberOf? v name).map fun w => owned w.value

/-- The part that a segment names. -/
def part? (h : Held) (name : String) : Option Held :=
  if name = "" then some h else (h.member? name).filter fun w => !w.value.isNull

/-- The part at an index, which is taken out of what is owned. -/
def at? (h : Held) (name index : String) : Except Error (Option Held) :=
  if index.toList.head?.any Char.isDigit then
    match Decimal.readNat64 index.toList, h with
    | .error _, _ => .error (.invalidIndex name index)
    | .ok position, borrowed (.array items) => .ok (items[position]?.map borrowed)
    | .ok position, owned (.array items) => .ok ((takeAt? items position).map fun taken => owned taken.1)
    | .ok _, _ => .error (.notAList name index)
  else
    match h with
    | borrowed (.map entries) => .ok ((entries.lookup index).map borrowed)
    | owned (.map entries) => .ok ((takeKey? entries index).map fun taken => owned taken.1)
    | _ => .error (.notADictionary name index)

/-- What is borrowed or owned is the value itself. -/
theorem map_value_map {make : Value → Held} (same : ∀ v, (make v).value = v) (x : Option Value) :
    (x.map make).map value = x := by
  cases x with
  | none => rfl
  | some v => exact congrArg some (same v)

theorem map_value_memberOf? (v : Value) (name : String) : (memberOf? v name).map value = v.member? name := by
  cases v with
  | map entries => exact map_value_map (fun _ => rfl) _
  | object identity fields text => exact map_value_map (fun _ => rfl) _
  | null | bool | integer | float | string | date | array | template => rfl

theorem map_value_member? (h : Held) (name : String) : (h.member? name).map value = h.value.member? name := by
  cases h with
  | borrowed v => exact map_value_memberOf? v name
  | owned v =>
    rw [member?, Option.map_map]
    exact map_value_memberOf? v name

/-- The part of a held value is the part of the value. -/
theorem map_value_part? (h : Held) (name : String) : (h.part? name).map value = h.value.part? name := by
  unfold part? Value.part?
  split
  · rfl
  · rw [← map_value_member?, Option.filter_map]
    rfl

/-- What stands at an index of a held value stands there in the value. -/
theorem map_value_at? (h : Held) (name index : String) :
    (h.at? name index).map (Option.map value) = h.value.at? name index := by
  have taken {β : Type} (x : Option (Value × β)) : (x.map fun t => owned t.1).map value = x.map Prod.fst := by
    rw [Option.map_map]
    rfl
  unfold at? Value.at?
  split
  · cases Decimal.readNat64 index.toList with
    | error fault => rfl
    | ok position =>
      rcases h with v | v <;> cases v
      case borrowed.array items => exact congrArg Except.ok (map_value_map (fun _ => rfl) _)
      case owned.array items => exact congrArg Except.ok ((taken _).trans (map_fst_takeAt? items position))
      all_goals rfl
  · rcases h with v | v <;> cases v
    case borrowed.map entries => exact congrArg Except.ok (map_value_map (fun _ => rfl) _)
    case owned.map entries => exact congrArg Except.ok ((taken _).trans (map_fst_takeKey? entries index))
    all_goals rfl

/-! ## Walks -/

section Walk

variable (index : String → Except Error (Option String))

/-- Applies index expressions one after the other. -/
def indexAll (name : String) (h : Held) : List String → Except Error (Option Held)
  | [] => .ok (some h)
  | expression :: rest =>
    if h.value.isNull then .ok none
    else thenIfSome (index expression) fun key => thenIfSome (h.at? name key) fun w => indexAll name w rest

/-- Follows segments from a held value. -/
def walk (h : Held) : List Segment → Except Error (Option Held)
  | [] => .ok (if h.value.isNull then none else some h)
  | s :: rest =>
    match h.part? s.name with
    | none => .ok none
    | some w => thenIfSome (indexAll index s.name w s.indexes) fun x => walk x rest

/-- What the segments of a path lead to among the bindings, which are borrowed. -/
def walkScratch (s : Scope) : List Segment → Except Error (Option Held)
  | [] => .ok none
  | first :: rest =>
    match s.scratch.get? first.name with
    | none => .ok none
    | some bound =>
      thenIfSome (indexAll index first.name (borrowed bound) first.indexes) fun head => walk index head rest

/-- What a path refers to, where the model and the bindings are borrowed. -/
def resolveWith (s : Scope) (p : Path) : Except Error Value :=
  if p.isRoot then .ok s.model
  else do
    match ← walk index (borrowed s.model) p.segments with
    | some h => return h.value
    | none => return ((← walkScratch index s p.segments).map value).getD .null

variable {index}

/-- Two steps over held values are the steps over the values. -/
theorem map_value_thenIfSome {x : Except Error (Option Held)} {y : Except Error (Option Value)}
    {k : Held → Except Error (Option Held)} {k' : Value → Except Error (Option Value)}
    (first : x.map (Option.map value) = y) (rest : ∀ h, (k h).map (Option.map value) = k' h.value) :
    (thenIfSome x k).map (Option.map value) = thenIfSome y k' := by
  subst first
  rcases x with _ | _ | h
  · rfl
  · rfl
  · exact rest h

theorem map_value_indexAll (name : String) (h : Held) (expressions : List String) :
    (indexAll index name h expressions).map (Option.map value) = Stencil.indexAll index name h.value expressions := by
  induction expressions generalizing h with
  | nil => rfl
  | cons e es ih =>
    rw [indexAll, indexAll_cons]
    split
    · rfl
    · rcases index e with _ | _ | key
      · rfl
      · rfl
      · exact map_value_thenIfSome (h.map_value_at? name key) ih

/-- **A walk over held values** comes to what the walk over the values comes to. -/
theorem map_value_walk (h : Held) (segments : List Segment) :
    (walk index h segments).map (Option.map value) = Stencil.walk index h.value segments := by
  induction segments generalizing h with
  | nil =>
    rw [walk, Stencil.walk]
    split <;> rfl
  | cons s rest ih =>
    rw [walk, walk_cons, ← h.map_value_part?]
    cases h.part? s.name with
    | none => rfl
    | some w => exact map_value_thenIfSome (map_value_indexAll s.name w s.indexes) ih

theorem map_value_walkScratch (s : Scope) (segments : List Segment) :
    (walkScratch index s segments).map (Option.map value) = s.walkScratch index segments := by
  cases segments with
  | nil => rfl
  | cons first rest =>
    rw [walkScratch, s.walkScratch_cons]
    cases s.scratch.get? first.name with
    | none => rfl
    | some bound =>
      have head : (indexAll index first.name (borrowed bound) first.indexes).map (Option.map value)
          = Stencil.indexAll index first.name bound first.indexes := map_value_indexAll first.name (borrowed bound) _
      exact map_value_thenIfSome head fun h => map_value_walk h rest

/-- **A path refers to the same value**, or fails with the same error, whatever is owned on the way. -/
theorem resolveWith_eq (s : Scope) (p : Path) : resolveWith index s p = s.resolveWith index p := by
  have model : (walk index (borrowed s.model) p.segments).map (Option.map value)
      = Stencil.walk index s.model p.segments := map_value_walk (borrowed s.model) p.segments
  rw [resolveWith, Scope.resolveWith, ← model, ← map_value_walkScratch]
  split
  · rfl
  · rcases walk index (borrowed s.model) p.segments with _ | _ | h
    · rfl
    · cases walkScratch index s p.segments <;> rfl
    · rfl

end Walk

end Held

end Stencil
