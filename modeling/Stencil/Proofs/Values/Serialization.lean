import Stencil.Proofs.Rendering.HostObjects
import Stencil.Proofs.Text.ByteOrder
import Stencil.Proofs.Values.Trees

/-!
# Values as JSON has them

A value that goes through its JSON tree comes back with a form of JSON: dates and objects are texts, templates and
numbers that are not finite are null, and the entries of maps are in the order of their keys. What has such a form
already is not changed, and all numbers stay where they are.

* `Json.sortFields_perm`, `Json.increasing_sortFields`: fields in the order of their names.
* `Value.serialized_map`: a value is converted from the inside out.
* `Value.heldAt?_serialized`: in each place stands what stood there, converted.
* `Value.serialized_projection`: conversion is a projection onto the values that JSON has a form for.
-/

namespace Stencil

namespace Json

/-! ## Fields in order -/

section SortFields

variable {α β : Type} {key : String} {value : α} {fields : List (String × α)}

/-- Fields in the order of their names, no name twice. -/
def Increasing (fields : List (String × α)) : Prop := fields.Pairwise fun f g => f.1 < g.1

theorem mem_insertSorted {f : String × α} (h : f ∈ insertSorted key value fields) : f = (key, value) ∨ f ∈ fields := by
  induction fields with
  | nil => exact .inl (List.mem_singleton.1 h)
  | cons g rest ih =>
    rw [insertSorted] at h
    split at h
    · exact List.mem_cons.1 h
    · split at h
      · next same => exact (List.mem_cons.1 h).imp (fun first => by rw [first, same]) (List.mem_cons_of_mem g)
      · rcases List.mem_cons.1 h with rfl | h
        · exact .inr List.mem_cons_self
        · exact (ih h).imp_right (List.mem_cons_of_mem g)

theorem increasing_insertSorted (h : Increasing fields) : Increasing (insertSorted key value fields) := by
  induction fields with
  | nil => exact List.pairwise_singleton _ _
  | cons g rest ih =>
    obtain ⟨below, ordered⟩ := List.pairwise_cons.1 h
    rw [insertSorted]
    split
    · next before =>
      refine List.pairwise_cons.2 ⟨fun f hf => ?_, h⟩
      rcases List.mem_cons.1 hf with rfl | hf
      · exact before
      · exact String.lt_trans before (below f hf)
    · next notBefore =>
      split
      · next same =>
        subst same
        exact List.pairwise_cons.2 ⟨below, ordered⟩
      · next other =>
        have after : g.1 < key := by
          by_contra notAfter
          exact other (String.le_antisymm (String.not_lt.1 notAfter) (String.not_lt.1 notBefore))
        refine List.pairwise_cons.2 ⟨fun f hf => ?_, ih ordered⟩
        rcases mem_insertSorted hf with rfl | hf
        · exact after
        · exact below f hf

/-- A greater name goes to the end. -/
theorem insertSorted_of_forall_lt (h : ∀ f ∈ fields, f.1 < key) :
    insertSorted key value fields = fields ++ [(key, value)] := by
  induction fields with
  | nil => rfl
  | cons g rest ih =>
    have after : g.1 < key := h g List.mem_cons_self
    have other : key ≠ g.1 := fun same => String.lt_irrefl key (same ▸ after)
    rw [insertSorted, if_neg (String.lt_asymm after), if_neg other, ih fun f hf => h f (List.mem_cons_of_mem g hf)]
    rfl

/-- A new name is one more field. -/
theorem insertSorted_perm (new : key ∉ fields.map Prod.fst) :
    (insertSorted key value fields).Perm ((key, value) :: fields) := by
  induction fields with
  | nil => exact .refl _
  | cons g rest ih =>
    rw [List.map_cons, List.mem_cons, not_or] at new
    rw [insertSorted]
    split
    · exact .refl _
    · rw [if_neg new.1]
      exact ((ih new.2).cons g).trans (.swap _ _ _)

theorem insertSorted_map (g : α → β) : insertSorted key (g value) (fields.map fun f => (f.1, g f.2))
    = (insertSorted key value fields).map fun f => (f.1, g f.2) := by
  induction fields with
  | nil => rfl
  | cons f rest ih =>
    simp only [List.map_cons, insertSorted, ih]
    split
    · rfl
    · split <;> rfl

/-- What every insertion keeps holds of the fields in order. -/
theorem sortFields_keeps {P : List (String × α) → Prop} (nil : P [])
    (keeps : ∀ f ∈ fields, ∀ sorted, P sorted → P (insertSorted f.1 f.2 sorted)) : P (sortFields fields) :=
  List.foldlRecOn fields _ nil fun sorted h f hf => keeps f hf sorted h

theorem increasing_sortFields (fields : List (String × α)) : Increasing (sortFields fields) :=
  sortFields_keeps List.Pairwise.nil fun _ _ _ => increasing_insertSorted

theorem mem_sortFields {f : String × α} (h : f ∈ sortFields fields) : f ∈ fields := by
  refine sortFields_keeps (P := fun sorted => ∀ f ∈ sorted, f ∈ fields) (by simp) ?_ f h
  intro f hf sorted inner g hg
  rcases mem_insertSorted hg with rfl | hg
  · exact hf
  · exact inner g hg

theorem foldl_insertSorted_of_increasing (front : List (String × α)) {rest : List (String × α)}
    (h : Increasing (front ++ rest)) :
    rest.foldl (fun sorted f => insertSorted f.1 f.2 sorted) front = front ++ rest := by
  induction rest generalizing front with
  | nil => exact (List.append_nil front).symm
  | cons f rest ih =>
    have last : ∀ g ∈ front, g.1 < f.1 := fun g hg => (List.pairwise_append.1 h).2.2 g hg f List.mem_cons_self
    rw [List.foldl_cons, insertSorted_of_forall_lt last, ih _ (by simpa using h), List.append_assoc]
    rfl

/-- Fields in order stay as they are. -/
theorem sortFields_of_increasing (h : Increasing fields) : sortFields fields = fields :=
  foldl_insertSorted_of_increasing [] h

theorem foldl_insertSorted_perm (front : List (String × α)) {rest : List (String × α)}
    (distinct : ((front ++ rest).map Prod.fst).Nodup) :
    (rest.foldl (fun sorted f => insertSorted f.1 f.2 sorted) front).Perm (front ++ rest) := by
  induction rest generalizing front with
  | nil => rw [List.append_nil]; exact .refl front
  | cons f rest ih =>
    have moved : (front ++ f :: rest).Perm (f :: (front ++ rest)) := List.perm_middle
    have apart : (f.1 :: (front ++ rest).map Prod.fst).Nodup := (moved.map Prod.fst).nodup_iff.1 distinct
    have new : f.1 ∉ front.map Prod.fst := fun member => (List.nodup_cons.1 apart).1 (by simp [member])
    have inserted : (insertSorted f.1 f.2 front ++ rest).Perm (front ++ f :: rest) :=
      ((insertSorted_perm new).append_right rest).trans moved.symm
    exact (ih _ ((inserted.map Prod.fst).nodup_iff.2 distinct)).trans inserted

/-- Different names keep all fields. -/
theorem sortFields_perm (distinct : (fields.map Prod.fst).Nodup) : (sortFields fields).Perm fields :=
  foldl_insertSorted_perm [] distinct

theorem foldl_insertSorted_map (g : α → β) (front rest : List (String × α)) :
    (rest.map fun f => (f.1, g f.2)).foldl (fun sorted f => insertSorted f.1 f.2 sorted)
        (front.map fun f => (f.1, g f.2))
      = (rest.foldl (fun sorted f => insertSorted f.1 f.2 sorted) front).map fun f => (f.1, g f.2) := by
  induction rest generalizing front with
  | nil => rfl
  | cons f rest ih =>
    rw [List.map_cons, List.foldl_cons, List.foldl_cons, ← ih, ← insertSorted_map]

theorem sortFields_map (g : α → β) : sortFields (fields.map fun f => (f.1, g f.2))
    = (sortFields fields).map fun f => (f.1, g f.2) :=
  foldl_insertSorted_map g [] fields

/-- Where no name is twice, a look-up finds the fields that are there. -/
theorem lookup_eq_some_iff (distinct : (fields.map Prod.fst).Nodup) :
    fields.lookup key = some value ↔ (key, value) ∈ fields := by
  induction fields with
  | nil => simp
  | cons f rest ih =>
    obtain ⟨name, first⟩ := f
    rw [List.map_cons, List.nodup_cons] at distinct
    rw [List.lookup_cons, List.mem_cons, Prod.mk.injEq]
    by_cases same : key = name
    · subst same
      have absent : (key, value) ∉ rest := fun member => distinct.1 (List.mem_map.2 ⟨_, member, rfl⟩)
      simp only [beq_self_eq_true, Option.some.injEq, true_and, absent, or_false, eq_comm]
    · have other : (key == name) = false := beq_eq_false_iff_ne.2 same
      simp only [other, same, false_and, false_or]
      exact ih distinct.2

/-- Fields in order answer as the fields do. -/
theorem lookup_sortFields (distinct : (fields.map Prod.fst).Nodup) (key : String) :
    (sortFields fields).lookup key = fields.lookup key := by
  have perm := sortFields_perm distinct
  have distinct' := (perm.map Prod.fst).nodup_iff.2 distinct
  refine Option.ext fun value => ?_
  rw [lookup_eq_some_iff distinct', lookup_eq_some_iff distinct, perm.mem_iff]

end SortFields

theorem sortedItems_eq_map (items : List Json) : sortedItems items = items.map sorted := by
  induction items with
  | nil => rfl
  | cons j items ih => rw [sortedItems, ih, List.map_cons]

theorem sortedFields_eq_map (fields : List (String × Json)) :
    sortedFields fields = fields.map fun f => (f.1, f.2.sorted) := by
  induction fields with
  | nil => rfl
  | cons f fields ih =>
    obtain ⟨key, j⟩ := f
    rw [sortedFields, ih, List.map_cons]

end Json

namespace Value

/-! ## Conversion from the inside out -/

theorem keys_map (f : Value → Value) (entries : List (String × Value)) :
    (entries.map fun e => (e.1, f e.2)).map Prod.fst = entries.map Prod.fst := by
  rw [List.map_map]
  rfl

theorem serialized_array (items : List Value) : serialized (.array items) = .array (items.map serialized) := by
  rw [serialized, toJson, Json.sorted, ofJson, itemsToJson_eq_map, Json.sortedItems_eq_map, itemsOfJson_eq_map,
    List.map_map, List.map_map]
  rfl

/-- A map is converted by its entries, which then go into the order of their keys. -/
theorem serialized_map (entries : List (String × Value)) :
    serialized (.map entries) = .map (Json.sortFields (entries.map fun e => (e.1, e.2.serialized))) := by
  rw [serialized, toJson, Json.sorted, ofJson, entriesToJson_eq_map, Json.sortedFields_eq_map, entriesOfJson_eq_map,
    ← Json.sortFields_map, List.map_map, List.map_map]
  rfl

theorem serialized_integer (n : Int64) : serialized (.integer n) = .integer n := ofInt_toInt n

theorem serialized_float (x : Binary64) :
    serialized (.float x) = if x.isFinite then .float x else .null := by
  rw [serialized, toJson]
  split <;> rfl

theorem isCollection_serialized (v : Value) : v.serialized.isCollection = v.isCollection := by
  cases v with
  | array items => rw [serialized_array]; rfl
  | map entries => rw [serialized_map]; rfl
  | integer n => rw [serialized_integer]
  | float x =>
    rw [serialized_float]
    split <;> rfl
  | null | bool | string | date | object | template => rfl

/-! ## Forms of JSON -/

/-- What JSON has a form for: null, truth values, integers, finite numbers, texts, arrays and maps. -/
abbrev IsJsonLike : Value → Prop := JsonLike (·.isFinite = true)

/-- The keys of each map, at any depth, have a property. -/
inductive EachMap (P : List String → Prop) : Value → Prop
  | leaf {v : Value} (isLeaf : v.isCollection = false) : EachMap P v
  | array (items : List Value) (each : ∀ v ∈ items, EachMap P v) : EachMap P (.array items)
  | map (entries : List (String × Value)) (keys : P (entries.map Prod.fst)) (each : ∀ e ∈ entries, EachMap P e.2) :
    EachMap P (.map entries)

/-- No key is twice in a map, as it is in all values that can be made. -/
abbrev HasDistinctKeys : Value → Prop := EachMap List.Nodup

/-- The entries of each map are in the order of the UTF-8 bytes of their keys. -/
abbrev HasSortedKeys : Value → Prop := EachMap (List.Pairwise fun k k' => Text.bytes k < Text.bytes k')

/-- Whatever is converted, JSON has a form for the outcome. -/
theorem isJsonLike_serialized (v : Value) : v.serialized.IsJsonLike := by
  induction v using tree_induction with
  | leaf v isLeaf =>
    cases v with
    | null => exact .null
    | bool b => exact .bool b
    | integer n =>
      rw [serialized_integer]
      exact .integer n
    | float x =>
      rw [serialized_float]
      split
      · next finite => exact .float x finite
      · exact .null
    | string s => exact .string s
    | date t => exact .string t.text
    | object _ _ text => exact .string text
    | template => exact .null
    | array | map => cases isLeaf
  | array items ih =>
    rw [serialized_array]
    refine .array _ fun w hw => ?_
    obtain ⟨v, hv, rfl⟩ := List.mem_map.1 hw
    exact ih v hv
  | map entries ih =>
    rw [serialized_map]
    refine .map _ fun f hf => ?_
    obtain ⟨e, he, rfl⟩ := List.mem_map.1 (Json.mem_sortFields hf)
    exact ih e he

theorem hasSortedKeys_serialized (v : Value) : v.serialized.HasSortedKeys := by
  induction v using tree_induction with
  | leaf v isLeaf => exact .leaf ((isCollection_serialized v).trans isLeaf)
  | array items ih =>
    rw [serialized_array]
    refine .array _ fun w hw => ?_
    obtain ⟨v, hv, rfl⟩ := List.mem_map.1 hw
    exact ih v hv
  | map entries ih =>
    rw [serialized_map]
    refine .map _ ?_ fun f hf => ?_
    · refine List.pairwise_map.2 ((Json.increasing_sortFields _).imp ?_)
      exact Text.bytes_lt_bytes_iff.2
    · obtain ⟨e, he, rfl⟩ := List.mem_map.1 (Json.mem_sortFields hf)
      exact ih e he

/-- What has such a form, with all maps in order, is not changed. -/
theorem serialized_of_isJsonLike {v : Value} (json : v.IsJsonLike) (ordered : v.HasSortedKeys) : v.serialized = v := by
  induction json with
  | null | bool | string => rfl
  | integer n => exact serialized_integer n
  | float x finite => rw [serialized_float, if_pos finite]
  | array items _ ih =>
    cases ordered with
    | leaf isLeaf => cases isLeaf
    | array _ each =>
      have same : items.map serialized = items.map id := List.map_congr_left fun v hv => ih v hv (each v hv)
      rw [serialized_array, same, List.map_id]
  | map entries _ ih =>
    cases ordered with
    | leaf isLeaf => cases isLeaf
    | map _ keys each =>
      have same : (entries.map fun e => (e.1, e.2.serialized)) = entries.map id :=
        List.map_congr_left fun e he => Prod.ext rfl (ih e he (each e he))
      have increasing : Json.Increasing entries := (List.pairwise_map.1 keys).imp Text.bytes_lt_bytes_iff.1
      rw [serialized_map, same, List.map_id, Json.sortFields_of_increasing increasing]

/-! ## Equality -/

theorem equal_self_of_isFinite {x : Binary64} (h : x.isFinite = true) : x.equal x = true := by
  cases x with
  | finite => simp [Binary64.equal]
  | nan | infinity => cases h

theorem equalAll_map {f : Value → Value} {items : List Value} (each : ∀ v ∈ items, (f v).equal v = true) :
    equalAll (items.map f) items = true := by
  induction items with
  | nil => rfl
  | cons v items ih =>
    rw [List.map_cons, equalAll, each v List.mem_cons_self, ih fun w hw => each w (List.mem_cons_of_mem v hw)]
    rfl

theorem equalEntries_of_forall {as bs : List (String × Value)}
    (each : ∀ e ∈ as, ∃ w, bs.lookup e.1 = some w ∧ e.2.equal w = true) : equalEntries as bs = true := by
  induction as with
  | nil => rfl
  | cons e as ih =>
    obtain ⟨key, v⟩ := e
    obtain ⟨w, found, same⟩ := each (key, v) List.mem_cons_self
    rw [equalEntries, ih fun e he => each e (List.mem_cons_of_mem _ he)]
    simp only [found, same, Bool.and_true]

/-- Equality does not see in which order the entries are. -/
theorem serialized_equal {v : Value} (json : v.IsJsonLike) (distinct : v.HasDistinctKeys) :
    v.serialized.equal v = true := by
  induction json with
  | null => rfl
  | bool b => exact beq_self_eq_true b
  | integer n =>
    rw [serialized_integer]
    exact beq_self_eq_true n
  | float x finite =>
    rw [serialized_float, if_pos finite]
    exact equal_self_of_isFinite finite
  | string s => exact beq_self_eq_true s
  | array items _ ih =>
    cases distinct with
    | leaf isLeaf => cases isLeaf
    | array _ each =>
      rw [serialized_array]
      exact equalAll_map fun v hv => ih v hv (each v hv)
  | map entries _ ih =>
    cases distinct with
    | leaf isLeaf => cases isLeaf
    | map _ keys each =>
      have keys' : ((entries.map fun e => (e.1, e.2.serialized)).map Prod.fst).Nodup := by rwa [keys_map]
      have perm := Json.sortFields_perm keys'
      rw [serialized_map, equal, perm.length_eq, List.length_map, beq_self_eq_true, Bool.true_and]
      refine equalEntries_of_forall fun f hf => ?_
      obtain ⟨e, he, rfl⟩ := List.mem_map.1 (perm.mem_iff.1 hf)
      exact ⟨e.2, (Json.lookup_eq_some_iff keys).2 he, ih e he (each e he)⟩

/-! ## Places -/

/-- What an array or a map holds at a step. All other values hold nothing. -/
def held? (v : Value) (s : Step) : Option Value :=
  match v, s with
  | .array items, .item position => items[position]?
  | .map entries, .member key => entries.lookup key
  | _, _ => none

/-- What stands at a place within arrays and maps. -/
def heldAt? (v : Value) : List Step → Option Value
  | [] => some v
  | s :: place => (v.held? s).bind fun w => w.heldAt? place

theorem held?_of_leaf {v : Value} (h : v.isCollection = false) (s : Step) : v.held? s = none := by
  cases v with
  | array | map => cases h
  | _ => cases s <;> rfl

theorem lookup_map (f : Value → Value) (entries : List (String × Value)) (key : String) :
    (entries.map fun e => (e.1, f e.2)).lookup key = (entries.lookup key).map f := by
  induction entries with
  | nil => rfl
  | cons e entries ih =>
    obtain ⟨name, v⟩ := e
    rw [List.map_cons, List.lookup_cons, List.lookup_cons, ih]
    cases key == name <;> rfl

/-- What is held is converted with what holds it. -/
theorem held?_serialized {v : Value} (distinct : v.HasDistinctKeys) (s : Step) :
    v.serialized.held? s = (v.held? s).map serialized := by
  cases distinct with
  | leaf isLeaf =>
    rw [held?_of_leaf isLeaf, held?_of_leaf ((isCollection_serialized v).trans isLeaf)]
    rfl
  | array items =>
    rw [serialized_array]
    cases s with
    | item position => exact List.getElem?_map
    | member => rfl
  | map entries keys =>
    rw [serialized_map]
    cases s with
    | item => rfl
    | member key =>
      show (Json.sortFields _).lookup key = (entries.lookup key).map serialized
      rw [Json.lookup_sortFields (by rwa [keys_map]), lookup_map]

theorem HasDistinctKeys.held? {v w : Value} (h : v.HasDistinctKeys) {s : Step} (held : v.held? s = some w) :
    w.HasDistinctKeys := by
  cases h with
  | leaf isLeaf =>
    rw [held?_of_leaf isLeaf] at held
    cases held
  | array items each =>
    cases s with
    | item position => exact each w (List.mem_of_getElem? held)
    | member => cases held
  | map entries keys each =>
    cases s with
    | item => cases held
    | member key => exact each (key, w) ((Json.lookup_eq_some_iff keys).1 held)

/-- **Conversion keeps places.** In each place stands what stood there, converted. -/
theorem heldAt?_serialized {v : Value} (distinct : v.HasDistinctKeys) (place : List Step) :
    v.serialized.heldAt? place = (v.heldAt? place).map serialized := by
  induction place generalizing v with
  | nil => rfl
  | cons s place ih =>
    rw [heldAt?, heldAt?, held?_serialized distinct]
    cases held : v.held? s with
    | none => rfl
    | some w => exact ih (distinct.held? held)

/-- Whether a value is an integer or a finite number. -/
def isNumber : Value → Bool
  | .integer _ => true
  | .float x => x.isFinite
  | _ => false

/-- A number is what comes of itself, and of nothing else. -/
theorem serialized_eq_number_iff {v x : Value} (number : x.isNumber = true) : v.serialized = x ↔ v = x := by
  cases v with
  | integer n => rw [serialized_integer]
  | float y =>
    rw [serialized_float]
    split
    · rfl
    · next infinite =>
      constructor
      · rintro rfl
        cases number
      · rintro rfl
        exact absurd number infinite
  | array items =>
    rw [serialized_array]
    constructor <;>
    · rintro rfl
      cases number
  | map entries =>
    rw [serialized_map]
    constructor <;>
    · rintro rfl
      cases number
  | null | bool | string | date | object | template =>
    constructor <;>
    · rintro rfl
      cases number

/-- **Conversion is a projection onto the forms of JSON.** Every outcome has such a form, with all maps in the order of
their keys, and is its own outcome. A value of such a form is equal to its outcome, and every integer and finite number
stays in its place, and no other one comes there. -/
theorem serialized_projection (v : Value) :
    v.serialized.IsJsonLike ∧ v.serialized.HasSortedKeys ∧ v.serialized.serialized = v.serialized
      ∧ (v.HasDistinctKeys → (v.IsJsonLike → v.serialized.equal v = true)
        ∧ ∀ (place : List Step) (x : Value), x.isNumber = true →
          (v.serialized.heldAt? place = some x ↔ v.heldAt? place = some x)) := by
  have json := isJsonLike_serialized v
  have ordered := hasSortedKeys_serialized v
  refine ⟨json, ordered, serialized_of_isJsonLike json ordered, fun distinct =>
    ⟨fun form => serialized_equal form distinct, fun place x number => ?_⟩⟩
  rw [heldAt?_serialized distinct, Option.map_eq_some_iff]
  constructor
  · rintro ⟨w, found, same⟩
    rw [found, (serialized_eq_number_iff number).1 same]
  · exact fun found => ⟨x, found, (serialized_eq_number_iff number).2 rfl⟩

/-- The entries of a map change places, and the numbers within do not. -/
theorem serialized_projection_map :
    let inner := [("z", Value.integer (-1)), ("é", .float (.zero true))]
    let v := Value.map [("b", .array [.map inner, .bool true]), ("a", .null)]
    v.HasDistinctKeys ∧ v.IsJsonLike ∧ v.serialized = .map [("a", .null), ("b", .array [.map inner, .bool true])]
      ∧ v.serialized.serialized = v.serialized ∧ v.serialized.equal v = true
      ∧ v.serialized.heldAt? [.member "b", .item 0, .member "é"] = some (.float (.zero true)) := by
  intro inner v
  have distinct : v.HasDistinctKeys := by
    refine .map _ (by decide) (List.forall_mem_cons.2 ⟨.array _ ?_, List.forall_mem_singleton.2 (.leaf rfl)⟩)
    refine List.forall_mem_cons.2 ⟨.map _ (by decide) ?_, List.forall_mem_singleton.2 (.leaf rfl)⟩
    exact List.forall_mem_cons.2 ⟨.leaf rfl, List.forall_mem_singleton.2 (.leaf rfl)⟩
  have json : v.IsJsonLike := by
    refine .map _ (List.forall_mem_cons.2 ⟨.array _ ?_, List.forall_mem_singleton.2 .null⟩)
    refine List.forall_mem_cons.2 ⟨.map _ ?_, List.forall_mem_singleton.2 (.bool true)⟩
    exact List.forall_mem_cons.2 ⟨.integer _, List.forall_mem_singleton.2 (.float _ rfl)⟩
  obtain ⟨-, -, twice, rest⟩ := serialized_projection v
  obtain ⟨equal, places⟩ := rest distinct
  exact ⟨distinct, json, by cbv, twice, equal json, (places _ _ rfl).2 rfl⟩

end Value

end Stencil
