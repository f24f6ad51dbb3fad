import Stencil.Proofs.Rendering.PathExtension

/-!
# Objects in the place of maps

An object of the host answers for its fields as a map does for its entries. So a path whose indexes are positions leads
to the same place in a model and in the same model with some of its maps, at any depth, as objects: what stands there is
the same again, with these maps as objects. An index that is a key tells maps from objects, which have no keys.

* `Value.Counterpart`: a value and the same with objects for maps; `Value.Counterpart.place?`: in all places.
* `walk_meets`: segments lead from a value and from its counterpart to one place, or to one error.
* `Scope.resolve_counterpart`: so do paths.
-/

namespace Stencil

/-! ## Positions -/

namespace IndexForm

/-- Whether an index expression is a position in digits. -/
def IsPosition (expression : String) : Prop := expression ≠ "" ∧ ∀ c ∈ expression.toList, c.isDigit = true

variable {expression : String}

theorem IsPosition.head? (h : IsPosition expression) : ∃ c, expression.toList.head? = some c ∧ c.isDigit = true := by
  obtain ⟨filled, digits⟩ := h
  cases hc : expression.toList with
  | nil => exact absurd (String.toList_eq_nil_iff.1 hc) filled
  | cons c cs => exact ⟨c, rfl, digits c (hc ▸ List.mem_cons_self)⟩

theorem kinds_of_isDigit {c : Char} (h : c.isDigit = true) : Text.isBlank c = false ∧ Text.isAlphabetic c = false := by
  have all : ∀ n ∈ List.range' 48 10,
      Text.isBlank (Char.ofNat n) = false ∧ Text.isAlphabetic (Char.ofNat n) = false := by decide
  have member : c.toNat ∈ List.range' 48 10 := List.mem_range'_1.2 (by
    have range : 48 ≤ c.toNat ∧ c.toNat ≤ 57 := Char.isDigit_iff_toNat.1 h
    omega)
  simpa only [Char.ofNat_toNat] using all c.toNat member

/-- A position is no path, and is taken as it is written. -/
theorem IsPosition.parse_eq (h : IsPosition expression) : parse expression = .literal expression := by
  obtain ⟨c, first, digit⟩ := h.head?
  have trimmed : Text.trim expression = expression := Text.trim_eq_self fun c hc => (kinds_of_isDigit (h.2 c hc)).1
  have unquoted (quote : Char) (other : quote.isDigit = false) : Text.unquote quote expression.toList = none := by
    cases hu : Text.unquote quote expression.toList with
    | none => rfl
    | some inner =>
      rw [Text.eq_quoted_of_unquote hu] at first
      cases first
      rw [digit] at other
      cases other
  have noPoint : c ≠ '.' := by
    rintro rfl
    cases digit
  simp [parse, trimmed, unquoted '"' rfl, unquoted '\x27' rfl, first, noPoint, (kinds_of_isDigit digit).2]

end IndexForm

/-- A position stands for itself in every scope. -/
theorem Scope.index_of_isPosition {expression : String} (h : IndexForm.IsPosition expression) (s : Scope) :
    s.index expression = .ok (some expression) := by
  rw [index_eq, h.parse_eq]

namespace Value

/-! ## Places -/

/-- A step into a value: to a member, or to an item of a list. -/
inductive Step where
  | member (name : String)
  | item (position : Nat)
  deriving DecidableEq, Repr

/-- What a step leads to. -/
def step? (v : Value) : Step → Option Value
  | .member name => v.member? name
  | .item position =>
    match v with
    | .array items => items[position]?
    | _ => none

/-- What stands at a place in a value. -/
def place? (v : Value) : List Step → Option Value
  | [] => some v
  | s :: place => (v.step? s).bind fun w => w.place? place

theorem place?_append {v w : Value} {before : List Step} (h : v.place? before = some w) (after : List Step) :
    v.place? (before ++ after) = w.place? after := by
  induction before generalizing v with
  | nil =>
    cases h
    rfl
  | cons s before ih =>
    obtain ⟨u, first, rest⟩ := Option.bind_eq_some_iff.1 h
    rw [List.cons_append, place?, first, Option.bind_some, ih rest]

/-! ## Counterparts -/

/-- A value, and the same with some of its maps as objects with the same fields. -/
inductive Counterpart : Value → Value → Prop
  | same (v : Value) : Counterpart v v
  | array {items items' : List Value} (each : List.Forall₂ Counterpart items items') :
    Counterpart (.array items) (.array items')
  | map {entries entries' : List (String × Value)} (keys : entries'.map Prod.fst = entries.map Prod.fst)
      (each : List.Forall₂ Counterpart (entries.map Prod.snd) (entries'.map Prod.snd)) :
    Counterpart (.map entries) (.map entries')
  | object {entries fields : List (String × Value)} (identity : Nat) (text : String)
      (names : fields.map Prod.fst = entries.map Prod.fst)
      (each : List.Forall₂ Counterpart (entries.map Prod.snd) (fields.map Prod.snd)) :
    Counterpart (.map entries) (.object identity fields text)

namespace Counterpart

variable {v v' : Value}

theorem isNull_eq (h : Counterpart v v') : v'.isNull = v.isNull := by
  cases h <;> rfl

theorem rel_refl (x : Option Value) : Option.Rel Counterpart x x := by
  cases x with
  | none => exact .none
  | some v => exact .some (.same v)

theorem lookup {entries entries' : List (String × Value)} (keys : entries'.map Prod.fst = entries.map Prod.fst)
    (each : List.Forall₂ Counterpart (entries.map Prod.snd) (entries'.map Prod.snd)) (name : String) :
    Option.Rel Counterpart (entries.lookup name) (entries'.lookup name) := by
  induction entries generalizing entries' with
  | nil =>
    obtain rfl : entries' = [] := List.map_eq_nil_iff.1 keys
    exact .none
  | cons e es ih =>
    obtain ⟨⟨key, w⟩, es', rfl, same, rest⟩ := List.map_eq_cons_iff.1 keys
    obtain ⟨key', u⟩ := e
    cases same
    cases each with
    | cons first each =>
      rw [List.lookup_cons, List.lookup_cons]
      split
      · exact .some first
      · exact ih rest each

/-- A map and an object with the same fields have the same members. -/
theorem member? (h : Counterpart v v') (name : String) : Option.Rel Counterpart (v.member? name) (v'.member? name) := by
  cases h with
  | same => exact rel_refl _
  | array _ => exact .none
  | map keys each => exact lookup keys each name
  | object _ _ names each => exact lookup names each name

/-- A step leads to counterparts. -/
theorem step? (h : Counterpart v v') : ∀ s : Step, Option.Rel Counterpart (v.step? s) (v'.step? s)
  | .member name => h.member? name
  | .item position => by
    cases h with
    | same => exact rel_refl _
    | array each =>
      show Option.Rel Counterpart _[position]? _[position]?
      induction each generalizing position with
      | nil => exact .none
      | cons first _ ih =>
        cases position with
        | zero => exact .some first
        | succ position => exact ih position
    | map | object => exact .none

/-- In one place of a value and of its counterpart there are counterparts, or there is nothing in both. -/
theorem place? (h : Counterpart v v') (place : List Step) :
    Option.Rel Counterpart (v.place? place) (v'.place? place) := by
  induction place generalizing v v' with
  | nil => exact .some h
  | cons s place ih =>
    have first := h.step? s
    rw [Value.place?, Value.place?]
    generalize v.step? s = x at first ⊢
    generalize v'.step? s = x' at first ⊢
    cases first with
    | none => exact .none
    | some first => exact ih first

end Counterpart

/-! ## Walks -/

/-- Two walks from `v` and `v'` that end in the same error, or nowhere, or in one place of both. -/
inductive Meets (v v' : Value) : Except Error (Option Value) → Except Error (Option Value) → Prop
  | error (e : Error) : Meets v v' (.error e) (.error e)
  | nowhere : Meets v v' (.ok none) (.ok none)
  | found (place : List Step) {w w' : Value} (here : v.place? place = some w) (there : v'.place? place = some w') :
    Meets v v' (.ok (some w)) (.ok (some w'))

namespace Meets

variable {v v' : Value}

/-- Walks from one place of two values meet there. -/
theorem behind {w w' : Value} {place : List Step} (here : v.place? place = some w) (there : v'.place? place = some w')
    {x x' : Except Error (Option Value)} (h : Meets w w' x x') : Meets v v' x x' := by
  cases h with
  | error e => exact .error e
  | nowhere => exact .nowhere
  | found further here' there' =>
    rw [← place?_append here] at here'
    rw [← place?_append there] at there'
    exact .found (place ++ further) here' there'

/-- Walks that meet go on to meet. -/
theorem thenIfSome {x x' : Except Error (Option Value)} {k k' : Value → Except Error (Option Value)}
    (h : Counterpart v v') (first : Meets v v' x x') (rest : ∀ w w', Counterpart w w' → Meets w w' (k w) (k' w')) :
    Meets v v' (Stencil.thenIfSome x k) (Stencil.thenIfSome x' k') := by
  cases first with
  | error e => exact .error e
  | nowhere => exact .nowhere
  | found place here there =>
    have related := h.place? place
    rw [here, there] at related
    cases related with
    | some related => exact (rest _ _ related).behind here there

end Meets

variable {v v' : Value}

/-- A step from counterparts leads to one place, or nowhere. -/
theorem step?_meets (h : Counterpart v v') (s : Step) : Meets v v' (.ok (v.step? s)) (.ok (v'.step? s)) := by
  have related := h.step? s
  generalize here : v.step? s = x at related ⊢
  generalize there : v'.step? s = x' at related ⊢
  cases related with
  | none => exact .nowhere
  | some _ => exact .found [s] (by rw [place?, here]; rfl) (by rw [place?, there]; rfl)

/-- The parts of counterparts stand in one place, the part without a name where the whole is. -/
theorem part?_meets (h : Counterpart v v') (name : String) : Meets v v' (.ok (v.part? name)) (.ok (v'.part? name)) := by
  unfold part?
  split
  · exact .found [] rfl rfl
  · have meets := step?_meets h (.member name)
    have related := h.step? (.member name)
    simp only [step?] at meets related
    generalize v.member? name = x at meets related ⊢
    generalize v'.member? name = x' at meets related ⊢
    cases related with
    | none => exact .nowhere
    | some related =>
      rw [Option.filter_some, Option.filter_some, related.isNull_eq]
      split
      · exact meets
      · exact .nowhere

/-- An index that is a position leads to an item of both; maps and objects are no lists. -/
theorem at?_meets (h : Counterpart v v') (name : String) {index : String} (position : IndexForm.IsPosition index) :
    Meets v v' (v.at? name index) (v'.at? name index) := by
  obtain ⟨c, first, digit⟩ := position.head?
  have digits : index.toList.head?.any Char.isDigit = true := by simp [first, digit]
  unfold at?
  rw [if_pos digits, if_pos digits]
  cases Decimal.readNat64 index.toList with
  | error fault => exact .error _
  | ok n =>
    have item := step?_meets h (.item n)
    cases h with
    | array each => exact item
    | same =>
      cases v with
      | array items => exact item
      | _ => exact .error _
    | map | object => exact .error _

end Value

section Walk

variable {index index' : String → Except Error (Option String)} {v v' : Value}

theorem indexAll_meets (h : v.Counterpart v') (name : String) {es : List String}
    (positions : ∀ e ∈ es, IndexForm.IsPosition e ∧ index e = .ok (some e) ∧ index' e = .ok (some e)) :
    v.Meets v' (indexAll index name v es) (indexAll index' name v' es) := by
  induction es generalizing v v' with
  | nil => exact .found [] rfl rfl
  | cons e es ih =>
    obtain ⟨position, here, there⟩ := positions e List.mem_cons_self
    rw [indexAll_cons, indexAll_cons, here, there, h.isNull_eq]
    split
    · exact .nowhere
    · exact (Value.at?_meets h name position).thenIfSome h fun w w' related =>
        ih related fun x hx => positions x (List.mem_cons_of_mem e hx)

/-- Segments whose indexes are positions lead to one place, or to one error. -/
theorem walk_meets (h : v.Counterpart v') {segments : List Segment}
    (positions : ∀ s ∈ segments, ∀ e ∈ s.indexes,
      IndexForm.IsPosition e ∧ index e = .ok (some e) ∧ index' e = .ok (some e)) :
    v.Meets v' (walk index v segments) (walk index' v' segments) := by
  induction segments generalizing v v' with
  | nil =>
    rw [walk, walk, h.isNull_eq]
    split
    · exact .nowhere
    · exact .found [] rfl rfl
  | cons s rest ih =>
    have first : v.Meets v' (.ok (v.part? s.name)) (.ok (v'.part? s.name)) := Value.part?_meets h s.name
    have split (u : Value) (f : String → Except Error (Option String)) : walk f u (s :: rest)
        = thenIfSome (.ok (u.part? s.name)) fun w =>
          thenIfSome (indexAll f s.name w s.indexes) fun x => walk f x rest := by
      rw [walk_cons]
      cases u.part? s.name <;> rfl
    rw [split, split]
    refine first.thenIfSome h fun w w' related => ?_
    refine (indexAll_meets related s.name (positions s List.mem_cons_self)).thenIfSome related fun x x' related' => ?_
    exact ih related' fun t ht => positions t (List.mem_cons_of_mem s ht)

end Walk

/-! ## Paths -/

namespace Scope

variable {model model' : Value} {p : Path}

/-- **Objects behave like maps.** Over a model, and over the same model with objects in the place of some maps, a path
whose indexes are positions fails with the same error, or leads to one place of both, or to null in both. -/
theorem resolve_counterpart (h : model.Counterpart model')
    (positions : ∀ s ∈ p.segments, ∀ e ∈ s.indexes, IndexForm.IsPosition e) :
    (∀ e, resolve ⟨model', .empty⟩ p = .error e ↔ resolve ⟨model, .empty⟩ p = .error e)
      ∧ ∀ v, resolve ⟨model, .empty⟩ p = .ok v → ∃ v', resolve ⟨model', .empty⟩ p = .ok v' ∧ v.Counterpart v'
        ∧ (v = .null ∨ ∃ place, model.place? place = some v ∧ model'.place? place = some v') := by
  have meets := walk_meets h fun s hs e he =>
    have position := positions s hs e he
    ⟨position, index_of_isPosition position ⟨model, .empty⟩, index_of_isPosition position ⟨model', .empty⟩⟩
  rw [resolve_unbound, resolve_unbound]
  generalize walk (index ⟨model, .empty⟩) model p.segments = x at meets ⊢
  generalize walk (index ⟨model', .empty⟩) model' p.segments = x' at meets ⊢
  cases meets with
  | error e => exact ⟨fun _ => Iff.rfl, nofun⟩
  | nowhere =>
    refine ⟨fun _ => Iff.rfl, ?_⟩
    rintro v null
    cases null
    exact ⟨.null, rfl, .same .null, .inl rfl⟩
  | found place here there =>
    refine ⟨fun _ => ⟨nofun, nofun⟩, ?_⟩
    rintro v found
    cases found
    have related := h.place? place
    rw [here, there] at related
    cases related with
    | some related => exact ⟨_, rfl, related, .inr ⟨place, here, there⟩⟩

/-- An object within a list within an object. -/
theorem resolve_counterpart_rows :
    let row := Value.map [("name", .string "x")]
    let model := Value.map [("rows", .array [.null, row])]
    let row' := Value.object 1 [("name", .string "x")] "row"
    let model' := Value.object 0 [("rows", .array [.null, row'])] "model"
    model.Counterpart model'
      ∧ (∀ s ∈ (Path.parse ".rows[1]").segments, ∀ e ∈ s.indexes, IndexForm.IsPosition e)
      ∧ resolve ⟨model, .empty⟩ (Path.parse ".rows[1]") = .ok row
      ∧ ∃ v', resolve ⟨model', .empty⟩ (Path.parse ".rows[1]") = .ok v' ∧ row.Counterpart v'
        ∧ (row = .null ∨ ∃ place, model.place? place = some row ∧ model'.place? place = some v') := by
  intro row model row' model'
  have inner : row.Counterpart row' := .object 1 "row" rfl (.cons (.same _) .nil)
  have rows : Value.Counterpart (.array [.null, row]) (.array [.null, row']) :=
    .array (.cons (.same _) (.cons inner .nil))
  have outer : model.Counterpart model' := .object 0 "model" rfl (.cons rows .nil)
  have segments : (Path.parse ".rows[1]").segments = [⟨"rows", ["1"]⟩] := by cbv
  have position : IndexForm.IsPosition "1" := ⟨by simp, by simp⟩
  have positions : ∀ s ∈ (Path.parse ".rows[1]").segments, ∀ e ∈ s.indexes, IndexForm.IsPosition e := by
    simpa [segments] using position
  have found : resolve ⟨model, .empty⟩ (Path.parse ".rows[1]") = .ok row := by
    rw [resolve_unbound, segments, walk_cons]
    show (thenIfSome (indexAll _ "rows" (.array [.null, row]) ["1"]) _).map _ = _
    rw [indexAll_cons, index_of_isPosition position]
    rfl
  exact ⟨outer, positions, found, (resolve_counterpart outer positions).2 row found⟩

end Scope

end Stencil
