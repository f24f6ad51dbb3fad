import Stencil.Scope

/-!
# Templates in values

The templates that a value holds, at any depth. The parts of a value hold no others, so that a path leads to values
whose templates have a property if those in the model and in the bindings of loops have it (`Scope.resolve_holds`).
-/

namespace Stencil

namespace Value

mutual

/-- The templates in a value, in the fields of objects as well. -/
def templates : Value → List Template
  | .template _ t => [t]
  | .array items => itemsTemplates items
  | .map entries => entriesTemplates entries
  | .object _ fields _ => entriesTemplates fields
  | .null | .bool _ | .integer _ | .float _ | .string _ | .date _ => []

def itemsTemplates : List Value → List Template
  | [] => []
  | v :: vs => v.templates ++ itemsTemplates vs

def entriesTemplates : List (String × Value) → List Template
  | [] => []
  | (_, v) :: es => v.templates ++ entriesTemplates es

end

/-- Whether all templates in a value have a property. -/
def Holds (P : Template → Prop) (v : Value) : Prop := ∀ t ∈ v.templates, P t

mutual

/-- Whether there is no template in a value, in the fields of objects neither. -/
def isTemplateFree : Value → Bool
  | .template _ _ => false
  | .array items => itemsTemplateFree items
  | .map entries => entriesTemplateFree entries
  | .object _ fields _ => entriesTemplateFree fields
  | .null | .bool _ | .integer _ | .float _ | .string _ | .date _ => true

def itemsTemplateFree : List Value → Bool
  | [] => true
  | v :: vs => v.isTemplateFree && itemsTemplateFree vs

def entriesTemplateFree : List (String × Value) → Bool
  | [] => true
  | (_, v) :: es => v.isTemplateFree && entriesTemplateFree es

end

mutual

theorem templates_of_free : ∀ v : Value, v.isTemplateFree = true → v.templates = []
  | .template _ _, h => by simp [isTemplateFree] at h
  | .array items, h => by
    rw [isTemplateFree] at h
    rw [templates, itemsTemplates_of_free items h]
  | .map entries, h => by
    rw [isTemplateFree] at h
    rw [templates, entriesTemplates_of_free entries h]
  | .object _ fields _, h => by
    rw [isTemplateFree] at h
    rw [templates, entriesTemplates_of_free fields h]
  | .null, _ | .bool _, _ | .integer _, _ | .float _, _ | .string _, _ | .date _, _ => by rw [templates]

theorem itemsTemplates_of_free : ∀ vs : List Value, itemsTemplateFree vs = true → itemsTemplates vs = []
  | [], _ => by rw [itemsTemplates]
  | v :: vs, h => by
    rw [itemsTemplateFree, Bool.and_eq_true] at h
    rw [itemsTemplates, templates_of_free v h.1, itemsTemplates_of_free vs h.2, List.append_nil]

theorem entriesTemplates_of_free : ∀ es : List (String × Value),
    entriesTemplateFree es = true → entriesTemplates es = []
  | [], _ => by rw [entriesTemplates]
  | (_, v) :: es, h => by
    rw [entriesTemplateFree, Bool.and_eq_true] at h
    rw [entriesTemplates, templates_of_free v h.1, entriesTemplates_of_free es h.2, List.append_nil]

end

@[simp] theorem isTemplateFree_null : isTemplateFree .null = true := by simp [isTemplateFree]

variable {P : Template → Prop}

theorem holds_of_free {v : Value} (free : v.isTemplateFree = true) : v.Holds P := by
  intro t ht
  rw [templates_of_free v free] at ht
  cases ht

theorem holds_null : Holds P .null := holds_of_free isTemplateFree_null

theorem holds_ofInt (n : Int) : (ofInt n).Holds P := by
  apply holds_of_free
  unfold ofInt
  split <;> simp [isTemplateFree]

theorem holds_template {identity : Nat} {t : Template} (h : Holds P (.template identity t)) : P t :=
  h t (by simp [templates])

theorem holds_items {items : List Value} (h : Holds P (.array items)) : ∀ v ∈ items, v.Holds P := by
  intro v hv t ht
  refine h t ?_
  rw [templates]
  clear h
  induction items with
  | nil => cases hv
  | cons w items ih =>
    rw [itemsTemplates, List.mem_append]
    rcases List.mem_cons.1 hv with rfl | hv
    · exact .inl ht
    · exact .inr (ih hv)

theorem holds_lookup {es : List (String × Value)} {name : String} {v : Value} (h : ∀ t ∈ entriesTemplates es, P t)
    (found : es.lookup name = some v) : v.Holds P := by
  induction es with
  | nil => cases found
  | cons e es ih =>
    obtain ⟨key, w⟩ := e
    simp only [entriesTemplates, List.mem_append] at h
    rw [List.lookup_cons] at found
    split at found
    · cases found
      exact fun t ht => h t (.inl ht)
    · exact ih (fun t ht => h t (.inr ht)) found

/-! ## Parts -/

variable {v w : Value} {name : String} (h : v.Holds P)

include h

theorem holds_member? (found : v.member? name = some w) : w.Holds P := by
  cases v with
  | map entries =>
    rw [Holds, templates] at h
    exact holds_lookup h found
  | object identity fields text =>
    rw [Holds, templates] at h
    exact holds_lookup h found
  | _ => cases found

theorem holds_part? (found : v.part? name = some w) : w.Holds P := by
  unfold part? at found
  split at found
  · cases found
    exact h
  · obtain ⟨found, -⟩ := Option.filter_eq_some_iff.1 found
    exact holds_member? h found

theorem holds_at? {index : String} (found : v.at? name index = .ok (some w)) : w.Holds P := by
  unfold at? at found
  split at found
  · split at found
    · cases found
    · exact holds_items h w (List.mem_of_getElem? (Except.ok.inj found))
    · cases found
  · split at found
    · rw [Holds, templates] at h
      exact holds_lookup h (Except.ok.inj found)
    · cases found

end Value

/-! ## What a path leads to -/

/-- Whether all templates in the values of a map have a property. -/
def NameMap.Holds (P : Template → Prop) (bindings : NameMap Value) : Prop :=
  ∀ name v, bindings.get? name = some v → v.Holds P

variable {P : Template → Prop}

theorem NameMap.holds_empty : (NameMap.empty : NameMap Value).Holds P := by
  intro name v h
  cases h

theorem NameMap.Holds.insert {bindings : NameMap Value} (held : bindings.Holds P) {name : String} {v : Value}
    (h : v.Holds P) : (bindings.insert name v).Holds P := by
  intro other w found
  rw [NameMap.get?_insert] at found
  split at found
  · cases found
    exact h
  · exact held other w found

/-- The first step of two that succeed succeeds. -/
theorem except_bind_ok {ε α β : Type} {r : Except ε α} {f : α → Except ε β} {b : β} (h : r >>= f = .ok b) :
    ∃ a, r = .ok a ∧ f a = .ok b := by
  cases r with
  | error e => cases h
  | ok a => exact ⟨a, rfl, h⟩

section Walk

variable {index : String → Except Error (Option String)}

theorem indexAll_holds {name : String} {v w : Value} {es : List String} (held : v.Holds P)
    (h : indexAll index name v es = .ok (some w)) : w.Holds P := by
  induction es generalizing v with
  | nil =>
    cases h
    exact held
  | cons e es ih =>
    rw [indexAll] at h
    split at h
    · cases h
    · obtain ⟨_ | key, -, h⟩ := except_bind_ok h
      · cases h
      · obtain ⟨_ | x, hx, h⟩ := except_bind_ok h
        · cases h
        · exact ih (Value.holds_at? held hx) h

theorem walk_holds {v w : Value} {segments : List Segment} (held : v.Holds P)
    (h : walk index v segments = .ok (some w)) : w.Holds P := by
  induction segments generalizing v with
  | nil =>
    rw [walk] at h
    split at h
    · cases h
    · cases h
      exact held
  | cons s rest ih =>
    rw [walk] at h
    split at h
    · cases h
    · next x hx =>
      obtain ⟨_ | y, hy, h⟩ := except_bind_ok h
      · cases h
      · exact ih (indexAll_holds (Value.holds_part? held hx) hy) h

theorem Scope.walkScratch_holds {s : Scope} {segments : List Segment} {w : Value} (held : s.scratch.Holds P)
    (h : s.walkScratch index segments = .ok (some w)) : w.Holds P := by
  cases segments with
  | nil => cases h
  | cons first rest =>
    rw [walkScratch] at h
    split at h
    · cases h
    · next bound hb =>
      obtain ⟨_ | y, hy, h⟩ := except_bind_ok h
      · cases h
      · exact walk_holds (indexAll_holds (held _ _ hb) hy) h

end Walk

/-- The templates in the value of a path are from the model or from what is bound. -/
theorem Scope.resolve_holds {s : Scope} {p : Path} {v : Value} (model : s.model.Holds P) (scratch : s.scratch.Holds P)
    (h : s.resolve p = .ok v) : v.Holds P := by
  unfold resolve resolveWith at h
  split at h
  · cases h
    exact model
  · obtain ⟨_ | x, hx, h⟩ := except_bind_ok h
    · -- The model has nothing there, so that the bindings are asked.
      obtain ⟨_ | y, hy, h⟩ := except_bind_ok h
      · cases h
        exact Value.holds_null
      · cases h
        exact walkScratch_holds scratch hy
    · cases h
      exact walk_holds model hx

end Stencil
