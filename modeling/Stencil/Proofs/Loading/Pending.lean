import Stencil.Loader
import Stencil.Proofs.Rendering.Registration

/-!
# Names without a template

A registry as it is built has each name once (`NameMap.keys` has no duplicates). Its pending names are those without a
template, in order. Registering the template of a name takes it from the pending ones, and puts the references that were
not known behind them (`Registry.pending_add`).
-/

namespace Stencil

/-! ## Names occur once -/

namespace Registry

variable {r : Registry} {name key : String} {names : List String} {t : Template}

theorem mem_keys_declare : key ∈ (r.declare name).keys ↔ key = fold name ∨ key ∈ r.keys := by
  unfold declare
  rw [NameMap.keys_insertIfAbsent]
  exact NameMap.mem_keys_insert

theorem mem_keys_declareAll : key ∈ (r.declareAll names).keys ↔ key ∈ names.map fold ∨ key ∈ r.keys := by
  induction names generalizing r with
  | nil => simp [declareAll]
  | cons name names ih =>
    rw [declareAll, List.foldl_cons, ← declareAll, ih, mem_keys_declare, List.map_cons, List.mem_cons]
    tauto

theorem mem_keys_add :
    key ∈ (r.add name t).keys ↔ key = fold name ∨ key ∈ t.references.map fold ∨ key ∈ r.keys := by
  unfold add
  rw [NameMap.mem_keys_insert, mem_keys_declareAll]

theorem nodup_declare (h : r.keys.Nodup) (name : String) : (r.declare name).keys.Nodup := by
  unfold declare
  rw [NameMap.keys_insertIfAbsent]
  exact NameMap.nodup_insert h name none

theorem nodup_declareAll (h : r.keys.Nodup) (names : List String) : (r.declareAll names).keys.Nodup := by
  induction names generalizing r with
  | nil => exact h
  | cons name names ih => exact ih (nodup_declare h name)

theorem nodup_add (h : r.keys.Nodup) (name : String) (t : Template) : (r.add name t).keys.Nodup :=
  NameMap.nodup_insert (nodup_declareAll h _) name _

theorem nodup_addBlocks (h : r.keys.Nodup) (blocks : List (String × List Node)) : (r.addBlocks blocks).keys.Nodup := by
  induction blocks generalizing r with
  | nil => exact h
  | cons block blocks ih => exact ih (nodup_add h block.1 _)

/-! ## Pending names -/

theorem mem_pending : name ∈ r.pending ↔ ∃ e ∈ r.entries, e.value = none ∧ e.name = name := by
  simp [pending, and_assoc]

/-- A pending name has no template. -/
theorem template?_of_mem_pending (h : r.keys.Nodup) (hn : name ∈ r.pending) : r.template? name = none := by
  obtain ⟨e, he, value, rfl⟩ := mem_pending.1 hn
  rw [template?, NameMap.get?_of_mem h he, value]
  rfl

/-- A known name has a template if no name is pending. -/
theorem exists_template?_of_pending (h : r.keys.Nodup) (complete : r.pending = []) (known : fold name ∈ r.keys) :
    ∃ t, r.template? name = some t := by
  obtain ⟨e, he, key⟩ := List.mem_map.1 known
  have same : fold name = fold e.name := by rw [← key, e.key_eq]
  cases value : e.value with
  | none =>
    have : e.name ∈ r.pending := mem_pending.2 ⟨e, he, value, rfl⟩
    rw [complete] at this
    cases this
  | some t => exact ⟨t, by rw [template?, NameMap.get?_congr r same, NameMap.get?_of_mem h he, value]; rfl⟩

theorem fold_pending_sublist : (r.pending.map fold).Sublist r.keys := by
  have : r.pending.map fold = (r.entries.filter fun e => e.value.isNone).map (·.key) := by
    simp only [pending, List.map_map]
    exact List.map_congr_left fun e _ => e.key_eq.symm
  rw [this]
  exact List.filter_sublist.map _

theorem pending_declare (r : Registry) (name : String) :
    ∃ extra, (r.declare name).pending = r.pending ++ extra ∧ ∀ other ∈ extra, other = name ∧ fold other ∉ r.keys := by
  unfold declare NameMap.insertIfAbsent
  split
  · exact ⟨[], by simp, by simp⟩
  · next absent => exact ⟨[name], by simp [pending], by simpa [NameMap.contains_iff] using absent⟩

theorem pending_declareAll (r : Registry) (names : List String) : ∃ extra,
    (r.declareAll names).pending = r.pending ++ extra ∧ ∀ other ∈ extra, other ∈ names ∧ fold other ∉ r.keys := by
  induction names generalizing r with
  | nil => exact ⟨[], by simp [declareAll], by simp⟩
  | cons name names ih =>
    obtain ⟨first, added, isName⟩ := pending_declare r name
    obtain ⟨rest, more, known⟩ := ih (r.declare name)
    refine ⟨first ++ rest, ?_, ?_⟩
    · rw [declareAll, List.foldl_cons, ← declareAll, more, added, List.append_assoc]
    · intro other ho
      rcases List.mem_append.1 ho with ho | ho
      · obtain ⟨rfl, new⟩ := isName other ho
        exact ⟨List.mem_cons_self, new⟩
      · obtain ⟨declared, new⟩ := known other ho
        exact ⟨List.mem_cons_of_mem name declared, fun hk => new (mem_keys_declare.2 (.inr hk))⟩

/-- Names that are known already do not become pending. -/
theorem pending_declareAll_of_known (complete : r.pending = []) (known : ∀ other ∈ names, fold other ∈ r.keys) :
    (r.declareAll names).pending = [] := by
  obtain ⟨extra, pending, new⟩ := pending_declareAll r names
  have none' : extra = [] :=
    List.eq_nil_iff_forall_not_mem.2 fun other ho => (new other ho).2 (known other (new other ho).1)
  rw [pending, complete, none']
  rfl

theorem pending_replaceFirst {es : List (NameEntry (Option Template))} (h : (es.map (·.key)).Nodup) (key : String)
    (t : Template) :
    (((NameMap.replaceFirst key (some t) es).filter fun e => e.value.isNone).map (·.name))
      = ((es.filter fun e => e.value.isNone).map (·.name)).filter fun other => fold other ≠ key := by
  induction es with
  | nil => rfl
  | cons e es ih =>
    obtain ⟨fresh, rest⟩ := List.nodup_cons.1 h
    unfold NameMap.replaceFirst
    by_cases same : e.key = key
    · -- No other entry has the key, so that no other name goes.
      have others : ((es.filter fun e => e.value.isNone).map (·.name)).filter (fun other => fold other ≠ key)
          = (es.filter fun e => e.value.isNone).map (·.name) := by
        refine List.filter_eq_self.2 fun other ho => ?_
        obtain ⟨e', he', rfl⟩ := List.mem_map.1 ho
        have member := (List.mem_filter.1 he').1
        have : e'.key ≠ e.key := fun equal => fresh (List.mem_map.2 ⟨e', member, equal⟩)
        simpa [← same, ← e'.key_eq] using this
      have folded : fold e.name = key := by rw [← e.key_eq, same]
      rw [if_pos (by simpa [NameMap.answers] using same)]
      cases value : e.value <;> simpa [value, folded] using others.symm
    · have folded : fold e.name ≠ key := by rw [← e.key_eq]; exact same
      rw [if_neg (by simpa [NameMap.answers] using same)]
      cases value : e.value <;> simpa [value, folded] using ih rest

theorem pending_insert (h : r.keys.Nodup) (name : String) (t : Template) :
    pending (r.insert name (some t)) = r.pending.filter fun other => fold other ≠ fold name := by
  unfold NameMap.insert
  split
  · exact pending_replaceFirst h (fold name) t
  · next absent =>
    have others : r.pending.filter (fun other => fold other ≠ fold name) = r.pending := by
      refine List.filter_eq_self.2 fun other ho => ?_
      rw [NameMap.contains_iff] at absent
      have : fold other ∈ r.keys := fold_pending_sublist.subset (List.mem_map_of_mem ho)
      have different : fold other ≠ fold name := fun same => absent (same ▸ this)
      simpa using different
    rw [others]
    simp [pending]

/-- A name that gets a template is not pending any more, and what it refers to becomes pending if it is not known. -/
theorem pending_add (h : r.keys.Nodup) (name : String) (t : Template) :
    ∃ extra, pending (r.add name t) = (r.pending.filter fun other => fold other ≠ fold name) ++ extra
      ∧ ∀ other ∈ extra, other ∈ t.references := by
  obtain ⟨extra, declared, known⟩ := pending_declareAll r t.references
  refine ⟨extra.filter fun other => fold other ≠ fold name, ?_,
    fun other ho => (known other (List.mem_filter.1 ho).1).1⟩
  unfold add
  rw [pending_insert (nodup_declareAll h _), declared, List.filter_append]

/-- A template that refers to known names leaves none pending where none was. -/
theorem pending_add_of_known (h : r.keys.Nodup) (complete : r.pending = []) (name : String)
    (known : ∀ other ∈ t.references, fold other ∈ r.keys) : pending (r.add name t) = [] := by
  unfold add
  rw [pending_insert (nodup_declareAll h _), pending_declareAll_of_known complete known]
  rfl

/-- Blocks have bodies, so that their names are not pending. -/
theorem pending_addBlocks (nodup : r.keys.Nodup) (complete : r.pending = []) (blocks : List (String × List Node)) :
    pending (r.addBlocks blocks) = [] := by
  induction blocks generalizing r with
  | nil => exact complete
  | cons block blocks ih => exact ih (nodup_add nodup _ _) (pending_add_of_known nodup complete block.1 nofun)

/-- The first of the pending names gets a template. -/
theorem pending_add_head {rest : List String} (h : r.keys.Nodup) (head : r.pending = name :: rest) (t : Template) :
    ∃ extra, (r.add name t).pending = rest ++ extra ∧ ∀ other ∈ extra, other ∈ t.references := by
  obtain ⟨extra, pending, known⟩ := pending_add h name t
  refine ⟨extra, ?_, known⟩
  have distinct : (r.pending.map fold).Nodup := h.sublist fold_pending_sublist
  rw [head, List.map_cons, List.nodup_cons] at distinct
  rw [pending, head, List.filter_cons_of_neg (by simp)]
  congr 1
  refine List.filter_eq_self.2 fun other ho => ?_
  have different : fold other ≠ fold name := fun same => distinct.1 (List.mem_map.2 ⟨other, ho, same⟩)
  simpa using different

end Registry

end Stencil
