import Mathlib.Data.List.Nodup
import Stencil.NameMap

/-!
# Keys of maps by name

The keys of a map are the folded names of its entries. An insertion puts a new key behind the others and leaves known
ones where they are, so that keys stay distinct; then every entry is found under its name.
-/

namespace Stencil

/-- The folded names of a map. -/
def NameMap.keys {α : Type} (m : NameMap α) : List String := m.entries.map (·.key)

namespace NameMap

variable {α : Type} {m : NameMap α} {name key : String} {a : α}

/-! ## What an insertion leaves -/

section Map

variable {β : Type} {f : NameEntry α → β}

theorem map_replaceFirst (same : ∀ e a, f { e with value := a } = f e) (key : String) (a : α)
    (es : List (NameEntry α)) : (replaceFirst key a es).map f = es.map f := by
  induction es with
  | nil => rfl
  | cons e es ih =>
    unfold replaceFirst
    split
    · rw [List.map_cons, List.map_cons, same]
    · rw [List.map_cons, List.map_cons, ih]

/-- Values apart, an insertion leaves the entries as they are, or puts a new one behind them. -/
theorem map_insert (same : ∀ e a, f { e with value := a } = f e) : (m.insert name a).entries.map f
    = if m.contains name then m.entries.map f else m.entries.map f ++ [f { name := name, value := a }] := by
  unfold insert
  split
  · exact map_replaceFirst same _ a _
  · exact List.map_append

theorem map_insertIfAbsent (f : NameEntry α → β) : (m.insertIfAbsent name a).entries.map f
    = if m.contains name then m.entries.map f else m.entries.map f ++ [f { name := name, value := a }] := by
  unfold insertIfAbsent
  split
  · rfl
  · exact List.map_append

end Map

/-! ## Keys -/

theorem contains_iff : m.contains name = true ↔ fold name ∈ m.keys := by
  simp [contains, keys, answers]

theorem mem_keys_of_get? (h : m.get? name = some a) : fold name ∈ m.keys := by
  rw [← contains_iff, contains_eq_isSome, h]
  rfl

theorem keys_insert : (m.insert name a).keys = if m.contains name then m.keys else m.keys ++ [fold name] :=
  map_insert fun _ _ => rfl

theorem mem_keys_insert : key ∈ (m.insert name a).keys ↔ key = fold name ∨ key ∈ m.keys := by
  rw [keys_insert]
  split
  · next known =>
    refine ⟨.inr, ?_⟩
    rintro (rfl | old)
    · exact contains_iff.1 known
    · exact old
  · rw [List.mem_append, List.mem_singleton, or_comm]

theorem nodup_insert (h : m.keys.Nodup) (name : String) (a : α) : (m.insert name a).keys.Nodup := by
  rw [keys_insert]
  split
  · exact h
  · next absent =>
    rw [contains_iff] at absent
    exact List.nodup_append.2 ⟨h, List.nodup_singleton _, by rintro key hk _ hn rfl; simp_all⟩

theorem keys_insertIfAbsent : (m.insertIfAbsent name a).keys = (m.insert name a).keys := by
  rw [keys_insert]
  exact map_insertIfAbsent _

/-- Where names occur once, every entry is found under its name. -/
theorem get?_of_mem {e : NameEntry α} (h : m.keys.Nodup) (he : e ∈ m.entries) : m.get? e.name = some e.value := by
  obtain ⟨es⟩ := m
  unfold keys at h
  unfold get?
  induction es with
  | nil => cases he
  | cons first es ih =>
    obtain ⟨fresh, rest⟩ := List.nodup_cons.1 h
    by_cases same : answers (fold e.name) first = true
    · rw [List.find?_cons_of_pos same]
      rcases List.mem_cons.1 he with rfl | he
      · rfl
      · have equal : first.key = e.key := by simpa [answers, e.key_eq] using same
        exact absurd (List.mem_map.2 ⟨e, he, equal.symm⟩) fresh
    · rw [List.find?_cons_of_neg same]
      rcases List.mem_cons.1 he with rfl | he
      · simp [answers, e.key_eq] at same
      · exact ih rest he

theorem replaceFirst_append {before : List (NameEntry α)} {e : NameEntry α} (fresh : e.key ∉ before.map (·.key))
    (after : List (NameEntry α)) (a : α) :
    replaceFirst e.key a (before ++ e :: after) = before ++ { e with value := a } :: after := by
  induction before with
  | nil => rw [List.nil_append, replaceFirst, if_pos (by simp [answers]), List.nil_append]
  | cons first before ih =>
    rw [List.map_cons, List.mem_cons, not_or] at fresh
    have other : ¬ answers e.key first = true := by
      intro same
      exact fresh.1 (by simpa [answers] using same : first.key = e.key).symm
    rw [List.cons_append, replaceFirst, if_neg other, ih fresh.2, List.cons_append]

/-- An unknown name has no value. -/
theorem get?_of_not_mem (h : fold name ∉ m.keys) : m.get? name = none := by
  rw [← contains_iff, contains_eq_isSome] at h
  simpa using h

end NameMap

end Stencil
