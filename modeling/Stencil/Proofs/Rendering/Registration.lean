import Mathlib.Data.List.Dedup
import Mathlib.Data.List.Perm.Subperm
import Stencil.Proofs.NameMap.Keys
import Stencil.Render

/-!
# Registries in the course of a render

A render changes the registry only where a template extends another: the blocks of the template are registered
(`Registry.addBlocks`), and so it can gain their names (`Template.gains`).

* `Context.knownNames`: all names that are registered before a render of a template, or can become so in the course of
  it. There are fewer of them than `Context.depth` (`Context.length_knownNames_lt`).
-/

namespace Stencil

/-! ## Registered blocks -/

namespace Registry

variable {r : Registry} {name key : String} {t : Template} {blocks : List (String × List Node)}

theorem mem_keys_of_template? (h : r.template? name = some t) : fold name ∈ r.keys :=
  NameMap.mem_keys_of_get? (Option.join_eq_some_iff.1 h)

/-- The registry with blocks registered in order. -/
def addBlocks (r : Registry) (blocks : List (String × List Node)) : Registry :=
  blocks.foldl (fun r block => r.add block.1 (.ofNodes block.2)) r

theorem mem_keys_addBlocks :
    key ∈ (r.addBlocks blocks).keys ↔ key ∈ r.keys ∨ key ∈ blocks.map fun block => fold block.1 := by
  induction blocks generalizing r with
  | nil => simp [addBlocks]
  | cons block blocks ih =>
    have added : key ∈ (r.add block.1 (.ofNodes block.2)).keys ↔ key = fold block.1 ∨ key ∈ r.keys :=
      NameMap.mem_keys_insert
    rw [addBlocks, List.foldl_cons, ← addBlocks, ih, added, List.map_cons, List.mem_cons]
    tauto

/-- A template that is there after blocks are registered was there before or is a block of its name. -/
theorem template?_addBlocks (h : (r.addBlocks blocks).template? name = some t) :
    r.template? name = some t ∨ ∃ block ∈ blocks, fold name = fold block.1 ∧ t = .ofNodes block.2 := by
  induction blocks generalizing r with
  | nil => exact .inl h
  | cons block blocks ih =>
    rw [addBlocks, List.foldl_cons, ← addBlocks] at h
    rcases ih h with h | ⟨other, ho, same, rfl⟩
    · rw [template?_add] at h
      split at h
      · next same =>
        cases h
        exact .inr ⟨block, List.mem_cons_self, same, rfl⟩
      · exact .inl h
    · exact .inr ⟨other, List.mem_cons_of_mem block ho, same, rfl⟩

end Registry

/-- The context with another registry. -/
def Context.withTemplates (c : Context) (r : Registry) : Context := { c with templates := r }

theorem Context.foldl_addTemplate (c : Context) (blocks : List (String × List Node)) :
    blocks.foldl (fun c block => c.addTemplate block.1 (.ofNodes block.2)) c
      = c.withTemplates (c.templates.addBlocks blocks) := by
  induction blocks generalizing c with
  | nil => rfl
  | cons block blocks ih => rw [List.foldl_cons, ih]; rfl

/-! ## Names that can be registered -/

/-- The folded names that a template registers: those of its blocks, if it extends another template. -/
def Template.gains (t : Template) : List String :=
  match t.base with
  | none => []
  | some _ => t.blocks.map fun block => fold block.1

theorem Template.length_gains_le (t : Template) : t.gains.length ≤ t.blocks.length := by
  unfold gains
  split <;> simp

namespace Registry

/-- The names that templates of a registry register. -/
def gains (r : Registry) : List String :=
  r.entries.flatMap fun e => match e.value with
    | some t => t.gains
    | none => []

theorem mem_gains {r : Registry} {name key : String} {t : Template} (h : r.template? name = some t)
    (hk : key ∈ t.gains) : key ∈ r.gains := by
  have found : r.get? name = some (some t) := Option.join_eq_some_iff.1 h
  obtain ⟨e, he, hv⟩ := Option.map_eq_some_iff.1 found
  refine List.mem_flatMap.2 ⟨e, List.mem_of_find?_eq_some he, ?_⟩
  rw [hv]
  exact hk

theorem length_gains_le (r : Registry) : r.gains.length ≤ r.blockCount := by
  obtain ⟨es⟩ := r
  unfold gains blockCount
  induction es with
  | nil => simp
  | cons e es ih =>
    rw [List.flatMap_cons, List.length_append, List.map_cons, List.sum_cons]
    refine Nat.add_le_add ?_ ih
    cases e.value with
    | none => exact Nat.le_refl 0
    | some t => exact t.length_gains_le

end Registry

namespace Context

/-- The names that are registered before a template is rendered, or that it and the registered templates register. -/
def knownNames (c : Context) (t : Template) : List String := c.templates.keys ++ c.templates.gains ++ t.gains

/-- The blocks of a template that extends another have known names. -/
theorem mem_knownNames_of_addBlocks {c : Context} {t : Template} {base key : String} (extending : t.base = some base)
    (hk : key ∈ (c.templates.addBlocks t.blocks).keys) : key ∈ c.knownNames t := by
  have gains : t.gains = t.blocks.map fun block => fold block.1 := by
    unfold Template.gains
    rw [extending]
  rw [knownNames, gains]
  rcases Registry.mem_keys_addBlocks.1 hk with hk | hk
  · exact List.mem_append_left _ (List.mem_append_left _ hk)
  · exact List.mem_append_right _ hk

theorem length_knownNames_lt (c : Context) (t : Template) : (c.knownNames t).dedup.length < c.depth t := by
  have keys : c.templates.keys.length = c.templates.size := List.length_map _
  have gains := c.templates.length_gains_le
  have own := t.length_gains_le
  have distinct : (c.knownNames t).dedup.length ≤ (c.knownNames t).length := (List.dedup_sublist _).length_le
  simp only [knownNames, List.length_append] at distinct ⊢
  unfold depth
  omega

end Context

/-- Distinct names are at most as many as those they are taken from. -/
theorem length_le_dedup {active names : List String} (distinct : active.Nodup) (known : ∀ key ∈ active, key ∈ names) :
    active.length ≤ names.dedup.length :=
  (List.subperm_of_subset distinct fun key hk => List.mem_dedup.2 (known key hk)).length_le

end Stencil
