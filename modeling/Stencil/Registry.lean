import Stencil.NameMap
import Stencil.Syntax.Template

/-!
# Registries of templates

A registry knows templates by name. A name that a template refers to is declared in it, so that what is missing can be
told and provided later; a declared name need not have a template yet.

* `template?_add`: a registered template is found by all spellings of its name, and nothing else changes.
* `template?_declare`: a declaration changes no template.
-/

namespace Stencil

abbrev Registry := NameMap (Option Template)

namespace Registry

/-- The template of a name, if it has one. -/
def template? (r : Registry) (name : String) : Option Template := (r.get? name).join

def hasTemplate (r : Registry) (name : String) : Bool := (r.template? name).isSome

/-- Makes a name known. -/
def declare (r : Registry) (name : String) : Registry := r.insertIfAbsent name none

def declareAll (r : Registry) (names : List String) : Registry := names.foldl declare r

/-- Gives a name a template, after the names that the template refers to are made known. -/
def add (r : Registry) (name : String) (t : Template) : Registry := (r.declareAll t.references).insert name (some t)

/-- The known names that have no template, in the order in which they became known. -/
def pending (r : Registry) : List String := (r.entries.filter fun e => e.value.isNone).map (·.name)

/-! ## Laws -/

/-- A declaration changes no template. -/
theorem template?_declare (r : Registry) (name other : String) :
    (r.declare name).template? other = r.template? other := by
  simp only [template?, declare, NameMap.get?_insertIfAbsent]
  split
  · next h =>
    obtain ⟨same, absent⟩ := h
    have : r.get? other = none := by
      rw [NameMap.contains_eq_isSome] at absent
      simpa [NameMap.get?_congr r same] using absent
    simp [this]
  · rfl

theorem template?_declareAll (r : Registry) (names : List String) (other : String) :
    (r.declareAll names).template? other = r.template? other := by
  induction names generalizing r with
  | nil => rfl
  | cons n ns ih => rw [declareAll, List.foldl_cons, ← declareAll, ih, template?_declare]

/-- A registered template is found by all spellings of its name, and nothing else changes. -/
theorem template?_add (r : Registry) (name other : String) (t : Template) :
    (r.add name t).template? other = if fold other = fold name then some t else r.template? other := by
  rw [← template?_declareAll r t.references other]
  simp only [template?, add, NameMap.get?_insert]
  split <;> rfl

end Registry

end Stencil
