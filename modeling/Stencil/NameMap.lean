import Stencil.Text.Lower

/-!
# Maps by name

An ordered map whose names are compared by their lower case. The first spelling of a name is kept.

* `get?_insert`: an insertion answers for all spellings of its name, and for no other name.
* `get?_insertIfAbsent`: an insertion of this kind changes nothing for names that are there.
* `getThenInsert?_eq`: what an insertion yields is what was found before it.
-/

namespace Stencil

/-- The form of a name in which case does not count. -/
def fold (name : String) : String := Text.lower name

/-- A name as first spelled and its value. The folded name is kept, so that a search folds the wanted name only. -/
structure NameEntry (α : Type) where
  name : String
  value : α
  key : String := fold name
  key_eq : key = fold name := by rfl

/-- Entries in the order in which their names were first inserted, with the first spelling. -/
structure NameMap (α : Type) where
  entries : List (NameEntry α)

namespace NameMap

variable {α β : Type}

def empty : NameMap α := ⟨[]⟩

instance : Inhabited (NameMap α) := ⟨empty⟩

/-- Whether an entry answers for a folded name. -/
def answers (key : String) (e : NameEntry α) : Bool := e.key == key

def get? (m : NameMap α) (name : String) : Option α := (m.entries.find? (answers (fold name))).map (·.value)

def contains (m : NameMap α) (name : String) : Bool := m.entries.any (answers (fold name))

def size (m : NameMap α) : Nat := m.entries.length

def isEmpty (m : NameMap α) : Bool := m.entries.isEmpty

/-- Replaces the value of the first entry that answers for a folded name. -/
def replaceFirst (key : String) (a : α) : List (NameEntry α) → List (NameEntry α)
  | [] => []
  | e :: es => if answers key e then { e with value := a } :: es else e :: replaceFirst key a es

/-- Gives a name a value, keeping the spelling under which it is known. -/
def insert (m : NameMap α) (name : String) (a : α) : NameMap α :=
  if m.contains name then ⟨replaceFirst (fold name) a m.entries⟩
  else ⟨m.entries ++ [{ name := name, value := a }]⟩

/-- Replaces the value of the first entry that answers for a folded name, if any does, and yields the former value. -/
def swapFirst? (key : String) (a : α) : List (NameEntry α) → Option (α × List (NameEntry α))
  | [] => none
  | e :: es =>
    if answers key e then some (e.value, { e with value := a } :: es)
    else (swapFirst? key a es).map fun (former, es) => (former, e :: es)

/-- An insertion that yields the value that the name had. -/
def getThenInsert? (m : NameMap α) (name : String) (a : α) : Option α × NameMap α :=
  match swapFirst? (fold name) a m.entries with
  | some (former, es) => (some former, ⟨es⟩)
  | none => (none, ⟨m.entries ++ [{ name := name, value := a }]⟩)

/-- Gives a name a value unless it has one. -/
def insertIfAbsent (m : NameMap α) (name : String) (a : α) : NameMap α :=
  if m.contains name then m else ⟨m.entries ++ [{ name := name, value := a }]⟩

/-- The entries inserted in order. -/
def ofList (entries : List (String × α)) : NameMap α :=
  entries.foldl (fun m e => m.insert e.1 e.2) empty

/-- Names, as first spelled, and values. -/
def toList (m : NameMap α) : List (String × α) := m.entries.map fun e => (e.name, e.value)

/-! ## Laws -/

theorem answers_fold (name : String) (e : NameEntry α) : answers (fold name) e = (fold e.name == fold name) := by
  rw [answers, e.key_eq]

/-- Names that differ in case only are answered alike. -/
theorem get?_congr (m : NameMap α) {name other : String} (same : fold name = fold other) :
    m.get? name = m.get? other := by
  rw [get?, get?, same]

theorem contains_eq_isSome (m : NameMap α) (name : String) : m.contains name = (m.get? name).isSome := by
  rw [Bool.eq_iff_iff]
  simp [contains, get?, List.find?_isSome]

theorem find?_replaceFirst (key other : String) (a : α) (es : List (NameEntry α)) (h : es.any (answers key)) :
    ((replaceFirst key a es).find? (answers other)).map (·.value)
      = if other = key then some a else (es.find? (answers other)).map (·.value) := by
  induction es with
  | nil => simp at h
  | cons e es ih =>
    simp only [replaceFirst]
    by_cases he : answers key e = true
    · rw [if_pos he]
      have same : e.key = key := by simpa [answers] using he
      by_cases ho : other = key
      · simp [answers, same, ho]
      · have : ¬ key = other := fun h => ho h.symm
        simp [answers, same, ho, this]
    · rw [if_neg he]
      have rest : es.any (answers key) = true := by simpa [he] using h
      by_cases ho : answers other e = true
      · have hne : ¬ other = key := by
          intro same
          exact he (same ▸ ho)
        simp [ho, hne]
      · simp only [List.find?_cons_of_neg ho]
        exact ih rest

/-- An insertion answers for every spelling of its name, and for no other name. -/
theorem get?_insert (m : NameMap α) (name other : String) (a : α) :
    (m.insert name a).get? other = if fold other = fold name then some a else m.get? other := by
  simp only [insert, get?]
  by_cases h : m.contains name = true
  · rw [if_pos h]
    exact find?_replaceFirst (fold name) (fold other) a m.entries h
  · rw [if_neg h, List.find?_append]
    have absent : m.entries.find? (answers (fold name)) = none := by
      simpa [contains, List.find?_eq_none] using h
    by_cases ho : fold other = fold name
    · simp [ho, absent, answers]
    · have : ¬ fold name = fold other := fun h => ho h.symm
      simp [answers, ho, this]

/-- An insertion of an absent name answers for it; a known name keeps its value. -/
theorem get?_insertIfAbsent (m : NameMap α) (name other : String) (a : α) :
    (m.insertIfAbsent name a).get? other
      = if fold other = fold name ∧ m.contains name = false then some a else m.get? other := by
  by_cases h : m.contains name = true
  · simp [insertIfAbsent, h]
  · have := get?_insert m name other a
    simp only [insert, h, if_false, Bool.false_eq_true] at this
    simp only [insertIfAbsent, h, if_false, Bool.false_eq_true, this]
    simp

theorem swapFirst?_eq (key : String) (a : α) (es : List (NameEntry α)) :
    swapFirst? key a es = (es.find? (answers key)).map fun e => (e.value, replaceFirst key a es) := by
  induction es with
  | nil => rfl
  | cons e es ih =>
    simp only [swapFirst?, replaceFirst]
    by_cases he : answers key e = true
    · simp [he]
    · simp [he, ih, Function.comp_def]

/-- What an insertion yields is what was found before it. -/
theorem getThenInsert?_eq (m : NameMap α) (name : String) (a : α) :
    m.getThenInsert? name a = (m.get? name, m.insert name a) := by
  rw [getThenInsert?, swapFirst?_eq, insert, contains_eq_isSome, get?]
  cases m.entries.find? (answers (fold name)) with
  | none => rfl
  | some e => rfl

@[simp] theorem get?_empty (name : String) : (empty : NameMap α).get? name = none := rfl

end NameMap

end Stencil
