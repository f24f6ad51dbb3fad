import Mathlib.Data.Finset.Card
import Stencil.Proofs.NameMap.Keys

/-!
# Maps by name and their history

A map by name is what a sequence of changes makes of the empty map. What it answers can be read off the changes:
spellings that are folded alike are one name, the first of them is kept, and a value gives way to insertions only.

* `NameMap.valueAfter?`, `NameMap.spellings`: the values and the names that changes leave behind.
* `NameMap.get?_apply`, `NameMap.spellings_concat`: what one change more does.
* `NameMap.tells_ofChanges`: a map tells the changes that made it.
-/

namespace Stencil

namespace NameMap

variable {α : Type}

/-! ## Changes -/

/-- A call that gives a name a value, or gives it one unless it has one. -/
inductive Change (α : Type) where
  | insert (name : String) (value : α)
  | insertIfAbsent (name : String) (value : α)

namespace Change

def name : Change α → String
  | insert name _ => name
  | insertIfAbsent name _ => name

def value : Change α → α
  | insert _ value => value
  | insertIfAbsent _ value => value

/-- Whether a value that is there gives way. -/
def replaces : Change α → Bool
  | insert .. => true
  | insertIfAbsent .. => false

/-- The folded name of a change. -/
def key (c : Change α) : String := fold c.name

end Change

def apply (m : NameMap α) : Change α → NameMap α
  | .insert name a => m.insert name a
  | .insertIfAbsent name a => m.insertIfAbsent name a

/-- The map that changes make of the empty one. -/
def ofChanges (changes : List (Change α)) : NameMap α := changes.foldl apply empty

/-- The value that changes of one name leave: that of the last insertion, and without one that of the first change. -/
def lasting? (own : List (Change α)) : Option α :=
  ((own.filter Change.replaces).getLast?.or own.head?).map Change.value

/-- The value that changes leave a name with. -/
def valueAfter? (changes : List (Change α)) (name : String) : Option α :=
  lasting? (changes.filter fun c => c.key == fold name)

/-- Names in order, each where it first appears and as it is spelled there. -/
def firstSpellings (names : List String) : List String :=
  names.eraseDupsBy fun name earlier => fold name == fold earlier

/-- The names that changes leave behind. -/
def spellings (changes : List (Change α)) : List String := firstSpellings (changes.map Change.name)

theorem ofChanges_concat (changes : List (Change α)) (c : Change α) :
    ofChanges (changes ++ [c]) = (ofChanges changes).apply c := by
  rw [ofChanges, List.foldl_append, List.foldl_cons, List.foldl_nil, ← ofChanges]

/-! ## One change more -/

section Apply

variable {m : NameMap α} {c : Change α}

/-- Values apart, a change leaves the entries as they are, or puts a new one behind them. -/
theorem map_apply {β : Type} {f : NameEntry α → β} (same : ∀ e a, f { e with value := a } = f e) :
    (m.apply c).entries.map f
      = if m.contains c.name then m.entries.map f
        else m.entries.map f ++ [f { name := c.name, value := c.value }] := by
  cases c with
  | insert name a => exact map_insert same
  | insertIfAbsent name a => exact map_insertIfAbsent f

theorem keys_apply : (m.apply c).keys = if m.contains c.name then m.keys else m.keys ++ [c.key] :=
  map_apply fun _ _ => rfl

/-- The spellings that are there stay, and that of a new name comes behind them. -/
theorem names_apply : (m.apply c).entries.map (·.name)
    = if m.contains c.name then m.entries.map (·.name) else m.entries.map (·.name) ++ [c.name] :=
  map_apply fun _ _ => rfl

theorem nodup_apply (h : m.keys.Nodup) (c : Change α) : (m.apply c).keys.Nodup := by
  cases c with
  | insert name a => exact nodup_insert h name a
  | insertIfAbsent name a =>
    rw [apply, keys_insertIfAbsent]
    exact nodup_insert h name a

/-- A change gives its name a value if it replaces the one that is there, or if none is. -/
theorem get?_apply (m : NameMap α) (c : Change α) (name : String) :
    (m.apply c).get? name
      = if fold name = c.key ∧ (c.replaces = true ∨ m.get? name = none) then some c.value else m.get? name := by
  cases c with
  | insert other a => simp [apply, get?_insert, Change.key, Change.name, Change.replaces, Change.value]
  | insertIfAbsent other a =>
    rw [apply, get?_insertIfAbsent, contains_eq_isSome]
    by_cases same : fold name = fold other
    · simp [Change.key, Change.name, Change.replaces, Change.value, same, get?_congr m same]
    · simp [Change.key, Change.name, same]

end Apply

theorem lasting?_concat (own : List (Change α)) (c : Change α) :
    lasting? (own ++ [c]) = if c.replaces = true ∨ lasting? own = none then some c.value else lasting? own := by
  cases replaces : c.replaces with
  | true => simp [lasting?, replaces]
  | false =>
    cases own with
    | nil => simp [lasting?, replaces]
    | cons first own =>
      have some' : lasting? (first :: own) ≠ none := by simp [lasting?]
      have same : lasting? (first :: own ++ [c]) = lasting? (first :: own) := by
        rw [lasting?, List.filter_append, List.filter_singleton, replaces, cond_false, List.append_nil]
        rfl
      rw [same, if_neg (by simp [some'])]

/-- One change more gives its name a value if it replaces the one that changes leave, or if they leave none. -/
theorem valueAfter?_concat (changes : List (Change α)) (c : Change α) (name : String) :
    valueAfter? (changes ++ [c]) name
      = if fold name = c.key ∧ (c.replaces = true ∨ valueAfter? changes name = none) then some c.value
        else valueAfter? changes name := by
  rw [valueAfter?, List.filter_append, List.filter_singleton]
  by_cases same : fold name = c.key
  · rw [same, beq_self_eq_true, cond_true, lasting?_concat, ← same, ← valueAfter?]
    simp only [true_and]
  · have other : (c.key == fold name) = false := beq_eq_false_iff_ne.2 (Ne.symm same)
    rw [other, cond_false, List.append_nil, if_neg (fun h => same h.1), ← valueAfter?]

/-- One name more is a new spelling unless it is folded like one before it. -/
theorem firstSpellings_concat (names : List String) (name : String) :
    firstSpellings (names ++ [name])
      = if fold name ∈ names.map fold then firstSpellings names else firstSpellings names ++ [name] := by
  -- The tail is filtered before it is searched, and so shorter, but no part of the list.
  induction hn : names.length using Nat.strongRecOn generalizing names with
  | _ n ih =>
    cases names with
    | nil => simp [firstSpellings, List.eraseDupsBy_cons]
    | cons first names =>
      rw [List.cons_append, firstSpellings, firstSpellings, List.eraseDupsBy_cons, List.eraseDupsBy_cons,
        List.filter_append, List.filter_singleton, ← firstSpellings, ← firstSpellings]
      by_cases same : fold name = fold first
      · simp [same]
      · have shorter : (names.filter fun b => (fold b == fold first) = false).length < n := by
          have := List.length_filter_le (fun b => (fold b == fold first) = false) names
          simp only [List.length_cons] at hn
          omega
        have known : fold name ∈ (names.filter fun b => (fold b == fold first) = false).map fold
            ↔ fold name ∈ (first :: names).map fold := by
          simp only [List.mem_map, List.mem_filter, List.map_cons, List.mem_cons, same, false_or]
          constructor
          · rintro ⟨b, ⟨hb, -⟩, equal⟩
            exact ⟨b, hb, equal⟩
          · rintro ⟨b, hb, equal⟩
            exact ⟨b, ⟨hb, by simpa [equal] using same⟩, equal⟩
        have kept : (bif (fold name == fold first) = false then [name] else []) = [name] := by simp [same]
        rw [kept, ih _ shorter _ rfl]
        simp only [known]
        split
        · rfl
        · rw [List.cons_append]

/-- One change more adds its spelling unless its name is known. -/
theorem spellings_concat (changes : List (Change α)) (c : Change α) :
    spellings (changes ++ [c])
      = if c.key ∈ changes.map Change.key then spellings changes else spellings changes ++ [c.name] := by
  have folded : (changes.map Change.name).map fold = changes.map Change.key := List.map_map
  rw [spellings, List.map_append, List.map_singleton, firstSpellings_concat, folded, ← spellings]
  rfl

/-! ## Whole histories -/

section History

variable {changes : List (Change α)} {name key : String}

theorem nodup_ofChanges (changes : List (Change α)) : (ofChanges changes).keys.Nodup := by
  induction changes using List.reverseRecOn with
  | nil => exact List.nodup_nil
  | append_singleton changes c ih =>
    rw [ofChanges_concat]
    exact nodup_apply ih c

theorem mem_keys_ofChanges : key ∈ (ofChanges changes).keys ↔ key ∈ changes.map Change.key := by
  induction changes using List.reverseRecOn with
  | nil => exact Iff.rfl
  | append_singleton changes c ih =>
    rw [ofChanges_concat, keys_apply, List.map_append, List.map_singleton, List.mem_append, List.mem_singleton, ← ih]
    split
    · next known =>
      refine ⟨.inl, ?_⟩
      rintro (old | rfl)
      · exact old
      · exact contains_iff.1 known
    · rw [List.mem_append, List.mem_singleton]

theorem get?_ofChanges (changes : List (Change α)) (name : String) :
    (ofChanges changes).get? name = valueAfter? changes name := by
  induction changes using List.reverseRecOn with
  | nil => rfl
  | append_singleton changes c ih => rw [ofChanges_concat, get?_apply, ih, valueAfter?_concat]

theorem names_ofChanges (changes : List (Change α)) :
    (ofChanges changes).entries.map (·.name) = spellings changes := by
  induction changes using List.reverseRecOn with
  | nil => rfl
  | append_singleton changes c ih =>
    have known : (ofChanges changes).contains c.name = true ↔ c.key ∈ changes.map Change.key := by
      rw [contains_iff, mem_keys_ofChanges, Change.key]
    rw [ofChanges_concat, names_apply, ih, spellings_concat]
    simp only [known]

theorem map_fold_toList (m : NameMap α) : (m.toList.map fun e => fold e.1) = m.keys := by
  simp [toList, keys, NameEntry.key_eq, Function.comp_def]

/-- Where names occur once, a name has the value of its entry. -/
theorem get?_eq_some_iff {m : NameMap α} (h : m.keys.Nodup) {a : α} :
    m.get? name = some a ↔ ∃ e ∈ m.toList, fold e.1 = fold name ∧ e.2 = a := by
  constructor
  · intro found
    obtain ⟨e, he, rfl⟩ := Option.map_eq_some_iff.1 found
    have answers : fold e.name = fold name := by simpa [answers_fold] using List.find?_some he
    exact ⟨(e.name, e.value), List.mem_map.2 ⟨e, List.mem_of_find?_eq_some he, rfl⟩, answers, rfl⟩
  · rintro ⟨_, member, same, rfl⟩
    obtain ⟨e, he, rfl⟩ := List.mem_map.1 member
    rw [← get?_congr m same]
    exact get?_of_mem h he

theorem size_ofChanges (changes : List (Change α)) :
    (ofChanges changes).size = (changes.map Change.key).toFinset.card := by
  have same : (ofChanges changes).keys.toFinset = (changes.map Change.key).toFinset := by
    ext key
    rw [List.mem_toFinset, List.mem_toFinset, mem_keys_ofChanges]
  rw [← same, List.toFinset_card_of_nodup (nodup_ofChanges changes), keys, List.length_map, size]

end History

/-- What the changes that made a map say about it. -/
structure Tells (m : NameMap α) (changes : List (Change α)) : Prop where
  /-- No two entries have names of one lower case. -/
  distinct : (m.toList.map fun e => fold e.1).Nodup
  /-- The entries stand in the order in which their names first appeared, as they were spelled there. -/
  entries : m.toList.map (fun e => (e.1, some e.2))
    = (spellings changes).map fun name => (name, valueAfter? changes name)
  value : ∀ name, m.get? name = valueAfter? changes name
  /-- A name is found in the entry whose name has the same lower case. -/
  found : ∀ name a, m.get? name = some a ↔ ∃ e ∈ m.toList, fold e.1 = fold name ∧ e.2 = a
  contains : ∀ name, m.contains name = true ↔ ∃ e ∈ m.toList, fold e.1 = fold name
  /-- An insertion yields what was found before it. -/
  insert : ∀ name a, m.getThenInsert? name a = (m.get? name, ofChanges (changes ++ [.insert name a]))
  /-- A value for absent names only leaves all entries as they are. -/
  insertIfAbsent : ∀ name a, (m.insertIfAbsent name a).toList
    = if m.contains name then m.toList else m.toList ++ [(name, a)]
  /-- There are as many entries as names that differ in more than case. -/
  size : m.size = (changes.map Change.key).toFinset.card

/-- **A map tells the changes that made it.** -/
theorem tells_ofChanges (changes : List (Change α)) : (ofChanges changes).Tells changes where
  distinct := by
    rw [map_fold_toList]
    exact nodup_ofChanges changes
  entries := by
    have values : ∀ e ∈ (ofChanges changes).entries, valueAfter? changes e.name = some e.value := fun e he => by
      rw [← get?_ofChanges, get?_of_mem (nodup_ofChanges changes) he]
    rw [← names_ofChanges, toList, List.map_map, List.map_map]
    exact List.map_congr_left fun e he => Prod.ext rfl (values e he).symm
  value := get?_ofChanges changes
  found _ _ := get?_eq_some_iff (nodup_ofChanges changes)
  contains name := by
    rw [contains_iff, ← map_fold_toList, List.mem_map]
  insert name a := by
    rw [getThenInsert?_eq, ofChanges_concat]
    rfl
  insertIfAbsent _ _ := map_insertIfAbsent _
  size := size_ofChanges changes

example : ((((empty.insertIfAbsent "Größe" 1).insert "b" 2).insert "GRÖSSE" 3).insert "GRÖßE" 4).toList
    = [("Größe", 4), ("b", 2), ("GRÖSSE", 3)] := by decide +kernel

end NameMap

end Stencil
