import Mathlib.Data.List.Infix
import Stencil.Evaluation

/-!
# Signatures

The parameter lists that can be called are the ones of signatures: single values, then a variadic tail or none, then a
context or none. Any other list has a parameter that is misplaced.

* `misplaced?_eq_some_iff`: the parameter that is told is the first one that is misplaced.
* `exists_signature_iff`: a list without a misplaced parameter is that of a signature.
-/

namespace Stencil

/-- The parameters of a function that can be called. -/
structure Signature where
  /-- The types of the single values. -/
  types : List ArgType
  variadic : Bool
  contextual : Bool
  deriving DecidableEq, Repr

namespace Signature

/-- The parameters that are filled from argument texts. -/
def positional (s : Signature) : List ParamKind := s.types.map .value ++ if s.variadic then [.rest] else []

def params (s : Signature) : List ParamKind := s.positional ++ if s.contextual then [.context] else []

/-- Whether a call may have this number of argument texts: one for each single value, and more for a variadic tail. -/
def Accepts (s : Signature) (count : Nat) : Prop :=
  s.types.length ≤ count ∧ (s.variadic = true ∨ count ≤ s.types.length)

instance (s : Signature) (count : Nat) : Decidable (s.Accepts count) :=
  inferInstanceAs (Decidable (_ ∧ _))

variable (s : Signature)

theorem not_accepts_iff {count : Nat} :
    ¬ s.Accepts count ↔ count < s.types.length ∨ s.variadic = false ∧ s.types.length < count := by
  simp only [Accepts, not_and_or, not_or, Nat.not_le, Bool.not_eq_true]

theorem context_notMem_positional : .context ∉ s.positional := by
  cases hv : s.variadic <;> simp [positional, hv]

theorem rest_notMem_dropLast : .rest ∉ s.positional.dropLast := by
  cases hv : s.variadic with
  | true => simp [positional, hv]
  | false =>
    intro h
    have := List.mem_of_mem_dropLast h
    simp [positional, hv] at this

@[simp] theorem getLast?_params : s.params.getLast? = some .context ↔ s.contextual = true := by
  cases hc : s.contextual with
  | true => simp [params, hc]
  | false =>
    refine ⟨fun h => absurd (List.mem_of_getLast? h) ?_, nofun⟩
    simpa [params, hc] using s.context_notMem_positional

@[simp] theorem positional_params : Function.positional s.params = s.positional := by
  rw [Function.positional]
  cases hc : s.contextual with
  | true => simp [params, hc]
  | false =>
    rw [if_neg (by simp [hc])]
    simp [params, hc]

@[simp] theorem isVariadic_params : Function.isVariadic s.params = s.variadic := by
  rw [Function.isVariadic, positional_params]
  cases hv : s.variadic with
  | true => simp [positional, hv]
  | false =>
    rw [beq_eq_false_iff_ne]
    intro h
    have := List.mem_of_getLast? h
    simp [positional, hv] at this

@[simp] theorem fixed_params : Function.fixed s.params = s.types.map .value := by
  rw [Function.fixed, isVariadic_params, positional_params]
  cases hv : s.variadic <;> simp [positional, hv]

theorem length_params : s.params.length = s.types.length + s.variadic.toNat + s.contextual.toNat := by
  cases hv : s.variadic <;> cases hc : s.contextual <;> simp [params, positional, hv, hc]

end Signature

/-! ## Misplaced parameters -/

namespace Function

/-- Whether a kind stands at a position of a list that is not the last one. -/
def EarlyAt (kind : ParamKind) (params : List ParamKind) (position : Nat) : Prop :=
  params[position]? = some kind ∧ position + 1 ≠ params.length

/-- Whether the parameter at a position may not stand there: a context that is not the last parameter, or a variadic
tail that is not the last one of those in front of a closing context. -/
def MisplacedAt (params : List ParamKind) (position : Nat) : Prop :=
  EarlyAt .context params position ∨ EarlyAt .rest (positional params) position

variable {params : List ParamKind} {kind : ParamKind} {position : Nat}

theorem exists_earlyAt_iff : (∃ position, EarlyAt kind params position) ↔ kind ∈ params.dropLast := by
  rw [List.dropLast_eq_take, List.mem_take_iff_getElem]
  constructor
  · rintro ⟨i, there, early⟩
    obtain ⟨inside, same⟩ := List.getElem?_eq_some_iff.1 there
    exact ⟨i, by omega, same⟩
  · rintro ⟨i, inside, same⟩
    exact ⟨i, List.getElem?_eq_some_iff.2 ⟨by omega, same⟩, by omega⟩

/-- Parameters are the positional ones, with a context behind them or not. -/
theorem positional_cases (params : List ParamKind) :
    params = positional params ++ [.context] ∨ params = positional params ∧ params.getLast? ≠ some .context := by
  rw [positional]
  by_cases h : params.getLast? = some .context
  · rw [if_pos h]
    exact .inl (List.dropLast_append_getLast? _ h).symm
  · rw [if_neg h]
    exact .inr ⟨rfl, h⟩

theorem getElem?_positional_of_rest : params[position]? = some .rest ↔ (positional params)[position]? = some .rest := by
  rcases positional_cases params with h | ⟨h, -⟩
  · generalize positional params = before at h
    subst h
    by_cases inside : position < before.length
    · rw [List.getElem?_append_left inside]
    · rw [List.getElem?_append_right (by omega), List.getElem?_eq_none_iff.2 (show before.length ≤ position by omega)]
      cases position - before.length <;> simp
  · rw [← h]

/-- A parameter is misplaced exactly if its kind may not stand at its position. -/
theorem placed_eq_false_iff (there : params[position]? = some kind) :
    placed params position kind = false ↔ MisplacedAt params position := by
  have rest : params[position]? = some .rest ↔ (positional params)[position]? = some .rest :=
    getElem?_positional_of_rest
  rw [there] at rest
  cases kind <;> simp_all [placed, MisplacedAt, EarlyAt]

/-- The parameter that is told is misplaced, and none in front of it is. -/
theorem misplaced?_eq_some_iff :
    misplaced? params = some position ↔ MisplacedAt params position ∧ ∀ j < position, ¬ MisplacedAt params j := by
  have stands {i : Nat} (h : MisplacedAt params i) : i < params.length := by
    rcases h with ⟨h, -⟩ | ⟨h, -⟩
    · exact (List.getElem?_eq_some_iff.1 h).1
    · exact (List.getElem?_eq_some_iff.1 (getElem?_positional_of_rest.2 h)).1
  have told {i : Nat} (h : i < params.length) : placed params i params[i] = false ↔ MisplacedAt params i :=
    placed_eq_false_iff (List.getElem?_eq_getElem h)
  simp only [misplaced?, Option.map_eq_some_iff, List.find?_eq_some_iff_getElem, Bool.not_eq_true', Prod.exists,
    List.length_zipIdx, List.getElem_zipIdx, Prod.mk.injEq, Nat.zero_add, exists_eq_right, Bool.not_not]
  constructor
  · rintro ⟨kind, bad, i, inside, ⟨rfl, rfl⟩, before⟩
    refine ⟨(told inside).1 bad, fun j hj misplaced => ?_⟩
    rw [← told (by omega), before j hj] at misplaced
    cases misplaced
  · rintro ⟨misplaced, first⟩
    have inside := stands misplaced
    refine ⟨params[position], (told inside).2 misplaced, position, inside, ⟨rfl, rfl⟩, fun j hj => ?_⟩
    rw [← Bool.not_eq_false, told (by omega)]
    exact first j hj

theorem misplaced?_eq_none_iff : misplaced? params = none ↔ ∀ position, ¬ MisplacedAt params position := by
  constructor
  · intro none' i
    induction i using Nat.strongRecOn with
    | _ i ih =>
      intro h
      rw [misplaced?_eq_some_iff.2 ⟨h, ih⟩] at none'
      cases none'
  · intro free
    rw [Option.eq_none_iff_forall_ne_some]
    exact fun i h => free i (misplaced?_eq_some_iff.1 h).1

/-! ## Lists without a misplaced parameter -/

theorem exists_types {kinds : List ParamKind} (context : .context ∉ kinds) (rest : .rest ∉ kinds) :
    ∃ types : List ArgType, kinds = types.map .value := by
  induction kinds with
  | nil => exact ⟨[], rfl⟩
  | cons kind kinds ih =>
    rw [List.mem_cons, not_or] at context rest
    obtain ⟨types, rfl⟩ := ih context.2 rest.2
    cases kind with
    | value type => exact ⟨type :: types, rfl⟩
    | context => exact absurd rfl context.1
    | rest => exact absurd rfl rest.1

/-- Parameters without a context, in which a variadic tail is the last, are the positional ones of a signature. -/
theorem exists_positional {kinds : List ParamKind} (context : .context ∉ kinds) (rest : .rest ∉ kinds.dropLast) :
    ∃ types variadic, ∀ contextual, kinds = Signature.positional ⟨types, variadic, contextual⟩ := by
  by_cases last : kinds.getLast? = some .rest
  · have split := List.dropLast_append_getLast? _ last
    obtain ⟨types, values⟩ := exists_types (fun h => context (List.mem_of_mem_dropLast h)) rest
    exact ⟨types, true, fun _ => by rw [← split, values]; rfl⟩
  · obtain ⟨types, values⟩ := exists_types context fun h =>
      rest (List.mem_dropLast_of_mem_of_ne_getLast? h (Ne.symm last))
    exact ⟨types, false, fun _ => by rw [values]; simp [Signature.positional]⟩

/-- **The parameter lists of signatures are those without a misplaced parameter.** -/
theorem exists_signature_iff : (∃ s : Signature, params = s.params) ↔ ∀ position, ¬ MisplacedAt params position := by
  have early : (∀ position, ¬ MisplacedAt params position)
      ↔ .context ∉ params.dropLast ∧ .rest ∉ (positional params).dropLast := by
    simp only [← exists_earlyAt_iff, MisplacedAt, not_or, not_exists, forall_and]
  rw [early]
  constructor
  · rintro ⟨s, rfl⟩
    rw [s.positional_params]
    refine ⟨fun h => s.context_notMem_positional ?_, s.rest_notMem_dropLast⟩
    cases hc : s.contextual with
    | true => simpa [Signature.params, hc] using h
    | false => simpa [Signature.params, hc] using List.mem_of_mem_dropLast h
  · rintro ⟨context, rest⟩
    rcases positional_cases params with closed | ⟨closed, last⟩
    · obtain ⟨types, variadic, same⟩ := exists_positional (by rw [closed] at context; simpa using context) rest
      exact ⟨⟨types, variadic, true⟩, by rw [closed, same true]; rfl⟩
    · rw [← closed] at rest
      obtain ⟨types, variadic, same⟩ := exists_positional
        (fun h => context (List.mem_dropLast_of_mem_of_ne_getLast? h (Ne.symm last))) rest
      exact ⟨⟨types, variadic, false⟩, by rw [same false]; simp [Signature.params]⟩

end Function

end Stencil
