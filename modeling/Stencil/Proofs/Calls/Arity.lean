import Stencil.Proofs.Calls.Delivery

/-!
# The number of arguments that is told

A call with a wrong number of argument texts is told how many parameters are declared. A variadic tail and a context are
among these. The number is one that the function takes unless it takes no tail and its context counts: then it is one
too many, and a call that follows it is told the number that it has.

* `refusesCount_iff`: the numbers of texts that are refused.
* `argumentCount_expected`: when the number that is told can be followed.
-/

namespace Stencil.Evaluation

variable {e : Evaluation} {name : String} {texts : List String} {f : Function} {s : Signature}

/-- A text that cannot be taken has a fault of its own. -/
theorem taken_ne_argumentCount {types : List ArgType} {position expected received : Nat} {text called : String} :
    e.taken name types position text ≠ .error (.argumentCount called expected received) := by
  intro h
  rcases except_bind_error h with h | ⟨v, -, h⟩
  · cases Scope.argument_error h
  · split at h
    · cases h
    · next type _ =>
      cases hc : v.coerce type with
      | error fault => rw [hc] at h; cases h
      | ok w => rw [hc] at h; cases h

section Declared

variable (found : e.function? name = some f) (declared : f.params = s.params)

include found declared

/-- A call is refused for the number of its texts exactly if its function does not take this number. -/
theorem logged_eq_argumentCount_iff {called : String} {expected received : Nat} :
    e.logged name texts = (.error (.argumentCount called expected received), [])
      ↔ ¬ s.Accepts texts.length ∧ called = name ∧ expected = f.params.length ∧ received = texts.length := by
  constructor
  · intro h
    by_cases count : s.Accepts texts.length
    · cases ht : e.takenAll name s.types 0 texts with
      | error err =>
        rw [logged_of_takenAll_error found declared count ht] at h
        cases h
        obtain ⟨i, text, -, fails, -⟩ := takenAll_error_iff.1 ht
        exact absurd fails taken_ne_argumentCount
      | ok values =>
        rw [logged_of_takenAll_ok found declared count ht] at h
        cases congrArg Prod.snd h
    · rw [logged_of_count found declared count] at h
      cases h
      exact ⟨count, rfl, rfl, rfl⟩
  · rintro ⟨count, rfl, rfl, rfl⟩
    exact logged_of_count found declared count

end Declared

/-- Whether some call with this number of argument texts is refused for the number. -/
def RefusesCount (e : Evaluation) (name : String) (count : Nat) : Prop :=
  ∃ texts : List String, texts.length = count
    ∧ ∃ called expected received, e.logged name texts = (.error (.argumentCount called expected received), [])

theorem refusesCount_iff (found : e.function? name = some f) (declared : f.params = s.params) {count : Nat} :
    e.RefusesCount name count ↔ ¬ s.Accepts count := by
  constructor
  · rintro ⟨texts, rfl, called, expected, received, refused⟩
    exact ((logged_eq_argumentCount_iff found declared).1 refused).1
  · intro count'
    have length : (List.replicate count "").length = count := List.length_replicate
    have refused := (logged_eq_argumentCount_iff found declared).2 ⟨length.symm ▸ count', rfl, rfl, rfl⟩
    exact ⟨List.replicate count "", length, _, _, _, refused⟩

/-- **When the number that is told can be followed.** It is a number of texts that the function takes exactly if there
is a variadic tail or no context. Otherwise it is one more than that, and it is told to a call that has just as many. -/
theorem argumentCount_expected (found : e.function? name = some f) (declared : f.params = s.params) {called : String}
    {expected received : Nat}
    (refused : e.logged name texts = (.error (.argumentCount called expected received), [])) :
    called = name ∧ received = texts.length
      ∧ (¬ e.RefusesCount name expected ↔ s.variadic = true ∨ s.contextual = false)
      ∧ (expected = received
        ↔ s.variadic = false ∧ s.contextual = true ∧ received = s.types.length + 1) := by
  obtain ⟨count, rfl, rfl, rfl⟩ := (logged_eq_argumentCount_iff found declared).1 refused
  have told := congrArg List.length declared
  rw [s.length_params] at told
  rw [refusesCount_iff found declared, not_not, told]
  rw [s.not_accepts_iff] at count
  refine ⟨rfl, rfl, ?_, ?_⟩
  · cases hv : s.variadic with
    | true =>
      simp only [Signature.Accepts, hv, true_or, and_true, iff_true]
      omega
    | false => cases hc : s.contextual <;> simp [Signature.Accepts, hv]
  · cases hv : s.variadic with
    | true =>
      simp only [hv, Bool.true_eq_false, false_and, or_false, iff_false] at count ⊢
      omega
    | false =>
      simp only [hv, true_and, Bool.toNat_false] at count ⊢
      cases s.contextual <;> simp <;> omega

/-- The function that formats takes two texts. A call with three is told that three are expected. -/
theorem argumentCount_expected_format :
    let e : Evaluation := ⟨⟨.null, .empty⟩, .empty, ⟨"", .invariant, .empty⟩⟩
    e.function? "format" = some Builtin.format
      ∧ e.logged "format" ["1", "F", "x"] = (.error (.argumentCount "format" 3 3), [])
      ∧ e.RefusesCount "format" 3 ∧ ¬ e.RefusesCount "format" 2 := by
  intro e
  have found : e.function? "format" = some Builtin.format := by
    simp [function?, e, Builtin.function?, Builtin.table, NameMap.ofList, NameMap.get?_insert]
  have declared : Builtin.format.params = (⟨[.any, .string], false, true⟩ : Signature).params := rfl
  have refused : e.logged "format" ["1", "F", "x"] = (.error (.argumentCount "format" 3 3), []) :=
    logged_of_count found declared (by decide)
  obtain ⟨-, -, followed, -⟩ := argumentCount_expected found declared refused
  refine ⟨found, refused, ?_, ?_⟩
  · simpa using followed
  · rw [refusesCount_iff found declared]
    decide

end Stencil.Evaluation
