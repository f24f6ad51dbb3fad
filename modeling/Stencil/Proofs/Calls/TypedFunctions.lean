import Stencil.Proofs.Calls.Delivery

/-!
# Calls of typed functions

A typed function declares its parameters by their types. What a call hands over suits them: as many arguments as there
are parameters, each of them null or of the declared type. So each parameter takes its own argument out, and none is
absent. All that can go wrong is null for a parameter that demands a value; the first such parameter is told.

* `extract_of_suits`: an argument that suits a parameter is taken out, unless it is null and a value is demanded.
* `applied_applyArgs`: a function that is applied to arguments that suit its parameters.
* `coerce_typed_call`: coercion, and the calls of all typed functions.
-/

namespace Stencil

/-! ## Coercion -/

theorem Value.eq_null_iff_of_coerce {type : ArgType} {v w : Value} (h : coerce type v = .ok w) :
    w = .null ↔ v = .null := by
  constructor
  · rintro rfl
    by_contra notNull
    by_cases wanted : type = .any
    · subst wanted
      rw [coerce_any] at h
      cases h
      exact notNull rfl
    · cases isOf_of_coerce h wanted notNull
  · rintro rfl
    cases h
    rfl

/-! ## Parameters and what suits them -/

/-- Whether an argument may come out of a call for a parameter of a kind. -/
def ParamKind.Suits : ParamKind → Arg → Prop
  | .value type, .value w => ∃ v, Value.coerce type v = .ok w
  | .rest, .strings _ => True
  | _, _ => False

/-- Whether a parameter demands a value, and gets null. -/
def ParamType.Lacks (p : ParamType) (type : ArgType) (arg : Arg) : Prop :=
  p = .value type ∧ type ≠ .any ∧ arg = .value .null

namespace ParamType

variable {p : ParamType} {arg : Arg}

theorem extract_optional (h : arg ≠ .value .null) : (optional p).extract arg = (p.extract arg).map some := by
  cases arg with
  | strings texts => rfl
  | value v =>
    cases v with
    | null => exact absurd rfl h
    | _ => rfl

/-- An argument that suits a parameter is taken out, unless the parameter demands a value and gets null. -/
theorem extract_of_suits (h : p.kind.Suits arg) :
    ((∃ x, p.extract arg = .ok x) ∧ ∀ type, ¬ p.Lacks type arg)
      ∨ ∃ type, p.Lacks type arg ∧ p.extract arg = .error (.mismatch type.name "null") := by
  induction p with
  | value type =>
    cases arg with
    | strings texts => cases h
    | value w =>
      obtain ⟨v, coerced⟩ := h
      by_cases null : w = .null
      · subst null
        by_cases wanted : type = .any
        · subst wanted
          refine .inl ⟨⟨.null, rfl⟩, ?_⟩
          rintro type ⟨same, notAny, -⟩
          cases same
          exact notAny rfl
        · refine .inr ⟨type, ⟨rfl, wanted, rfl⟩, ?_⟩
          cases type with
          | any => exact absurd rfl wanted
          | _ => rfl
      · refine .inl ⟨?_, fun type' lacks => null (by cases lacks.2.2; rfl)⟩
        exact ArgType.extract_of_coerce coerced fun source => null ((Value.eq_null_iff_of_coerce coerced).2 source)
  | optional p ih =>
    refine .inl ⟨?_, fun type lacks => by cases lacks.1⟩
    by_cases null : arg = .value .null
    · exact ⟨none, by rw [null]; rfl⟩
    · rcases ih h with ⟨⟨x, taken⟩, -⟩ | ⟨type, lacks, -⟩
      · exact ⟨some x, by rw [extract_optional null, taken]; rfl⟩
      · exact absurd lacks.2.2 null
  | rest =>
    cases arg with
    | strings texts => exact .inl ⟨⟨texts, rfl⟩, fun type lacks => by cases lacks.1⟩
    | value w => cases h

end ParamType

/-! ## Applying a function to its arguments -/

/-- Values of the given types. -/
@[reducible] def Carriers : List ParamType → Type
  | [] => Unit
  | p :: ps => p.Carrier × Carriers ps

def applyAll {α : Type} : (ps : List ParamType) → Curried α ps → Carriers ps → α
  | [], a, _ => a
  | _ :: ps, f, (x, xs) => applyAll ps (f x) xs

/-- Whether each parameter takes its value out of its own argument, and none is absent. -/
def TakesOut : (ps : List ParamType) → List Arg → Carriers ps → Prop
  | [], [], _ => True
  | p :: ps, arg :: args, (x, xs) => p.extract arg = .ok x ∧ TakesOut ps args xs
  | [], _ :: _, _ => False
  | _ :: _, [], _ => False

/-- Whether the parameter at a position demands a value of a type, and gets null. -/
def LacksAt (ps : List ParamType) (args : List Arg) (position : Nat) (type : ArgType) : Prop :=
  ∃ p arg, ps[position]? = some p ∧ args[position]? = some arg ∧ p.Lacks type arg

/-- What comes of a function that is applied to arguments, the first of which is at a position: the fault of the first
parameter that demands a value and gets null, or else what the function makes of the values that are taken out. -/
inductive Applied {α : Type} (name : String) (position : Nat) (ps : List ParamType) (args : List Arg)
    (compute : Carriers ps → α) : Except Error α → Prop
  | lacking (i : Nat) (type : ArgType) (lacks : LacksAt ps args i type)
      (first : ∀ j < i, ∀ other, ¬ LacksAt ps args j other) :
    Applied name position ps args compute
      (.error (.parameterConversion name (i + position) (.mismatch type.name "null")))
  | computed (free : ∀ j other, ¬ LacksAt ps args j other) (xs : Carriers ps) (out : TakesOut ps args xs) :
    Applied name position ps args compute (.ok (compute xs))

section Apply

variable {α : Type} {name : String} {position : Nat} {p : ParamType} {ps : List ParamType} {arg : Arg} {args : List Arg}
  {type : ArgType}

@[simp] theorem lacksAt_zero : LacksAt (p :: ps) (arg :: args) 0 type ↔ p.Lacks type arg := by
  simp [LacksAt]

@[simp] theorem lacksAt_succ {i : Nat} : LacksAt (p :: ps) (arg :: args) (i + 1) type ↔ LacksAt ps args i type :=
  Iff.rfl

theorem Applied.map {β : Type} {compute : Carriers ps → α} {o : Except Error α}
    (h : Applied name position ps args compute o) (g : α → β) :
    Applied name position ps args (fun xs => g (compute xs)) (o.map g) := by
  cases h with
  | lacking i type lacks first => exact .lacking i type lacks first
  | computed free xs out => exact .computed free xs out

/-- A function is applied to arguments that suit its parameters. -/
theorem applied_applyArgs (suits : List.Forall₂ (fun p arg => ParamKind.Suits p.kind arg) ps args) (f : Curried α ps) :
    Applied name position ps args (applyAll ps f) (applyArgs name position ps f args) := by
  induction suits generalizing position with
  | nil => exact .computed (fun j other lacks => by simp [LacksAt] at lacks) () trivial
  | @cons p arg ps args first rest ih =>
    rcases ParamType.extract_of_suits first with ⟨⟨x, taken⟩, none'⟩ | ⟨type, lacks, fault⟩
    · simp only [applyArgs, taken]
      have later : Applied name (position + 1) ps args (applyAll ps (f x))
          (applyArgs name (position + 1) ps (f x) args) := ih (f x)
      generalize applyArgs name (position + 1) ps (f x) args = o at later ⊢
      cases later with
      | lacking i type lacks before =>
        rw [← Nat.add_assoc, Nat.add_right_comm]
        refine .lacking (i + 1) type lacks fun j hj => ?_
        cases j with
        | zero => simpa using none'
        | succ j => simpa using before j (by omega)
      | computed free xs out =>
        have free' (j : Nat) (other : ArgType) : ¬ LacksAt (p :: ps) (arg :: args) j other := by
          cases j with
          | zero => simpa using none' other
          | succ j => simpa using free j other
        have out' : TakesOut (p :: ps) (arg :: args) (x, xs) := ⟨taken, out⟩
        exact .computed free' (x, xs) out'
    · simp only [applyArgs, fault]
      have told : Applied name position (p :: ps) (arg :: args) (applyAll (p :: ps) f)
          (.error (.parameterConversion name (0 + position) (.mismatch type.name "null"))) :=
        .lacking 0 type (lacksAt_zero.2 lacks) fun j hj => absurd hj j.not_lt_zero
      rwa [Nat.zero_add] at told

end Apply

/-! ## Arguments of typed functions -/

theorem ParamType.kind_ne_context (p : ParamType) : p.kind ≠ .context := by
  induction p with
  | optional p ih => exact ih
  | _ => simp [kind]

theorem context_notMem_kinds (ps : List ParamType) : .context ∉ ps.map ParamType.kind := by
  rintro h
  obtain ⟨p, -, same⟩ := List.mem_map.1 h
  exact p.kind_ne_context same

namespace Function

/-- A function made of a typed one, and what it makes of the values of its parameters. -/
inductive Wraps (ps : List ParamType) : Function → (Carriers ps → Surroundings → Value) → Prop
  | typed (f : Curried Value ps) : Wraps ps (.typed ps f) fun xs _ => applyAll ps f xs
  | contextual (f : Curried (Surroundings → Value) ps) : Wraps ps (.contextual ps f) fun xs c => applyAll ps f xs c

variable {ps : List ParamType} {f : Function} {compute : Carriers ps → Surroundings → Value}

theorem Wraps.positional (wraps : f.Wraps ps compute) : positional f.params = ps.map ParamType.kind := by
  cases wraps with
  | typed g =>
    refine if_neg fun last => context_notMem_kinds ps (List.mem_of_getLast? last)
  | contextual g => simp [Function.positional, Function.contextual]

/-- An invocation hands over arguments that suit the parameters, and the context where it is declared. -/
theorem Wraps.applied (wraps : f.Wraps ps compute) {args : List Arg}
    (suits : List.Forall₂ (fun p arg => ParamKind.Suits p.kind arg) ps args) (name : String) (c : Surroundings) :
    Applied name 0 ps args (compute · c)
      (f.invoke ⟨name, args, if f.params.getLast? = some .context then some c else none⟩) := by
  cases wraps with
  | typed g => exact applied_applyArgs suits g
  | contextual g =>
    have given : (if (Function.contextual ps g).params.getLast? = some .context then some c else none) = some c :=
      if_pos (by simp [Function.contextual])
    rw [given]
    exact (applied_applyArgs suits g).map fun g => g c

end Function

/-! ## Calls -/

namespace Evaluation

variable {e : Evaluation} {name : String} {texts : List String} {f : Function} {ps : List ParamType}
  {compute : Carriers ps → Surroundings → Value}

theorem suits_of_taken {types : List ArgType} {position : Nat} {type : ArgType} {text : String} {w : Value}
    (declared : types[position]? = some type) (taken : e.taken name types position text = .ok w) :
    (ParamKind.value type).Suits (.value w) := by
  obtain ⟨v, -, h⟩ := except_bind_ok taken
  rw [declared] at h
  cases hc : v.coerce type with
  | error fault => simp only [hc] at h; cases h
  | ok w' =>
    simp only [hc] at h
    cases h
    exact ⟨v, hc⟩

/-- What is handed over suits the parameters that are filled from argument texts. -/
theorem suits_arguments {s : Signature} (count : s.Accepts texts.length) {values : List Value}
    (taken : e.takenAll name s.types 0 texts = .ok values) :
    List.Forall₂ ParamKind.Suits s.positional (s.arguments values) := by
  obtain ⟨length, each⟩ := takenAll_ok_iff.1 taken
  refine List.rel_append ?_ ?_
  · rw [List.forall₂_map_left_iff, List.forall₂_map_right_iff, List.forall₂_iff_get]
    have enough := count.1
    refine ⟨by rw [List.length_take]; omega, fun i inside inside' => ?_⟩
    obtain ⟨w, out, same⟩ := each i texts[i] (List.getElem?_eq_getElem (by omega))
    have value : (values.take s.types.length).get ⟨i, inside'⟩ = w := by
      rw [List.get_eq_getElem, List.getElem_take]
      exact (List.getElem?_eq_some_iff.1 same).2
    rw [value]
    exact suits_of_taken (List.getElem?_eq_getElem inside) out
  · cases s.variadic with
    | true => exact .cons trivial .nil
    | false => exact .nil

/-- A call of a typed function fails without invoking it, or hands over an argument for each parameter. -/
theorem call_of_wraps (found : e.function? name = some f) (wraps : f.Wraps ps compute) :
    ((e.logged name texts).2 = [] ∧ ∃ err, e.call name texts = .error err)
      ∨ ∃ i, (e.logged name texts).2 = [i] ∧ i.args.length = ps.length
        ∧ Applied name 0 ps i.args (compute · e.surroundings) (e.call name texts) := by
  simp only [← fst_logged (e := e)]
  have outcome : Outcome e name texts f (e.logged name texts) := outcome_logged found
  generalize e.logged name texts = o at outcome ⊢
  cases outcome with
  | invalidSignature | argumentCount | argument => exact .inl ⟨rfl, _, rfl⟩
  | invoked s declared count values length taken i given =>
    have suits : List.Forall₂ (fun p arg => ParamKind.Suits p.kind arg) ps (s.arguments values) := by
      have positional := wraps.positional
      rw [declared, s.positional_params] at positional
      rw [← List.forall₂_map_left_iff, ← positional]
      exact suits_arguments count (takenAll_ok_iff.2 ⟨length, taken⟩)
    have handed : i = ⟨name, s.arguments values,
        if f.params.getLast? = some .context then some e.surroundings else none⟩ := by
      simpa [declared] using given
    subst handed
    exact .inr ⟨_, rfl, suits.length_eq.symm, wraps.applied suits name e.surroundings⟩

/-- **Coercion and typed functions agree.** A coerced value is null where the value is, and has the wanted type
otherwise, and coercing it once more changes nothing. A typed function that is invoked gets an argument for each
parameter; it fails at the first parameter that demands a value and gets null, and otherwise computes on the values that
the parameters take out. -/
theorem coerce_typed_call :
    (∀ type v w, Value.coerce type v = .ok w →
        (w = .null ↔ v = .null) ∧ (w ≠ .null → type ≠ .any → w.typeName = type.name) ∧ Value.coerce type w = .ok w)
      ∧ ∀ (e : Evaluation) name texts f ps (compute : Carriers ps → Surroundings → Value),
        e.function? name = some f → f.Wraps ps compute →
        ((e.logged name texts).2 = [] ∧ ∃ err, e.call name texts = .error err)
          ∨ ∃ i, (e.logged name texts).2 = [i] ∧ i.args.length = ps.length
            ∧ Applied name 0 ps i.args (compute · e.surroundings) (e.call name texts) := by
  refine ⟨fun type v w coerced => ?_, fun e name texts f ps compute found wraps => call_of_wraps found wraps⟩
  have null := Value.eq_null_iff_of_coerce coerced
  refine ⟨null, fun notNull wanted => ?_, Value.coerce_of_coerce coerced⟩
  exact Value.typeName_of_coerce coerced wanted fun source => notNull (null.2 source)

/-- Null is taken out for an optional integer, and told for one that is demanded. -/
theorem coerce_typed_call_null :
    let sum : Function := .typed [.optional .integer, .integer] fun (a : Option Int64) (b : Int64) =>
      .integer (a.getD 0 + b)
    let e : Evaluation := ⟨⟨.null, .empty⟩, .ofList [("sum", sum)], ⟨"", .invariant, .empty⟩⟩
    Value.coerce .integer (.bool true) = .ok (.integer 1) ∧ Value.coerce .integer (.integer 1) = .ok (.integer 1)
      ∧ e.function? "sum" = some sum
      ∧ e.logged "sum" [".", "."]
        = (.error (.parameterConversion "sum" 1 (.mismatch "integer" "null")),
          [⟨"sum", [.value .null, .value .null], none⟩])
      ∧ ∃ i, (e.logged "sum" [".", "."]).2 = [i] ∧ i.args.length = 2 := by
  intro sum e
  have found : e.function? "sum" = some sum := by
    simp [function?, e, NameMap.ofList, NameMap.get?_insert]
  obtain ⟨laws, calls⟩ := coerce_typed_call
  have taken : e.takenAll "sum" [.integer, .integer] 0 [".", "."] = .ok [.null, .null] := by cbv
  have once := logged_of_takenAll_ok found (s := ⟨[.integer, .integer], false, false⟩) rfl (by decide) taken
  refine ⟨rfl, (laws .integer (.bool true) _ rfl).2.2, found, once.trans rfl, ?_⟩
  rcases calls e "sum" [".", "."] sum _ _ found (.typed _) with ⟨none', -⟩ | ⟨i, made, all, -⟩
  · rw [once] at none'
    cases none'
  · exact ⟨i, made, all⟩

end Evaluation

end Stencil
