import Mathlib
import Stencil.Proofs.Calls.Signatures
import Stencil.Proofs.Rendering.Faults

/-!
# What a call hands over

A call of a function fails without invoking it, if its parameters cannot be called, if the number of argument texts is
wrong, or if an argument text cannot be looked up or coerced; the first such text decides. Otherwise it invokes the
function once, with one value for each of the single values that are declared, the texts of all others for a variadic
tail, and the context if it is declared.

* `arguments_eq`: the arguments are made of the values that the argument texts are taken as.
* `callIn_pure`: a call whose invocations have effects; without effects it is the call itself.
* `logged_iff_outcome`: what comes out of a call, and what it has invoked then.
-/

namespace Stencil

/-- The arguments that a function gets for the values of argument texts. -/
def Signature.arguments (s : Signature) (values : List Value) : List Arg :=
  (values.take s.types.length).map .value
    ++ if s.variadic then [.strings ((values.drop s.types.length).map Value.text)] else []

namespace Evaluation

variable (e : Evaluation)

/-! ## Values of argument texts -/

section Taking

variable (name : String) (types : List ArgType)

/-- The value that the argument text at a position is taken as: what it stands for, coerced to the type of the single
value that is declared there, if there is one. -/
def taken (position : Nat) (text : String) : Except Error Value := do
  let v ← e.scope.argument text
  match types[position]? with
  | none => return v
  | some type => (v.coerce type).mapError (.parameterConversion name position)

/-- The values of argument texts from a position on. -/
def takenAll (position : Nat) : List String → Except Error (List Value)
  | [] => .ok []
  | text :: texts => do
    let v ← e.taken name types position text
    return v :: (← takenAll (position + 1) texts)

variable {e name types}

/-- Texts are taken one by one. -/
theorem takenAll_ok_iff {position : Nat} {texts : List String} {values : List Value} :
    e.takenAll name types position texts = .ok values
      ↔ values.length = texts.length ∧ ∀ i text, texts[i]? = some text →
        ∃ v, e.taken name types (i + position) text = .ok v ∧ values[i]? = some v := by
  induction texts generalizing position values with
  | nil => simp [takenAll, eq_comm]
  | cons text texts ih =>
    rw [takenAll]
    have shift (i : Nat) : i + (position + 1) = i + 1 + position := by omega
    constructor
    · intro h
      obtain ⟨v, first, h⟩ := except_bind_ok h
      obtain ⟨vs, rest, h⟩ := except_bind_ok h
      cases h
      obtain ⟨length, taken⟩ := ih.1 rest
      refine ⟨by simp [length], fun i other stands => ?_⟩
      cases i with
      | zero =>
        cases stands
        exact ⟨v, by rwa [Nat.zero_add], rfl⟩
      | succ i =>
        rw [← shift]
        exact taken i other stands
    · rintro ⟨length, taken⟩
      cases values with
      | nil => simp at length
      | cons v vs =>
        obtain ⟨w, first, same⟩ := taken 0 text rfl
        cases same
        rw [Nat.zero_add] at first
        have rest : e.takenAll name types (position + 1) texts = .ok vs := by
          refine ih.2 ⟨by simpa using length, fun i other stands => ?_⟩
          rw [shift]
          exact taken (i + 1) other stands
        rw [first, rest]
        rfl

/-- The first text that cannot be taken decides. -/
theorem takenAll_error_iff {position : Nat} {texts : List String} {err : Error} :
    e.takenAll name types position texts = .error err
      ↔ ∃ i text, texts[i]? = some text ∧ e.taken name types (i + position) text = .error err
        ∧ ∀ j < i, ∀ other, texts[j]? = some other → ∃ v, e.taken name types (j + position) other = .ok v := by
  induction texts generalizing position with
  | nil => simp [takenAll]
  | cons text texts ih =>
    rw [takenAll]
    have shift (i : Nat) : i + (position + 1) = i + 1 + position := by omega
    constructor
    · intro h
      rcases except_bind_error h with first | ⟨v, first, h⟩
      · exact ⟨0, text, rfl, by rwa [Nat.zero_add], nofun⟩
      rcases except_bind_error h with rest | ⟨vs, -, h⟩
      · obtain ⟨i, other, stands, fails, before⟩ := ih.1 rest
        refine ⟨i + 1, other, stands, shift i ▸ fails, fun j hj => ?_⟩
        cases j with
        | zero =>
          rintro _ ⟨⟩
          exact ⟨v, by rwa [Nat.zero_add]⟩
        | succ j =>
          rw [← shift]
          exact before j (by omega)
      · cases h
    · rintro ⟨i, other, stands, fails, before⟩
      cases i with
      | zero =>
        cases stands
        rw [Nat.zero_add] at fails
        rw [fails]
        rfl
      | succ i =>
        obtain ⟨v, first⟩ := before 0 (by omega) text rfl
        rw [Nat.zero_add] at first
        have rest : e.takenAll name types (position + 1) texts = .error err := by
          refine ih.2 ⟨i, other, stands, shift i ▸ fails, fun j hj => ?_⟩
          rw [shift]
          exact before (j + 1) (by omega)
        rw [first, rest]
        rfl

theorem takenAll_append (position : Nat) (texts more : List String) :
    e.takenAll name types position (texts ++ more) = do
      let vs ← e.takenAll name types position texts
      let ws ← e.takenAll name types (position + texts.length) more
      return vs ++ ws := by
  induction texts generalizing position with
  | nil =>
    simp only [List.nil_append, takenAll, List.length_nil, Nat.add_zero]
    cases e.takenAll name types position more <;> rfl
  | cons text texts ih =>
    rw [List.cons_append, takenAll, takenAll, ih, List.length_cons, show position + (texts.length + 1)
      = position + 1 + texts.length by omega]
    cases e.taken name types position text with
    | error err => rfl
    | ok v =>
      cases e.takenAll name types (position + 1) texts with
      | error err => rfl
      | ok vs => cases e.takenAll name types (position + 1 + texts.length) more <;> rfl

/-! ## Arguments -/

theorem adapt_eq {position : Nat} {type : ArgType} (declared : types[position]? = some type) (text : String) :
    e.adapt name position (.value type) text = (e.taken name types position text).map .value := by
  rw [adapt, taken, declared]
  cases e.scope.argument text with
  | error err => rfl
  | ok v =>
    simp only [bind, Except.bind]
    cases v.coerce type <;> rfl

/-- The single values are taken from the first texts. -/
theorem adaptAll_eq {front back : List ArgType} (split : types = front ++ back) (texts : List String) :
    e.adaptAll name front.length (back.map .value) texts
      = (e.takenAll name types front.length (texts.take back.length)).map (List.map .value) := by
  induction back generalizing front texts with
  | nil => rfl
  | cons type back ih =>
    cases texts with
    | nil => rfl
    | cons text texts =>
      have later : e.adaptAll name (front.length + 1) (back.map .value) texts
          = (e.takenAll name types (front.length + 1) (texts.take back.length)).map (List.map .value) := by
        simpa using ih (show types = (front ++ [type]) ++ back by simp [split]) texts
      have declared : types[front.length]? = some type := by simp [split]
      rw [List.map_cons, adaptAll, List.length_cons, List.take_succ_cons, takenAll, later, adapt_eq declared]
      cases e.taken name types front.length text with
      | error err => rfl
      | ok v => cases e.takenAll name types (front.length + 1) (texts.take back.length) <;> rfl

/-- The texts of a variadic tail are those of the values behind the single ones. -/
theorem restTexts_eq {position : Nat} (behind : types.length ≤ position) (texts : List String) :
    e.restTexts texts = (e.takenAll name types position texts).map (List.map Value.text) := by
  induction texts generalizing position with
  | nil => rfl
  | cons text texts ih =>
    rw [restTexts, takenAll, ih (Nat.le_succ_of_le behind), taken, List.getElem?_eq_none_iff.2 behind]
    cases e.scope.argument text with
    | error err => rfl
    | ok v => cases e.takenAll name types (position + 1) texts <;> rfl

/-- If the number of texts is right, the arguments are made of the values that the texts are taken as. -/
theorem arguments_eq {s : Signature} {texts : List String} (count : s.Accepts texts.length) :
    e.arguments name s.params texts = (e.takenAll name s.types 0 texts).map s.arguments := by
  have signature : Function.misplaced? s.params = none :=
    Function.misplaced?_eq_none_iff.2 (Function.exists_signature_iff.1 ⟨s, rfl⟩)
  have fits : ¬ (texts.length < s.types.length ∨ (!s.variadic) = true ∧ s.types.length < texts.length) := by
    simpa [← s.not_accepts_iff] using count
  obtain ⟨enough, notMore⟩ := count
  have single : e.adaptAll name 0 (s.types.map .value) texts
      = (e.takenAll name s.types 0 (texts.take s.types.length)).map (List.map .value) :=
    adaptAll_eq (List.nil_append _).symm texts
  have rest : e.restTexts (texts.drop s.types.length)
      = (e.takenAll name s.types s.types.length (texts.drop s.types.length)).map (List.map Value.text) :=
    restTexts_eq (Nat.le_refl _) _
  have all : e.takenAll name s.types 0 (texts.take s.types.length ++ texts.drop s.types.length) = _ :=
    takenAll_append 0 _ _
  rw [List.take_append_drop, List.length_take_of_le enough, Nat.zero_add] at all
  simp only [arguments, signature, Signature.fixed_params, Signature.isVariadic_params, List.length_map, fits, if_false,
    single, rest, all]
  cases first : e.takenAll name s.types 0 (texts.take s.types.length) with
  | error err => rfl
  | ok vs =>
    have length : vs.length = s.types.length := by
      rw [(takenAll_ok_iff.1 first).1, List.length_take_of_le enough]
    cases hv : s.variadic with
    | true =>
      cases e.takenAll name s.types s.types.length (texts.drop s.types.length) with
      | error err => rfl
      | ok ws => simp [Except.map, bind, Except.bind, pure, Except.pure, Signature.arguments, hv, ← length]
    | false =>
      have none' : texts.drop s.types.length = [] := by
        rw [hv] at notMore
        exact List.drop_eq_nil_iff.2 (by simpa using notMore)
      rw [none', takenAll]
      simp [Except.map, bind, Except.bind, pure, Except.pure, Signature.arguments, hv, ← length]

end Taking

/-! ## Invocations -/

/-- A call in a monad in which invocations have effects. -/
def callIn {m : Type → Type} [Monad m] (invoke : Function → Invocation → m (Except Error Value)) (name : String)
    (texts : List String) : m (Except Error Value) :=
  match e.function? name with
  | none => pure (.error (.unknownFunction name))
  | some f =>
    match e.arguments name f.params texts with
    | .error err => pure (.error err)
    | .ok args => invoke f ⟨name, args, if f.params.getLast? = some .context then some e.surroundings else none⟩

/-- A call whose invocations have no effects is the call itself. -/
theorem callIn_pure {m : Type → Type} [Monad m] (name : String) (texts : List String) :
    e.callIn (m := m) (fun f i => pure (f.invoke i)) name texts = pure (e.call name texts) := by
  unfold callIn call
  cases e.function? name with
  | none => rfl
  | some f =>
    simp only
    cases e.arguments name f.params texts <;> rfl

/-- The invocation of a function, written down behind those before it. -/
def invokeLogged (f : Function) (i : Invocation) : StateM (List Invocation) (Except Error Value) := do
  modify (· ++ [i])
  return f.invoke i

/-- A call with its invocations in order. -/
def logged (name : String) (texts : List String) : Except Error Value × List Invocation :=
  (e.callIn invokeLogged name texts).run []

variable {e} {name : String} {texts : List String} {f : Function} {s : Signature}

/-- Writing invocations down does not change a call. -/
theorem fst_logged : (e.logged name texts).1 = e.call name texts := by
  unfold logged callIn call
  cases e.function? name with
  | none => rfl
  | some f =>
    simp only
    cases e.arguments name f.params texts <;> rfl

section Found

variable (found : e.function? name = some f)

include found

theorem logged_of_error {err : Error} (h : e.arguments name f.params texts = .error err) :
    e.logged name texts = (.error err, []) := by
  simp only [logged, callIn, found, h]
  rfl

theorem logged_of_ok {args : List Arg} (h : e.arguments name f.params texts = .ok args) :
    let i : Invocation := ⟨name, args, if f.params.getLast? = some .context then some e.surroundings else none⟩
    e.logged name texts = (f.invoke i, [i]) := by
  simp only [logged, callIn, found, h]
  rfl

theorem logged_of_misplaced {position : Nat} (misplaced : Function.MisplacedAt f.params position)
    (first : ∀ j < position, ¬ Function.MisplacedAt f.params j) :
    e.logged name texts = (.error (.invalidSignature name position), []) := by
  refine logged_of_error found ?_
  simp only [arguments, Function.misplaced?_eq_some_iff.2 ⟨misplaced, first⟩]

variable (declared : f.params = s.params)

include declared

theorem logged_of_count (count : ¬ s.Accepts texts.length) :
    e.logged name texts = (.error (.argumentCount name f.params.length texts.length), []) := by
  have signature : Function.misplaced? f.params = none :=
    Function.misplaced?_eq_none_iff.2 (Function.exists_signature_iff.1 ⟨s, declared⟩)
  have refused : texts.length < s.types.length ∨ (!s.variadic) = true ∧ s.types.length < texts.length := by
    simpa [← s.not_accepts_iff] using count
  refine logged_of_error found ?_
  simp only [arguments, signature]
  rw [declared, Signature.fixed_params, Signature.isVariadic_params, List.length_map, if_pos refused]

theorem logged_of_takenAll_error (count : s.Accepts texts.length) {err : Error}
    (fails : e.takenAll name s.types 0 texts = .error err) : e.logged name texts = (.error err, []) := by
  refine logged_of_error found ?_
  rw [declared, arguments_eq count, fails]
  rfl

theorem logged_of_takenAll_ok (count : s.Accepts texts.length) {values : List Value}
    (taken : e.takenAll name s.types 0 texts = .ok values) :
    let i : Invocation := ⟨name, s.arguments values, if s.contextual then some e.surroundings else none⟩
    e.logged name texts = (f.invoke i, [i]) := by
  have ok : e.arguments name f.params texts = .ok (s.arguments values) := by
    rw [declared, arguments_eq count, taken]
    rfl
  simpa [declared] using logged_of_ok found ok

end Found

variable (e name f texts)

/-- What comes out of a call of a function, with the invocations that have been made. -/
inductive Outcome : Except Error Value × List Invocation → Prop
  /-- The first misplaced parameter is told, whatever the arguments are. -/
  | invalidSignature (position : Nat) (misplaced : Function.MisplacedAt f.params position)
      (first : ∀ j < position, ¬ Function.MisplacedAt f.params j) :
    Outcome (.error (.invalidSignature name position), [])
  /-- Fewer texts than single values are declared, or more and no variadic tail. -/
  | argumentCount (s : Signature) (declared : f.params = s.params)
      (count : texts.length < s.types.length ∨ s.variadic = false ∧ s.types.length < texts.length) :
    Outcome (.error (.argumentCount name f.params.length texts.length), [])
  /-- The leftmost text that cannot be looked up or coerced decides. -/
  | argument (s : Signature) (declared : f.params = s.params) (count : s.Accepts texts.length) (i : Nat) (text : String)
      (err : Error) (stands : texts[i]? = some text) (fails : e.taken name s.types i text = .error err)
      (first : ∀ j < i, ∀ other, texts[j]? = some other → ∃ v, e.taken name s.types j other = .ok v) :
    Outcome (.error err, [])
  /-- All texts are taken, and the function is invoked once. -/
  | invoked (s : Signature) (declared : f.params = s.params) (count : s.Accepts texts.length) (values : List Value)
      (length : values.length = texts.length)
      (taken : ∀ i text, texts[i]? = some text → ∃ v, e.taken name s.types i text = .ok v ∧ values[i]? = some v)
      (i : Invocation)
      (given : i = ⟨name, s.arguments values, if s.contextual then some e.surroundings else none⟩) :
    Outcome (f.invoke i, [i])

variable {e name f texts}

theorem outcome_logged (found : e.function? name = some f) : Outcome e name texts f (e.logged name texts) := by
  cases hm : Function.misplaced? f.params with
  | some position =>
    obtain ⟨misplaced, first⟩ := Function.misplaced?_eq_some_iff.1 hm
    rw [logged_of_misplaced found misplaced first]
    exact .invalidSignature position misplaced first
  | none =>
    obtain ⟨s, declared⟩ := Function.exists_signature_iff.2 (Function.misplaced?_eq_none_iff.1 hm)
    by_cases count : s.Accepts texts.length
    · cases ht : e.takenAll name s.types 0 texts with
      | error err =>
        rw [logged_of_takenAll_error found declared count ht]
        obtain ⟨i, text, stands, fails, first⟩ := takenAll_error_iff.1 ht
        exact .argument s declared count i text err stands fails first
      | ok values =>
        rw [logged_of_takenAll_ok found declared count ht]
        obtain ⟨length, taken⟩ := takenAll_ok_iff.1 ht
        exact .invoked s declared count values length taken _ rfl
    · rw [logged_of_count found declared count]
      exact .argumentCount s declared (s.not_accepts_iff.1 count)

theorem logged_of_outcome (found : e.function? name = some f) {o : Except Error Value × List Invocation}
    (h : Outcome e name texts f o) : e.logged name texts = o := by
  cases h with
  | invalidSignature position misplaced first => exact logged_of_misplaced found misplaced first
  | argumentCount s declared count => exact logged_of_count found declared (s.not_accepts_iff.2 count)
  | argument s declared count i text err stands fails first =>
    exact logged_of_takenAll_error found declared count (takenAll_error_iff.2 ⟨i, text, stands, fails, first⟩)
  | invoked s declared count values length taken i given =>
    subst given
    exact logged_of_takenAll_ok found declared count (takenAll_ok_iff.2 ⟨length, taken⟩)

/-- **What a call of a function gives, and what it has invoked then.** The function may be registered under any spelling
of the name; those of the host come before the built-in ones. -/
theorem logged_iff_outcome {other : String} (same : fold name = fold other)
    (registered : e.functions.get? other = some f ∨ e.functions.get? other = none ∧ Builtin.function? other = some f)
    (texts : List String) (o : Except Error Value × List Invocation) :
    (e.logged name texts = o ↔ Outcome e name texts f o) ∧ (e.logged name texts).1 = e.call name texts
      ∧ ((∃ s : Signature, f.params = s.params) ↔ ∀ position, ¬ Function.MisplacedAt f.params position) := by
  have found : e.function? name = some f := by
    rw [function?, e.functions.get?_congr same, Builtin.function?, Builtin.table.get?_congr same]
    rcases registered with host | ⟨absent, builtin⟩
    · rw [host, Option.some_or]
    · rw [absent, Option.none_or]
      exact builtin
  exact ⟨⟨fun h => h ▸ outcome_logged found, logged_of_outcome found⟩, fst_logged, Function.exists_signature_iff⟩

/-- A function of the host in the place of a built-in one, with a parameter of each kind. -/
theorem logged_iff_outcome_host :
    let f : Function := ⟨[.value .integer, .rest, .context], fun _ => .ok .null⟩
    let e : Evaluation := ⟨⟨.null, .empty⟩, .ofList [("Equals", f)], ⟨"", .invariant, .empty⟩⟩
    fold "EQUALS" = fold "Equals" ∧ e.functions.get? "Equals" = some f
      ∧ e.logged "EQUALS" ["7", "a", "b"]
        = (.ok .null, [⟨"EQUALS", [.value (.integer 7), .strings ["a", "b"]], some e.surroundings⟩]) := by
  intro f e
  have same : fold "EQUALS" = fold "Equals" := by cbv
  have host : e.functions.get? "Equals" = some f := by cbv
  have taken : ∀ i text, ["7", "a", "b"][i]? = some text → ∃ v, e.taken "EQUALS" [.integer] i text = .ok v
      ∧ [Value.integer 7, .string "a", .string "b"][i]? = some v := by
    rintro (_ | _ | _ | i) text stands
    iterate 3
      cases stands
      exact ⟨_, by cbv, rfl⟩
    cases stands
  refine ⟨same, host, ((logged_iff_outcome same (.inl host) _ _).1).2 ?_⟩
  exact .invoked ⟨[.integer], true, true⟩ rfl (by decide) [.integer 7, .string "a", .string "b"] rfl taken _ rfl

end Evaluation

end Stencil
