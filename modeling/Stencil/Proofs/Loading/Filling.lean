import Stencil.Proofs.Loading.Confinement
import Stencil.Proofs.Loading.Pending

/-!
# Filling a registry

Filling loads the pending names in rounds. A round either ends with the error of the name that is first then, or leaves
none of the names pending that it began with. Names that become pending are references of templates that the loader has
or can read; they are as many as `Loader.roundBound` counts, so that the rounds do not run out.

* `Loader.loadPending_drains`: filling comes to an end, as without a bound for the rounds.
* `Loader.loadPending_ok`: after filling without an error no name is pending.
* `Loader.loadPending_again`: filling that has failed fails alike when it is tried again.
* `Loader.loadPending_induction`: what each loaded name preserves holds after filling, with an error or not.
-/

namespace Stencil

namespace Loader

variable {fs : FileSystem} {l : Loader} {c : Context} {name : String} {names : List String} {s s' : FillState}
  {t : Template} {e : Error} {P : Template → Prop}

/-! ## What a loader gives -/

/-- A source is not found, or it is read. -/
theorem read_cases (l : Loader) (fs : FileSystem) (name : String) :
    (∃ e, l.source fs name = .error e ∧ l.read fs name = (.error e, []))
      ∨ ∃ text options, l.source fs name = .ok text ∧ l.read fs name
        = ((Template.parseTraced text options).1.mapError .parse, (Template.parseTraced text options).2) := by
  unfold read
  cases l.source fs name with
  | error e => exact .inl ⟨e, rfl, rfl⟩
  | ok text => exact .inr ⟨text, _, rfl, rfl⟩

/-- A name is refused, or it was loaded before, or it is read, with an error or not. -/
theorem load_cases (l : Loader) (fs : FileSystem) (name : String) :
    (∃ fault, l.load fs name = (.error (.load (.invalidName name fault)), l, []))
      ∨ (∃ t, l.cache.lookup name = some t ∧ l.load fs name = (.ok t, l, []))
      ∨ (∃ t events, l.read fs name = (.ok t, events)
        ∧ l.load fs name = (.ok t, { l with cache := (name, t) :: l.cache }, events))
      ∨ ∃ e events, l.read fs name = (.error e, events) ∧ l.load fs name = (.error e, l, events) := by
  unfold load
  cases nameFault? name with
  | some fault => exact .inl ⟨fault, rfl⟩
  | none =>
    cases l.cache.lookup name with
    | some t => exact .inr (.inl ⟨t, rfl, rfl⟩)
    | none =>
      rcases l.read fs name with ⟨e | t, events⟩
      · exact .inr (.inr (.inr ⟨e, events, rfl, rfl⟩))
      · exact .inr (.inr (.inl ⟨t, events, rfl, rfl⟩))

/-- What is read is read from a text of the file system. -/
theorem exists_text_of_read (h : (l.read fs name).1 = .ok t) :
    ∃ text ∈ fs.texts, ∃ options, (Template.parseTraced text options).1 = .ok t := by
  rcases read_cases l fs name with ⟨e, -, read⟩ | ⟨text, options, hs, read⟩
  · rw [read] at h
    cases h
  · refine ⟨text, ?_, options, ?_⟩
    · rw [source_eq] at hs
      split at hs
      · cases hs
      split at hs
      · cases found : fs.read (l.path name) with
        | error fault => rw [found] at hs; cases hs
        | ok text =>
          rw [found] at hs
          cases hs
          exact FileSystem.mem_texts_of_read found
      · cases hs
    · rw [read] at h
      cases hr : (Template.parseTraced text options).1 with
      | error e => rw [hr] at h; cases h
      | ok u => rw [hr] at h; cases h; rfl

/-- Whether all templates that were loaded have a property. -/
def Cached (P : Template → Prop) (l : Loader) : Prop := ∀ entry ∈ l.cache, P entry.2

/-- Whether all templates that can be read have a property. -/
def Readable (P : Template → Prop) (fs : FileSystem) : Prop :=
  ∀ text ∈ fs.texts, ∀ options t, (Template.parseTraced text options).1 = .ok t → P t

/-- What holds of what was loaded and can be read holds of what is loaded. -/
theorem load_holds (cached : l.Cached P) (readable : Readable P fs) (name : String) :
    (l.load fs name).2.1.Cached P ∧ ∀ t, (l.load fs name).1 = .ok t → P t := by
  rcases load_cases l fs name with ⟨fault, load⟩ | ⟨u, found, load⟩ | ⟨u, events, read, load⟩ | ⟨e, events, -, load⟩ <;>
    rw [load]
  · exact ⟨cached, nofun⟩
  · obtain ⟨before, after, split, -⟩ := List.lookup_eq_some_iff.1 found
    have held : P u := cached (name, u) (by simp [split])
    exact ⟨cached, fun t h => Except.ok.inj h ▸ held⟩
  · obtain ⟨text, member, options, parsed⟩ := exists_text_of_read (show (l.read fs name).1 = .ok u by rw [read])
    have held : P u := readable text member options u parsed
    refine ⟨?_, fun t h => Except.ok.inj h ▸ held⟩
    rintro entry (_ | ⟨_, member⟩)
    · exact held
    · exact cached entry member
  · exact ⟨cached, nofun⟩

/-- A loader that fails is as it was. -/
theorem load_of_error (h : (l.load fs name).1 = .error e) : (l.load fs name).2.1 = l := by
  rcases load_cases l fs name with ⟨_, load⟩ | ⟨_, -, load⟩ | ⟨_, _, -, load⟩ | ⟨_, _, -, load⟩ <;> rw [load] at h ⊢
  cases h

/-! ## Runs -/

theorem run_bind {α β : Type} (r : Fill α) (f : α → Fill β) (s : FillState) :
    (r >>= f).run s = match r.run s with
      | (.ok a, s') => (f a).run s'
      | (.error e, s') => (.error e, s') := by
  show ExceptT.bindCont f (r.run s).1 (r.run s).2 = _
  rcases r.run s with ⟨_ | _, t⟩ <;> rfl

theorem run_fill (fs : FileSystem) (name : String) (s : FillState) :
    (fill fs name).run s = match s.loader.load fs name with
      | (.ok t, l, events) => (.ok (), ⟨l, s.context.addTemplate name t, s.events ++ events ++ [.loaded name]⟩)
      | (.error e, l, events) => (.error e, ⟨l, s.context, s.events ++ events⟩) := by
  unfold fill
  rw [run_bind]
  show (_ : Fill Unit).run s = _
  rcases h : s.loader.load fs name with ⟨_ | t, l, events⟩ <;> rfl

theorem run_forM_cons (fs : FileSystem) (name : String) (names : List String) (s : FillState) :
    ((name :: names).forM (fill fs)).run s = match (fill fs name).run s with
      | (.ok _, s') => (names.forM (fill fs)).run s'
      | (.error e, s') => (.error e, s') := by
  rw [List.forM_eq_forM, List.forM_cons, run_bind]
  rcases (fill fs name).run s with ⟨_ | _, s'⟩ <;> rfl

/-- A round, and the rounds behind it. -/
theorem run_rounds_succ (fs : FileSystem) (n : Nat) (s : FillState) :
    (rounds fs (n + 1)).run s =
      if s.context.templates.pending = [] then (.ok 0, s)
      else match (s.context.templates.pending.forM (fill fs)).run s with
        | (.error e, s') => (.error e, s')
        | (.ok _, s') => match (rounds fs n).run s' with
          | (.error e, s'') => (.error e, s'')
          | (.ok k, s'') => (.ok (s.context.templates.pending.length + k), s'') := by
  rw [rounds, run_bind]
  show (_ : Fill Nat).run s = _
  by_cases complete : s.context.templates.pending = []
  · rw [if_pos complete, if_pos (by rw [complete]; rfl)]
    rfl
  · rw [if_neg complete, if_neg (by simpa using complete), run_bind]
    rcases (s.context.templates.pending.forM (fill fs)).run s with ⟨_ | _, s'⟩
    · rfl
    · simp only [run_bind]
      rcases (rounds fs n).run s' with ⟨_ | _, s''⟩ <;> rfl

/-- What each name preserves is preserved by a round, whether it ends with an error or not. -/
theorem forM_induction {P : FillState → Prop} (step : ∀ s name, P s → P ((fill fs name).run s).2)
    (names : List String) (start : P s) : P ((names.forM (fill fs)).run s).2 := by
  induction names generalizing s with
  | nil => exact start
  | cons name names ih =>
    have first := step s name start
    rw [run_forM_cons]
    generalize (fill fs name).run s = r at first ⊢
    rcases r with ⟨_ | _, s'⟩
    · exact first
    · exact ih first

theorem rounds_induction {P : FillState → Prop} (step : ∀ s name, P s → P ((fill fs name).run s).2) (n : Nat)
    (start : P s) : P ((rounds fs n).run s).2 := by
  induction n generalizing s with
  | zero => exact start
  | succ n ih =>
    rw [run_rounds_succ]
    split
    · exact start
    have first := forM_induction step s.context.templates.pending start
    generalize (s.context.templates.pending.forM (fill fs)).run s = r at first ⊢
    rcases r with ⟨_ | _, s'⟩
    · exact first
    · have rest := ih first
      simp only
      generalize (rounds fs n).run s' = r at rest ⊢
      rcases r with ⟨_ | _, s''⟩ <;> exact rest

theorem loadPending_induction {P : FillState → Prop} (step : ∀ s name, P s → P ((fill fs name).run s).2)
    (start : P ⟨l, c, []⟩) : P (l.loadPending fs c).2 :=
  rounds_induction step _ start

/-- Names occur once, also behind an error. -/
theorem nodup_fill (nodup : s.context.templates.keys.Nodup) :
    ((fill fs name).run s).2.context.templates.keys.Nodup := by
  rw [run_fill]
  rcases s.loader.load fs name with ⟨_ | t, l, events⟩
  · exact nodup
  · exact Registry.nodup_add nodup name t

theorem nodup_loadPending (nodup : c.templates.keys.Nodup) (l : Loader) (fs : FileSystem) :
    (l.loadPending fs c).2.context.templates.keys.Nodup :=
  loadPending_induction (P := fun s => s.context.templates.keys.Nodup) (fun _ _ => nodup_fill) nodup

/-- Nothing of a context is changed but its registry. -/
theorem loadPending_same (l : Loader) (fs : FileSystem) (c : Context) :
    (l.loadPending fs c).2.context = c.withTemplates (l.loadPending fs c).2.context.templates := by
  refine loadPending_induction (P := fun s => s.context = c.withTemplates s.context.templates) ?_ rfl
  intro s name same
  rw [run_fill]
  rcases s.loader.load fs name with ⟨_ | t, l, events⟩
  · exact same
  · show s.context.addTemplate name t = _
    rw [same]
    rfl

/-- There is nothing to do if no name is pending. -/
theorem loadPending_of_complete (complete : c.templates.pending = []) (l : Loader) (fs : FileSystem) :
    l.loadPending fs c = (.ok 0, ⟨l, c, []⟩) := by
  unfold loadPending
  obtain ⟨n, bound⟩ : ∃ n, l.roundBound fs c = n + 1 := ⟨_, rfl⟩
  rw [bound, run_rounds_succ, if_pos complete]

/-! ## One round -/

/-- What loading one name does, if it has no error. -/
theorem fill_ok (h : ((fill fs name).run s).1 = .ok ()) : ∃ t, (s.loader.load fs name).1 = .ok t
    ∧ ((fill fs name).run s).2.context.templates = s.context.templates.add name t := by
  rw [run_fill] at h ⊢
  rcases hl : s.loader.load fs name with ⟨_ | t, l, events⟩
  · rw [hl] at h
    cases h
  · exact ⟨t, rfl, rfl⟩

/-- What loading one name does, if it fails. -/
theorem fill_error (h : ((fill fs name).run s).1 = .error e) : (s.loader.load fs name).1 = .error e
    ∧ ((fill fs name).run s).2.loader = s.loader ∧ ((fill fs name).run s).2.context = s.context := by
  rw [run_fill] at h ⊢
  rcases hl : s.loader.load fs name with ⟨_ | t, l, events⟩
  · rw [hl] at h
    cases h
    have same := load_of_error (show (s.loader.load fs name).1 = .error e by rw [hl])
    rw [hl] at same
    exact ⟨rfl, same, rfl⟩
  · rw [hl] at h
    cases h

/-- Loading the first of the pending names takes it from them. -/
theorem fill_ok_pending {rest : List String} (nodup : s.context.templates.keys.Nodup)
    (head : s.context.templates.pending = name :: rest) (h : ((fill fs name).run s).1 = .ok ()) :
    ((fill fs name).run s).2.context.templates.keys.Nodup
      ∧ ∃ extra, ((fill fs name).run s).2.context.templates.pending = rest ++ extra := by
  obtain ⟨t, -, added⟩ := fill_ok h
  obtain ⟨extra, pending, -⟩ := Registry.pending_add_head nodup head t
  rw [added]
  exact ⟨Registry.nodup_add nodup name t, extra, pending⟩

/-- A round without an error gives all its names templates, and takes none away. -/
theorem forM_ok (h : ((names.forM (fill fs)).run s).1 = .ok ()) :
    (∀ name ∈ names, ((names.forM (fill fs)).run s).2.context.templates.hasTemplate name = true)
      ∧ ∀ name, s.context.templates.hasTemplate name = true →
        ((names.forM (fill fs)).run s).2.context.templates.hasTemplate name = true := by
  induction names generalizing s with
  | nil => exact ⟨nofun, fun _ has => has⟩
  | cons name names ih =>
    have filled (h : ((fill fs name).run s).1 = .ok ()) := fill_ok h
    rw [run_forM_cons] at h ⊢
    generalize (fill fs name).run s = r at h filled ⊢
    rcases r with ⟨_ | _, s'⟩
    · cases h
    obtain ⟨t, -, added⟩ := filled rfl
    have templates : s'.context.templates = s.context.templates.add name t := added
    obtain ⟨given, kept⟩ := ih h
    have own : s'.context.templates.hasTemplate name = true := by
      rw [templates, Registry.hasTemplate, Registry.template?_add, if_pos rfl]
      rfl
    have older (other : String) (has : s.context.templates.hasTemplate other = true) :
        s'.context.templates.hasTemplate other = true := by
      rw [templates, Registry.hasTemplate, Registry.template?_add]
      split
      · rfl
      · exact has
    refine ⟨?_, fun other has => kept other (older other has)⟩
    rintro other (_ | ⟨_, member⟩)
    · exact kept name own
    · exact given other member

/-- A round that fails leaves the name that has failed in front of the pending ones. -/
theorem forM_error {extra : List String} (nodup : s.context.templates.keys.Nodup)
    (pending : s.context.templates.pending = names ++ extra) (h : ((names.forM (fill fs)).run s).1 = .error e) :
    ∃ name rest, ((names.forM (fill fs)).run s).2.context.templates.pending = name :: rest
      ∧ (((names.forM (fill fs)).run s).2.loader.load fs name).1 = .error e := by
  induction names generalizing s extra with
  | nil => cases h
  | cons name names ih =>
    have failed (h : ((fill fs name).run s).1 = .error e) := fill_error h
    have filled (h : ((fill fs name).run s).1 = .ok ()) := fill_ok_pending nodup pending h
    rw [run_forM_cons] at h ⊢
    generalize (fill fs name).run s = r at h failed filled ⊢
    rcases r with ⟨e' | _, s'⟩
    · cases h
      obtain ⟨load, loader, context⟩ := failed rfl
      have loader : s'.loader = s.loader := loader
      have context : s'.context = s.context := context
      exact ⟨name, names ++ extra, by simp only [context, pending, List.cons_append], by simp only [loader, load]⟩
    · obtain ⟨nodup', more, pending'⟩ := filled rfl
      have pending' : s'.context.templates.pending = names ++ (extra ++ more) := by
        rw [← List.append_assoc]
        exact pending'
      exact ih nodup' pending' h

/-! ## Failing again -/

theorem rounds_error {n : Nat} (nodup : s.context.templates.keys.Nodup)
    (h : ((rounds fs n).run s).1 = .error e) :
    ∃ name rest, ((rounds fs n).run s).2.context.templates.pending = name :: rest
      ∧ (((rounds fs n).run s).2.loader.load fs name).1 = .error e := by
  induction n generalizing s with
  | zero => cases h
  | succ n ih =>
    have failed (h : ((s.context.templates.pending.forM (fill fs)).run s).1 = .error e) :=
      forM_error nodup (List.append_nil _).symm h
    have nodup' : ((s.context.templates.pending.forM (fill fs)).run s).2.context.templates.keys.Nodup :=
      forM_induction (P := fun s => s.context.templates.keys.Nodup) (fun _ _ => nodup_fill) _ nodup
    rw [run_rounds_succ] at h ⊢
    split at h
    · cases h
    next some' =>
    rw [if_neg some']
    generalize (s.context.templates.pending.forM (fill fs)).run s = r at h failed nodup' ⊢
    rcases r with ⟨_ | _, s'⟩
    · cases h
      exact failed rfl
    · have rest := ih (s := s') nodup'
      simp only at h ⊢
      generalize (rounds fs n).run s' = r at h rest ⊢
      rcases r with ⟨_ | _, s''⟩
      · exact rest h
      · cases h

/-- Filling that has failed fails alike when it is tried again: what has failed comes first. -/
theorem loadPending_again (nodup : c.templates.keys.Nodup) (h : (l.loadPending fs c).1 = .error e) :
    ((l.loadPending fs c).2.loader.loadPending fs (l.loadPending fs c).2.context).1 = .error e := by
  obtain ⟨name, rest, pending, failed⟩ := rounds_error nodup h
  change (l.loadPending fs c).2.context.templates.pending = _ at pending
  change ((l.loadPending fs c).2.loader.load fs name).1 = _ at failed
  generalize (l.loadPending fs c).2 = s at pending failed ⊢
  unfold loadPending
  obtain ⟨n, bound⟩ : ∃ n, s.loader.roundBound fs s.context = n + 1 := ⟨_, rfl⟩
  rw [bound, run_rounds_succ, if_neg (by simp [pending])]
  simp only [pending, run_forM_cons, run_fill]
  generalize s.loader.load fs name = r at failed ⊢
  rcases r with ⟨_ | _, l', events⟩
  · cases failed
    rfl
  · cases failed

/-! ## Enough rounds -/

/-- The names in a list that have no template. -/
def missing (names : List String) (r : Registry) : Nat := names.countP fun name => !r.hasTemplate name

theorem countP_lt {α : Type} {p q : α → Bool} {xs : List α} {x : α} (imp : ∀ y ∈ xs, q y = true → p y = true)
    (hx : x ∈ xs) (hp : p x = true) (hq : q x = false) : xs.countP q < xs.countP p := by
  obtain ⟨before, after, rfl⟩ := List.append_of_mem hx
  have front : before.countP q ≤ before.countP p :=
    List.countP_mono_left fun y hy => imp y (List.mem_append_left _ hy)
  have back : after.countP q ≤ after.countP p :=
    List.countP_mono_left fun y hy => imp y (List.mem_append_right _ (List.mem_cons_of_mem x hy))
  simp only [List.countP_append, List.countP_cons, hp, hq, if_true, Bool.false_eq_true, if_false]
  omega

/-- Pending names, and what can become pending, are among some names. -/
structure Within (names : List String) (s : FillState) : Prop where
  nodup : s.context.templates.keys.Nodup
  pending : ∀ name ∈ s.context.templates.pending, fold name ∈ names.map fold
  cached : s.loader.Cached fun t => ∀ name ∈ t.references, name ∈ names

theorem Within.fill {allowed : List String}
    (readable : Readable (fun t => ∀ name ∈ t.references, name ∈ allowed) fs) (h : Within allowed s)
    (name : String) : Within allowed ((fill fs name).run s).2 := by
  obtain ⟨cached, given⟩ := load_holds h.cached readable name
  rw [run_fill]
  generalize s.loader.load fs name = r at cached given ⊢
  rcases r with ⟨_ | t, l, events⟩
  · exact ⟨h.nodup, h.pending, cached⟩
  · refine ⟨Registry.nodup_add h.nodup name t, fun other ho => ?_, cached⟩
    obtain ⟨extra, pending, known⟩ := Registry.pending_add h.nodup name t
    have ho : other ∈ (s.context.templates.add name t).pending := ho
    rw [pending] at ho
    rcases List.mem_append.1 ho with ho | ho
    · exact h.pending other (List.mem_filter.1 ho).1
    · exact List.mem_map_of_mem (given t rfl other (known other ho))

/-- A round without an error gives a template to a name that had none. -/
theorem missing_lt (within : Within names s) (some' : s.context.templates.pending ≠ [])
    (h : ((s.context.templates.pending.forM (fill fs)).run s).1 = .ok ()) :
    missing names ((s.context.templates.pending.forM (fill fs)).run s).2.context.templates
      < missing names s.context.templates := by
  obtain ⟨given, kept⟩ := forM_ok h
  obtain ⟨first, others, pending⟩ := List.exists_cons_of_ne_nil some'
  have member : first ∈ s.context.templates.pending := pending ▸ List.mem_cons_self
  -- A name of the list that is spelled like the first pending name had no template, and has one now.
  obtain ⟨name, known, same⟩ := List.mem_map.1 (within.pending first member)
  have alike (r : Registry) : r.hasTemplate name = r.hasTemplate first := by
    rw [Registry.hasTemplate, Registry.hasTemplate, Registry.template?, Registry.template?, NameMap.get?_congr r same]
  refine countP_lt (fun other _ absent => ?_) known ?_ ?_
  · cases has : s.context.templates.hasTemplate other with
    | false => rfl
    | true => rw [kept other has] at absent; cases absent
  · rw [alike, Registry.hasTemplate, Registry.template?_of_mem_pending within.nodup member]
    rfl
  · rw [alike, given first member]
    rfl

/-- Loading all pending names, then those that have become pending, and so on without a bound, comes to an end: with
what it gives, and what is filled then. -/
inductive Drains (fs : FileSystem) : FillState → Except Error Nat → FillState → Prop
  | done {s : FillState} (complete : s.context.templates.pending = []) : Drains fs s (.ok 0) s
  | failed {s s' : FillState} {e : Error} (some' : s.context.templates.pending ≠ [])
      (round : (s.context.templates.pending.forM (fill fs)).run s = (.error e, s')) : Drains fs s (.error e) s'
  | round {s s' s'' : FillState} {r : Except Error Nat} (some' : s.context.templates.pending ≠ [])
      (round : (s.context.templates.pending.forM (fill fs)).run s = (.ok (), s')) (rest : Drains fs s' r s'') :
      Drains fs s (r.map (s.context.templates.pending.length + ·)) s''

/-- Rounds come to an end before they run out if every round but the last is for a name that has no template. -/
theorem rounds_drains (readable : Readable (fun t => ∀ name ∈ t.references, name ∈ names) fs) {n : Nat}
    (within : Within names s) (enough : missing names s.context.templates < n) :
    Drains fs s ((rounds fs n).run s).1 ((rounds fs n).run s).2 := by
  induction n generalizing s with
  | zero => omega
  | succ n ih =>
    have within' : Within names ((s.context.templates.pending.forM (Loader.fill fs)).run s).2 :=
      forM_induction (fun _ name h => h.fill readable name) _ within
    rw [run_rounds_succ]
    by_cases complete : s.context.templates.pending = []
    · rw [if_pos complete]
      exact .done complete
    have fewer (ok : ((s.context.templates.pending.forM (Loader.fill fs)).run s).1 = .ok ()) :=
      missing_lt within complete ok
    rw [if_neg complete]
    cases round : (s.context.templates.pending.forM (fill fs)).run s with
    | mk r s' =>
      rw [round] at within' fewer
      rcases r with e | _
      · exact .failed complete round
      · have less : missing names s'.context.templates < missing names s.context.templates := fewer rfl
        have all := Drains.round complete round (ih (s := s') within' (by omega))
        simp only
        generalize (rounds fs n).run s' = r at all ⊢
        rcases r with ⟨_ | _, s''⟩ <;> exact all

theorem Drains.pending_eq {r : Except Error Nat} {k : Nat} (h : Drains fs s r s') (ok : r = .ok k) :
    s'.context.templates.pending = [] := by
  induction h generalizing k with
  | done complete => exact complete
  | failed => cases ok
  | @round _ _ _ r _ _ _ ih =>
    rcases r with _ | k
    · cases ok
    · exact ih rfl

/-- The names that are pending, or are references of what a loader has or can read. -/
def reachable (l : Loader) (fs : FileSystem) (c : Context) : List String :=
  c.templates.pending ++ l.cache.flatMap (fun entry => entry.2.references)
    ++ fs.texts.flatMap fun text => match Template.parse text with
      | .ok t => t.references
      | .error _ => []

theorem length_reachable_lt (l : Loader) (fs : FileSystem) (c : Context) :
    (l.reachable fs c).length < l.roundBound fs c := by
  have count : (fs.texts.flatMap fun text => match Template.parse text with
      | .ok t => t.references
      | .error _ => []).length = (fs.texts.map referenceCount).sum := by
    rw [List.length_flatMap]
    congr 1
    refine List.map_congr_left fun text _ => ?_
    unfold referenceCount
    cases Template.parse text <;> rfl
  simp only [reachable, roundBound, List.length_append, List.length_flatMap, count]
  omega

theorem parse_of_parseTraced {text : String} {options : ParseOptions}
    (h : (Template.parseTraced text options).1 = .ok t) :
    ∃ u, Template.parse text = .ok u ∧ u.references = t.references := by
  unfold Template.parse
  simp only [Template.parseTraced] at h ⊢
  cases hr : (Template.ofTokens (scan text)).1 with
  | error e => rw [hr] at h; cases h
  | ok u =>
    rw [hr] at h
    cases h
    exact ⟨_, rfl, rfl⟩

/-- **Filling comes to an end.** Names become pending by the references of what was or can be loaded, and there are
more rounds than such names. -/
theorem loadPending_drains (nodup : c.templates.keys.Nodup) (l : Loader) (fs : FileSystem) :
    Drains fs ⟨l, c, []⟩ (l.loadPending fs c).1 (l.loadPending fs c).2 := by
  have readable : Readable (fun t => ∀ name ∈ t.references, name ∈ l.reachable fs c) fs := by
    intro text member options t parsed name hn
    obtain ⟨u, same, references⟩ := parse_of_parseTraced parsed
    refine List.mem_append_right _ (List.mem_flatMap.2 ⟨text, member, ?_⟩)
    rw [same]
    show name ∈ u.references
    rw [references]
    exact hn
  have within : Within (l.reachable fs c) ⟨l, c, []⟩ := by
    refine ⟨nodup, fun name hn => List.mem_map_of_mem ?_, fun entry he name hn => ?_⟩
    · exact List.mem_append_left _ (List.mem_append_left _ hn)
    · exact List.mem_append_left _ (List.mem_append_right _ (List.mem_flatMap.2 ⟨entry, he, hn⟩))
  have enough : missing (l.reachable fs c) c.templates < l.roundBound fs c :=
    Nat.lt_of_le_of_lt List.countP_le_length (l.length_reachable_lt fs c)
  exact rounds_drains readable within enough

/-- After filling without an error no name is pending. -/
theorem loadPending_ok {k : Nat} (nodup : c.templates.keys.Nodup) (h : (l.loadPending fs c).1 = .ok k) :
    (l.loadPending fs c).2.context.templates.pending = [] :=
  (loadPending_drains nodup l fs).pending_eq h

end Loader

end Stencil
