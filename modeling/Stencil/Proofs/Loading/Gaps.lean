import Stencil.Proofs.Loading.Filling

/-!
# The gaps of a registry

What a registry knows and has no template for are its gaps. Filling closes them and the gaps that it meets on its way,
in the order in which they became known, each with what the loader gives for the name as it was first spelled. Nothing
else is changed, also if a name cannot be loaded and filling ends there.

* `Registry.entries_add`: how the entries change when a gap is closed.
* `GapsClosed`: a registry in which gaps of another one are closed; `GapsClosed.add`: one more of them.
* `Loader.loadPending_filled`: filling comes to an end, and closes gaps only; without an error all of them.
-/

namespace Stencil

/-! ## Closing one gap -/

namespace Registry

variable {r : Registry} {name : String} {t : Template}

theorem entries_declareAll (r : Registry) (names : List String) : ∃ declared,
    (r.declareAll names).entries = r.entries ++ declared ∧ ∀ d ∈ declared, d.value = none ∧ d.key ∉ r.keys := by
  induction names generalizing r with
  | nil => exact ⟨[], by simp [declareAll], by simp⟩
  | cons name names ih =>
    rw [declareAll, List.foldl_cons, ← declareAll]
    obtain ⟨rest, entries, new⟩ := ih (r.declare name)
    by_cases known : r.contains name = true
    · have same : r.declare name = r := if_pos known
      rw [same] at entries new ⊢
      exact ⟨rest, entries, new⟩
    · have added : (r.declare name).entries = r.entries ++ [{ name := name, value := none }] := by
        rw [declare, NameMap.insertIfAbsent, if_neg known]
      refine ⟨{ name := name, value := none } :: rest, by rw [entries, added, List.append_assoc]; rfl, ?_⟩
      rintro d (_ | ⟨_, member⟩)
      · rw [NameMap.contains_iff] at known
        exact ⟨rfl, known⟩
      · obtain ⟨empty, fresh⟩ := new d member
        exact ⟨empty, fun hk => fresh (mem_keys_declare.2 (.inr hk))⟩

/-- A gap is closed where it is, and names that become known are gaps behind all others. -/
theorem entries_add (nodup : r.keys.Nodup) (hn : name ∈ r.pending) (t : Template) :
    ∃ before e after declared, r.entries = before ++ e :: after ∧ e.name = name ∧ e.value = none
      ∧ (r.add name t).entries = before ++ { e with value := some t } :: (after ++ declared)
      ∧ ∀ d ∈ declared, d.value = none ∧ d.key ∉ r.keys := by
  obtain ⟨e, he, value, rfl⟩ := mem_pending.1 hn
  obtain ⟨declared, entries, new⟩ := entries_declareAll r t.references
  obtain ⟨before, after, split⟩ := List.append_of_mem he
  have fresh : e.key ∉ before.map (·.key) := by
    rw [NameMap.keys, split, List.map_append, List.map_cons] at nodup
    exact fun known => List.disjoint_of_nodup_append nodup known List.mem_cons_self
  have known : (r.declareAll t.references).contains e.name = true := by
    rw [NameMap.contains_iff, mem_keys_declareAll]
    exact .inr (List.mem_map.2 ⟨e, he, e.key_eq⟩)
  refine ⟨before, e, after, declared, split, rfl, value, ?_, new⟩
  rw [add, NameMap.insert, if_pos known, entries, split, ← e.key_eq, List.append_assoc, List.cons_append]
  exact NameMap.replaceFirst_append fresh _ _

/-- How many names have a template that had none in an earlier registry. -/
def gained (r r' : Registry) : Nat := r'.entries.countP fun e => e.value.isSome && (r.template? e.name).isNone

theorem gained_self (nodup : r.keys.Nodup) : r.gained r = 0 := by
  refine List.countP_eq_zero.2 fun e he => ?_
  rw [template?, NameMap.get?_of_mem nodup he]
  cases e.value <;> simp

end Registry

/-- A registry in which gaps of an earlier one are closed with what is given for their names. -/
structure GapsClosed (given : String → Except Error Template) (r r' : Registry) : Prop where
  /-- The names that were known are known as they were spelled, in front of all others. -/
  spellings : r.entries.map (·.name) <+: r'.entries.map (·.name)
  /-- What had a template has the same one. -/
  kept : ∀ name t, r.template? name = some t → r'.template? name = some t
  /-- An entry has what it had, or it had no template and has the one that is given for its name as first spelled. -/
  entries : ∀ e ∈ r'.entries, e.value = r.template? e.name
    ∨ r.template? e.name = none ∧ ∃ t, e.value = some t ∧ given e.name = .ok t

namespace GapsClosed

variable {given : String → Except Error Template} {r s : Registry} {name : String} {t : Template}

theorem refl (nodup : r.keys.Nodup) (given : String → Except Error Template) : GapsClosed given r r :=
  ⟨List.prefix_rfl, fun _ _ h => h,
    fun e he => .inl (by rw [Registry.template?, NameMap.get?_of_mem nodup he, Option.join_some])⟩

/-- What is a gap now was one before. -/
theorem template?_eq_none (h : GapsClosed given r s) (none' : s.template? name = none) : r.template? name = none := by
  cases had : r.template? name with
  | none => rfl
  | some t => rw [h.kept name t had] at none'; cases none'

/-- What becomes known was not known before. -/
theorem template?_of_not_mem (h : GapsClosed given r s) {e : NameEntry (Option Template)} (new : e.key ∉ s.keys) :
    r.template? e.name = none := by
  refine h.template?_eq_none ?_
  rw [Registry.template?, NameMap.get?_of_not_mem (e.key_eq ▸ new)]
  rfl

/-- **One more gap is closed.** -/
theorem add (h : GapsClosed given r s) (nodup : s.keys.Nodup) (gap : name ∈ s.pending) (found : given name = .ok t) :
    GapsClosed given r (s.add name t) ∧ r.gained (s.add name t) = r.gained s + 1 := by
  have open' : s.template? name = none := Registry.template?_of_mem_pending nodup gap
  have before' : r.template? name = none := h.template?_eq_none open'
  obtain ⟨before, e, after, declared, split, rfl, value, entries, new⟩ := Registry.entries_add nodup gap t
  refine ⟨⟨?_, fun other u had => ?_, fun e' he' => ?_⟩, ?_⟩
  · refine h.spellings.trans ⟨declared.map (·.name), ?_⟩
    rw [entries, split]
    simp
  · rw [Registry.template?_add]
    split
    · next same =>
      rw [Registry.template?, NameMap.get?_congr r same, ← Registry.template?, before'] at had
      cases had
    · exact h.kept other u had
  · rw [entries] at he'
    have old (member : e' ∈ before ++ e :: after) := h.entries e' (split ▸ member)
    rcases List.mem_append.1 he' with member | member
    · exact old (List.mem_append_left _ member)
    rcases List.mem_cons.1 member with rfl | member
    · exact .inr ⟨before', t, rfl, found⟩
    rcases List.mem_append.1 member with member | member
    · exact old (List.mem_append_right _ (List.mem_cons_of_mem _ member))
    · obtain ⟨empty, unknown⟩ := new e' member
      exact .inl (by rw [empty, h.template?_of_not_mem unknown])
  · have none' : declared.countP (fun e => e.value.isSome && (r.template? e.name).isNone) = 0 :=
      List.countP_eq_zero.2 fun d hd => by simp [(new d hd).1]
    simp only [Registry.gained, entries, split, List.countP_append, List.countP_cons, value, before', none']
    simp
    omega

end GapsClosed

/-! ## Closing all gaps -/

namespace Loader

variable {fs : FileSystem} {l : Loader} {c : Context} {r : Registry} {s s' : FillState} {name : String}
  {names : List String} {result : Except Error Nat}

/-- What was loaded is given again, and nothing else is given differently. -/
theorem load_load (l : Loader) (fs : FileSystem) (name other : String) :
    ((l.load fs name).2.1.load fs other).1 = (l.load fs other).1 := by
  rcases load_cases l fs name with ⟨fault, load⟩ | ⟨u, found, load⟩ | ⟨u, events, read, load⟩ | ⟨e, events, -, load⟩ <;>
    rw [load]
  by_cases same : other = name
  · rw [same, load]
    have accepted : nameFault? name = none := by
      cases fault : nameFault? name with
      | none => rfl
      | some _ => rw [Loader.load, fault] at load; cases load
    rw [Loader.load, accepted, List.lookup_cons_self]
  · have behind : ((name, u) :: l.cache).lookup other = l.cache.lookup other := by
      rw [List.lookup_cons, beq_false_of_ne same]
    unfold Loader.load
    rw [behind]
    cases nameFault? other with
    | some fault => rfl
    | none =>
      cases l.cache.lookup other with
      | some t => rfl
      | none =>
        have alike : ({ l with cache := (name, u) :: l.cache } : Loader).read fs other = l.read fs other := rfl
        simp only [alike]
        rcases l.read fs other with ⟨_ | _, _⟩ <;> rfl

/-- What holds while a loader fills a registry: its gaps are closed with what the loader gave at first. -/
structure Filling (l : Loader) (fs : FileSystem) (r : Registry) (s : FillState) : Prop where
  nodup : s.context.templates.keys.Nodup
  loads : ∀ name, (s.loader.load fs name).1 = (l.load fs name).1
  filled : GapsClosed (fun name => (l.load fs name).1) r s.context.templates

namespace Filling

/-- Loading one name that is pending. -/
theorem fill (h : Filling l fs r s) (gap : name ∈ s.context.templates.pending) :
    Filling l fs r ((fill fs name).run s).2
      ∧ (((Loader.fill fs name).run s).1 = .ok () →
        r.gained ((Loader.fill fs name).run s).2.context.templates = r.gained s.context.templates + 1) := by
  have loads (other : String) : ((s.loader.load fs name).2.1.load fs other).1 = (l.load fs other).1 := by
    rw [load_load, h.loads]
  have given := h.loads name
  rw [run_fill]
  generalize s.loader.load fs name = r at loads given
  rcases r with ⟨e | t, l', events⟩
  · exact ⟨⟨h.nodup, loads, h.filled⟩, nofun⟩
  · obtain ⟨filled, more⟩ := h.filled.add h.nodup gap given.symm
    exact ⟨⟨Registry.nodup_add h.nodup name t, loads, filled⟩, fun _ => more⟩

/-- A round. The names that it has not come to yet are pending. -/
theorem round {extra : List String} (h : Filling l fs r s) (pending : s.context.templates.pending = names ++ extra) :
    Filling l fs r ((names.forM (Loader.fill fs)).run s).2
      ∧ (((names.forM (Loader.fill fs)).run s).1 = .ok () →
        r.gained ((names.forM (Loader.fill fs)).run s).2.context.templates
          = r.gained s.context.templates + names.length) := by
  induction names generalizing s extra with
  | nil => exact ⟨h, fun _ => rfl⟩
  | cons name names ih =>
    have gap : name ∈ s.context.templates.pending := by
      rw [pending]
      exact List.mem_cons_self
    have first := h.fill gap
    have later (ok : ((Loader.fill fs name).run s).1 = .ok ()) := fill_ok_pending h.nodup pending ok
    rw [run_forM_cons]
    generalize (Loader.fill fs name).run s = done at first later ⊢
    rcases done with ⟨e | _, s'⟩
    · exact ⟨first.1, nofun⟩
    · obtain ⟨-, more, pending'⟩ := later rfl
      have pending' : s'.context.templates.pending = names ++ (extra ++ more) := by
        rw [← List.append_assoc]
        exact pending'
      obtain ⟨rest, count⟩ := ih first.1 pending'
      refine ⟨rest, fun ok => ?_⟩
      rw [count ok, first.2 rfl, List.length_cons]
      omega

/-- All rounds. -/
theorem drains (h : Filling l fs r s) (run : Drains fs s result s') :
    Filling l fs r s'
      ∧ ∀ n, result = .ok n → r.gained s'.context.templates = r.gained s.context.templates + n := by
  induction run with
  | done => exact ⟨h, fun n ok => by cases ok; rfl⟩
  | @failed s s' e _ round =>
    have part := (h.round (List.append_nil s.context.templates.pending).symm).1
    rw [round] at part
    exact ⟨part, nofun⟩
  | @round s s' s'' result _ round _ ih =>
    have part := h.round (List.append_nil s.context.templates.pending).symm
    rw [round] at part
    obtain ⟨rest, count⟩ := ih part.1
    refine ⟨rest, fun n ok => ?_⟩
    rcases result with _ | k
    · cases ok
    · obtain rfl : s.context.templates.pending.length + k = n := Except.ok.inj ok
      rw [count k rfl, part.2 rfl, Nat.add_assoc]

end Filling

/-- **Filling comes to an end and closes gaps only.** Without an error no gap is left, and as many were closed as is
said. -/
theorem loadPending_filled (nodup : c.templates.keys.Nodup) (l : Loader) (fs : FileSystem) :
    Drains fs ⟨l, c, []⟩ (l.loadPending fs c).1 (l.loadPending fs c).2
      ∧ GapsClosed (fun name => (l.load fs name).1) c.templates (l.loadPending fs c).2.context.templates
      ∧ ∀ n, (l.loadPending fs c).1 = .ok n → (l.loadPending fs c).2.context.templates.pending = []
        ∧ n = c.templates.gained (l.loadPending fs c).2.context.templates := by
  have drains := loadPending_drains nodup l fs
  have start : Filling l fs c.templates ⟨l, c, []⟩ := ⟨nodup, fun _ => rfl, .refl nodup _⟩
  obtain ⟨filling, count⟩ := start.drains drains
  refine ⟨drains, filling.filled, fun n ok => ⟨drains.pending_eq ok, ?_⟩⟩
  have closed := count n ok
  rw [c.templates.gained_self nodup] at closed
  omega

/-- Two files that include each other are loaded once each. -/
theorem loadPending_filled_cycle :
    let fs : FileSystem := ⟨[(⟨["a.tmpl"]⟩, .file "{{include b}}".toUTF8),
      (⟨["b.tmpl"]⟩, .file "{{include a}}".toUTF8)], .ok⟩
    let l : Loader := ⟨⟨[]⟩, "tmpl", false, []⟩
    let c := Context.empty.declareAll ["a"]
    c.templates.keys.Nodup ∧ (l.loadPending fs c).1 = .ok 2
      ∧ (l.loadPending fs c).2.context.templates.pending = []
      ∧ c.templates.gained (l.loadPending fs c).2.context.templates = 2 := by
  intro fs l c
  have nodup : c.templates.keys.Nodup := by decide
  have loaded : (l.loadPending fs c).1 = .ok 2 := by cbv
  obtain ⟨complete, count⟩ := (loadPending_filled nodup l fs).2.2 2 loaded
  exact ⟨nodup, loaded, complete, count.symm⟩

end Loader

end Stencil
