import Mathlib
import Stencil.Proofs.Syntax.Nesting
import Stencil.Proofs.Text.Folding

/-!
# References of a template

The references of a template that has been read are recorded while its nodes are built. They cover all that the template
mentions: its base, and the inclusions among its nodes at any depth, those in the bodies of blocks as well.

* `Template.covered_of_ofTokens`: whatever a template that has been read mentions is among its references.
-/

namespace Stencil

mutual

/-- The names that a node includes, at any depth. -/
def Node.inclusions : Node → List String
  | .branch _ body alternative _ => inclusionsAll body ++ inclusionsOption alternative
  | .loop _ _ _ body _ => inclusionsAll body
  | .inclusion name _ => [name]
  | .block _ body _ => inclusionsAll body
  | .text _ _ | .value _ _ | .call _ => []

def inclusionsAll : List Node → List String
  | [] => []
  | n :: ns => n.inclusions ++ inclusionsAll ns

def inclusionsOption : Option (List Node) → List String
  | none => []
  | some ns => inclusionsAll ns

end

namespace Template

/-- The names of its base and of all inclusions of a template. -/
def mentions (t : Template) : List String := t.base.toList ++ inclusionsAll t.nodes

/-- Whether the references of a template, case apart, have all that it mentions. -/
def Covered (t : Template) : Prop := ∀ name ∈ t.mentions, fold name ∈ t.references.map fold

end Template

/-! ## Inclusions among statements -/

def Statement.inclusion? : Statement → Option String
  | .inclusion name _ => some name
  | _ => none

@[simp] theorem Statement.inclusion?_kept (s : Statement) : s.kept.inclusion? = s.inclusion? := by cases s <;> rfl

mutual

theorem Node.inclusions_eq : ∀ n : Node, n.inclusions = n.written.filterMap Statement.inclusion?
  | .text .. | .value .. | .call .. | .inclusion .. => rfl
  | .branch _ body alternative _ => by
    simp [Node.inclusions, Node.written, Statement.inclusion?, List.filterMap_cons, inclusionsAll_eq body,
      inclusionsOption_eq alternative]
  | .loop _ _ _ body _ => by
    simp [Node.inclusions, Node.written, Statement.inclusion?, List.filterMap_cons, inclusionsAll_eq body]
  | .block _ body _ => by
    simp [Node.inclusions, Node.written, Statement.inclusion?, List.filterMap_cons, inclusionsAll_eq body]

theorem inclusionsAll_eq : ∀ ns : List Node, inclusionsAll ns = (writtenAll ns).filterMap Statement.inclusion?
  | [] => rfl
  | n :: ns => by rw [inclusionsAll, Node.inclusions_eq n, inclusionsAll_eq ns, writtenAll, List.filterMap_append]

theorem inclusionsOption_eq : ∀ ns : Option (List Node),
    inclusionsOption ns = (writtenOption ns).filterMap Statement.inclusion?
  | none => rfl
  | some ns => by simp [inclusionsOption, writtenOption, Statement.inclusion?, List.filterMap_cons, inclusionsAll_eq ns]

end

/-! ## References while building -/

namespace Builder

variable {b b' : Builder} {s : Statement} {ss : List Statement} {name : String}

/-- Whether a name is among the references, case apart. -/
def Refers (b : Builder) (name : String) : Prop := fold name ∈ b.references.map fold

/-- Whether the references go on to hold what they hold, and the base of the later builder is among them. -/
structure Gains (b b' : Builder) : Prop where
  refers : ∀ name, b.Refers name → b'.Refers name
  base : (∀ name, b.base = some name → b.Refers name) → ∀ name, b'.base = some name → b'.Refers name

theorem Gains.trans {b'' : Builder} (h : b.Gains b') (h' : b'.Gains b'') : b.Gains b'' :=
  ⟨fun name known => h'.refers name (h.refers name known), fun known => h'.base (h.base known)⟩

/-- A step that changes neither base nor references. -/
theorem gains_of_same (references : b'.references = b.references) (base : b'.base = b.base) : b.Gains b' := by
  have same (name : String) : b'.Refers name ↔ b.Refers name := by rw [Refers, Refers, references]
  exact ⟨fun name => (same name).2, fun known name h => (same name).2 (known name (base ▸ h))⟩

theorem fold_mem_referTo (known : List String) (name : String) : fold name ∈ (referTo known name).map fold := by
  rw [referTo]
  split
  · next held =>
    obtain ⟨other, member, same⟩ := List.any_eq_true.1 held
    exact List.mem_map.2 ⟨other, member, fold_eq_of_sameIgnoringCase same⟩
  · exact List.mem_cons_self

/-- A step keeps the references, and records the name that it includes. -/
theorem gains_step (h : b.step s = .ok b') :
    b.Gains b' ∧ ∀ name, s.inclusion? = some name → b'.Refers name := by
  have kept (name : String) {known : String} : b.Refers known → fold known ∈ (referTo b.references name).map fold :=
    fun h => ((suffix_referTo b.references name).map fold).subset h
  cases takes_of_step h with
  | base c named outside once name =>
    refine ⟨⟨fun known => kept name, fun _ other same => ?_⟩, by simp [Statement.inclusion?]⟩
    cases same
    exact fold_mem_referTo b.references name
  | inclusion name l =>
    refine ⟨⟨fun known => kept name, fun held other same => kept name (held other same)⟩, fun other same => ?_⟩
    cases same
    exact fold_mem_referTo b.references name
  | _ => exact ⟨gains_of_same rfl rfl, by simp [Statement.inclusion?]⟩

theorem gains_run (h : b.run ss = (b', none)) :
    b.Gains b' ∧ ∀ name ∈ ss.filterMap Statement.inclusion?, b'.Refers name := by
  induction ss generalizing b with
  | nil =>
    cases h
    exact ⟨gains_of_same rfl rfl, nofun⟩
  | cons s ss ih =>
    obtain ⟨b₁, hs, h⟩ := run_cons_iff.1 h
    obtain ⟨gains, named⟩ := gains_step hs
    obtain ⟨later, rest⟩ := ih h
    refine ⟨gains.trans later, fun name hn => ?_⟩
    rw [List.mem_filterMap] at hn
    obtain ⟨other, member, same⟩ := hn
    rcases List.mem_cons.1 member with rfl | member
    · exact later.refers name (named name same)
    · exact rest name (List.mem_filterMap.2 ⟨other, member, same⟩)

end Builder

namespace Template

/-- A template that has been read has all that it mentions among its references. -/
theorem covered_of_ofTokens {ts : List Token} {t : Template} (h : (Template.ofTokens ts).1 = .ok t) : t.Covered := by
  have written := written_of_ofTokens h
  obtain ⟨b, run, -, rfl⟩ := ofTokens_eq_ok h
  obtain ⟨gains, named⟩ := Builder.gains_run run
  have recorded (name : String) (known : b.Refers name) : fold name ∈ b.references.reverse.map fold := by
    rw [List.map_reverse, List.mem_reverse]
    exact known
  intro name hn
  rcases List.mem_append.1 hn with hn | hn
  · exact recorded name (gains.base nofun name (Option.mem_toList.1 hn))
  · rw [inclusionsAll_eq, written, List.filterMap_map] at hn
    refine recorded name (named name ?_)
    simpa [Function.comp_def] using hn

/-- A template that comes out of reading a source. -/
def IsRead (t : Template) : Prop := ∃ source options, (parseTraced source options).1 = .ok t

/-- A template that is read is built from tokens, but for the path of its source. -/
theorem IsRead.exists_tokens {t : Template} (h : t.IsRead) :
    ∃ ts u, (ofTokens ts).1 = .ok u ∧ t.nodes = u.nodes ∧ t.base = u.base ∧ t.references = u.references := by
  obtain ⟨source, options, read⟩ := h
  simp only [parseTraced] at read
  cases hr : (ofTokens (scan source)).1 with
  | error e => rw [hr] at read; cases read
  | ok u =>
    rw [hr] at read
    cases read
    exact ⟨scan source, u, hr, rfl, rfl, rfl⟩

theorem IsRead.covered {t : Template} (h : t.IsRead) : t.Covered := by
  obtain ⟨ts, u, built, nodes, base, references⟩ := h.exists_tokens
  have covered : u.Covered := covered_of_ofTokens built
  rwa [Covered, mentions, ← nodes, ← base, ← references] at covered

end Template

end Stencil
