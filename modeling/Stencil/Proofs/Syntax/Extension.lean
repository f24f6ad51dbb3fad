import Stencil.Proofs.Syntax.Juxtaposition
import Stencil.Proofs.Syntax.References

/-!
# Where a base is named

A base is named by a call of `extends`, which the template keeps among its nodes. It is named in front of everything but
blanks, outside all other directives, and once; conditions do not name it. So a template without a base calls `extends`
nowhere, and one with a base in one place only.

* `Template.Headed`: calls of `extends` stand where they may.
* `headed_of_ofTokens`: in templates that are read.
* `Template.Headed.extendsFree_block`: their blocks call `extends` nowhere.
-/

namespace Stencil

/-! ## Calls of `extends` -/

/-- Nodes with no call of `extends`, at any depth and in conditions neither. -/
def ExtendsFree (ns : List Node) : Prop := EachCall (·.name ≠ "extends") (writtenAll ns)

/-- Where a template calls `extends`: nowhere if it has no base, and otherwise first, blanks apart, and nowhere else. -/
def Template.Headed (t : Template) : Prop :=
  match t.base with
  | none => ExtendsFree t.nodes
  | some _ => ∃ blanks c rest, t.nodes = blanks ++ .call c :: rest ∧ (∀ n ∈ blanks, n.isBlank = true)
    ∧ c.name = "extends" ∧ c.value = none ∧ ExtendsFree rest

namespace Statement

variable {t : Token} {ts : List Token}

/-- What is read carries no value yet, and a condition calls no directive. -/
theorem call?_read {c : Call} (h : (read t ts).1.call? = some c) :
    c.value = none ∧ ((read t ts).1.isExtends = false → c.name ≠ "extends") := by
  have takes : (read t ts).1.takesArguments = true := by
    cases made : (read t ts).1 with
    | call c' => rfl
    | openBranch condition l =>
      cases condition with
      | call c' => rfl
      | path p => rw [made] at h; cases h
    | _ => rw [made] at h; cases h
  rcases takes_cases takes with ⟨-, -, same⟩ | ⟨d, args, rfl, -, free, same⟩ <;> rw [same] at h ⊢
  · cases h
    exact ⟨rfl, fun other => by simpa [isExtends] using other⟩
  · cases h
    refine ⟨rfl, fun _ name => ?_⟩
    change d.text = _ at name
    rw [name] at free
    exact absurd free (by decide)

end Statement

/-- Every statement is read from some tokens. -/
theorem exists_read_of_mem {ts : List Token} {s : Statement} (hs : s ∈ statements ts) :
    ∃ t rest, (Statement.read t rest).1 = s := by
  induction hn : ts.length using Nat.strongRecOn generalizing ts with
  | _ n ih =>
    cases ts with
    | nil => simp [statements] at hs
    | cons t ts =>
      have shorter := Statement.read_length_le t ts
      rw [statements_cons] at hs
      split at hs
      · exact ⟨t, ts, (List.mem_singleton.1 hs).symm⟩
      · rcases List.mem_cons.1 hs with rfl | hs
        · exact ⟨t, ts, rfl⟩
        · exact ih _ (by simp only [List.length_cons] at hn; omega) hs rfl

theorem call?_of_mem {ts : List Token} {s : Statement} (hs : s ∈ statements ts) {c : Call} (h : s.call? = some c) :
    c.value = none ∧ (s.isExtends = false → c.name ≠ "extends") := by
  obtain ⟨t, rest, rfl⟩ := exists_read_of_mem hs
  exact Statement.call?_read h

/-! ## The outermost nodes -/

/-- The nodes outside all openers, the last one first. -/
def outermost : List Node → List Frame → List Node
  | nodes, [] => nodes
  | _, f :: frames => outermost f.before frames

theorem outermost_cons (n : Node) (nodes : List Node) (frames : List Frame) :
    outermost nodes frames <:+ outermost (n :: nodes) frames := by
  cases frames with
  | nil => exact List.suffix_cons n nodes
  | cons f frames => exact List.suffix_rfl

namespace Builder

variable {b b' : Builder} {s : Statement} {ss : List Statement}

/-- Nodes outside all openers stay where they are. -/
theorem outermost_step (h : b.step s = .ok b') :
    outermost b.nodes b.frames <:+ outermost b'.nodes b'.frames := by
  cases takes_of_step h with
  | text | value | call | base | inclusion => exact outermost_cons _ _ _
  | openBranch | openLoop | openBlock => exact List.suffix_rfl
  | alternative l condition opened before frames inside =>
    rw [inside]
    exact List.suffix_rfl
  | close l o before frames inside =>
    rw [inside]
    exact outermost_cons (o.close b.nodes.reverse) before frames

theorem outermost_run (h : b.run ss = (b', none)) : outermost b.nodes b.frames <:+ outermost b'.nodes b'.frames := by
  exact run_keeps (P := fun c => outermost b.nodes b.frames <:+ outermost c.nodes c.frames) h List.suffix_rfl
    fun _ _ _ _ kept hs => kept.trans (outermost_step hs)

/-- Behind a base no other one is named. -/
theorem isExtends_run (h : b.run ss = (b', none)) (some' : b.base.isSome = true) :
    ∀ s ∈ ss, s.isExtends = false := by
  induction ss generalizing b with
  | nil => simp
  | cons s ss ih =>
    obtain ⟨b₁, hs, h⟩ := run_cons_iff.1 h
    rcases step_base hs with ⟨other, same⟩ | ⟨c, -, -, -, none', -⟩
    · exact List.forall_mem_cons.2 ⟨other, ih h (same ▸ some')⟩
    · rw [none'] at some'
      cases some'

/-- A base is named by one of the statements, outside all openers. -/
theorem exists_extends (h : b.run ss = (b', none)) (before : b.base = none) (after : b'.base.isSome = true) :
    ∃ front c rest, ∃ b₁ b₂ : Builder, ss = front ++ .call c :: rest ∧ c.name = "extends"
      ∧ b.run front = (b₁, none) ∧ b₁.frames = [] ∧ b₁.base = none
      ∧ b₂.nodes = .call c :: b₁.nodes ∧ b₂.frames = [] ∧ b₂.base.isSome = true ∧ b₂.run rest = (b', none) := by
  induction ss generalizing b with
  | nil => cases h; rw [before] at after; cases after
  | cons s ss ih =>
    obtain ⟨b₁, hs, later⟩ := run_cons_iff.1 h
    rcases step_base hs with ⟨other, same⟩ | ⟨c, rfl, name, frames, -, nodes, frames', some'⟩
    · obtain ⟨front, c, rest, b₂, b₃, split, name, run, found⟩ := ih later (same.trans before)
      exact ⟨s :: front, c, rest, b₂, b₃, by rw [split]; rfl, name, run_cons_iff.2 ⟨b₁, hs, run⟩, found⟩
    · exact ⟨[], c, ss, b, b₁, rfl, name, rfl, frames, before, nodes, frames', some', later⟩

end Builder

/-! ## Templates that are read -/

/-- The layout of a template that is read is checked. -/
theorem checkLayout_of_ofTokens {ts : List Token} {t : Template} (h : (Template.ofTokens ts).1 = .ok t) :
    checkLayout (t.nodes.filter (!·.isBlank)) = .ok () := by
  obtain ⟨b, run, frames, rfl⟩ := ofTokens_eq_ok h
  simp only [Template.ofTokens, run, Builder.finish, frames] at h
  cases hl : checkLayout (b.nodes.reverse.filter (!·.isBlank)) with
  | error e => rw [hl] at h; cases h
  | ok => rfl

/-- Only blanks stand in front of a node that names the base. -/
theorem isBlank_of_checkLayout {front rest : List Node} {n : Node} (naming : n.isExtends = true)
    (h : checkLayout ((front ++ n :: rest).filter (!·.isBlank)) = .ok ()) : ∀ m ∈ front, m.isBlank = true := by
  have shown : n.isBlank = false := by
    cases n with
    | call c => rfl
    | _ => cases naming
  rw [List.filter_append, List.filter_cons_of_pos (by simp [shown])] at h
  cases hf : front.filter (!·.isBlank) with
  | nil => simpa [List.filter_eq_nil_iff] using hf
  | cons first more =>
    -- Something is in front of the node, behind which it may not stand.
    rw [hf, List.cons_append] at h
    simp only [checkLayout] at h
    split at h
    · next none' =>
      have := List.find?_eq_none.1 none' n (by simp)
      simp [naming] at this
    · cases h

/-- Nodes that are written as statements that are read, none of which names a base. -/
theorem extendsFree_of_written {ts : List Token} {ns : List Node} {ss : List Statement}
    (written : writtenAll ns = ss.map Statement.kept) (part : ∀ s ∈ ss, s ∈ statements ts)
    (other : ∀ s ∈ ss, s.isExtends = false) : ExtendsFree ns := by
  intro s hs c hc
  rw [written] at hs
  obtain ⟨s', hs', rfl⟩ := List.mem_map.1 hs
  rw [Statement.call?_kept] at hc
  exact (call?_of_mem (part s' hs') hc).2 (other s' hs')

/-- **A template that is read calls `extends` only where it names its base.** -/
theorem headed_of_ofTokens {ts : List Token} {t : Template} (h : (Template.ofTokens ts).1 = .ok t) : t.Headed := by
  have layout := checkLayout_of_ofTokens h
  have written := written_of_ofTokens h
  cases base : t.base with
  | none =>
    rw [Template.Headed, base]
    exact extendsFree_of_written written (fun _ hs => hs) (isExtends_of_ofTokens h base)
  | some name =>
    rw [Template.Headed, base]
    obtain ⟨b, run, frames, rfl⟩ := ofTokens_eq_ok h
    obtain ⟨front, c, rest, b₁, b₂, split, naming, first, frames₁, -, nodes, frames₂, some', behind⟩ :=
      Builder.exists_extends run rfl (by rw [show b.base = some name from base]; rfl)
    obtain ⟨more, outer⟩ := Builder.outermost_run behind
    rw [frames, frames₂] at outer
    have shape : b.nodes.reverse = b₁.nodes.reverse ++ .call c :: more.reverse := by
      rw [show b.nodes = more ++ b₂.nodes from outer.symm, nodes]
      simp
    have writtenFirst : writtenAll b₁.nodes.reverse = front.map Statement.kept := by
      simpa [Builder.written, frames₁, Builder.framesWritten, Builder.empty, writtenAll] using Builder.written_run first
    have member : .call c ∈ statements ts := by simp [split]
    change writtenAll b.nodes.reverse = _ at written
    change checkLayout (b.nodes.reverse.filter _) = _ at layout
    rw [shape] at written layout
    rw [writtenAll_append, writtenAll, writtenFirst, split, List.map_append, List.map_cons] at written
    have writtenRest : writtenAll more.reverse = rest.map Statement.kept :=
      (List.cons.inj (List.append_cancel_left written)).2
    have part : ∀ s ∈ rest, s ∈ statements ts := fun s hs => by simp [split, hs]
    have blanks := isBlank_of_checkLayout (n := .call c) (by simpa [Node.isExtends] using naming) layout
    exact ⟨b₁.nodes.reverse, c, more.reverse, shape, blanks, naming, (call?_of_mem member rfl).1,
      extendsFree_of_written writtenRest part (Builder.isExtends_run behind some')⟩

namespace Template

theorem IsRead.headed {t : Template} (h : t.IsRead) : t.Headed := by
  obtain ⟨ts, u, built, nodes, base, -⟩ := h.exists_tokens
  have headed := headed_of_ofTokens built
  unfold Headed at headed ⊢
  rwa [base, nodes]

theorem Headed.extendsFree {t : Template} (h : t.Headed) (alone : t.base = none) : ExtendsFree t.nodes := by
  rwa [Headed, alone] at h

/-- The body of a block calls `extends` nowhere. -/
theorem Headed.extendsFree_block {t : Template} (h : t.Headed) {block : String × List Node}
    (hb : block ∈ t.blocks) : ExtendsFree block.2 := by
  obtain ⟨n, hn, made⟩ := List.mem_filterMap.1 hb
  split at made
  · next name body l =>
    cases made
    have inside {ns : List Node} (free : ExtendsFree ns) (member : .block name body l ∈ ns) : ExtendsFree body := by
      obtain ⟨front, rest, rfl⟩ := List.append_of_mem member
      rw [ExtendsFree, writtenAll_append, writtenAll, Node.written] at free
      exact free.right.left.tail.left
    unfold Headed at h
    split at h
    · exact inside h hn
    · obtain ⟨blanks, c, rest, nodes, blank, -, -, free⟩ := h
      rw [nodes, List.mem_append, List.mem_cons] at hn
      rcases hn with hn | hn | hn
      · cases blank _ hn
      · cases hn
      · exact inside free hn
  · cases made

end Template

end Stencil
