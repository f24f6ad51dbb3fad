import Stencil.Proofs.Syntax.Extension

/-!
# Layout of a template that extends another

A template that has been read has a base exactly if some node of it, at any depth, is a call of `extends`. There is one
such node then: it is the first node but for blanks, its first argument is the base, and all other nodes at the top
level are blocks or blanks.

* `base_of_heading`: the call that heads a template names its base, which is its first reference.
* `extends_layout`: the layout of every template that comes out of reading a source.
-/

namespace Stencil

/-! ## Nodes at any depth -/

mutual

/-- A node and the nodes inside it, each in front of those that it holds. -/
def Node.parts : Node → List Node
  | n@(.branch _ body alternative _) => n :: (partsAll body ++ partsOption alternative)
  | n@(.loop _ _ _ body _) => n :: partsAll body
  | n@(.block _ body _) => n :: partsAll body
  | n => [n]

def partsAll : List Node → List Node
  | [] => []
  | n :: ns => n.parts ++ partsAll ns

def partsOption : Option (List Node) → List Node
  | none => []
  | some ns => partsAll ns

end

theorem partsAll_append (ns ms : List Node) : partsAll (ns ++ ms) = partsAll ns ++ partsAll ms := by
  induction ns with
  | nil => rfl
  | cons n ns ih => rw [List.cons_append, partsAll, ih, partsAll, List.append_assoc]

/-- The statement that a node begins with. -/
def Node.opening : Node → Statement
  | .text content l => .text content l
  | .value p l => .value p l
  | .call c => .call c
  | .branch condition _ _ l => .openBranch condition l
  | .loop item index collection _ l => .openLoop item index collection l
  | .inclusion name l => .inclusion name l
  | .block name _ l => .openBlock name l

mutual

/-- All nodes inside a node are written with it. -/
theorem Node.opening_mem_written : ∀ {n m : Node}, m ∈ n.parts → m.opening ∈ n.written
  | .branch condition body alternative l, m, h => by
    rcases List.mem_cons.1 h with rfl | h
    · exact List.mem_cons_self
    · refine List.mem_cons_of_mem _ ?_
      rcases List.mem_append.1 h with h | h
      · exact List.mem_append_left _ (opening_mem_writtenAll h)
      · exact List.mem_append_right _ (List.mem_append_left _ (opening_mem_writtenOption h))
  | .loop item index collection body l, m, h => by
    rcases List.mem_cons.1 h with rfl | h
    · exact List.mem_cons_self
    · exact List.mem_cons_of_mem _ (List.mem_append_left _ (opening_mem_writtenAll h))
  | .block name body l, m, h => by
    rcases List.mem_cons.1 h with rfl | h
    · exact List.mem_cons_self
    · exact List.mem_cons_of_mem _ (List.mem_append_left _ (opening_mem_writtenAll h))
  | .text content l, m, h => by cases List.mem_singleton.1 h; exact List.mem_cons_self
  | .value p l, m, h => by cases List.mem_singleton.1 h; exact List.mem_cons_self
  | .call c, m, h => by cases List.mem_singleton.1 h; exact List.mem_cons_self
  | .inclusion name l, m, h => by cases List.mem_singleton.1 h; exact List.mem_cons_self

theorem opening_mem_writtenAll : ∀ {ns : List Node} {m : Node}, m ∈ partsAll ns → m.opening ∈ writtenAll ns
  | [], _, h => nomatch h
  | n :: ns, m, h => by
    rw [writtenAll]
    rcases List.mem_append.1 h with h | h
    · exact List.mem_append_left _ (Node.opening_mem_written h)
    · exact List.mem_append_right _ (opening_mem_writtenAll h)

theorem opening_mem_writtenOption : ∀ {ns : Option (List Node)} {m : Node}, m ∈ partsOption ns →
    m.opening ∈ writtenOption ns
  | none, _, h => nomatch h
  | some _, _, h => List.mem_cons_of_mem _ (opening_mem_writtenAll h)

end

/-- Where `extends` is not called, no node is such a call and no condition either. -/
theorem ExtendsFree.of_mem {ns : List Node} (free : ExtendsFree ns) {n : Node} (hn : n ∈ partsAll ns) :
    n.isExtends = false ∧ ∀ c, n.opening.call? = some c → c.name ≠ "extends" := by
  have named := free _ (opening_mem_writtenAll hn)
  refine ⟨?_, named⟩
  cases n with
  | call c => simpa [Node.isExtends] using named c rfl
  | _ => rfl

/-! ## What is written for blanks -/

theorem Node.exists_text_of_isBlank {n : Node} (h : n.isBlank = true) : ∃ content l, n = .text content l := by
  cases n with
  | text content l => exact ⟨content, l, rfl⟩
  | _ => cases h

section Blanks

variable {blanks : List Node} (blank : ∀ n ∈ blanks, n.isBlank = true)

include blank

theorem partsAll_of_blank : partsAll blanks = blanks := by
  induction blanks with
  | nil => rfl
  | cons n ns ih =>
    obtain ⟨content, l, rfl⟩ := Node.exists_text_of_isBlank (blank n List.mem_cons_self)
    rw [partsAll, ih fun m hm => blank m (List.mem_cons_of_mem _ hm)]
    rfl

theorem exists_text_of_written_blank {s : Statement} (hs : s ∈ writtenAll blanks) :
    ∃ content l, s = .text content l := by
  induction blanks with
  | nil => cases hs
  | cons n ns ih =>
    obtain ⟨content, l, rfl⟩ := Node.exists_text_of_isBlank (blank n List.mem_cons_self)
    rcases List.mem_append.1 hs with hs | hs
    · exact ⟨content, l, List.mem_singleton.1 hs⟩
    · exact ih (fun m hm => blank m (List.mem_cons_of_mem _ hm)) hs

end Blanks

/-- Behind a node that names the base there are blocks and blanks only. -/
theorem isBlock_of_checkLayout {blanks rest : List Node} {n : Node} (blank : ∀ m ∈ blanks, m.isBlank = true)
    (naming : n.isExtends = true) (h : checkLayout ((blanks ++ n :: rest).filter (!·.isBlank)) = .ok ()) :
    ∀ m ∈ rest, m.isBlock = true ∨ m.isBlank = true := by
  have shown : n.isBlank = false := by
    cases n with
    | call c => rfl
    | _ => cases naming
  have none' : blanks.filter (!·.isBlank) = [] := by
    rw [List.filter_eq_nil_iff]
    exact fun m hm => by simp [blank m hm]
  rw [List.filter_append, none', List.nil_append, List.filter_cons_of_pos (by simp [shown])] at h
  simp only [checkLayout] at h
  split at h
  · next allowed =>
    intro m hm
    by_cases unseen : m.isBlank = true
    · exact .inr unseen
    · have := List.find?_eq_none.1 allowed m (List.mem_filter.2 ⟨hm, by simpa using unseen⟩)
      simp only [naming, Bool.true_and, Bool.or_eq_true, Bool.not_eq_true', not_or, Bool.not_eq_false] at this
      exact .inl this.2
  · cases h

/-! ## Base and references while building -/

/-- The name that a statement adds to the references of its template. -/
def Statement.refersTo? : Statement → Option String
  | .inclusion name _ => some name
  | .call c => if c.name = "extends" then c.arguments.head? else none
  | _ => none

namespace Builder

variable {b b' : Builder} {s : Statement} {ss : List Statement}

theorem references_step (h : b.step s = .ok b') :
    b'.references = s.refersTo?.elim b.references (referTo b.references) := by
  cases takes_of_step h with
  | base c named outside once name first => simp [Statement.refersTo?, named, first, push]
  | call c other => simp [Statement.refersTo?, other, push]
  | _ => rfl

theorem references_run (h : b.run ss = (b', none)) : b.references <:+ b'.references := by
  refine run_keeps (P := fun c => b.references <:+ c.references) h List.suffix_rfl fun s _ c c' kept hs => ?_
  refine kept.trans ?_
  rw [references_step hs]
  cases s.refersTo? with
  | none => exact List.suffix_rfl
  | some name => exact suffix_referTo _ name

theorem references_run_of_none (h : b.run ss = (b', none)) (silent : ∀ s ∈ ss, s.refersTo? = none) :
    b'.references = b.references :=
  run_keeps (P := fun c => c.references = b.references) h rfl fun s hs c c' kept step => by
    rw [references_step step, silent s hs, Option.elim_none, kept]

theorem base_run_of_free (h : b.run ss = (b', none)) (free : ∀ s ∈ ss, s.isExtends = false) : b'.base = b.base := by
  refine run_keeps (P := fun c => c.base = b.base) h rfl fun s hs c c' kept step => ?_
  rcases step_base step with ⟨-, same⟩ | ⟨call, rfl, name, -⟩
  · exact same.trans kept
  · have other := free _ hs
    simp [Statement.isExtends, name] at other

end Builder

/-! ## Templates that are read -/

/-- The call that heads a template names its base, and the base is the first of its references. -/
theorem base_of_heading {ts : List Token} {t : Template} (h : (Template.ofTokens ts).1 = .ok t)
    {blanks rest : List Node} {c : Call} (nodes : t.nodes = blanks ++ .call c :: rest)
    (blank : ∀ n ∈ blanks, n.isBlank = true) (named : c.name = "extends") (free : ExtendsFree rest) :
    ∃ base, t.base = some base ∧ c.arguments.head? = some base ∧ base ≠ "" ∧ t.references.head? = some base := by
  have written := written_of_ofTokens h
  rw [nodes, writtenAll_append, writtenAll, Node.written, List.singleton_append, eq_comm,
    List.map_eq_append_iff] at written
  obtain ⟨front, behind, split, writtenFront, written⟩ := written
  obtain ⟨s, after, rfl, heading, writtenAfter⟩ := List.map_eq_cons_iff.1 written
  have call : s = .call c := by
    cases s <;> simp_all [Statement.kept]
  subst call
  obtain ⟨b, run, -, rfl⟩ := ofTokens_eq_ok h
  rw [split] at run
  obtain ⟨b₁, first, run⟩ := Builder.exists_of_run_append run
  obtain ⟨b₂, step, run⟩ := Builder.run_cons_iff.1 run
  -- In front of the call there are texts, which leave base and references as they are.
  have texts : ∀ s ∈ front, ∃ content l, s = .text content l := by
    intro s hs
    obtain ⟨content, l, same⟩ := exists_text_of_written_blank blank (writtenFront ▸ List.mem_map_of_mem hs)
    cases s <;> cases same
    exact ⟨_, _, rfl⟩
  have unreferred : b₁.references = [] := Builder.references_run_of_none first fun s hs => by
    obtain ⟨content, l, rfl⟩ := texts s hs
    rfl
  have alone : ∀ s ∈ after, s.isExtends = false := by
    intro s hs
    cases s with
    | call c' =>
      have member : (Statement.call c').kept ∈ writtenAll rest := writtenAfter ▸ List.mem_map_of_mem hs
      simpa [Statement.isExtends] using free _ member c' rfl
    | _ => rfl
  cases Builder.takes_of_step step with
  | call c other => exact absurd named other
  | base c named outside once base first filled =>
    have kept := Builder.references_run run
    have referred : referTo b₁.references base = [base] := by
      rw [unreferred]
      rfl
    rw [show (Builder.push { b₁ with references := referTo b₁.references base, base := some base } (.call c)).references
      = [base] from referred, ← List.reverse_prefix] at kept
    obtain ⟨more, references⟩ := kept
    refine ⟨base, Builder.base_run_of_free run alone, first, filled, ?_⟩
    change b.references.reverse.head? = some base
    rw [← references]
    rfl

/-- The nodes of a template with a base: blanks, the call that names the base, and nodes that call no other. -/
theorem Template.Headed.exists_heading {t : Template} (h : t.Headed) {base : String} (is : t.base = some base) :
    ∃ blanks c rest, t.nodes = blanks ++ .call c :: rest ∧ (∀ n ∈ blanks, n.isBlank = true) ∧ c.name = "extends"
      ∧ ExtendsFree rest := by
  rw [Headed, is] at h
  obtain ⟨blanks, c, rest, shape, blank, named, -, free⟩ := h
  exact ⟨blanks, c, rest, shape, blank, named, free⟩

section Heading

variable {blanks rest : List Node} {c : Call} (blank : ∀ n ∈ blanks, n.isBlank = true)

include blank

theorem partsAll_of_heading : partsAll (blanks ++ .call c :: rest) = blanks ++ .call c :: partsAll rest := by
  rw [partsAll_append, partsAll_of_blank blank]
  rfl

/-- The call that heads a template is the only one of `extends`. -/
theorem filter_isExtends_of_heading (named : c.name = "extends") (free : ExtendsFree rest) :
    (partsAll (blanks ++ .call c :: rest)).filter Node.isExtends = [.call c] := by
  have before : blanks.filter Node.isExtends = [] := by
    refine List.filter_eq_nil_iff.2 fun n hn => ?_
    obtain ⟨content, l, rfl⟩ := Node.exists_text_of_isBlank (blank n hn)
    simp [Node.isExtends]
  have behind : (partsAll rest).filter Node.isExtends = [] :=
    List.filter_eq_nil_iff.2 fun n hn => by simp [(free.of_mem hn).1]
  rw [partsAll_of_heading blank, List.filter_append, before, List.filter_cons_of_pos (by simp [Node.isExtends, named]),
    behind]
  rfl

theorem condition_of_heading (free : ExtendsFree rest) : ∀ n ∈ partsAll (blanks ++ .call c :: rest),
    ∀ d body alternative l, n = .branch (.call d) body alternative l → d.name ≠ "extends" := by
  rintro n hn d body alternative l rfl
  simp only [partsAll_of_heading blank, List.mem_append, List.mem_cons, reduceCtorEq, false_or] at hn
  rcases hn with hn | hn
  · obtain ⟨content, place, text⟩ := Node.exists_text_of_isBlank (blank _ hn)
    cases text
  · exact (free.of_mem hn).2 d rfl

end Heading

/-- **Where templates that are read call `extends`, and what else they hold then.** They call it exactly if they have a
base, in no condition, and once: in front of everything but blanks, with the base as first argument. The base is their
first reference, and all other nodes at the top level are blocks or blanks. -/
theorem extends_layout {source : String} {options : ParseOptions} {t : Template}
    (h : (Template.parseTraced source options).1 = .ok t) :
    (t.base.isSome = true ↔ ∃ n ∈ partsAll t.nodes, n.isExtends = true)
      ∧ (∀ n ∈ partsAll t.nodes, ∀ c body alternative l, n = .branch (.call c) body alternative l → c.name ≠ "extends")
      ∧ ∀ base, t.base = some base → ∃ blanks c rest, t.nodes = blanks ++ .call c :: rest
        ∧ (∀ n ∈ blanks, n.isBlank = true) ∧ (∀ n ∈ rest, n.isBlock = true ∨ n.isBlank = true)
        ∧ (partsAll t.nodes).filter Node.isExtends = [.call c]
        ∧ c.arguments.head? = some base ∧ base ≠ "" ∧ t.references.head? = some base := by
  have read : t.IsRead := ⟨source, options, h⟩
  cases hb : t.base with
  | none =>
    have free := read.headed.extendsFree hb
    refine ⟨⟨nofun, fun ⟨n, hn, naming⟩ => ?_⟩, ?_, nofun⟩
    · rw [(free.of_mem hn).1] at naming
      cases naming
    · rintro n hn c body alternative l rfl
      exact (free.of_mem hn).2 c rfl
  | some name =>
    obtain ⟨blanks, c, rest, shape, blank, named, free⟩ := read.headed.exists_heading hb
    obtain ⟨ts, u, built, nodes, base, references⟩ := read.exists_tokens
    have layout := checkLayout_of_ofTokens built
    rw [← nodes, shape] at layout
    obtain ⟨base', same, argument, filled, first⟩ := base_of_heading built (nodes ▸ shape) blank named free
    have once := filter_isExtends_of_heading blank named free
    rw [shape]
    refine ⟨⟨fun _ => ?_, fun _ => rfl⟩, condition_of_heading blank free, fun base₀ is => ?_⟩
    · exact ⟨.call c, List.mem_filter.1 (once ▸ List.mem_singleton_self (Node.call c))⟩
    · cases is
      rw [base, same] at hb
      cases hb
      exact ⟨blanks, c, rest, rfl, blank, isBlock_of_checkLayout blank (by simp [Node.isExtends, named]) layout, once,
        argument, filled, references ▸ first⟩

/-- A page of one block, behind a blank. -/
theorem extends_layout_page : ∃ t,
    (Template.parseTraced " \x7b\x7bextends a\x7d\x7d\x7b\x7bblock b\x7d\x7dx\x7b\x7bend\x7d\x7d" {}).1 = .ok t
      ∧ t.base = some "a" ∧ (∃ n ∈ partsAll t.nodes, n.isExtends = true) ∧ t.references.head? = some "a" := by
  have read :
      (Template.parseTraced " \x7b\x7bextends a\x7d\x7d\x7b\x7bblock b\x7d\x7dx\x7b\x7bend\x7d\x7d" {}).1
        = .ok ⟨[.text " " ⟨1, 1, 0⟩, .call ⟨"extends", ["a"], none, ⟨1, 4, 3⟩⟩, .block "b" [.text "x" ⟨1, 26, 25⟩]
          ⟨1, 17, 16⟩], some "a", none, ["a"]⟩ := by cbv
  obtain ⟨calls, -, named⟩ := extends_layout read
  obtain ⟨blanks, c, rest, -, -, -, -, -, -, first⟩ := named "a" rfl
  exact ⟨_, read, rfl, calls.1 rfl, first⟩

end Stencil
