import Stencil.Proofs.Syntax.Unlocated

/-!
# Nesting

`spellingAll` writes nodes as the flat statements that they are built from. Building and spelling undo each other.

* `ofTokens_congr`: places do not count for building; tokens that differ in their places give templates, or faults,
  that differ in their places.
* `takes_of_step`: all that a step of the builder can do.
* `run_spellingAll`: a builder that takes the spelling of nodes gains these nodes.
* `written_run`: what a builder has built is written, with its places, as the statements that it has taken.
* `ofTokens_iff`: tokens are read as a tree without a base exactly if their statements spell it.
-/

namespace Stencil

/-! ## Forgetting places twice -/

@[simp] theorem Call.unlocated_unlocated (c : Call) : c.unlocated.unlocated = c.unlocated := rfl

@[simp] theorem Condition.unlocated_unlocated (c : Condition) : c.unlocated.unlocated = c.unlocated := by
  cases c <;> rfl

@[simp] theorem ParseError.unlocated_unlocated (e : ParseError) : e.unlocated.unlocated = e.unlocated := by
  cases e <;> rfl

mutual

@[simp] theorem Node.unlocated_unlocated : ∀ n : Node, n.unlocated.unlocated = n.unlocated
  | .text .. | .value .. | .call .. | .inclusion .. => rfl
  | .branch condition body alternative _ => by
    simp only [Node.unlocated, Condition.unlocated_unlocated, unlocatedAll_unlocatedAll body,
      unlocatedOption_unlocatedOption alternative]
  | .loop _ _ _ body _ => by simp only [Node.unlocated, unlocatedAll_unlocatedAll body]
  | .block _ body _ => by simp only [Node.unlocated, unlocatedAll_unlocatedAll body]

@[simp] theorem unlocatedAll_unlocatedAll : ∀ ns : List Node, unlocatedAll (unlocatedAll ns) = unlocatedAll ns
  | [] => rfl
  | n :: ns => by simp only [unlocatedAll, Node.unlocated_unlocated n, unlocatedAll_unlocatedAll ns]

@[simp] theorem unlocatedOption_unlocatedOption : ∀ ns : Option (List Node),
    unlocatedOption (unlocatedOption ns) = unlocatedOption ns
  | none => rfl
  | some ns => by simp only [unlocatedOption, unlocatedAll_unlocatedAll ns]

end

@[simp] theorem unlocatedAll_reverse (ns : List Node) : unlocatedAll ns.reverse = (unlocatedAll ns).reverse := by
  simp only [unlocatedAll_eq_map, List.map_reverse]

@[simp] theorem Statement.unlocated_unlocated (s : Statement) : s.unlocated.unlocated = s.unlocated := by
  cases s <;> simp [unlocated]

/-! ## Building without places -/

def Template.unlocated (t : Template) : Template := { t with nodes := unlocatedAll t.nodes }

def Opener.unlocated : Opener → Opener
  | .branch condition _ => .branch condition.unlocated .origin
  | .alternative condition body _ => .alternative condition.unlocated (unlocatedAll body) .origin
  | .loop item index collection _ => .loop item index collection .origin
  | .block name _ => .block name .origin

def Frame.unlocated (f : Frame) : Frame := ⟨f.opener.unlocated, unlocatedAll f.before⟩

/-- The builder without places and events. -/
def Builder.unlocated (b : Builder) : Builder :=
  ⟨unlocatedAll b.nodes, b.frames.map Frame.unlocated, b.base, b.references, []⟩

/-- An outcome without the places of its value and of its fault. -/
def unlocatedOutcome {α : Type} (unlocated : α → α) (r : Except ParseError α) : Except ParseError α :=
  (r.map unlocated).mapError ParseError.unlocated

@[simp] theorem unlocatedOutcome_ok {α : Type} (f : α → α) (a : α) : unlocatedOutcome f (.ok a) = .ok (f a) := rfl

@[simp] theorem unlocatedOutcome_error {α : Type} (f : α → α) (e : ParseError) :
    unlocatedOutcome f (.error e) = .error e.unlocated := rfl

@[simp] theorem Opener.unlocated_unlocated (o : Opener) : o.unlocated.unlocated = o.unlocated := by
  cases o <;> simp [Opener.unlocated]

theorem Opener.close_unlocated (o : Opener) (ns : List Node) :
    (o.unlocated.close (unlocatedAll ns)).unlocated = (o.close ns).unlocated := by
  cases o <;> simp [Opener.unlocated, Opener.close, Node.unlocated, unlocatedOption]

@[simp] theorem Frame.unlocated_unlocated (f : Frame) : f.unlocated.unlocated = f.unlocated := by simp [Frame.unlocated]

theorem Frame.map_unlocated_unlocated (fs : List Frame) :
    (fs.map Frame.unlocated).map Frame.unlocated = fs.map Frame.unlocated := by
  simp [List.map_map, Function.comp_def]

namespace Builder

theorem unlocated_refer (b : Builder) (name : String) : (b.refer name).unlocated = b.unlocated.refer name := by
  have references : b.unlocated.references = b.references := rfl
  simp only [refer, references]
  split <;> rfl

theorem unlocated_push (b : Builder) (n : Node) : (b.unlocated.push n.unlocated).unlocated = (b.push n).unlocated := by
  simp only [push, unlocated, unlocatedAll, Node.unlocated_unlocated, unlocatedAll_unlocatedAll,
    Frame.map_unlocated_unlocated]

theorem unlocated_openWith (b : Builder) (o : Opener) :
    (b.unlocated.openWith o.unlocated).unlocated = (b.openWith o).unlocated := by
  simp [openWith, unlocated, unlocatedAll, Frame.unlocated]

theorem extend_unlocated (b : Builder) (c : Call) :
    b.unlocated.extend c.unlocated = unlocatedOutcome unlocated (b.extend c) := by
  have frames : b.unlocated.frames.isEmpty = b.frames.isEmpty := by simp [unlocated]
  have base : b.unlocated.base = b.base := rfl
  have arguments : c.unlocated.arguments = c.arguments := rfl
  simp only [extend, frames, base, arguments]
  split
  · rfl
  · cases c.arguments with
    | nil => rfl
    | cons name _ =>
      simp only
      split
      · rfl
      · rw [← unlocated_refer]
        rfl

/-- A step does the same without places. -/
theorem step_unlocated (b : Builder) (s : Statement) :
    unlocatedOutcome unlocated (b.unlocated.step s.unlocated) = unlocatedOutcome unlocated (b.step s) := by
  cases s with
  | text content l => exact congrArg Except.ok (unlocated_push b (.text content l))
  | value p l => exact congrArg Except.ok (unlocated_push b (.value p l))
  | call c =>
    have name : c.unlocated.name = c.name := rfl
    simp only [Statement.unlocated, step, name, extend_unlocated]
    split
    · cases b.extend c with
      | error e => exact congrArg Except.error (ParseError.unlocated_unlocated e)
      | ok b => exact congrArg Except.ok (unlocated_push b (.call c))
    · exact congrArg Except.ok (unlocated_push b (.call c))
  | inclusion name l =>
    simp only [Statement.unlocated, step, ← unlocated_refer]
    exact congrArg Except.ok (unlocated_push (b.refer name) (.inclusion name l))
  | openBranch condition l => exact congrArg Except.ok (unlocated_openWith b (.branch condition l))
  | openLoop item index collection l => exact congrArg Except.ok (unlocated_openWith b (.loop item index collection l))
  | openBlock name l => exact congrArg Except.ok (unlocated_openWith b (.block name l))
  | alternative l =>
    rcases b with ⟨nodes, _ | ⟨⟨o, before⟩, frames⟩, base, references, events⟩
    · rfl
    · cases o with
      | branch condition opened =>
        have outer := Frame.map_unlocated_unlocated frames
        simp only [Statement.unlocated, step, unlocated, List.map_cons, Frame.unlocated, Opener.unlocated,
          unlocatedOutcome_ok, ← unlocatedAll_reverse, unlocatedAll_unlocatedAll, Condition.unlocated_unlocated, outer]
      | alternative | loop | block => rfl
  | close l =>
    rcases b with ⟨nodes, _ | ⟨⟨o, before⟩, frames⟩, base, references, events⟩
    · rfl
    · simp [Statement.unlocated, step, unlocated, Frame.unlocated, push, unlocatedAll, ← unlocatedAll_reverse,
        Opener.close_unlocated]
  | fault e => simp [Statement.unlocated, step]

theorem step_congr {b b' : Builder} {s s' : Statement} (hb : b.unlocated = b'.unlocated)
    (hs : s.unlocated = s'.unlocated) :
    unlocatedOutcome unlocated (b.step s) = unlocatedOutcome unlocated (b'.step s') := by
  rw [← step_unlocated, hb, hs, step_unlocated]

theorem run_congr {b b' : Builder} {ss ss' : List Statement} (hb : b.unlocated = b'.unlocated)
    (hs : ss.map Statement.unlocated = ss'.map Statement.unlocated) :
    (b.run ss).1.unlocated = (b'.run ss').1.unlocated
      ∧ (b.run ss).2.map ParseError.unlocated = (b'.run ss').2.map ParseError.unlocated := by
  induction ss generalizing b b' ss' with
  | nil =>
    obtain rfl : ss' = [] := by simpa using hs.symm
    exact ⟨hb, rfl⟩
  | cons s ss ih =>
    obtain ⟨s', ss', rfl, same, rest⟩ := List.map_eq_cons_iff.1 hs.symm
    have step := step_congr hb same.symm
    simp only [run]
    cases h : b.step s with
    | error e =>
      cases h' : b'.step s' with
      | error e' =>
        rw [h, h', unlocatedOutcome_error, unlocatedOutcome_error, Except.error.injEq] at step
        exact ⟨hb, congrArg some step⟩
      | ok b₂ => rw [h, h'] at step; cases step
    | ok b₁ =>
      cases h' : b'.step s' with
      | error e' => rw [h, h'] at step; cases step
      | ok b₂ =>
        rw [h, h', unlocatedOutcome_ok, unlocatedOutcome_ok, Except.ok.injEq] at step
        exact ih step rest.symm

end Builder

@[simp] theorem Node.isBlank_unlocated (n : Node) : n.unlocated.isBlank = n.isBlank := by cases n <;> rfl

@[simp] theorem Node.isExtends_unlocated (n : Node) : n.unlocated.isExtends = n.isExtends := by cases n <;> rfl

@[simp] theorem Node.isBlock_unlocated (n : Node) : n.unlocated.isBlock = n.isBlock := by cases n <;> rfl

theorem checkLayout_unlocated (ns : List Node) :
    unlocatedOutcome id (checkLayout (unlocatedAll ns)) = unlocatedOutcome id (checkLayout ns) := by
  cases ns with
  | nil => rfl
  | cons first rest =>
    simp only [checkLayout, unlocatedAll, unlocatedAll_eq_map, List.find?_map, Function.comp_def,
      Node.isExtends_unlocated, Node.isBlock_unlocated]
    cases rest.find? fun n => n.isExtends || (first.isExtends && !n.isBlock) with
    | none => rfl
    | some n =>
      simp only [Option.map_some, Node.isExtends_unlocated]
      split <;> rfl

theorem filter_isBlank_unlocated (ns : List Node) :
    (unlocatedAll ns).filter (!·.isBlank) = unlocatedAll (ns.filter (!·.isBlank)) := by
  simp only [unlocatedAll_eq_map, List.filter_map, Function.comp_def, Node.isBlank_unlocated]

theorem finish_unlocated (b : Builder) :
    unlocatedOutcome Template.unlocated b.unlocated.finish = unlocatedOutcome Template.unlocated b.finish := by
  rcases b with ⟨nodes, _ | ⟨⟨o, before⟩, frames⟩, base, references, events⟩
  · have layout := checkLayout_unlocated (nodes.reverse.filter (!·.isBlank))
    simp only [Builder.finish, Builder.unlocated, List.map_nil, ← unlocatedAll_reverse, filter_isBlank_unlocated]
    cases h : checkLayout (nodes.reverse.filter (!·.isBlank)) with
    | error e =>
      cases h' : checkLayout (unlocatedAll (nodes.reverse.filter (!·.isBlank))) with
      | error e' => rw [h, h'] at layout; exact congrArg Except.error (Except.error.inj layout)
      | ok => rw [h, h'] at layout; cases layout
    | ok =>
      cases h' : checkLayout (unlocatedAll (nodes.reverse.filter (!·.isBlank))) with
      | error e' => rw [h, h'] at layout; cases layout
      | ok => simp [Except.map, Template.unlocated]
  · cases o <;> rfl

/-- Places do not count for building. -/
theorem ofTokens_congr {ts ts' : List Token} (h : ts.map Token.unlocated = ts'.map Token.unlocated) :
    unlocatedOutcome Template.unlocated (Template.ofTokens ts).1
      = unlocatedOutcome Template.unlocated (Template.ofTokens ts').1 := by
  have same : (statements ts).map Statement.unlocated = (statements ts').map Statement.unlocated := by
    rw [← statements_unlocated, h, statements_unlocated]
  obtain ⟨built, faults⟩ := Builder.run_congr (b := .empty) rfl same
  simp only [Template.ofTokens]
  generalize Builder.empty.run (statements ts) = r at built faults ⊢
  generalize Builder.empty.run (statements ts') = r' at built faults ⊢
  rcases r with ⟨b, _ | e⟩ <;> rcases r' with ⟨b', _ | e'⟩ <;> simp only [Option.map_none, Option.map_some] at faults
  · rw [← finish_unlocated, built, finish_unlocated]
  · cases faults
  · cases faults
  · exact congrArg Except.error (Option.some.inj faults)

/-! ## Spelling -/

mutual

/-- The statements that a node is built from. -/
def Node.spelling : Node → List Statement
  | .text content _ => [.text content .origin]
  | .value p _ => [.value p .origin]
  | .call c => [.call c.unlocated]
  | .branch condition body alternative _ =>
    .openBranch condition.unlocated .origin :: (spellingAll body ++ (spellingOption alternative ++ [.close .origin]))
  | .loop item index collection body _ =>
    .openLoop item index collection .origin :: (spellingAll body ++ [.close .origin])
  | .inclusion name _ => [.inclusion name .origin]
  | .block name body _ => .openBlock name .origin :: (spellingAll body ++ [.close .origin])

def spellingAll : List Node → List Statement
  | [] => []
  | n :: ns => n.spelling ++ spellingAll ns

def spellingOption : Option (List Node) → List Statement
  | none => []
  | some ns => .alternative .origin :: spellingAll ns

end

theorem spellingAll_eq_flatMap (ns : List Node) : spellingAll ns = ns.flatMap Node.spelling := by
  induction ns with
  | nil => rfl
  | cons n ns ih => rw [spellingAll, ih, List.flatMap_cons]

@[simp] theorem spellingAll_append (ns ms : List Node) : spellingAll (ns ++ ms) = spellingAll ns ++ spellingAll ms := by
  simp only [spellingAll_eq_flatMap, List.flatMap_append]

mutual

theorem Node.spelling_unlocated : ∀ n : Node, n.unlocated.spelling = n.spelling
  | .text .. | .value .. | .call .. | .inclusion .. => rfl
  | .branch condition body alternative _ => by
    simp only [Node.unlocated, Node.spelling, Condition.unlocated_unlocated, spellingAll_unlocatedAll body,
      spellingOption_unlocatedOption alternative]
  | .loop _ _ _ body _ => by simp only [Node.unlocated, Node.spelling, spellingAll_unlocatedAll body]
  | .block _ body _ => by simp only [Node.unlocated, Node.spelling, spellingAll_unlocatedAll body]

theorem spellingAll_unlocatedAll : ∀ ns : List Node, spellingAll (unlocatedAll ns) = spellingAll ns
  | [] => rfl
  | n :: ns => by simp only [unlocatedAll, spellingAll, Node.spelling_unlocated n, spellingAll_unlocatedAll ns]

theorem spellingOption_unlocatedOption : ∀ ns : Option (List Node),
    spellingOption (unlocatedOption ns) = spellingOption ns
  | none => rfl
  | some ns => by simp only [unlocatedOption, spellingOption, spellingAll_unlocatedAll ns]

end

/-! ## Steps and runs of a builder -/

/-- Whether the statement names the base of the template. -/
def Statement.isExtends : Statement → Bool
  | .call c => c.name == "extends"
  | _ => false

@[simp] theorem Statement.isExtends_unlocated (s : Statement) : s.unlocated.isExtends = s.isExtends := by
  cases s <;> rfl

/-- The names referred to, with one more. -/
def referTo (known : List String) (name : String) : List String :=
  if known.any (Text.sameIgnoringCase · name) then known else name :: known

theorem suffix_referTo (known : List String) (name : String) : known <:+ referTo known name := by
  rw [referTo]
  split
  · exact List.suffix_rfl
  · exact List.suffix_cons name known

namespace Builder

theorem refer_eq (b : Builder) (name : String) : b.refer name = { b with references := referTo b.references name } := by
  simp only [refer, referTo]
  split <;> rfl

/-- What a builder takes, and the builder that comes out. -/
inductive Takes (b : Builder) : Statement → Builder → Prop
  | text (content : String) (l : Location) : Takes b (.text content l) (b.push (.text content l))
  | value (p : Path) (l : Location) : Takes b (.value p l) (b.push (.value p l))
  | call (c : Call) (other : c.name ≠ "extends") : Takes b (.call c) (b.push (.call c))
  /-- A base is taken outside all openers, once. It is the first argument, and not empty. -/
  | base (c : Call) (named : c.name = "extends") (outside : b.frames = []) (once : b.base = none) (name : String)
      (first : c.arguments.head? = some name) (filled : name ≠ "") :
    Takes b (.call c) (push { b with references := referTo b.references name, base := some name } (.call c))
  | inclusion (name : String) (l : Location) :
    Takes b (.inclusion name l) (push { b with references := referTo b.references name } (.inclusion name l))
  | openBranch (condition : Condition) (l : Location) :
    Takes b (.openBranch condition l) (b.openWith (.branch condition l))
  | openLoop (item : String) (index : Option String) (collection : Path) (l : Location) :
    Takes b (.openLoop item index collection l) (b.openWith (.loop item index collection l))
  | openBlock (name : String) (l : Location) : Takes b (.openBlock name l) (b.openWith (.block name l))
  | alternative (l : Location) (condition : Condition) (opened : Location) (before : List Node) (frames : List Frame)
      (inside : b.frames = ⟨.branch condition opened, before⟩ :: frames) :
    Takes b (.alternative l)
      { b with nodes := [], frames := ⟨.alternative condition b.nodes.reverse opened, before⟩ :: frames }
  | close (l : Location) (o : Opener) (before : List Node) (frames : List Frame)
      (inside : b.frames = ⟨o, before⟩ :: frames) :
    Takes b (.close l) (push { b with nodes := before, frames := frames } (o.close b.nodes.reverse))

theorem takes_of_extend {b b' : Builder} {c : Call} (named : c.name = "extends") (h : b.extend c = .ok b') :
    b.Takes (.call c) (b'.push (.call c)) := by
  simp only [extend] at h
  split at h
  · cases h
  next free =>
  obtain ⟨outside, once⟩ : b.frames = [] ∧ b.base = none := by simpa using free
  split at h
  · cases h
  next name more arguments =>
  split at h
  · cases h
  next filled =>
  cases h
  rw [refer_eq]
  exact .base c named outside once name (by rw [arguments]; rfl) filled

/-- All that a step can do. -/
theorem takes_of_step {b b' : Builder} {s : Statement} (h : b.step s = .ok b') : b.Takes s b' := by
  cases s with
  | text content l => cases h; exact .text content l
  | value p l => cases h; exact .value p l
  | call c =>
    simp only [step] at h
    split at h
    · next named =>
      cases he : b.extend c with
      | error e => rw [he] at h; cases h
      | ok b₁ =>
        rw [he] at h
        cases h
        exact takes_of_extend named he
    · next other => cases h; exact .call c other
  | inclusion name l => cases h; rw [refer_eq]; exact .inclusion name l
  | openBranch condition l => cases h; exact .openBranch condition l
  | openLoop item index collection l => cases h; exact .openLoop item index collection l
  | openBlock name l => cases h; exact .openBlock name l
  | alternative l =>
    simp only [step] at h
    split at h
    · next condition opened before frames inside => cases h; exact .alternative l condition opened before frames inside
    · cases h
  | close l =>
    simp only [step] at h
    split at h
    · next o before frames inside => cases h; exact .close l o before frames inside
    · cases h
  | fault e => cases h

/-- Statements are taken if the first one is taken, and then the others. -/
theorem run_cons_iff {b b' : Builder} {s : Statement} {ss : List Statement} :
    b.run (s :: ss) = (b', none) ↔ ∃ b₁, b.step s = .ok b₁ ∧ b₁.run ss = (b', none) := by
  rw [run]
  cases b.step s <;> simp

/-- What every step of a run keeps holds at its end. -/
theorem run_keeps {P : Builder → Prop} {b b' : Builder} {ss : List Statement} (h : b.run ss = (b', none)) (start : P b)
    (keeps : ∀ s ∈ ss, ∀ c c' : Builder, P c → c.step s = .ok c' → P c') : P b' := by
  induction ss generalizing b with
  | nil => cases h; exact start
  | cons s ss ih =>
    obtain ⟨b₁, hs, h⟩ := run_cons_iff.1 h
    exact ih h (keeps s List.mem_cons_self b b₁ start hs) fun s' hs' => keeps s' (List.mem_cons_of_mem s hs')

theorem run_append {b b' : Builder} {ss : List Statement} (h : b.run ss = (b', none)) (rest : List Statement) :
    b.run (ss ++ rest) = b'.run rest := by
  induction ss generalizing b with
  | nil => cases h; rfl
  | cons s ss ih =>
    obtain ⟨b₁, hs, h⟩ := run_cons_iff.1 h
    simp only [List.cons_append, run, hs]
    exact ih h

/-- A run over statements in two parts is the run over one part and then over the other. -/
theorem exists_of_run_append {b b' : Builder} {ss us : List Statement} (h : b.run (ss ++ us) = (b', none)) :
    ∃ b₁, b.run ss = (b₁, none) ∧ b₁.run us = (b', none) := by
  induction ss generalizing b with
  | nil => exact ⟨b, rfl, h⟩
  | cons s ss ih =>
    obtain ⟨b₁, hs, h⟩ := run_cons_iff.1 h
    obtain ⟨b₂, first, rest⟩ := ih h
    exact ⟨b₂, run_cons_iff.2 ⟨b₁, hs, first⟩, rest⟩

end Builder

/-! ## Building undoes spelling -/

/-- The names referred to once statements have been taken. -/
def refersTo (known : List String) (ss : List Statement) : List String :=
  ss.foldl (fun known s => match s with | .inclusion name _ => referTo known name | _ => known) known

namespace Builder

/-- The builder with complete nodes behind its own, and with the references of their spelling. -/
def gain (b : Builder) (ns : List Node) (ss : List Statement) (events : List Event) : Builder :=
  ⟨(unlocatedAll ns).reverse ++ b.nodes, b.frames, b.base, refersTo b.references ss, events⟩

/-- The body of an opener and its `end` give the node of the opener. -/
theorem run_close {b : Builder} {o : Opener} {before : List Node} {frames : List Frame} {body : List Node}
    {events : List Event} (nodes : b.nodes = []) (open_ : b.frames = ⟨o, before⟩ :: frames)
    (inner : b.run (spellingAll body) = (b.gain body (spellingAll body) events, none)) :
    ∃ events, b.run (spellingAll body ++ [.close .origin])
      = (⟨o.close (unlocatedAll body) :: before, frames, b.base, refersTo b.references (spellingAll body), events⟩,
        none) := by
  rw [run_append inner]
  simp only [run, step, gain, open_, nodes, push, List.append_nil, List.reverse_reverse]
  exact ⟨_, rfl⟩

mutual

theorem run_spelling : ∀ (n : Node), (∀ s ∈ n.spelling, s.isExtends = false) → ∀ b : Builder,
    ∃ events, b.run n.spelling = (b.gain [n] n.spelling events, none)
  | .text content _, _, b => ⟨_, rfl⟩
  | .value p _, _, b => ⟨_, rfl⟩
  | .call c, h, b => by
    have other : c.unlocated.name ≠ "extends" := by simpa [Node.spelling, Statement.isExtends] using h
    exact ⟨_, by simp only [Node.spelling, run, step, other, if_false]; rfl⟩
  | .inclusion name _, _, b => ⟨_, by simp only [Node.spelling, run, step, refer_eq]; rfl⟩
  | .loop item index collection body _, h, b => by
    have free : ∀ s ∈ spellingAll body, s.isExtends = false := fun s hs => h s (by simp [Node.spelling, hs])
    obtain ⟨_, inner⟩ := run_spellingAll body free (b.openWith (.loop item index collection .origin))
    obtain ⟨events, closed⟩ := run_close rfl rfl inner
    refine ⟨events, ?_⟩
    simp only [Node.spelling, run, step, closed]
    simp [gain, unlocatedAll, Node.unlocated, Opener.close, refersTo, openWith]
  | .block name body _, h, b => by
    have free : ∀ s ∈ spellingAll body, s.isExtends = false := fun s hs => h s (by simp [Node.spelling, hs])
    obtain ⟨_, inner⟩ := run_spellingAll body free (b.openWith (.block name .origin))
    obtain ⟨events, closed⟩ := run_close rfl rfl inner
    refine ⟨events, ?_⟩
    simp only [Node.spelling, run, step, closed]
    simp [gain, unlocatedAll, Node.unlocated, Opener.close, refersTo, openWith]
  | .branch condition body none _, h, b => by
    have free : ∀ s ∈ spellingAll body, s.isExtends = false := fun s hs => h s (by simp [Node.spelling, hs])
    obtain ⟨_, inner⟩ := run_spellingAll body free (b.openWith (.branch condition.unlocated .origin))
    obtain ⟨events, closed⟩ := run_close rfl rfl inner
    refine ⟨events, ?_⟩
    simp only [Node.spelling, spellingOption, List.nil_append, run, step, closed]
    simp [gain, unlocatedAll, unlocatedOption, Node.unlocated, Opener.close, refersTo, openWith]
  | .branch condition body (some alternative) _, h, b => by
    have free : ∀ s ∈ spellingAll body, s.isExtends = false := fun s hs => h s (by simp [Node.spelling, hs])
    have free' : ∀ s ∈ spellingAll alternative, s.isExtends = false :=
      fun s hs => h s (by simp [Node.spelling, spellingOption, hs])
    obtain ⟨evs, inner⟩ := run_spellingAll body free (b.openWith (.branch condition.unlocated .origin))
    obtain ⟨_, inner'⟩ := run_spellingAll alternative free'
      ⟨[], ⟨.alternative condition.unlocated (unlocatedAll body) .origin, b.nodes⟩ :: b.frames, b.base,
        refersTo b.references (spellingAll body), evs⟩
    obtain ⟨events, closed⟩ := run_close rfl rfl inner'
    refine ⟨events, ?_⟩
    simp only [Node.spelling, spellingOption, List.cons_append, run, step, run_append inner]
    simp only [gain, openWith, List.append_nil, List.reverse_reverse, closed]
    simp [unlocatedAll, unlocatedOption, Node.unlocated, Opener.close, refersTo]

theorem run_spellingAll : ∀ (ns : List Node), (∀ s ∈ spellingAll ns, s.isExtends = false) → ∀ b : Builder,
    ∃ events, b.run (spellingAll ns) = (b.gain ns (spellingAll ns) events, none)
  | [], _, b => ⟨_, rfl⟩
  | n :: ns, h, b => by
    simp only [spellingAll, List.mem_append, or_imp, forall_and] at h
    obtain ⟨_, first⟩ := run_spelling n h.1 b
    obtain ⟨events, rest⟩ := run_spellingAll ns h.2 (b.gain [n] n.spelling _)
    refine ⟨events, ?_⟩
    rw [spellingAll, run_append first, rest]
    simp [gain, unlocatedAll, refersTo]

end

end Builder

/-! ## What has been built is written as what has been taken -/

/-- The statement as far as a tree keeps it. The places of `else` and `end` are lost. -/
def Statement.kept : Statement → Statement
  | .alternative _ => .alternative .origin
  | .close _ => .close .origin
  | s => s

@[simp] theorem Statement.unlocated_kept (s : Statement) : s.kept.unlocated = s.unlocated := by cases s <;> rfl

mutual

/-- The statements that a node is built from, with the places that it keeps. -/
def Node.written : Node → List Statement
  | .text content l => [.text content l]
  | .value p l => [.value p l]
  | .call c => [.call c]
  | .branch condition body alternative l =>
    .openBranch condition l :: (writtenAll body ++ (writtenOption alternative ++ [.close .origin]))
  | .loop item index collection body l => .openLoop item index collection l :: (writtenAll body ++ [.close .origin])
  | .inclusion name l => [.inclusion name l]
  | .block name body l => .openBlock name l :: (writtenAll body ++ [.close .origin])

def writtenAll : List Node → List Statement
  | [] => []
  | n :: ns => n.written ++ writtenAll ns

def writtenOption : Option (List Node) → List Statement
  | none => []
  | some ns => .alternative .origin :: writtenAll ns

end

theorem writtenAll_append (ns ms : List Node) : writtenAll (ns ++ ms) = writtenAll ns ++ writtenAll ms := by
  induction ns with
  | nil => rfl
  | cons n ns ih => rw [List.cons_append, writtenAll, ih, writtenAll, List.append_assoc]

theorem Node.mem_writtenAll {n : Node} {ns : List Node} {s : Statement} (hn : n ∈ ns) (hs : s ∈ n.written) :
    s ∈ writtenAll ns := by
  obtain ⟨front, rest, rfl⟩ := List.append_of_mem hn
  simp [writtenAll_append, writtenAll, hs]

/-- What a block is written as is part of what its template is written as. -/
theorem Template.mem_writtenAll_of_blocks {t : Template} {block : String × List Node} (hb : block ∈ t.blocks)
    {s : Statement} (hs : s ∈ writtenAll block.2) : s ∈ writtenAll t.nodes := by
  obtain ⟨n, hn, made⟩ := List.mem_filterMap.1 hb
  split at made
  · cases made
    exact Node.mem_writtenAll hn (by simp [Node.written, hs])
  · cases made

/-- The call that a condition is, if it is one. -/
def Condition.call? : Condition → Option Call
  | path _ => none
  | call c => some c

/-- The call that is evaluated for a statement. -/
def Statement.call? : Statement → Option Call
  | call c => some c
  | openBranch condition _ => condition.call?
  | _ => none

@[simp] theorem Statement.call?_kept (s : Statement) : s.kept.call? = s.call? := by cases s <;> rfl

/-- A property of all calls that are evaluated for statements. -/
def EachCall (P : Call → Prop) (ss : List Statement) : Prop := ∀ s ∈ ss, ∀ c ∈ s.call?, P c

section EachCall

variable {P : Call → Prop} {s : Statement} {ss us : List Statement}

theorem EachCall.left (h : EachCall P (ss ++ us)) : EachCall P ss := fun _ hs => h _ (List.mem_append_left us hs)

theorem EachCall.right (h : EachCall P (ss ++ us)) : EachCall P us := fun _ hs => h _ (List.mem_append_right ss hs)

theorem EachCall.head (h : EachCall P (s :: ss)) : ∀ c ∈ s.call?, P c := h s List.mem_cons_self

theorem EachCall.tail (h : EachCall P (s :: ss)) : EachCall P ss := fun _ hs => h _ (List.mem_cons_of_mem s hs)

end EachCall

mutual

/-- A spelling is what is written, places apart. -/
theorem Node.map_unlocated_written : ∀ n : Node, n.written.map Statement.unlocated = n.spelling
  | .text .. | .value .. | .call .. | .inclusion .. => rfl
  | .branch _ body alternative _ => by
    simp [Node.written, Node.spelling, Statement.unlocated, map_unlocated_writtenAll body,
      map_unlocated_writtenOption alternative]
  | .loop _ _ _ body _ => by simp [Node.written, Node.spelling, Statement.unlocated, map_unlocated_writtenAll body]
  | .block _ body _ => by simp [Node.written, Node.spelling, Statement.unlocated, map_unlocated_writtenAll body]

theorem map_unlocated_writtenAll : ∀ ns : List Node, (writtenAll ns).map Statement.unlocated = spellingAll ns
  | [] => rfl
  | n :: ns => by
    rw [writtenAll, List.map_append, Node.map_unlocated_written n, map_unlocated_writtenAll ns, spellingAll]

theorem map_unlocated_writtenOption : ∀ ns : Option (List Node),
    (writtenOption ns).map Statement.unlocated = spellingOption ns
  | none => rfl
  | some ns => by
    rw [writtenOption, List.map_cons, map_unlocated_writtenAll ns]
    rfl

end

def Opener.written : Opener → List Statement
  | .branch condition l => [.openBranch condition l]
  | .alternative condition body l => .openBranch condition l :: (writtenAll body ++ [.alternative .origin])
  | .loop item index collection l => [.openLoop item index collection l]
  | .block name l => [.openBlock name l]

theorem Opener.written_close (o : Opener) (ns : List Node) :
    (o.close ns).written = o.written ++ (writtenAll ns ++ [.close .origin]) := by
  cases o <;> simp [close, written, Node.written, writtenOption]

namespace Builder

/-- What the frames are written as, from the outside in. -/
def framesWritten : List Frame → List Statement
  | [] => []
  | f :: fs => framesWritten fs ++ (writtenAll f.before.reverse ++ f.opener.written)

/-- What is built so far, as statements. -/
def written (b : Builder) : List Statement := framesWritten b.frames ++ writtenAll b.nodes.reverse

@[simp] theorem written_push (b : Builder) (n : Node) : (b.push n).written = b.written ++ n.written := by
  simp [written, push, writtenAll, writtenAll_append]

theorem written_openWith (b : Builder) (o : Opener) : (b.openWith o).written = b.written ++ o.written := by
  simp [written, openWith, writtenAll, framesWritten]

/-- A step writes the statement that it takes. -/
theorem written_step {b b' : Builder} {s : Statement} (h : b.step s = .ok b') :
    b'.written = b.written ++ [s.kept] := by
  cases takes_of_step h with
  | text | value | call | base | inclusion => exact written_push _ _
  | openBranch | openLoop | openBlock => exact written_openWith b _
  | alternative l condition opened before frames inside =>
    simp [written, framesWritten, inside, Opener.written, Statement.kept, writtenAll]
  | close l o before frames inside =>
    simp [written, framesWritten, inside, Opener.written_close, push, Statement.kept, writtenAll, writtenAll_append]

/-- What a builder has built is written as the statements that it has taken. -/
theorem written_run {b b' : Builder} {ss : List Statement} (h : b.run ss = (b', none)) :
    b'.written = b.written ++ ss.map Statement.kept := by
  induction ss generalizing b with
  | nil => cases h; simp
  | cons s ss ih =>
    obtain ⟨b₁, hs, h⟩ := run_cons_iff.1 h
    rw [ih h, written_step hs]
    simp

/-- A step names no base, or names the base outside all openers where there is none yet. -/
theorem step_base {b b' : Builder} {s : Statement} (h : b.step s = .ok b') :
    (s.isExtends = false ∧ b'.base = b.base)
      ∨ ∃ c, s = .call c ∧ c.name = "extends" ∧ b.frames = [] ∧ b.base = none
        ∧ b'.nodes = .call c :: b.nodes ∧ b'.frames = [] ∧ b'.base.isSome = true := by
  cases takes_of_step h with
  | base c named outside once => exact .inr ⟨c, rfl, named, outside, once, rfl, outside, rfl⟩
  | call c other => exact .inl ⟨by simpa [Statement.isExtends] using other, rfl⟩
  | _ => exact .inl ⟨rfl, rfl⟩

theorem base_run {b b' : Builder} {ss : List Statement} (h : b.run ss = (b', none)) (none' : b'.base = none) :
    b.base = none ∧ ∀ s ∈ ss, s.isExtends = false := by
  induction ss generalizing b with
  | nil => cases h; exact ⟨none', by simp⟩
  | cons s ss ih =>
    obtain ⟨b₁, hs, h⟩ := run_cons_iff.1 h
    obtain ⟨before, rest⟩ := ih h
    rcases step_base hs with ⟨first, same⟩ | ⟨c, -, -, -, -, -, -, some'⟩
    · exact ⟨same ▸ before, by simpa [first] using rest⟩
    · rw [before] at some'
      cases some'

/-- No fault is taken. -/
theorem isFault_of_step {b b' : Builder} {s : Statement} (h : b.step s = .ok b') : s.isFault = false := by
  cases takes_of_step h <;> rfl

theorem isFault_run {b b' : Builder} {ss : List Statement} (h : b.run ss = (b', none)) :
    ∀ s ∈ ss, s.isFault = false := by
  induction ss generalizing b with
  | nil => simp
  | cons s ss ih =>
    obtain ⟨b₁, hs, h⟩ := run_cons_iff.1 h
    simpa [isFault_of_step hs] using ih h

end Builder

/-! ## Templates and their spelling -/

theorem checkLayout_of_none {ns : List Node} (h : ∀ n ∈ ns, n.isExtends = false) : checkLayout ns = .ok () := by
  cases ns with
  | nil => rfl
  | cons first rest =>
    have : rest.find? (fun n => n.isExtends || (first.isExtends && !n.isBlock)) = none := by
      rw [List.find?_eq_none]
      intro n hn
      simp [h n (List.mem_cons_of_mem _ hn), h first List.mem_cons_self]
    simp only [checkLayout, this]

theorem isExtends_of_spelling {ns : List Node} (h : ∀ s ∈ spellingAll ns, s.isExtends = false) :
    ∀ n ∈ ns, n.isExtends = false := by
  intro n hn
  cases n with
  | call c =>
    refine h (.call c.unlocated) ?_
    rw [spellingAll_eq_flatMap, List.mem_flatMap]
    exact ⟨_, hn, by simp [Node.spelling]⟩
  | text | value | branch | loop | inclusion | block => rfl

/-- Tokens whose statements, places apart, build a tree are read as this tree. -/
theorem ofTokens_of_run {ts : List Token} {ss : List Statement} {b : Builder} {t : Template}
    (same : (statements ts).map Statement.unlocated = ss.map Statement.unlocated)
    (built : Builder.empty.run ss = (b, none)) (finished : b.finish = .ok t) :
    ∃ t', (Template.ofTokens ts).1 = .ok t' ∧ t'.unlocated = t.unlocated := by
  obtain ⟨builder, fault⟩ := Builder.run_congr (b := .empty) rfl same
  rw [built] at builder fault
  simp only [Template.ofTokens]
  generalize Builder.empty.run (statements ts) = r at builder fault ⊢
  obtain ⟨b', _ | e⟩ := r
  · have outcome : unlocatedOutcome Template.unlocated b'.finish = unlocatedOutcome Template.unlocated (.ok t) := by
      rw [← finished, ← finish_unlocated, builder, finish_unlocated]
    simp only
    cases h : b'.finish with
    | error e => rw [h] at outcome; cases outcome
    | ok t' => rw [h] at outcome; exact ⟨t', rfl, Except.ok.inj outcome⟩
  · cases fault

/-- Tokens that spell nodes without a base are read as these nodes. -/
theorem ofTokens_of_spelling {ts : List Token} {ns : List Node}
    (same : (statements ts).map Statement.unlocated = spellingAll ns)
    (free : ∀ s ∈ spellingAll ns, s.isExtends = false) :
    ∃ t, (Template.ofTokens ts).1 = .ok t
      ∧ t.unlocated = ⟨unlocatedAll ns, none, none, (refersTo [] (spellingAll ns)).reverse⟩ := by
  obtain ⟨events, built⟩ := Builder.run_spellingAll ns free .empty
  have unplaced : (spellingAll ns).map Statement.unlocated = spellingAll ns := by
    rw [← same, List.map_map]
    exact List.map_congr_left fun s _ => Statement.unlocated_unlocated s
  have layout : checkLayout ((unlocatedAll ns).filter (!·.isBlank)) = .ok () := by
    refine checkLayout_of_none fun n hn => ?_
    rw [← spellingAll_unlocatedAll] at free
    exact isExtends_of_spelling free n (List.mem_filter.1 hn).1
  have finished : (Builder.empty.gain ns (spellingAll ns) events).finish
      = .ok ⟨unlocatedAll ns, none, none, (refersTo [] (spellingAll ns)).reverse⟩ := by
    simp only [Builder.gain, Builder.empty, Builder.finish, List.append_nil, List.reverse_reverse, layout]
    rfl
  obtain ⟨t, read, equal⟩ := ofTokens_of_run (same.trans unplaced.symm) built finished
  exact ⟨t, read, by rw [equal]; simp [Template.unlocated]⟩

theorem ofTokens_eq_ok {ts : List Token} {t : Template} (h : (Template.ofTokens ts).1 = .ok t) :
    ∃ b, Builder.empty.run (statements ts) = (b, none) ∧ b.frames = []
      ∧ t = ⟨b.nodes.reverse, b.base, none, b.references.reverse⟩ := by
  simp only [Template.ofTokens] at h
  generalize Builder.empty.run (statements ts) = r at h ⊢
  rcases r with ⟨⟨nodes, _ | ⟨f, frames⟩, base, references, events⟩, _ | e⟩
  · simp only [Builder.finish] at h
    cases hl : checkLayout (nodes.reverse.filter (!·.isBlank)) with
    | error e => rw [hl] at h; cases h
    | ok =>
      rw [hl] at h
      cases h
      exact ⟨_, rfl, rfl, rfl⟩
  · cases h
  · cases h
  · cases h

/-- A template that has been read is written as its statements. -/
theorem written_of_ofTokens {ts : List Token} {t : Template} (h : (Template.ofTokens ts).1 = .ok t) :
    writtenAll t.nodes = (statements ts).map Statement.kept := by
  obtain ⟨b, run, frames, rfl⟩ := ofTokens_eq_ok h
  simpa [Builder.written, frames, Builder.framesWritten, Builder.empty, writtenAll] using Builder.written_run run

/-- A template that has been read spells its statements. -/
theorem spelling_of_ofTokens {ts : List Token} {t : Template} (h : (Template.ofTokens ts).1 = .ok t) :
    (statements ts).map Statement.unlocated = spellingAll t.nodes := by
  rw [← map_unlocated_writtenAll, written_of_ofTokens h, List.map_map]
  exact List.map_congr_left fun s _ => (Statement.unlocated_kept s).symm

theorem isExtends_of_ofTokens {ts : List Token} {t : Template} (h : (Template.ofTokens ts).1 = .ok t)
    (none' : t.base = none) : ∀ s ∈ statements ts, s.isExtends = false := by
  obtain ⟨b, run, _, rfl⟩ := ofTokens_eq_ok h
  exact (Builder.base_run run none').2

theorem isFault_of_ofTokens {ts : List Token} {t : Template} (h : (Template.ofTokens ts).1 = .ok t) :
    ∀ s ∈ statements ts, s.isFault = false := by
  obtain ⟨b, run, _, _⟩ := ofTokens_eq_ok h
  exact Builder.isFault_run run

/-- Tokens are read as a tree without a base exactly if their statements spell it and none names a base. -/
theorem ofTokens_iff {ts : List Token} {ns : List Node} :
    (∃ t, (Template.ofTokens ts).1 = .ok t ∧ t.base = none ∧ unlocatedAll t.nodes = unlocatedAll ns)
      ↔ (statements ts).map Statement.unlocated = spellingAll ns ∧ ∀ s ∈ spellingAll ns, s.isExtends = false := by
  constructor
  · rintro ⟨t, read, none', same⟩
    have equal : (statements ts).map Statement.unlocated = spellingAll ns := by
      rw [spelling_of_ofTokens read, ← spellingAll_unlocatedAll, same, spellingAll_unlocatedAll]
    refine ⟨equal, fun s hs => ?_⟩
    rw [← equal] at hs
    obtain ⟨s', hs', rfl⟩ := List.mem_map.1 hs
    rw [Statement.isExtends_unlocated]
    exact isExtends_of_ofTokens read none' s' hs'
  · rintro ⟨same, free⟩
    obtain ⟨t, read, equal⟩ := ofTokens_of_spelling same free
    exact ⟨t, read, congrArg Template.base equal, congrArg Template.nodes equal⟩

end Stencil
