import Stencil.Proofs.Syntax.Nesting
import Stencil.Proofs.Syntax.Slices

/-!
# Events of reading

The events of a source are recorded on the way: those of tokens when the scanner emits them, and that of a node when the
builder has completed it. They describe what comes out in the end: the tokens in order, with the numbers from zero, the
error if there is one, and then the nodes of the tree, each behind all nodes within it.

* `Scanner.log_eq`: the log that the steps of a scan keep.
* `Builder.recorded_step`, `Builder.recorded_run`: the events of a builder are those of its complete nodes.
* `Template.parseTraced_events`: the events of a source are its tokens and the nodes of its tree, in order.
-/

namespace Stencil

/-! ## Tokens -/

/-- The event of a token behind `index` other ones. -/
def Event.ofToken (index : Nat) (t : Token) : Event := if t.kind = .error then .lexError t else .token index t

namespace Scanner

/-- What a scan has emitted so far, and the events of it. -/
structure Log where
  tokens : List Token
  events : List Event
  deriving DecidableEq, Repr

/-- Emits a token, whose event has the number of tokens emitted before. -/
def Log.emit (log : Log) (t : Token) : Log :=
  ⟨log.tokens ++ [t], log.events ++ [Event.ofToken log.tokens.length t]⟩

/-- The log of a run, step by step. -/
def logFrom (m : Mode) (c : Cursor) (log : Log) : Log :=
  match h : (step m c).next with
  | none => (step m c).tokens.foldl Log.emit log
  | some (m', c') =>
    have := step_decreases h
    logFrom m' c' ((step m c).tokens.foldl Log.emit log)
termination_by measure m c

theorem foldl_emit (ts : List Token) (log : Log) : ts.foldl Log.emit log
    = ⟨log.tokens ++ ts, log.events ++ ts.mapIdx fun index => Event.ofToken (log.tokens.length + index)⟩ := by
  induction ts generalizing log with
  | nil => simp
  | cons t ts ih =>
    rw [List.foldl_cons, ih]
    simp [Log.emit, List.mapIdx_cons, Nat.add_assoc, Nat.add_comm 1]

/-- A run logs the tokens that it emits, whatever its steps are. -/
theorem logFrom_eq (m : Mode) (c : Cursor) (log : Log) : logFrom m c log = (run m c).foldl Log.emit log := by
  induction hn : measure m c using Nat.strongRecOn generalizing m c log with
  | _ n ih =>
    rw [logFrom]
    split
    · next stops => rw [run_of_stop stops]
    · next m' c' next => rw [run_of_next next, List.foldl_append, ih _ (hn ▸ step_decreases next) m' c' _ rfl]

/-- The log of a source. -/
def log (source : String) : Log := logFrom .text (.origin source.toList) ⟨[], []⟩

theorem log_eq (source : String) : log source = ⟨scan source, Event.ofTokens (scan source)⟩ := by
  rw [log, logFrom_eq, foldl_emit]
  simp only [List.nil_append, List.length_nil, Nat.zero_add]
  rfl

end Scanner

/-- The events of tokens and an error behind them: the numbers are those of the tokens, and the error has none. -/
theorem Event.ofTokens_append {tokens : List Token} {fault : Option Token} (plain : ∀ t ∈ tokens, t.kind ≠ .error)
    (error : ∀ e ∈ fault, e.kind = .error) :
    ofTokens (tokens ++ fault.toList) = tokens.mapIdx token ++ fault.toList.map lexError := by
  have numbered : tokens.mapIdx ofToken = tokens.mapIdx token := by
    refine List.mapIdx_eq_mapIdx_iff.2 fun index bound => ?_
    exact if_neg (plain _ (List.getElem_mem bound))
  show List.mapIdx ofToken _ = _
  rw [List.mapIdx_append, numbered]
  cases fault with
  | none => rfl
  | some e =>
    have last : ofToken tokens.length e = lexError e := if_pos (error e rfl)
    simp [last]

/-! ## Nodes -/

mutual

/-- A node behind all nodes within it, each with the number of nodes around it. -/
def Node.postorder (depth : Nat) : Node → List (Nat × Node)
  | .text content l => [(depth, .text content l)]
  | .value p l => [(depth, .value p l)]
  | .call c => [(depth, .call c)]
  | .branch condition body alternative l =>
    postorderAll (depth + 1) body ++ (postorderOption (depth + 1) alternative
      ++ [(depth, .branch condition body alternative l)])
  | .loop item index collection body l =>
    postorderAll (depth + 1) body ++ [(depth, .loop item index collection body l)]
  | .inclusion name l => [(depth, .inclusion name l)]
  | .block name body l => postorderAll (depth + 1) body ++ [(depth, .block name body l)]

def postorderAll (depth : Nat) : List Node → List (Nat × Node)
  | [] => []
  | n :: ns => n.postorder depth ++ postorderAll depth ns

def postorderOption (depth : Nat) : Option (List Node) → List (Nat × Node)
  | none => []
  | some ns => postorderAll depth ns

end

theorem postorderAll_append (depth : Nat) (ns ms : List Node) :
    postorderAll depth (ns ++ ms) = postorderAll depth ns ++ postorderAll depth ms := by
  induction ns with
  | nil => rfl
  | cons n ns ih => rw [List.cons_append, postorderAll, ih, postorderAll, List.append_assoc]

theorem postorderAll_singleton (depth : Nat) (n : Node) : postorderAll depth [n] = n.postorder depth :=
  List.append_nil _

/-- The event of a complete node. -/
def Event.ofNode (n : Nat × Node) : Event := .node n.1 n.2.location n.2.kind

/-- The nodes that an opener holds already: the body of a branch behind its `else`. -/
def Opener.postorder (depth : Nat) : Opener → List (Nat × Node)
  | .alternative _ body _ => postorderAll depth body
  | .branch .. | .loop .. | .block .. => []

theorem Opener.postorder_close (depth : Nat) (o : Opener) (ns : List Node) : (o.close ns).postorder depth
    = o.postorder (depth + 1) ++ (postorderAll (depth + 1) ns ++ [(depth, o.close ns)]) := by
  cases o <;> rfl

namespace Builder

variable {b b' : Builder}

/-- The complete nodes in and in front of frames. -/
def framesComplete : List Frame → List (Nat × Node)
  | [] => []
  | f :: fs =>
    framesComplete fs ++ (postorderAll fs.length f.before.reverse ++ f.opener.postorder (fs.length + 1))

/-- The nodes that are complete so far. -/
def complete (b : Builder) : List (Nat × Node) :=
  framesComplete b.frames ++ postorderAll b.frames.length b.nodes.reverse

/-- The events are those of the complete nodes, in order. -/
def Recorded (b : Builder) : Prop := b.events.reverse = b.complete.map Event.ofNode

/-- A node that is added is complete with the nodes within it, which have to be recorded. -/
theorem recorded_push {n : Node} (inner : List (Nat × Node))
    (within : n.postorder b.frames.length = inner ++ [(b.frames.length, n)])
    (h : b.events.reverse = (b.complete ++ inner).map Event.ofNode) : (b.push n).Recorded := by
  have complete : (b.push n).complete = b.complete ++ (inner ++ [(b.frames.length, n)]) := by
    rw [← within, ← postorderAll_singleton]
    simp only [Builder.complete, push, List.reverse_cons, postorderAll_append, List.append_assoc]
  rw [Recorded, complete, ← List.append_assoc, List.map_append, ← h, push, List.reverse_cons]
  rfl

/-- A step records the node that it completes, and no other. -/
theorem recorded_step {s : Statement} (h : b.step s = .ok b') (recorded : b.Recorded) : b'.Recorded := by
  cases takes_of_step h with
  | text | value | call => exact recorded_push [] rfl (by rwa [List.append_nil])
  | base | inclusion => exact recorded_push [] rfl (by rw [List.append_nil]; exact recorded)
  | openBranch | openLoop | openBlock =>
    simpa [Recorded, complete, openWith, framesComplete, Opener.postorder, postorderAll] using recorded
  | alternative l condition opened before frames inside =>
    rw [Recorded, complete, inside] at recorded
    simpa [Recorded, complete, framesComplete, Opener.postorder, postorderAll] using recorded
  | close l o before frames inside =>
    rw [Recorded, complete, inside] at recorded
    have within := Opener.postorder_close frames.length o b.nodes.reverse
    rw [← List.append_assoc] at within
    refine recorded_push _ within ?_
    simpa [complete, framesComplete] using recorded

/-- The events of a run are those of the nodes that it has completed, also if it ends with a fault. -/
theorem recorded_run (ss : List Statement) (recorded : b.Recorded) : (b.run ss).1.Recorded := by
  induction ss generalizing b with
  | nil => exact recorded
  | cons s ss ih =>
    rw [run]
    cases taken : b.step s with
    | error e => exact recorded
    | ok b₁ => exact ih (recorded_step taken recorded)

end Builder

namespace Template

/-- The events of building are those of nodes, and of a tree that is built, those of all its nodes. -/
theorem exists_ofTokens_events (ts : List Token) : ∃ nodes : List (Nat × Node),
    (ofTokens ts).2 = nodes.map Event.ofNode ∧ ∀ t, (ofTokens ts).1 = .ok t → nodes = postorderAll 0 t.nodes := by
  refine ⟨(Builder.empty.run (statements ts)).1.complete, Builder.recorded_run _ rfl, fun t read => ?_⟩
  obtain ⟨b, run, frames, rfl⟩ := ofTokens_eq_ok read
  rw [run, Builder.complete, frames]
  rfl

/-- **Trace events describe what has been read.** They are the tokens with their numbers, the error if there is one, and
the nodes; those of a tree are all its nodes, each behind the nodes of its bodies. The events of tokens are the log of
the scanner. Without a trace there are no events, and all else is the same. -/
theorem parseTraced_events (source : String) (path : Option String) :
    ∃ (tokens : List Token) (fault : Option Token) (nodes : List (Nat × Node)),
      scan source = tokens ++ fault.toList ∧ (∀ t ∈ tokens, t.kind ≠ .error) ∧ (∀ e ∈ fault, e.kind = .error)
      ∧ Scanner.log source = ⟨scan source, tokens.mapIdx Event.token ++ fault.toList.map Event.lexError⟩
      ∧ (parseTraced source ⟨true, path⟩).2
        = tokens.mapIdx Event.token ++ fault.toList.map Event.lexError ++ nodes.map Event.ofNode
      ∧ (∀ t, (parseTraced source ⟨true, path⟩).1 = .ok t → nodes = postorderAll 0 t.nodes)
      ∧ parseTraced source ⟨false, path⟩ = ((parseTraced source ⟨true, path⟩).1, []) := by
  obtain ⟨tokens, fault, scanned, plain, error⟩ := exists_scan_eq source
  obtain ⟨nodes, events, tree⟩ := exists_ofTokens_events (scan source)
  have ofScan := Event.ofTokens_append plain error
  rw [← scanned] at ofScan
  refine ⟨tokens, fault, nodes, scanned, plain, error, ?_, ?_, fun t read => ?_, rfl⟩
  · rw [Scanner.log_eq, ofScan]
  · rw [← ofScan, ← events]
    rfl
  · have read : ((ofTokens (scan source)).1.map fun t => { t with sourcePath := path }) = .ok t := read
    cases built : (ofTokens (scan source)).1 with
    | error e =>
      rw [built] at read
      cases read
    | ok t' =>
      rw [built] at read
      cases read
      exact tree t' built

/-- The nodes of both bodies come before their branch, and deeper than it. -/
theorem parseTraced_events_branch :
    let source := "{{if .a}}x{{else}}{{.b}}{{end}}!"
    ∃ (tokens : List Token) (fault : Option Token), scan source = tokens ++ fault.toList
      ∧ (parseTraced source ⟨true, none⟩).2
        = tokens.mapIdx Event.token ++ fault.toList.map Event.lexError
          ++ [.node 1 ⟨1, 10, 9⟩ .text, .node 1 ⟨1, 21, 20⟩ .value, .node 0 ⟨1, 3, 2⟩ .branch,
            .node 0 ⟨1, 32, 31⟩ .text] := by
  intro source
  obtain ⟨tokens, fault, nodes, scanned, -, -, -, events, tree, -⟩ := parseTraced_events source none
  refine ⟨tokens, fault, scanned, ?_⟩
  rw [events, tree _ (by cbv)]
  rfl

end Template

end Stencil
