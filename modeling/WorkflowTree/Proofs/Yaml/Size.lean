import WorkflowTree.Proofs.Yaml.Expansion
import WorkflowTree.Yaml.Document
import Mathlib.Algebra.GroupWithZero.Nat

/-!
# The size of a document

Aliases may nest inside one another, so a short text can stand for very many nodes.  This module
counts the nodes that an assembly gives:

* `Assembly.copied_takeAll_le` bounds the nodes that aliases copied, at every point of every
  stream;
* `Assembly.weight_takeAll_le` bounds all nodes that an assembly holds, for streams of any kind;
* `WellNested.exists_root` counts the nodes of the root, for streams that are well nested.

The first two are invariants of single events.  The weight of an assembly is the potential of the
second one: each node is paid for by the event that it starts with, or by the alias that copied
it.  Weight is only ever lost, namely in streams that are not well nested: a key without its value,
or a second root.  The third statement says that nothing is lost otherwise.
-/

namespace WorkflowTree.Yaml

/-! ### Starts of nodes -/

/-- An event that starts a node of its own. -/
def Event.startsNode : Event → Bool
  | .scalar .. | .sequenceStart _ | .mappingStart _ => true
  | .alias _ | .collectionEnd => false

/-- The number of events that start a node of their own. -/
def nodeStarts (es : List Mark) : Nat := es.countP fun e => e.value.startsNode

theorem nodeStarts_append (es fs : List Mark) :
    nodeStarts (es ++ fs) = nodeStarts es + nodeStarts fs :=
  List.countP_append

theorem nodeStarts_cons (e : Mark) (es : List Mark) :
    nodeStarts (e :: es) = nodeStarts [e] + nodeStarts es :=
  nodeStarts_append [e] es

/-! ### The weight of what is open -/

namespace Frame

/-- The number of nodes that an open collection has come to so far, itself included.  A key that
waits for its value counts as well. -/
def weight : Frame → Nat
  | sequence items _ _ => 1 + Node.countItems items.toList
  | mapping entries key _ _ =>
    1 + Node.countEntries entries.toList + (key.map Node.count).getD 0

/-- No key waits for its value. -/
def Settled : Frame → Prop
  | sequence _ _ _ => True
  | mapping _ key _ _ => key = none

@[simp] theorem weight_add (f : Frame) (n : Node) : (f.add n).weight = f.weight + n.count := by
  rcases f with ⟨items, anchor, pos⟩ | ⟨entries, _ | k, anchor, pos⟩
  · simp only [add, weight, Array.toList_push, Node.countItems_append, Node.countItems]
    omega
  · simp [add, weight]
  · simp only [add, weight, Array.toList_push, Node.countEntries_append, Node.countEntries,
      Option.map_none, Option.map_some, Option.getD_none, Option.getD_some]
    omega

/-- A key without a value is lost when its mapping ends. -/
theorem count_node_le (f : Frame) : f.node.count ≤ f.weight := by
  rcases f with ⟨items, anchor, pos⟩ | ⟨entries, key, anchor, pos⟩
  · exact Nat.le_refl _
  · exact Nat.le_add_right _ _

theorem Settled.count_node {f : Frame} (h : f.Settled) : f.node.count = f.weight := by
  rcases f with ⟨items, anchor, pos⟩ | ⟨entries, _ | k, anchor, pos⟩
  · rfl
  · rfl
  · cases h

theorem weight_foldl_add (f : Frame) (ns : List Node) :
    (ns.foldl add f).weight = f.weight + Node.countItems ns := by
  induction ns generalizing f with
  | nil => rfl
  | cons n ns ih =>
    rw [List.foldl_cons, ih, weight_add, Node.countItems]
    omega

theorem settled_foldl_sequence (items : Array Node) (anchor : Option Nat) (pos : Position)
    (ns : List Node) : (ns.foldl add (sequence items anchor pos)).Settled := by
  induction ns generalizing items with
  | nil => trivial
  | cons n ns ih => exact ih (items.push n)

/-- Keys and values come in turns, so an even number of nodes leaves no key alone. -/
theorem settled_foldl_mapping (entries : Array (Node × Node)) (anchor : Option Nat)
    (pos : Position) {k : Nat} {ns : List Node} (h : ns.length = 2 * k) :
    (ns.foldl add (mapping entries none anchor pos)).Settled := by
  induction k generalizing entries ns with
  | zero =>
    obtain rfl := List.length_eq_zero_iff.mp h
    rfl
  | succ k ih =>
    rcases ns with - | ⟨key, - | ⟨value, ns⟩⟩
    · cases h
    · simp only [List.length_singleton] at h
      omega
    · refine ih (entries.push (key, value)) ?_
      simp only [List.length_cons] at h
      omega

end Frame

namespace Assembly

/-- The number of nodes that an assembly holds in its open collections and as its root.  Nodes
that are only filed under an anchor do not count: they are copies of others. -/
def weight (a : Assembly) : Nat :=
  (a.frames.map Frame.weight).sum + (a.root.map Node.count).getD 0

@[simp] theorem weight_empty : weight {} = 0 := rfl

/-! ### Single events -/

@[simp] theorem copied_add (a : Assembly) (n : Node) : (a.add n).copied = a.copied := by
  unfold add
  split <;> rfl

@[simp] theorem copied_complete (a : Assembly) (anchor : Option Nat) (n : Node) :
    (a.complete anchor n).copied = a.copied := by
  rw [complete, copied_add]
  rcases anchor with - | id <;> rfl

/-- A node that is added finds its place, or is a second root and is lost. -/
theorem weight_add_le (a : Assembly) (n : Node) : (a.add n).weight ≤ a.weight + n.count := by
  unfold add weight
  rcases a.frames with - | ⟨f, frames⟩
  · rcases a.root with - | root <;> simp
  · simp only [List.map_cons, List.sum_cons, Frame.weight_add]
    omega

theorem weight_complete_le (a : Assembly) (anchor : Option Nat) (n : Node) :
    (a.complete anchor n).weight ≤ a.weight + n.count := by
  have hfile : (a.file anchor n).weight = a.weight := by
    rcases anchor with - | id <;> rfl
  rw [← hfile]
  exact weight_add_le _ n

theorem count_scalarNode (text : String) (plain : Bool) (pos : Position) :
    (scalarNode text plain pos).count = 1 := by
  unfold scalarNode
  split <;> rfl

/-- An alias adds what it is charged for. -/
theorem weight_copy_le (a : Assembly) (id : Nat) (pos : Position) :
    (a.copy id pos).weight + a.copied ≤ a.weight + (a.copy id pos).copied := by
  unfold copy
  split
  · exact Nat.le_refl _
  · next n _ =>
    split
    · have h := weight_add_le { a with copied := a.copied + n.count } n
      rw [copied_add]
      show _ ≤ a.weight + (a.copied + n.count)
      have hweight : weight { a with copied := a.copied + n.count } = a.weight := rfl
      omega
    · exact Nat.le_refl _

/-- The assembly behind the start of a collection. -/
def enter (a : Assembly) (f : Frame) : Assembly := { a with frames := f :: a.frames }

theorem weight_enter (a : Assembly) (f : Frame) : (a.enter f).weight = a.weight + f.weight := by
  simp only [enter, weight, List.map_cons, List.sum_cons]
  omega

/-- The end of a collection adds what the collection has come to, without a key that waits. -/
theorem weight_take_end_le {a : Assembly} (h : a.refusal = none) (pos : Position) :
    (take a ⟨.collectionEnd, pos⟩).weight ≤ a.weight := by
  rcases hf : a.frames with - | ⟨f, frames⟩
  · simp [take, h, hf]
  · have hcomplete := weight_complete_le { a with frames } f.anchor f.node
    have hnode := f.count_node_le
    have hweight : a.weight = f.weight + weight { a with frames } := by
      simp only [weight, hf, List.map_cons, List.sum_cons]
      omega
    rw [take_collectionEnd h hf]
    omega

theorem copied_take_end {a : Assembly} (h : a.refusal = none) (pos : Position) :
    (take a ⟨.collectionEnd, pos⟩).copied = a.copied := by
  rcases hf : a.frames with - | ⟨f, frames⟩
  · simp [take, h, hf]
  · rw [take_collectionEnd h hf, copied_complete]

/-- An event adds at most the node that it starts and the nodes that it copies. -/
theorem weight_take_le (a : Assembly) (e : Mark) : (take a e).weight + a.copied ≤
    a.weight + nodeStarts [e] + (take a e).copied := by
  rcases hr : a.refusal with - | r
  · rcases e with ⟨⟨text, style, tag, anchor⟩ | ⟨id⟩ | ⟨anchor⟩ | ⟨anchor⟩ | _, pos⟩
    · have h := a.weight_complete_le anchor (scalarNode text (style == .plain) pos)
      rw [count_scalarNode] at h
      rw [take_scalar hr, copied_complete]
      exact Nat.add_le_add_right h a.copied
    · rw [take_alias hr]
      exact a.weight_copy_le id pos
    · rw [take_sequenceStart hr]
      exact Nat.le_of_eq (congrArg (· + a.copied) (a.weight_enter (.sequence #[] anchor pos)))
    · rw [take_mappingStart hr]
      exact Nat.le_of_eq (congrArg (· + a.copied) (a.weight_enter (.mapping #[] none anchor pos)))
    · have h := weight_take_end_le hr pos
      rw [copied_take_end hr]
      omega
  · rw [take_of_refusal hr]
    omega

/-- The copies that were paid for stay within their bound: an alias that would exceed it is
refused before it copies anything. -/
theorem copied_take_le {a : Assembly} (h : a.copied ≤ maxCopies) (e : Mark) :
    (take a e).copied ≤ maxCopies := by
  rcases hr : a.refusal with - | r
  · rcases e with ⟨⟨text, style, tag, anchor⟩ | ⟨id⟩ | ⟨anchor⟩ | ⟨anchor⟩ | _, pos⟩
    · rw [take_scalar hr, copied_complete]
      exact h
    · rw [take_alias hr, copy]
      split
      · exact h
      · split
        · next hle => rwa [copied_add]
        · exact h
    · rw [take_sequenceStart hr]
      exact h
    · rw [take_mappingStart hr]
      exact h
    · rw [copied_take_end hr]
      exact h
  · rw [take_of_refusal hr]
    exact h

/-! ### Streams of any kind -/

theorem copied_takeAll_le {a : Assembly} (h : a.copied ≤ maxCopies) (es : List Mark) :
    (takeAll a es).copied ≤ maxCopies := by
  induction es generalizing a with
  | nil => exact h
  | cons e es ih => exact ih (copied_take_le h e)

theorem weight_takeAll_le (a : Assembly) (es : List Mark) :
    (takeAll a es).weight + a.copied ≤ a.weight + nodeStarts es + (takeAll a es).copied := by
  induction es generalizing a with
  | nil => exact Nat.le_refl _
  | cons e es ih =>
    have hstep := weight_take_le a e
    have hrun := ih (take a e)
    rw [takeAll_cons, nodeStarts_cons]
    omega

theorem root_of_assemble {es : List Mark} {root : Node} (h : assemble es = .ok root) :
    (takeAll {} es).root = some root := by
  unfold assemble result at h
  split at h
  · cases h
  · next hroot => rw [hroot, Except.ok.inj h]
  · cases h

/-- The root is paid for, whatever the stream is. -/
theorem count_root_le {es : List Mark} {root : Node} (h : assemble es = .ok root) :
    root.count ≤ nodeStarts es + (takeAll {} es).copied := by
  have hweight : (takeAll {} es).weight ≤ nodeStarts es + (takeAll {} es).copied := by
    simpa using weight_takeAll_le {} es
  have hroot : root.count ≤ (takeAll {} es).weight := by
    rw [weight, root_of_assemble h]
    exact Nat.le_add_left _ _
  exact Nat.le_trans hroot hweight

/-! ### What is open and what is done -/

/-- Two assemblies have the same collections open and the same root. -/
structure Alike (a b : Assembly) : Prop where
  frames : a.frames = b.frames
  root : a.root = b.root

theorem Alike.symm {a b : Assembly} (h : a.Alike b) : b.Alike a :=
  ⟨h.frames.symm, h.root.symm⟩

theorem Alike.trans {a b c : Assembly} (h : a.Alike b) (h' : b.Alike c) : a.Alike c :=
  ⟨h.frames.trans h'.frames, h.root.trans h'.root⟩

theorem Alike.add {a b : Assembly} (h : a.Alike b) (n : Node) : (a.add n).Alike (b.add n) := by
  unfold Assembly.add
  rw [h.frames, h.root]
  split
  · exact ⟨rfl, rfl⟩
  · exact ⟨rfl, rfl⟩

theorem Alike.foldl_add {a b : Assembly} (h : a.Alike b) (ns : List Node) :
    (ns.foldl Assembly.add a).Alike (ns.foldl Assembly.add b) := by
  induction ns generalizing a b with
  | nil => exact h
  | cons n ns ih => exact ih (h.add n)

theorem alike_complete (a : Assembly) (anchor : Option Nat) (n : Node) :
    (a.complete anchor n).Alike (a.add n) := by
  have hfile : (a.file anchor n).Alike a := by
    rcases anchor with - | id <;> exact ⟨rfl, rfl⟩
  exact hfile.add n

/-- Nodes that are added while a collection is open are its parts. -/
theorem foldl_add_enter (a : Assembly) (f : Frame) (ns : List Node) :
    ns.foldl add (a.enter f) = a.enter (ns.foldl Frame.add f) := by
  induction ns generalizing f with
  | nil => rfl
  | cons n ns ih => exact ih (f.add n)

/-- Events add nodes to what is open, and each of the nodes is paid for: by the event that starts
it, or by the alias that copied it. -/
structure Gains (a : Assembly) (es : List Mark) (ns : List Node) : Prop where
  alike : (takeAll a es).Alike (ns.foldl add a)
  paid : nodeStarts es + (takeAll a es).copied = Node.countItems ns + a.copied

theorem gains_nil (a : Assembly) : a.Gains [] [] := ⟨⟨rfl, rfl⟩, rfl⟩

theorem Gains.append {a : Assembly} {es fs : List Mark} {ms ns : List Node}
    (h : a.Gains es ms) (h' : (takeAll a es).Gains fs ns) : a.Gains (es ++ fs) (ms ++ ns) where
  alike := by
    rw [takeAll_append, List.foldl_append]
    exact h'.alike.trans (h.alike.foldl_add ns)
  paid := by
    have hfirst := h.paid
    have hsecond := h'.paid
    rw [takeAll_append, nodeStarts_append, Node.countItems_append]
    omega

theorem gains_scalar {a : Assembly} (h : a.refusal = none) (text : String) (style : ScalarStyle)
    (tag : Option String) (anchor : Option Nat) (pos : Position) :
    a.Gains [⟨.scalar text style tag anchor, pos⟩] [scalarNode text (style == .plain) pos] where
  alike := by
    rw [takeAll_cons, takeAll_nil, take_scalar h]
    exact alike_complete a anchor _
  paid := by
    rw [takeAll_cons, takeAll_nil, take_scalar h, copied_complete, Node.countItems,
      count_scalarNode]
    rfl

/-- An alias that is not refused adds the node that it copies. -/
theorem exists_gains_alias {a : Assembly} {id : Nat} {pos : Position}
    (h : (take a ⟨.alias id, pos⟩).refusal = none) :
    ∃ n, a.Gains [⟨.alias id, pos⟩] [n] := by
  have hr : a.refusal = none := by
    rcases e : a.refusal with - | r
    · rfl
    · rw [take_of_refusal e, e] at h
      cases h
  have htake := take_alias hr id pos
  rw [htake] at h
  unfold copy at h htake
  split at h
  · cases h
  · next n hn =>
    split at h
    · next hle =>
      rw [hn] at htake
      simp only [if_pos hle] at htake
      have hpaid : a.Alike { a with copied := a.copied + n.count } := ⟨rfl, rfl⟩
      refine ⟨n, ?_, ?_⟩
      · rw [takeAll_cons, takeAll_nil, htake]
        exact hpaid.symm.add n
      · rw [takeAll_cons, takeAll_nil, htake, copied_add, Node.countItems, Node.countItems]
        show 0 + (a.copied + n.count) = n.count + 0 + a.copied
        omega
    · cases h

/-- A collection adds one node, which is paid for by its start and by its parts. -/
theorem Gains.collection {a : Assembly} {f : Frame} {start : Mark} {parts : List Mark}
    {ns : List Node} (hstart : take a start = a.enter f) (hstarts : nodeStarts [start] = 1)
    (hf : f.weight = 1) (hparts : (a.enter f).Gains parts ns)
    (hsettled : (ns.foldl Frame.add f).Settled)
    (hr : (takeAll (a.enter f) parts).refusal = none) (stop : Position) :
    a.Gains (start :: (parts ++ [⟨.collectionEnd, stop⟩])) [(ns.foldl Frame.add f).node] := by
  -- behind the parts the collection is on top again, and ends there
  obtain ⟨hframes, hroot⟩ := hparts.alike
  rw [foldl_add_enter] at hframes hroot
  have htake : takeAll a (start :: (parts ++ [⟨.collectionEnd, stop⟩])) =
      complete { takeAll (a.enter f) parts with frames := a.frames }
        (ns.foldl Frame.add f).anchor (ns.foldl Frame.add f).node := by
    rw [takeAll_cons, hstart, takeAll_append, takeAll_cons, takeAll_nil]
    exact take_collectionEnd hr hframes stop
  have hcount : (ns.foldl Frame.add f).node.count = 1 + Node.countItems ns := by
    rw [hsettled.count_node, Frame.weight_foldl_add, hf]
  constructor
  · have halike : Alike { takeAll (a.enter f) parts with frames := a.frames } a := ⟨rfl, hroot⟩
    rw [htake]
    exact (alike_complete _ _ _).trans (halike.add _)
  · have hpaid : nodeStarts parts + (takeAll (a.enter f) parts).copied =
        Node.countItems ns + a.copied := hparts.paid
    rw [htake, copied_complete, nodeStarts_cons, nodeStarts_append, hstarts, Node.countItems,
      Node.countItems, hcount]
    show 1 + (nodeStarts parts + 0) + (takeAll (a.enter f) parts).copied = _
    omega

end Assembly

/-! ### Streams that are well nested -/

/-- Events that make up so many nodes, one behind the other.  The parts of a collection stand
between its start and its end; those of a mapping are keys and values in turns. -/
inductive Nodes : Nat → List Mark → Prop
  | nil : Nodes 0 []
  | scalar (text : String) (style : ScalarStyle) (tag : Option String) (anchor : Option Nat)
      (pos : Position) {n : Nat} {es : List Mark} :
      Nodes n es → Nodes (n + 1) (⟨.scalar text style tag anchor, pos⟩ :: es)
  | reference (id : Nat) (pos : Position) {n : Nat} {es : List Mark} :
      Nodes n es → Nodes (n + 1) (⟨.alias id, pos⟩ :: es)
  | sequence (anchor : Option Nat) (pos stop : Position) {k n : Nat} {parts es : List Mark} :
      Nodes k parts → Nodes n es →
      Nodes (n + 1) (⟨.sequenceStart anchor, pos⟩ :: (parts ++ ⟨.collectionEnd, stop⟩ :: es))
  | mapping (anchor : Option Nat) (pos stop : Position) {k n : Nat} {parts es : List Mark} :
      Nodes (2 * k) parts → Nodes n es →
      Nodes (n + 1) (⟨.mappingStart anchor, pos⟩ :: (parts ++ ⟨.collectionEnd, stop⟩ :: es))

/-- The events of one document: they make up one node. -/
def WellNested (es : List Mark) : Prop := Nodes 1 es

theorem Nodes.append {m n : Nat} {es fs : List Mark} (h : Nodes m es) (h' : Nodes n fs) :
    Nodes (m + n) (es ++ fs) := by
  induction h with
  | nil => rwa [Nat.zero_add]
  | scalar text style tag anchor pos _ ih =>
    rw [Nat.add_right_comm]
    exact .scalar text style tag anchor pos ih
  | reference id pos _ ih =>
    rw [Nat.add_right_comm]
    exact .reference id pos ih
  | sequence anchor pos stop hparts _ _ ih =>
    rw [Nat.add_right_comm, List.cons_append, List.append_assoc]
    exact .sequence anchor pos stop hparts ih
  | mapping anchor pos stop hparts _ _ ih =>
    rw [Nat.add_right_comm, List.cons_append, List.append_assoc]
    exact .mapping anchor pos stop hparts ih

mutual

/-- The events of a tree are well nested. -/
theorem Tree.nodes_events : ∀ t : Tree, Nodes 1 t.events
  | .scalar text style tag anchor spot => .scalar text style tag anchor spot.pos .nil
  | .alias id spot => .reference id spot.pos .nil
  | .sequence items anchor spot stop =>
    .sequence anchor spot.pos stop.pos (nodes_itemEvents items) .nil
  | .mapping entries anchor spot stop =>
    .mapping anchor spot.pos stop.pos (nodes_entryEvents entries) .nil

theorem Tree.nodes_itemEvents : ∀ ts : List Tree, Nodes ts.length (Tree.itemEvents ts)
  | [] => .nil
  | t :: ts => by
    rw [List.length_cons, Nat.add_comm]
    exact (nodes_events t).append (nodes_itemEvents ts)

theorem Tree.nodes_entryEvents : ∀ es : List (Tree × Tree),
    Nodes (2 * es.length) (Tree.entryEvents es)
  | [] => .nil
  | (k, v) :: es => by
    have hlength : 2 * ((k, v) :: es).length = 1 + (1 + 2 * es.length) := by
      rw [List.length_cons]
      omega
    rw [hlength]
    exact (nodes_events k).append ((nodes_events v).append (nodes_entryEvents es))

end

namespace Assembly

theorem refusal_takeAll_left {a : Assembly} {es fs : List Mark}
    (h : (takeAll a (es ++ fs)).refusal = none) : (takeAll a es).refusal = none := by
  rcases e : (takeAll a es).refusal with - | r
  · rfl
  · rw [takeAll_append, takeAll_of_refusal e, e] at h
    cases h

theorem exists_gains_append {a : Assembly} {first es : List Mark} {n : Nat}
    (hfirst : ∃ m, a.Gains first [m])
    (hes : ∃ ns : List Node, ns.length = n ∧ (takeAll a first).Gains es ns) :
    ∃ ns : List Node, ns.length = n + 1 ∧ a.Gains (first ++ es) ns := by
  obtain ⟨m, hm⟩ := hfirst
  obtain ⟨ns, rfl, hns⟩ := hes
  exact ⟨m :: ns, rfl, hm.append hns⟩

/-- A collection and the nodes behind it, where the parts leave no key alone. -/
theorem exists_gains_collection {a : Assembly} {f : Frame} {start : Mark} {parts es : List Mark}
    {n : Nat} {stop : Position} (hstart : take a start = a.enter f)
    (hstarts : nodeStarts [start] = 1) (hf : f.weight = 1)
    (hr : (takeAll a (start :: (parts ++ ⟨.collectionEnd, stop⟩ :: es))).refusal = none)
    (hparts : (takeAll (a.enter f) parts).refusal = none →
      ∃ ns, (a.enter f).Gains parts ns ∧ (ns.foldl Frame.add f).Settled)
    (hes : ∀ {b : Assembly}, (takeAll b es).refusal = none →
      ∃ ns : List Node, ns.length = n ∧ b.Gains es ns) :
    ∃ ns : List Node, ns.length = n + 1 ∧
      a.Gains (start :: (parts ++ ⟨.collectionEnd, stop⟩ :: es)) ns := by
  have hsplit : start :: (parts ++ ⟨.collectionEnd, stop⟩ :: es) =
      (start :: (parts ++ [⟨.collectionEnd, stop⟩])) ++ es := by simp
  have hinside : (takeAll (a.enter f) parts).refusal = none := by
    rw [takeAll_cons, hstart] at hr
    exact refusal_takeAll_left hr
  obtain ⟨ns, hns, hsettled⟩ := hparts hinside
  rw [hsplit, takeAll_append] at hr
  rw [hsplit]
  exact exists_gains_append ⟨_, hns.collection hstart hstarts hf hsettled hinside stop⟩ (hes hr)

/-- Events that make up nodes add so many nodes, unless one of them is refused.  By induction on
how the events are nested: the parts of a collection are added to its own frame. -/
theorem exists_gains {n : Nat} {es : List Mark} (h : Nodes n es) {a : Assembly}
    (hr : (takeAll a es).refusal = none) : ∃ ns : List Node, ns.length = n ∧ a.Gains es ns := by
  have hstart : ∀ {a : Assembly} {es : List Mark}, (takeAll a es).refusal = none →
      a.refusal = none := fun hr => @refusal_takeAll_left _ [] _ hr
  induction h generalizing a with
  | nil => exact ⟨[], rfl, a.gains_nil⟩
  | scalar text style tag anchor pos hes ih =>
    exact exists_gains_append ⟨_, gains_scalar (hstart hr) text style tag anchor pos⟩ (ih hr)
  | reference id pos hes ih =>
    exact exists_gains_append (exists_gains_alias (@refusal_takeAll_left a [_] _ hr)) (ih hr)
  | sequence anchor pos stop hparts hes ihparts ih =>
    refine exists_gains_collection (take_sequenceStart (hstart hr) anchor pos) rfl rfl hr ?_ ih
    intro hinside
    obtain ⟨ns, -, hns⟩ := ihparts hinside
    exact ⟨ns, hns, Frame.settled_foldl_sequence #[] anchor pos ns⟩
  | mapping anchor pos stop hparts hes ihparts ih =>
    refine exists_gains_collection (take_mappingStart (hstart hr) anchor pos) rfl rfl hr ?_ ih
    intro hinside
    obtain ⟨ns, hlength, hns⟩ := ihparts hinside
    exact ⟨ns, hns, Frame.settled_foldl_mapping #[] anchor pos hlength⟩

end Assembly

/-! ### Documents -/

/-- The root of a well nested stream is made of the nodes that its events start and of the nodes
that its aliases copied. -/
theorem WellNested.exists_root {es : List Mark} (h : WellNested es)
    (hr : (Assembly.takeAll {} es).refusal = none) :
    ∃ root, assemble es = .ok root ∧
      root.count = nodeStarts es + (Assembly.takeAll {} es).copied := by
  obtain ⟨ns, hlength, hns⟩ := Assembly.exists_gains h hr
  obtain ⟨root, rfl⟩ := List.length_eq_one_iff.mp hlength
  have hroot : (Assembly.takeAll {} es).root = some root := hns.alike.root
  refine ⟨root, ?_, ?_⟩
  · rw [assemble, Assembly.result, hr, hroot]
  · have hpaid : _ = root.count + 0 + 0 := hns.paid
    omega

theorem exists_events_of_decode {text : String} {root : Node} (h : decode text = .ok root) :
    ∃ es, events text = .ok es ∧ assemble es = .ok root := by
  unfold decode at h
  rcases e : events text with f | es
  · rw [e] at h
    cases h
  · rw [e] at h
    exact ⟨es, rfl, h⟩

/-- **Copies are bounded**: at no point of any stream did aliases copy more than 100000 nodes.
The root of a document that is well nested and not refused is made of the nodes that its own
events start, and of the copied ones.  So no text, however its anchors are nested, decodes to more
than 100000 nodes besides those that its own events start. -/
theorem copies_bounded :
    (∀ es before : List Mark, before <+: es →
      (Assembly.takeAll {} before).copied ≤ 100000) ∧
    (∀ es, WellNested es → (Assembly.takeAll {} es).refusal = none →
      ∃ root, assemble es = .ok root ∧
        root.count = nodeStarts es + (Assembly.takeAll {} es).copied) ∧
    (∀ text root, decode text = .ok root →
      ∃ es, events text = .ok es ∧ root.count ≤ nodeStarts es + 100000) := by
  have hcopied : ∀ es, (Assembly.takeAll {} es).copied ≤ 100000 :=
    fun es => Assembly.copied_takeAll_le (Nat.zero_le _) es
  refine ⟨fun _ before _ => hcopied before, fun _ => WellNested.exists_root, ?_⟩
  intro text root h
  obtain ⟨es, hes, hroot⟩ := exists_events_of_decode h
  exact ⟨es, hes, Nat.le_trans (Assembly.count_root_le hroot) (Nat.add_le_add_left (hcopied es) _)⟩

end WorkflowTree.Yaml
