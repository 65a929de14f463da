import WorkflowTree.Proofs.Yaml.Tree
import WorkflowTree.Yaml.Assembly

/-!
# Assembling is expanding

An assembly takes the events of a document one by one and keeps its open collections on a
stack; an expansion goes down the tree.  Both give the same (`assemble_events`).

The invariant is `Assembly.Holds`: nothing is refused, the assembly and an expansion know the
same of anchors and copies, and the open collections and the root are given ones.  Taking the
events of a tree either adds the tree's node to an assembly for which the invariant holds again,
or stops at the alias that the expansion stops at.  `Assembly.Reaches` puts these two ends in
one statement, and `Assembly.Reaches.bind` is the rule for one stream of events behind another.
-/

namespace WorkflowTree.Yaml

namespace Assembly

variable {α β : Type}

/-! ### Refusals -/

/-- Of these events an alias is refused, the events before it are taken. -/
def RefusedAt (a : Assembly) (es : List Mark) (e : Located Undecodable) : Prop :=
  ∃ before id after, es = before ++ ⟨.alias id, e.pos⟩ :: after ∧
    (takeAll a before).refusal = none ∧
    (take (takeAll a before) ⟨.alias id, e.pos⟩).refusal = some e

theorem RefusedAt.append {a : Assembly} {es : List Mark} {e : Located Undecodable}
    (h : a.RefusedAt es e) (fs : List Mark) : a.RefusedAt (es ++ fs) e := by
  obtain ⟨before, id, after, rfl, hbefore, halias⟩ := h
  refine ⟨before, id, after ++ fs, ?_, hbefore, halias⟩
  rw [List.append_assoc, List.cons_append]

theorem RefusedAt.of_takeAll {a : Assembly} {es fs : List Mark} {e : Located Undecodable}
    (h : (takeAll a es).RefusedAt fs e) : a.RefusedAt (es ++ fs) e := by
  obtain ⟨before, id, after, rfl, hbefore, halias⟩ := h
  rw [← takeAll_append] at hbefore halias
  exact ⟨es ++ before, id, after, (List.append_assoc ..).symm, hbefore, halias⟩

/-! ### Streams of events -/

/-- Taking events ends as a result says: with an assembly that goes with a value, or at the alias
that an error names. -/
def Reaches (a : Assembly) (es : List Mark) (r : Except (Located Undecodable) α)
    (post : α → Assembly → Prop) : Prop :=
  match r with
  | .ok v => post v (takeAll a es)
  | .error e => a.RefusedAt es e

theorem Reaches.pure {a : Assembly} {v : α} {post : α → Assembly → Prop} (h : post v a) :
    a.Reaches [] (.ok v) post := h

theorem Reaches.cons {a : Assembly} {e : Mark} {es : List Mark}
    {r : Except (Located Undecodable) α} {post : α → Assembly → Prop}
    (h : (take a e).Reaches es r post) : a.Reaches (e :: es) r post := by
  rcases r with e' | v
  · exact @RefusedAt.of_takeAll a [e] es e' h
  · exact h

/-- What comes behind is taken by the assembly that the first events end with. -/
theorem Reaches.bind {a : Assembly} {es fs : List Mark} {r : Except (Located Undecodable) α}
    {f : α → Except (Located Undecodable) β} {post : α → Assembly → Prop}
    {post' : β → Assembly → Prop} (h : a.Reaches es r post)
    (hf : ∀ v b, post v b → b.Reaches fs (f v) post') : a.Reaches (es ++ fs) (r >>= f) post' := by
  rcases r with e | v
  · exact RefusedAt.append h fs
  · -- the first events were taken, so what comes behind decides
    have hv : (takeAll a es).Reaches fs (f v) post' := hf v _ h
    show a.Reaches (es ++ fs) (f v) post'
    rcases e : f v with e' | w
    · rw [e] at hv
      exact RefusedAt.of_takeAll hv
    · rw [e] at hv
      show post' w (takeAll a (es ++ fs))
      rw [takeAll_append]
      exact hv

/-! ### The invariant -/

/-- The assembly agrees with an expansion, and its open collections and its root are these. -/
structure Holds (a : Assembly) (x : Expansion) (frames : List Frame) (root : Option Node) :
    Prop where
  refusal : a.refusal = none
  anchors : ∀ id, a.anchors.lookup id = x.completed id
  copied : a.copied = x.copied
  frames : a.frames = frames
  root : a.root = root

variable {a : Assembly} {x : Expansion} {frames : List Frame} {root : Option Node} {f : Frame}

theorem holds_empty : Holds {} {} [] none where
  refusal := rfl
  anchors := fun _ => rfl
  copied := rfl
  frames := rfl
  root := rfl

/-- Filing a node under an anchor changes what both know of that anchor. -/
theorem Holds.file (h : a.Holds x frames root) (anchor : Option Nat) (n : Node) :
    (a.file anchor n).Holds (x.complete anchor n) frames root := by
  rcases anchor with - | id
  · refine ⟨h.refusal, fun id' => ?_, h.copied, h.frames, h.root⟩
    show a.anchors.lookup id' = if none = some id' then some n else x.completed id'
    rw [if_neg (Option.some_ne_none id').symm, h.anchors]
  · refine ⟨h.refusal, fun id' => ?_, h.copied, h.frames, h.root⟩
    show ((id, n) :: a.anchors).lookup id' = if some id = some id' then some n else x.completed id'
    rw [List.lookup_cons, h.anchors]
    by_cases hid : id' = id
    · rw [if_pos (congrArg some hid.symm), hid, beq_self_eq_true]
    · rw [if_neg fun heq => hid (Option.some.inj heq).symm, beq_false_of_ne hid]

/-- A node is added to the innermost open collection. -/
theorem Holds.add (h : a.Holds x (f :: frames) root) (n : Node) :
    (a.add n).Holds x (f.add n :: frames) root := by
  unfold Assembly.add
  rw [h.frames]
  exact ⟨h.refusal, h.anchors, h.copied, rfl, h.root⟩

/-- Behind the events of a tree its node was added to an assembly that agrees with what the
expansion knows by then. -/
def Added (frames : List Frame) (root : Option Node) (v : Node × Expansion) (c : Assembly) :
    Prop :=
  ∃ b, Holds b v.2 frames root ∧ c = b.add v.1

theorem Added.holds {v : Node × Expansion} {c : Assembly} (h : Added (f :: frames) root v c) :
    c.Holds v.2 (f.add v.1 :: frames) root := by
  obtain ⟨b, hb, rfl⟩ := h
  exact hb.add v.1

/-! ### Single events -/

theorem take_scalar (h : a.refusal = none) (text : String) (style : ScalarStyle)
    (tag : Option String) (anchor : Option Nat) (pos : Position) :
    take a ⟨.scalar text style tag anchor, pos⟩ =
      a.complete anchor (scalarNode text (style == .plain) pos) := by
  rw [take, h]
  rfl

theorem take_alias (h : a.refusal = none) (id : Nat) (pos : Position) :
    take a ⟨.alias id, pos⟩ = a.copy id pos := by
  rw [take, h]
  rfl

theorem take_sequenceStart (h : a.refusal = none) (anchor : Option Nat) (pos : Position) :
    take a ⟨.sequenceStart anchor, pos⟩ =
      { a with frames := .sequence #[] anchor pos :: a.frames } := by
  rw [take, h]
  rfl

theorem take_mappingStart (h : a.refusal = none) (anchor : Option Nat) (pos : Position) :
    take a ⟨.mappingStart anchor, pos⟩ =
      { a with frames := .mapping #[] none anchor pos :: a.frames } := by
  rw [take, h]
  rfl

theorem take_collectionEnd (h : a.refusal = none) (hf : a.frames = f :: frames)
    (pos : Position) : take a ⟨.collectionEnd, pos⟩ =
      ({ a with frames } : Assembly).complete f.anchor f.node := by
  simp only [take, h, hf]
  rfl

theorem reaches_scalar (h : a.Holds x frames root) (text : String) (style : ScalarStyle)
    (tag : Option String) (anchor : Option Nat) (spot : Spot) :
    a.Reaches (Tree.scalar text style tag anchor spot).events
      ((Tree.scalar text style tag anchor spot).expand x) (Added frames root) := by
  have hleaf : scalarNode text (style == .plain) spot.pos = Tree.leaf text style spot.pos := by
    simp [scalarNode, isNullText, Tree.leaf]
  have htake : take a ⟨.scalar text style tag anchor, spot.pos⟩ =
      (a.file anchor (Tree.leaf text style spot.pos)).add (Tree.leaf text style spot.pos) := by
    rw [take_scalar h.refusal, hleaf, complete]
  exact ⟨a.file anchor (Tree.leaf text style spot.pos), h.file _ _, htake⟩

/-- An alias adds a copy exactly if the expansion has one for it. -/
theorem reaches_alias (h : a.Holds x frames root) (id : Nat) (spot : Spot) :
    a.Reaches (Tree.alias id spot).events ((Tree.alias id spot).expand x) (Added frames root) := by
  have htake := take_alias h.refusal id spot.pos
  have hrefused : ∀ cause, (a.copy id spot.pos).refusal = some ⟨cause, spot.pos⟩ →
      a.RefusedAt [⟨.alias id, spot.pos⟩] ⟨cause, spot.pos⟩ := by
    intro cause hcause
    exact ⟨[], id, [], rfl, h.refusal, (congrArg refusal htake).trans hcause⟩
  rw [Tree.expand, ← h.anchors, ← h.copied]
  rcases e : a.anchors.lookup id with - | n
  · -- no node is complete under the anchor
    refine hrefused .unknownAnchor ?_
    rw [copy, e]
  · by_cases hmany : 100000 < a.copied + n.count
    · -- the copies become too many
      simp only [if_pos hmany]
      refine hrefused .tooManyCopies ?_
      rw [copy, e]
      exact congrArg refusal (if_neg (Nat.not_le.mpr hmany))
    · simp only [if_neg hmany]
      refine ⟨{ a with copied := a.copied + n.count }, ?_, ?_⟩
      · exact ⟨h.refusal, h.anchors, rfl, h.frames, h.root⟩
      · show take a ⟨.alias id, spot.pos⟩ = _
        rw [htake, copy, e]
        exact if_pos (Nat.not_lt.mp hmany)

/-- The start of a collection opens a frame. -/
theorem Holds.opened (h : a.Holds x frames root) (f : Frame) :
    ({ a with frames := f :: a.frames } : Assembly).Holds x (f :: frames) root :=
  ⟨h.refusal, h.anchors, h.copied, congrArg (f :: ·) h.frames, h.root⟩

/-- The end of a collection adds its node. -/
theorem Holds.take_end (h : a.Holds x (f :: frames) root) (pos : Position) :
    Added frames root (f.node, x.complete f.anchor f.node)
      (take a ⟨.collectionEnd, pos⟩) := by
  have hclosed : ({ a with frames } : Assembly).Holds x frames root :=
    ⟨h.refusal, h.anchors, h.copied, rfl, h.root⟩
  refine ⟨({ a with frames } : Assembly).file f.anchor f.node, hclosed.file _ _, ?_⟩
  rw [take_collectionEnd h.refusal h.frames, complete]

/-! ### Trees -/

mutual

/-- The events of a tree add its node, whatever is open around it.  By induction on the tree: the
parts of a collection are taken with its frame on top, which holds what came before them. -/
theorem reaches_events : ∀ (t : Tree) {a : Assembly} {x : Expansion} {frames : List Frame}
    {root : Option Node}, a.Holds x frames root →
    a.Reaches t.events (t.expand x) (Added frames root)
  | .scalar text style tag anchor spot, _, _, _, _, h =>
    reaches_scalar h text style tag anchor spot
  | .alias id spot, _, _, _, _, h => reaches_alias h id spot
  | .sequence items anchor spot stop, a, x, frames, root, h => by
    rw [Tree.events, Tree.expand]
    -- the start opens a frame, the items fill it, the end adds its node
    refine Reaches.cons ?_
    rw [take_sequenceStart h.refusal]
    refine (reaches_itemEvents items [] (h.opened _)).bind fun v b hb => ?_
    exact hb.take_end stop.pos
  | .mapping entries anchor spot stop, a, x, frames, root, h => by
    rw [Tree.events, Tree.expand]
    refine Reaches.cons ?_
    rw [take_mappingStart h.refusal]
    refine (reaches_entryEvents entries [] (h.opened _)).bind fun v b hb => ?_
    exact hb.take_end stop.pos

/-- The events of items add their nodes to the innermost sequence. -/
theorem reaches_itemEvents : ∀ (ts : List Tree) (done : List Node) {a : Assembly} {x : Expansion}
    {anchor : Option Nat} {pos : Position} {frames : List Frame} {root : Option Node},
    a.Holds x (.sequence done.toArray anchor pos :: frames) root →
    a.Reaches (Tree.itemEvents ts) (Tree.expandItems ts x) fun v c =>
      c.Holds v.2 (.sequence (done ++ v.1).toArray anchor pos :: frames) root
  | [], done, _, _, _, _, _, _, h => by
    rw [Tree.itemEvents, Tree.expandItems]
    refine Reaches.pure ?_
    rwa [List.append_nil]
  | t :: ts, done, a, x, anchor, pos, frames, root, h => by
    rw [Tree.itemEvents, Tree.expandItems]
    refine (reaches_events t h).bind ?_
    rintro ⟨n, x'⟩ c hn
    have hpushed : c.Holds x' (.sequence (done ++ [n]).toArray anchor pos :: frames) root := by
      rw [← List.push_toArray]
      exact hn.holds
    rw [← List.append_nil (Tree.itemEvents ts)]
    refine (reaches_itemEvents ts (done ++ [n]) hpushed).bind fun v b hb => Reaches.pure ?_
    rwa [List.append_assoc] at hb

/-- The events of entries add the pairs of their nodes to the innermost mapping. -/
theorem reaches_entryEvents : ∀ (es : List (Tree × Tree)) (done : List (Node × Node))
    {a : Assembly} {x : Expansion} {anchor : Option Nat} {pos : Position} {frames : List Frame}
    {root : Option Node}, a.Holds x (.mapping done.toArray none anchor pos :: frames) root →
    a.Reaches (Tree.entryEvents es) (Tree.expandEntries es x) fun v c =>
      c.Holds v.2 (.mapping (done ++ v.1).toArray none anchor pos :: frames) root
  | [], done, _, _, _, _, _, _, h => by
    rw [Tree.entryEvents, Tree.expandEntries]
    refine Reaches.pure ?_
    rwa [List.append_nil]
  | (k, v) :: es, done, a, x, anchor, pos, frames, root, h => by
    rw [Tree.entryEvents, Tree.expandEntries]
    -- the key waits in the frame until its value is complete
    refine (reaches_events k h).bind ?_
    rintro ⟨kn, x'⟩ c hk
    refine (reaches_events v hk.holds).bind ?_
    rintro ⟨vn, x''⟩ c' hv
    have hpushed : c'.Holds x'' (.mapping (done ++ [(kn, vn)]).toArray none anchor pos :: frames)
        root := by
      rw [← List.push_toArray]
      exact hv.holds
    rw [← List.append_nil (Tree.entryEvents es)]
    refine (reaches_entryEvents es (done ++ [(kn, vn)]) hpushed).bind fun v b hb =>
      Reaches.pure ?_
    rwa [List.append_assoc] at hb

end

/-- An assembly that was refused stays as it is. -/
theorem result_of_refusal {e : Located Undecodable} (h : a.refusal = some e)
    (es : List Mark) : (takeAll a es).result = .error e := by
  rw [takeAll_of_refusal h, result, h]

theorem Added.result {v : Node × Expansion} {c : Assembly} (h : Added [] none v c) :
    c.result = .ok v.1 := by
  obtain ⟨b, hb, rfl⟩ := h
  have hroot : (b.add v.1).root = some v.1 := by
    rw [Assembly.add, hb.frames, hb.root]
    rfl
  have hrefusal : (b.add v.1).refusal = none := by
    rw [Assembly.add, hb.frames]
    exact hb.refusal
  rw [Assembly.result, hrefusal, hroot]

end Assembly

/-- **Assembling is expanding**: the events of a tree assemble to the node that the expansion of
the tree gives.  If the expansion stops at an alias, that alias is the first of the events to be
refused, and the document is refused for the same cause at the place of the alias, whatever
events come behind it. -/
theorem assemble_events (t : Tree) :
    match t.expand {} with
    | .ok (n, _) => assemble t.events = .ok n
    | .error e => ∃ before id after, t.events = before ++ ⟨.alias id, e.pos⟩ :: after ∧
        (Assembly.takeAll {} before).refusal = none ∧
        ∀ rest, assemble (before ++ ⟨.alias id, e.pos⟩ :: rest) = .error e := by
  have h := Assembly.reaches_events t Assembly.holds_empty
  rcases hexpand : t.expand {} with e | ⟨n, x⟩
  · rw [hexpand] at h
    obtain ⟨before, id, after, hevents, hbefore, halias⟩ := h
    refine ⟨before, id, after, hevents, hbefore, fun rest => ?_⟩
    rw [assemble, Assembly.takeAll_append, Assembly.takeAll_cons]
    exact Assembly.result_of_refusal halias rest
  · rw [hexpand] at h
    exact Assembly.Added.result h

/-- An alias inside of the node that sets its anchor is refused. -/
example : (Tree.sequence [.alias 1 ⟨1, 4⟩] (some 1) ⟨1, 3⟩ ⟨1, 6⟩).expand {} =
    .error ⟨.unknownAnchor, ⟨1, 5⟩⟩ := rfl

end WorkflowTree.Yaml
