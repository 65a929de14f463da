import WorkflowTree.Node
import Mathlib.Data.List.Forall2
import Mathlib.Data.List.Nodup

/-!
# Nodes with their entries in another order

A node is *permuted* (`Node.Permuted`) by permuting the entries of any of the mappings that it is
made of, itself included.  Keys, values and items are permuted in place first, and then the entries
of the mapping are put in another order; places travel with their nodes.

One mapping of a file has an order that matters: the triggers of a workflow are listed in the order
of the entries under `on`.  A file is *reordered* (`Node.Reordered`) by permuting the entries of any
mappings but this one.
-/

namespace WorkflowTree.Node

variable {part : Node → Node → Prop} {value : Option String → Node → Node → Prop}
variable {n m n' : Node}

/-! ### Permuted nodes -/

/-- The keys of two entries are related, and so are their values, in a way that may depend on the
key. -/
inductive EntryRel (part : Node → Node → Prop) (value : Option String → Node → Node → Prop) :
    Node × Node → Node × Node → Prop
  | intro {k k' v v' : Node} : part k k' → value k.text? v v' →
      EntryRel part value (k, v) (k', v')

/-- A node with other parts: the parts of two nodes are related one by one, and apart from them the
nodes are the same. -/
inductive PartsRel (part : Node → Node → Prop) (value : Option String → Node → Node → Prop) :
    Node → Node → Prop
  | null (pos : Position) : PartsRel part value (.null pos) (.null pos)
  | scalar (text : String) (plain : Bool) (pos : Position) :
      PartsRel part value (.scalar text plain pos) (.scalar text plain pos)
  | sequence {items items' : List Node} (pos : Position) : List.Forall₂ part items items' →
      PartsRel part value (.sequence items pos) (.sequence items' pos)
  | mapping {entries entries' : List (Node × Node)} (pos : Position) :
      List.Forall₂ (EntryRel part value) entries entries' →
      PartsRel part value (.mapping entries pos) (.mapping entries' pos)

/-- A node whose entries, if it is a mapping, may come in another order. -/
inductive Shuffled : Node → Node → Prop
  | refl (n : Node) : Shuffled n n
  | mapping {entries entries' : List (Node × Node)} (pos : Position) : entries.Perm entries' →
      Shuffled (.mapping entries pos) (.mapping entries' pos)

/-- A node in which the entries of any mappings may come in another order. -/
inductive Permuted : Node → Node → Prop
  | intro {n m n' : Node} : PartsRel Permuted (fun _ => Permuted) n m → Shuffled m n' →
      Permuted n n'

/-- A node whose parts are permuted, while its own entries keep their order. -/
def InPlace : Node → Node → Prop := PartsRel Permuted fun _ => Permuted

/-- What stands under a key of a file is permuted, but for the triggers, which keep their order. -/
def PermutedUnder (key : Option String) : Node → Node → Prop :=
  if key = some "on" then InPlace else Permuted

/-- A file in which the entries of any mappings may come in another order, but for those of the
triggers. -/
def Reordered (root root' : Node) : Prop :=
  ∃ m, PartsRel Permuted PermutedUnder root m ∧ Shuffled m root'

/-- No mapping has two keys with the same text. -/
inductive Distinct : Node → Prop
  | null (pos : Position) : Distinct (.null pos)
  | scalar (text : String) (plain : Bool) (pos : Position) : Distinct (.scalar text plain pos)
  | sequence {items : List Node} (pos : Position) : (∀ i ∈ items, Distinct i) →
      Distinct (.sequence items pos)
  | mapping {entries : List (Node × Node)} (pos : Position) :
      (entries.filterMap fun e => e.1.text?).Nodup → (∀ e ∈ entries, Distinct e.1) →
      (∀ e ∈ entries, Distinct e.2) → Distinct (.mapping entries pos)

/-- No key of the node itself has the text of another one. -/
def DistinctKeys (n : Node) : Prop :=
  ∀ entries, n.entries? = some entries → (entries.filterMap fun e => e.1.text?).Nodup

/-- A node that is permuted, where no mapping has two keys with the same text. -/
def Alike (n n' : Node) : Prop := n.Distinct ∧ n.Permuted n'

mutual

/-- A node is permuted by leaving all entries in their order. -/
theorem Permuted.refl : ∀ n : Node, n.Permuted n
  | .null pos => .intro (.null pos) (.refl _)
  | .scalar text plain pos => .intro (.scalar text plain pos) (.refl _)
  | .sequence items pos => .intro (.sequence pos (Permuted.refl_items items)) (.refl _)
  | .mapping entries pos => .intro (.mapping pos (Permuted.refl_entries entries)) (.refl _)

theorem Permuted.refl_items : ∀ items : List Node, List.Forall₂ Permuted items items
  | [] => .nil
  | i :: items => .cons (Permuted.refl i) (Permuted.refl_items items)

theorem Permuted.refl_entries : ∀ entries : List (Node × Node),
    List.Forall₂ (EntryRel Permuted fun _ => Permuted) entries entries
  | [] => .nil
  | (k, v) :: entries =>
    .cons (.intro (Permuted.refl k) (Permuted.refl v)) (Permuted.refl_entries entries)

end

@[simp] theorem distinct_scalar (text : String) (plain : Bool) (pos : Position) :
    (Node.scalar text plain pos).Distinct := .scalar text plain pos

@[simp] theorem distinct_sequence {items : List Node} {pos : Position} :
    (Node.sequence items pos).Distinct ↔ ∀ i ∈ items, i.Distinct := by
  constructor
  · intro h
    cases h with
    | sequence _ hitems => exact hitems
  · exact .sequence pos

@[simp] theorem distinct_mapping {entries : List (Node × Node)} {pos : Position} :
    (Node.mapping entries pos).Distinct ↔ (entries.filterMap fun e => e.1.text?).Nodup ∧
      (∀ e ∈ entries, e.1.Distinct) ∧ ∀ e ∈ entries, e.2.Distinct := by
  constructor
  · intro h
    cases h with
    | mapping _ hkeys hfirst hsecond => exact ⟨hkeys, hfirst, hsecond⟩
  · rintro ⟨hkeys, hfirst, hsecond⟩
    exact .mapping pos hkeys hfirst hsecond

/-! ### What stays the same -/

/-- Two nodes that a reader cannot tell apart without looking at their parts. -/
structure SameOutside (n n' : Node) : Prop where
  leaf? : n.leaf? = n'.leaf?
  plain? : n.plain? = n'.plain?
  isNull : n.isNull = n'.isNull
  describe : n.describe = n'.describe
  pos : n.pos = n'.pos

theorem SameOutside.trans (h : n.SameOutside m) (h' : m.SameOutside n') : n.SameOutside n' :=
  ⟨h.leaf?.trans h'.leaf?, h.plain?.trans h'.plain?, h.isNull.trans h'.isNull,
    h.describe.trans h'.describe, h.pos.trans h'.pos⟩

theorem SameOutside.text? (h : n.SameOutside n') : n.text? = n'.text? := by
  rw [text?_eq_leaf?, text?_eq_leaf?, h.leaf?]

theorem PartsRel.sameOutside (h : PartsRel part value n n') : n.SameOutside n' := by
  cases h <;> exact ⟨rfl, rfl, rfl, rfl, rfl⟩

theorem Shuffled.sameOutside (h : Shuffled n n') : n.SameOutside n' := by
  cases h <;> exact ⟨rfl, rfl, rfl, rfl, rfl⟩

theorem Permuted.sameOutside (h : n.Permuted n') : n.SameOutside n' := by
  obtain ⟨hparts, hshuffled⟩ := h
  exact hparts.sameOutside.trans hshuffled.sameOutside

theorem Alike.sameOutside (h : n.Alike n') : n.SameOutside n' := h.2.sameOutside

/-! ### Keys -/

theorem Distinct.keys (h : n.Distinct) : n.DistinctKeys := by
  intro entries hentries
  cases h with
  | mapping _ hkeys _ _ =>
    cases hentries
    exact hkeys
  | _ => cases hentries

/-- Entries that are related one by one have the same keys. -/
theorem keys_of_forall₂ {entries entries' : List (Node × Node)}
    (h : List.Forall₂ (EntryRel Permuted value) entries entries') :
    (entries.filterMap fun e => e.1.text?) = entries'.filterMap fun e => e.1.text? := by
  induction h with
  | nil => rfl
  | cons he _ ih =>
    obtain ⟨hkey, -⟩ := he
    rw [List.filterMap_cons, List.filterMap_cons, hkey.sameOutside.text?, ih]

theorem DistinctKeys.parts (h : n.DistinctKeys) (h' : PartsRel Permuted value n m) :
    m.DistinctKeys := by
  intro entries' hentries'
  cases h' with
  | mapping pos hparts =>
    cases hentries'
    rw [← keys_of_forall₂ hparts]
    exact h _ rfl
  | _ => cases hentries'

theorem DistinctKeys.shuffled (h : n.DistinctKeys) (h' : Shuffled n m) : m.DistinctKeys := by
  intro entries' hentries'
  cases h' with
  | refl => exact h entries' hentries'
  | mapping pos hperm =>
    cases hentries'
    exact (hperm.filterMap _).nodup_iff.mp (h _ rfl)

/-! ### Items -/

/-- Items keep their order. -/
theorem Alike.items (h : n.Alike n') :
    Option.Rel (List.Forall₂ Alike) n.items? n'.items? := by
  obtain ⟨hn, hparts, hshuffled⟩ := h
  cases hparts with
  | null pos => cases hshuffled; exact .none
  | scalar text plain pos => cases hshuffled; exact .none
  | mapping pos _ => cases hshuffled <;> exact .none
  | sequence pos hitems =>
    cases hshuffled
    cases hn with
    | sequence _ hdistinct => exact .some ((List.forall₂_and_left _ _).mpr ⟨hdistinct, hitems⟩)

end WorkflowTree.Node
