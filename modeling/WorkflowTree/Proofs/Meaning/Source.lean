import WorkflowTree.Keyed
import WorkflowTree.Number.Decimal
import WorkflowTree.Proofs.Grammar.Shape
import WorkflowTree.Proofs.Reading.Related
import WorkflowTree.Proofs.Reading.Section
import WorkflowTree.Workflow.Step
import Mathlib.Data.Option.Defs

/-!
# What nodes mean

The meaning of a workflow file is a relation between its nodes and the parts of a workflow tree.
This module has the relations for leaves and for the ways in which parts are put together.

* A part that may be left out is related to what stands under its key by `Option.Rel`: it is absent
  exactly if the key is, and else it is what the value means.
* A list is related to a sequence by `List.Forall₂`: as many elements as items, in the same order,
  each of them what its item means.
* A keyed collection is related to a section key by key (`MeansKeyed`): it has the keys that the
  section has, and what stands under a key is what the entry with this key means.

No definition here looks at a reader or at its problems.
-/

namespace WorkflowTree

variable {α : Type}

/-! ### Parts of nodes -/

namespace Node

/-- The first entry of a mapping whose key is a scalar with this text. -/
def entryAt? (n : Node) (key : String) : Option Entry :=
  (n.entries?.bind (List.find? fun kv => kv.1.text? == some key)).bind Entry.ofPair?

/-- The value that stands under a path of keys. -/
def at? (n : Node) (path : List String) : Option Node := path.foldlM get? n

/-- The items of a sequence. Any other node stands for a sequence of itself. -/
def listed : Node → List Node
  | sequence items _ => items
  | n => [n]

/-- The nodes that name the triggers of a workflow, each with the node that belongs to it: the keys
of a mapping with their values, or the items of a sequence or one node alone, without any. -/
def hooks : Node → List (Node × Option Node)
  | mapping entries _ => entries.map fun kv => (kv.1, some kv.2)
  | n => n.listed.map (·, none)

/-- The pair that is looked up is an entry with this key. -/
theorem find?_entries_eq_some {n : Node} {key : String} {kv : Node × Node}
    (h : n.entries?.bind (List.find? fun kv => kv.1.text? == some key) = some kv) :
    ∃ e, Entry.ofPair? kv = some e ∧ e.key.value = key ∧ e.value = kv.2 := by
  obtain ⟨kvs, -, hfind⟩ := Option.bind_eq_some_iff.mp h
  have htext : kv.1.text? = some key := by simpa using List.find?_some hfind
  have hpair : Entry.ofPair? kv ≠ none := by
    rw [Ne, Entry.ofPair?_eq_none, htext]
    exact Option.some_ne_none _
  obtain ⟨e, he⟩ := Option.ne_none_iff_exists'.mp hpair
  obtain ⟨hkey, hvalue⟩ := Entry.ofPair?_eq_some he
  rw [htext] at hkey
  exact ⟨e, he, (Option.some.inj hkey).symm, hvalue.symm⟩

/-- The entry that is found has the key that is looked up. -/
theorem key_of_entryAt? {n : Node} {key : String} {e : Entry} (h : n.entryAt? key = some e) :
    e.key.value = key := by
  obtain ⟨kv, hkv, he⟩ := Option.bind_eq_some_iff.mp h
  obtain ⟨e', he', hkey, -⟩ := find?_entries_eq_some hkv
  rw [he] at he'
  exact Option.some.inj he' ▸ hkey

/-- The value that is looked up is the value of the entry. -/
theorem map_value_entryAt? (n : Node) (key : String) :
    (n.entryAt? key).map Entry.value = n.get? key := by
  unfold entryAt? get?
  rcases h : n.entries?.bind (List.find? fun kv => kv.1.text? == some key) with - | kv
  · rfl
  · obtain ⟨e, he, -, hvalue⟩ := find?_entries_eq_some h
    rw [Option.bind_some, he, Option.map_some, Option.map_some, hvalue]

end Node

/-- What a part of a part is related to is found on the path through both. -/
theorem optionRel_at? {γ δ : Type} {R : Node → γ → Prop} {S : Node → δ → Prop} {n : Node}
    {o : Option γ} {part : γ → Option δ} {outer inner : String}
    (h : Option.Rel R (n.get? outer) o)
    (hpart : ∀ v c, R v c → Option.Rel S (v.get? inner) (part c)) :
    Option.Rel S (n.at? [outer, inner]) (o.bind part) := by
  obtain ⟨hn, rfl⟩ | ⟨v, c, hn, rfl, hR⟩ := optionRel_cases h
  · have hpath : n.at? [outer, inner] = none := by simp [Node.at?, hn]
    rw [hpath]
    exact .none
  · have hpath : n.at? [outer, inner] = v.get? inner := by simp [Node.at?, hn]
    rw [hpath]
    exact hpart v c hR

/-! ### Leaves -/

/-- A scalar means its text, at its place. -/
def MeansText (n : Node) (t : Text) : Prop := n.leaf? = some t

theorem rightUnique_meansText : Relator.RightUnique MeansText := by
  intro n t t' h h'
  exact Option.some.inj (h.symm.trans h')

/-- A scalar without quotes may mean a truth value. -/
def MeansFlag (n : Node) (f : Flag) : Prop :=
  ∃ word, n = .scalar word true f.pos ∧
    (f.value = true ∧ word ∈ ["true", "True", "TRUE"] ∨
      f.value = false ∧ word ∈ ["false", "False", "FALSE"])

/-- A scalar without quotes means the integer that it reads as. -/
def MeansCount (n : Node) (c : Count) : Prop :=
  ∃ word, n = .scalar word true c.pos ∧ readInteger? word = some c.value

/-- A scalar without quotes means the finite number that it reads as. -/
def MeansMinutes (n : Node) (m : Minutes) : Prop :=
  ∃ word, n = .scalar word true m.pos ∧ readNumber? word = some m.value

/-- A text may be written alone or under a key of a mapping. -/
def MeansTextOrKey (key : String) (n : Node) (t : Text) : Prop :=
  MeansText n t ∨ n.Requires key (MeansText · t)

/-! ### Lists -/

/-- A sequence means a list, element for element. -/
def MeansList (means : Node → α → Prop) (n : Node) (as : List α) : Prop :=
  ∃ items, n.items? = some items ∧ List.Forall₂ means items as

theorem MeansList.imp {means means' : Node → α → Prop} {n : Node} {as : List α}
    (h : MeansList means n as) (himp : ∀ v a, means v a → means' v a) : MeansList means' n as := by
  obtain ⟨items, hitems, has⟩ := h
  exact ⟨items, hitems, has.imp himp⟩

/-- A sequence of scalars means their texts. -/
def MeansTexts : Node → List Text → Prop := MeansList MeansText

/-- A sequence of scalars means their texts, and one scalar means its text as the only one. -/
def MeansTextOrTexts (n : Node) (ts : List Text) : Prop := List.Forall₂ MeansText n.listed ts

/-! ### Keyed collections -/

/-- A section means a keyed collection, entry for entry, without some keys that are kept apart. -/
structure MeansKeyedBut (apart : List String) (means : Entry → α → Prop) (n : Node) (m : Keyed α) :
    Prop where
  isSection : n.IsSection
  rel : ∀ key, Option.Rel means (if key ∈ apart then none else n.entryAt? key) (m.find? key)

/-- A section means a keyed collection, entry for entry. -/
def MeansKeyed : (Entry → α → Prop) → Node → Keyed α → Prop := MeansKeyedBut []

theorem MeansKeyed.rel {means : Entry → α → Prop} {n : Node} {m : Keyed α}
    (h : MeansKeyed means n m) (key : String) :
    Option.Rel means (n.entryAt? key) (m.find? key) := by
  have hrel := MeansKeyedBut.rel h key
  rwa [if_neg List.not_mem_nil] at hrel

theorem MeansKeyedBut.imp {apart : List String} {means means' : Entry → α → Prop} {n : Node}
    {m : Keyed α} (h : MeansKeyedBut apart means n m) (himp : ∀ e a, means e a → means' e a) :
    MeansKeyedBut apart means' n m := ⟨h.isSection, fun key => optionRel_imp (h.rel key) himp⟩

/-! ### Parts with a fixed value -/

/-- What a node means if there is one, and a fixed value if there is none. -/
inductive MeansOr (other : α) (means : Node → α → Prop) : Option Node → α → Prop
  | absent : MeansOr other means none other
  | present {n : Node} {a : α} : means n a → MeansOr other means (some n) a

theorem MeansOr.imp {other : α} {means means' : Node → α → Prop} {o : Option Node} {a : α}
    (h : MeansOr other means o a) (himp : ∀ n, means n a → means' n a) :
    MeansOr other means' o a := by
  cases h with
  | absent => exact .absent
  | present ha => exact .present (himp _ ha)

end WorkflowTree
