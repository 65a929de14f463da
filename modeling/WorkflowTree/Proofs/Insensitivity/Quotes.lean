import WorkflowTree.Proofs.Simulation.Workflow

/-!
# Quotes

Whether a scalar is written with or without quotes matters only where a truth value or a number is
read.  There a quoted word is refused, so quotes can make a file be rejected, but they never make it
mean something else (`Workflow.parse_requoted`).

Two nodes that differ only in their quotes are related by `Node.Requoted`, which goes along with the
schema of the nodes, so that what may happen to a scalar can depend on what it is read as.
-/

namespace WorkflowTree

variable {may : Schema → Bool → Bool → Prop} {s : Schema} {n n' : Node}

/-- What the value under a key is read as, if it is read. -/
def Schema.under (s : Schema) (k : Node) : Schema := (k.text?.bind s.value).getD .any

namespace Node

/-! ### Nodes with other quotes -/

mutual

/-- Two nodes that differ only in which scalars are written without quotes.  What may become of a
scalar depends on what it is read as, and is said by two truth values: whether it is written without
quotes before, and whether it is after. -/
inductive Requoted (may : Schema → Bool → Bool → Prop) : Schema → Node → Node → Prop
  | null (s : Schema) (pos : Position) : Requoted may s (.null pos) (.null pos)
  | scalar {s : Schema} {plain plain' : Bool} (text : String) (pos : Position) :
      may s plain plain' → Requoted may s (.scalar text plain pos) (.scalar text plain' pos)
  | sequence {s : Schema} {items items' : List Node} (pos : Position) :
      ItemsRequoted may s.item items items' →
      Requoted may s (.sequence items pos) (.sequence items' pos)
  | mapping {s : Schema} {entries entries' : List (Node × Node)} (pos : Position) :
      EntriesRequoted may s entries entries' →
      Requoted may s (.mapping entries pos) (.mapping entries' pos)

/-- Items with other quotes. -/
inductive ItemsRequoted (may : Schema → Bool → Bool → Prop) : Schema → List Node → List Node → Prop
  | nil (s : Schema) : ItemsRequoted may s [] []
  | cons {s : Schema} {i i' : Node} {items items' : List Node} : Requoted may s i i' →
      ItemsRequoted may s items items' → ItemsRequoted may s (i :: items) (i' :: items')

/-- Entries with other quotes, in their keys as well as in their values. -/
inductive EntriesRequoted (may : Schema → Bool → Bool → Prop) :
    Schema → List (Node × Node) → List (Node × Node) → Prop
  | nil (s : Schema) : EntriesRequoted may s [] []
  | cons {s : Schema} {k k' v v' : Node} {entries entries' : List (Node × Node)} :
      Requoted may .any k k' → Requoted may (s.under k) v v' →
      EntriesRequoted may s entries entries' →
      EntriesRequoted may s ((k, v) :: entries) ((k', v') :: entries')

end

theorem ItemsRequoted.forall₂ {items items' : List Node} :
    ItemsRequoted may s items items' → List.Forall₂ (Requoted may s) items items'
  | .nil _ => .nil
  | .cons hi hitems => .cons hi hitems.forall₂

/-- A value that is read is read as what its key says. -/
theorem EntriesRequoted.similar {entries entries' : List (Node × Node)} :
    EntriesRequoted may s entries entries' → ∀ earlier,
      EntriesSimilar (Requoted may) s earlier entries entries'
  | .nil _, earlier => .nil earlier
  | .cons hk hv hentries, earlier => by
    refine .cons hk (fun t hread => ?_) (hentries.similar _)
    rw [Schema.under, Schema.value_of_read? hread] at hv
    exact hv

/-- Quotes do not matter outside of truth values and numbers. -/
theorem Requoted.similar (hmay : ∀ {plain plain' : Bool}, may .plain plain plain' →
      plain = true → plain' = true) (h : n.Requoted may s n') :
    n.Similar False (Requoted may) s n' := by
  cases h with
  | null _ pos => exact .null pos
  | scalar text pos hscalar =>
    apply Similar.scalar text pos
    intro hplain
    obtain ⟨rfl, rfl⟩ := hplain.resolve_left not_false
    exact hmay hscalar rfl
  | sequence pos hitems => exact .sequence pos hitems.forall₂
  | mapping pos hentries => exact .mapping pos (hentries.similar [])

/-! ### Nodes without quotes -/

mutual

/-- The node with all scalars written without quotes. -/
def unquote : Node → Node
  | null pos => null pos
  | scalar text _ pos => scalar text true pos
  | sequence items pos => sequence (unquoteItems items) pos
  | mapping entries pos => mapping (unquoteEntries entries) pos

/-- The items without quotes. -/
def unquoteItems : List Node → List Node
  | [] => []
  | i :: items => i.unquote :: unquoteItems items

/-- The entries without quotes. -/
def unquoteEntries : List (Node × Node) → List (Node × Node)
  | [] => []
  | (k, v) :: entries => (k.unquote, v.unquote) :: unquoteEntries entries

end

mutual

theorem requoted_unquote : ∀ (s : Schema) (n : Node),
    n.Requoted (fun _ _ plain' => plain' = true) s n.unquote
  | s, .null pos => .null s pos
  | _, .scalar text _ pos => .scalar text pos rfl
  | s, .sequence items pos => .sequence pos (requoted_unquoteItems s.item items)
  | s, .mapping entries pos => .mapping pos (requoted_unquoteEntries s entries)

theorem requoted_unquoteItems : ∀ (s : Schema) (items : List Node),
    ItemsRequoted (fun _ _ plain' => plain' = true) s items (unquoteItems items)
  | s, [] => .nil s
  | s, i :: items => .cons (requoted_unquote s i) (requoted_unquoteItems s items)

theorem requoted_unquoteEntries : ∀ (s : Schema) (entries : List (Node × Node)),
    EntriesRequoted (fun _ _ plain' => plain' = true) s entries (unquoteEntries entries)
  | s, [] => .nil s
  | s, (k, v) :: entries => .cons (requoted_unquote .any k) (requoted_unquote (s.under k) v)
      (requoted_unquoteEntries s entries)

end

mutual

/-- Nodes that differ only in their quotes are the same without any. -/
theorem Requoted.unquote_eq : ∀ {s : Schema} {n n' : Node}, n.Requoted may s n' →
    n.unquote = n'.unquote
  | _, _, _, .null .. => rfl
  | _, _, _, .scalar .. => rfl
  | _, _, _, .sequence pos h => congrArg (sequence · pos) h.unquote_eq
  | _, _, _, .mapping pos h => congrArg (mapping · pos) h.unquote_eq

theorem ItemsRequoted.unquote_eq : ∀ {s : Schema} {items items' : List Node},
    ItemsRequoted may s items items' → unquoteItems items = unquoteItems items'
  | _, _, _, .nil _ => rfl
  | _, _, _, .cons hi hitems => congrArg₂ List.cons hi.unquote_eq hitems.unquote_eq

theorem EntriesRequoted.unquote_eq : ∀ {s : Schema} {entries entries' : List (Node × Node)},
    EntriesRequoted may s entries entries' → unquoteEntries entries = unquoteEntries entries'
  | _, _, _, .nil _ => rfl
  | _, _, _, .cons hk hv hentries =>
    congrArg₂ List.cons (congrArg₂ Prod.mk hk.unquote_eq hv.unquote_eq) hentries.unquote_eq

end

end Node

/-! ### The main statement -/

/-- Changing quotes in such a way that no word is read as a truth value or a number before but not
after. -/
def Simulation.requoting (policy : Policy) (hmay : ∀ {plain plain' : Bool},
    may .plain plain plain' → plain = true → plain' = true) : Simulation False policy policy :=
  .ofRel policy (Node.Requoted may) fun h => .inr (h.similar hmay)

namespace Workflow

/-- What is accepted stays so as long as no truth value and no number is put in quotes. -/
theorem parse_eq_ok_of_requoted {policy : Policy} {root root' : Node} {w : Workflow}
    (hmay : ∀ {plain plain' : Bool}, may .plain plain plain' → plain = true → plain' = true)
    (h : root.Requoted may schema root') (hw : parse policy root = .ok w) :
    parse policy root' = .ok w := by
  have hrel : (Simulation.requoting policy hmay).Rel schema root root' := h
  exact parse_eq_ok_of_transfers (transfers_read hrel) hw

/-- **Quotes change no meaning**: let two files differ only in the quotes of scalars.  If both are
accepted, they are the same workflow.  If one is accepted and the other one has no quotes but those
that the first one has, it is accepted with the same workflow.  This is so even if the other one has
more quotes, as long as no truth value and no number is put in them. -/
theorem parse_requoted (policy : Policy) (root root' : Node) :
    (root.Requoted (fun _ _ _ => True) schema root' → ∀ w w',
      parse policy root = .ok w → parse policy root' = .ok w' → w = w') ∧
    (root.Requoted (fun _ plain plain' => plain = true → plain' = true) schema root' → ∀ w,
      parse policy root = .ok w → parse policy root' = .ok w) ∧
    (root.Requoted (fun s plain plain' => s = .plain → plain = true → plain' = true) schema root' →
      ∀ w, parse policy root = .ok w → parse policy root' = .ok w) := by
  refine ⟨fun h w w' hw hw' => ?_, fun h w hw => ?_, fun h w hw => ?_⟩
  · -- without any quotes the two files are one, and it is accepted with both workflows
    have hplain : ∀ {n : Node} {w : Workflow}, parse policy n = .ok w →
        parse policy n.unquote = .ok w := fun {n _} =>
      parse_eq_ok_of_requoted (fun h _ => h) (Node.requoted_unquote schema n)
    have hboth := (hplain hw).symm.trans (h.unquote_eq ▸ hplain hw')
    exact Except.ok.inj hboth
  · exact parse_eq_ok_of_requoted id h hw
  · -- only what is asked of truth values and numbers is needed
    exact parse_eq_ok_of_requoted (fun h => h rfl) h hw

/-- A workflow without jobs in a concurrency group, whose name and whose flag may be quoted. -/
def grouped (plainName plainFlag : Bool) : Node :=
  .mapping [
    (.scalar "on" true ⟨1, 1⟩, .scalar "push" true ⟨1, 5⟩),
    (.scalar "concurrency" true ⟨2, 1⟩, .mapping [
      (.scalar "group" true ⟨3, 3⟩, .scalar "1" plainName ⟨3, 10⟩),
      (.scalar "cancel-in-progress" true ⟨4, 3⟩, .scalar "true" plainFlag ⟨4, 23⟩)] ⟨3, 3⟩),
    (.scalar "jobs" true ⟨5, 1⟩, .mapping [] ⟨5, 7⟩)] ⟨1, 1⟩

theorem requoted_grouped {plainName plainName' plainFlag plainFlag' : Bool}
    (hsame : ∀ s, may s true true) (hname : may .any plainName plainName')
    (hflag : may .plain plainFlag plainFlag') :
    (grouped plainName plainFlag).Requoted may schema (grouped plainName' plainFlag') := by
  have hword : ∀ s text pos, (Node.scalar text true pos).Requoted may s (.scalar text true pos) :=
    fun s text pos => .scalar text pos (hsame s)
  refine .mapping _ (.cons (hword ..) (hword ..) (.cons (hword ..) ?_
    (.cons (hword ..) (.mapping _ (.nil _)) (.nil _))))
  exact .mapping _ (.cons (hword ..) (.scalar _ _ hname)
    (.cons (hword ..) (.scalar _ _ hflag) (.nil _)))

/-- The name of the group is a text with and without quotes, even if it looks like a number, but the
flag is no truth value in quotes. -/
theorem parse_grouped :
    (∃ w, parse {} (grouped false true) = .ok w ∧ parse {} (grouped true true) = .ok w ∧
      ∀ w', parse {} (grouped true true) = .ok w' → w = w') ∧
    (∃ w, parse {} (grouped true true) = .ok w ∧ parse {} (grouped false true) = .ok w) ∧
    ∃ ps, parse {} (grouped true false) = .error ps := by
  have hquoted : ∃ w, parse {} (grouped false true) = .ok w := ⟨_, rfl⟩
  have hplain : ∃ w, parse {} (grouped true true) = .ok w := ⟨_, rfl⟩
  obtain ⟨hequal, hfewer, -⟩ := parse_requoted {} (grouped false true) (grouped true true)
  obtain ⟨-, -, hmore⟩ := parse_requoted {} (grouped true true) (grouped false true)
  refine ⟨?_, ?_, ⟨_, rfl⟩⟩
  · obtain ⟨w, hw⟩ := hquoted
    have hw' := hfewer (requoted_grouped (fun _ => id) (fun _ => rfl) id) w hw
    exact ⟨w, hw, hw', fun w' => hequal (requoted_grouped (fun _ => ⟨⟩) ⟨⟩ ⟨⟩) w w' hw⟩
  · obtain ⟨w, hw⟩ := hplain
    exact ⟨w, hw, hmore (requoted_grouped (fun _ _ => id) nofun fun _ => id) w hw⟩

end Workflow

end WorkflowTree
