import WorkflowTree.Keyed
import WorkflowTree.Problem

/-!
# Unique names

An edit that adds to a keyed collection is refused when the name is taken.

* `Keyed.addUnique_eq_ok` and `Keyed.addUnique_eq_error` say when that is so.
-/

namespace WorkflowTree.Keyed

variable {α : Type}

/-- Adds a value under the text of a name. If the name is taken, the problem says where it was
defined first. -/
def addUnique (m : Keyed α) (what : String) (name : Text) (v : α) (definedAt : α → Position) :
    Except Problem (Keyed α) :=
  match m.find? name.value with
  | some taken => .error ⟨.duplicate what name.value (definedAt taken), name.pos⟩
  | none => .ok (m.insert name.value v)

theorem addUnique_eq_ok {m n : Keyed α} {what : String} {name : Text} {v : α}
    {definedAt : α → Position} :
    m.addUnique what name v definedAt = .ok n ↔
      name.value ∉ m.keys ∧ m.insert name.value v = n := by
  rw [← find?_eq_none]
  cases h : m.find? name.value <;> simp [addUnique, h]

theorem addUnique_eq_error {m : Keyed α} {what : String} {name : Text} {v : α}
    {definedAt : α → Position} {p : Problem} :
    m.addUnique what name v definedAt = .error p ↔ ∃ taken, m.find? name.value = some taken ∧
      p = ⟨.duplicate what name.value (definedAt taken), name.pos⟩ := by
  cases h : m.find? name.value <;> simp [addUnique, h, eq_comm]

end WorkflowTree.Keyed

namespace WorkflowTree

/-- Makes edits one after the other and stops at the first that is refused. -/
def editAll {σ ε : Type} (edit : σ → ε → Except Problem σ) (s : σ) (edits : List ε) :
    Except Problem σ := edits.foldlM edit s

end WorkflowTree
