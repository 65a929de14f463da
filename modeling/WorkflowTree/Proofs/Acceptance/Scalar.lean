import WorkflowTree.Proofs.Reading.Form
import WorkflowTree.Reading.Settings

/-!
# What readers of leaves accept

For each reader of a leaf, of a sequence of texts or of assignments: which nodes it accepts,
that it gives a value or a problem, and that it loses no part without a problem.
-/

namespace WorkflowTree

open Checked

variable {α : Type} {what : String} {n : Node}

/-! ### Texts and plain scalars -/

@[simp] theorem clean_readText : (readText what n).Clean ↔ n.IsText := by
  unfold readText Node.IsText
  rw [Node.text?_eq_leaf?]
  rcases n.leaf? with - | t <;> simp

theorem value_readText (what : String) (n : Node) : (readText what n).value = n.leaf? := by
  unfold readText
  rcases n.leaf? with - | t <;> rfl

theorem explained_readText (what : String) (n : Node) : (readText what n).Explained := by
  unfold readText
  split
  · exact explained_some _ _
  · exact explained_mismatch _ _ _

theorem clean_readPlain {read? : String → Option α} {expected what : String} :
    (readPlain read? expected what n).Clean ↔ n.IsPlain fun text => ∃ a, read? text = some a := by
  unfold readPlain Node.IsPlain
  rcases n.plain? with - | text
  · simp
  · rcases h : read? text with - | a <;> simp [h]

theorem explained_readPlain (read? : String → Option α) (expected what : String) (n : Node) :
    (readPlain read? expected what n).Explained := by
  unfold readPlain
  split
  · exact explained_some _ _
  · exact explained_mismatch _ _ _

theorem exists_readTruth?_eq_some {text : String} :
    (∃ b, readTruth? text = some b) ↔
      text ∈ ["true", "True", "TRUE", "false", "False", "FALSE"] := by
  show _ ↔ text ∈ ["true", "True", "TRUE"] ++ ["false", "False", "FALSE"]
  rw [List.mem_append, ← List.contains_iff_mem, ← List.contains_iff_mem]
  unfold readTruth?
  rcases ["true", "True", "TRUE"].contains text with - | -
  · rcases ["false", "False", "FALSE"].contains text with - | - <;> simp
  · simp

@[simp] theorem clean_readFlag : (readFlag what n).Clean ↔ n.IsFlag := by
  rw [readFlag, clean_readPlain, Node.IsFlag]
  simp only [exists_readTruth?_eq_some]

@[simp] theorem clean_readCount : (readCount what n).Clean ↔ n.IsCount := clean_readPlain

@[simp] theorem clean_readMinutes : (readMinutes what n).Clean ↔ n.IsMinutes := clean_readPlain

/-! ### Sequences of texts -/

@[simp] theorem clean_readTexts : (readTexts what n).Clean ↔ n.IsSequenceOf Node.IsText := by
  unfold readTexts Node.IsSequenceOf
  rcases n.items? with - | items <;> simp

theorem value_readTexts (what : String) (n : Node) :
    (readTexts what n).value = n.items?.map (List.filterMap Node.leaf?) := by
  unfold readTexts
  rcases n.items? with - | items
  · rfl
  · simp [List.filterMap_map, value_readText]

theorem accounts_readTexts (what : String) (n : Node) :
    (readTexts what n).Accounts n.size List.length := by
  rcases n with _ | _ | ⟨items, pos⟩ | _
  · exact accounts_refuse _ _ _
  · exact accounts_refuse _ _ _
  · exact accounts_collect (explained_readText _) items
  · exact accounts_refuse _ _ _

@[simp] theorem clean_readTextOrTexts : (readTextOrTexts what n).Clean ↔ n.IsTextOrTexts := by
  unfold Node.IsTextOrTexts
  rcases n with pos | ⟨text, plain, pos⟩ | ⟨items, pos⟩ | ⟨entries, pos⟩
  · simp [readTextOrTexts, Node.IsText, Node.IsSequenceOf, Node.text?, Node.items?]
  · simp [readTextOrTexts, Node.IsText, Node.text?]
  · simp [readTextOrTexts, Node.IsText, Node.text?]
  · simp [readTextOrTexts, Node.IsText, Node.IsSequenceOf, Node.text?, Node.items?]

theorem accounts_readTextOrTexts (what : String) (n : Node) :
    (readTextOrTexts what n).Accounts n.size List.length := by
  rcases n with _ | _ | ⟨items, pos⟩ | _
  · exact accounts_refuse _ _ _
  · exact accounts_some _ _ (Nat.zero_le _)
  · exact accounts_readTexts what (.sequence items pos)
  · exact accounts_refuse _ _ _

/-! ### Assignments -/

@[simp] theorem Assignment.clean_read {e : Entry} :
    (Assignment.read what e).Clean ↔ e.value.IsText := by
  rw [Assignment.read, clean_map, clean_readText]

theorem Assignment.explained_read (what : String) (e : Entry) :
    (Assignment.read what e).Explained :=
  explained_optionMap.mpr (explained_readText _ _)

@[simp] theorem clean_readEnv : (readEnv what n).Clean ↔ n.IsAssignments :=
  Section.clean_free fun _ => Assignment.clean_read

theorem accounts_readEnv (what : String) (n : Node) :
    (readEnv what n).Accounts n.size Keyed.size :=
  Section.accounts_free fun _ => Assignment.explained_read _ _

end WorkflowTree
