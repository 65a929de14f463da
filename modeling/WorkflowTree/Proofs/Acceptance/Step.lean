import WorkflowTree.Proofs.Acceptance.Scalar
import WorkflowTree.Proofs.Grammar.Workflow
import WorkflowTree.Reading.Step

/-!
# What readers of steps accept

A step is the only part of a workflow whose keys depend on each other.  Which of them go
together is decided behind the reading of all keys (`Step.readExec`), from the keys whose values
could be read.  `Step.clean_readExec` says what that decision accepts, once nothing is wrong
with the keys on their own.
-/

namespace WorkflowTree

open Checked

variable {policy : Policy} {what owner : String} {n : Node} {pos : Position}

/-! ### Inputs of actions -/

@[simp] theorem ActionUse.clean_readInputs : (readInputs owner n).Clean ↔ n.IsAssignments :=
  Section.clean_free fun _ => Assignment.clean_read

theorem ActionUse.accounts_readInputs (owner : String) (n : Node) :
    (readInputs owner n).Accounts n.size Keyed.size :=
  Section.accounts_free fun _ => Assignment.explained_read _ _

/-! ### What a step does -/

namespace Step

/-- What a step does is accepted if it runs a script and there are no inputs, or if it uses an
action and there are no settings of a script.  The hypothesis says that keys without a value
are missing altogether. -/
theorem clean_readExec {s : Section} {f : ExecFields}
    (hmissing : f.run = none → f.uses = none → (s.has "run" || s.has "uses") = false) :
    (readExec owner s pos f).Clean ↔
      f.run ≠ none ∧ f.uses = none ∧ f.inputs = none ∨
      f.uses ≠ none ∧ f.run = none ∧ f.shell = none ∧ f.workingDirectory = none ∧
        ∀ i, f.inputs = some i → i.2.IsAssignments := by
  rcases f with ⟨_ | ⟨runKey, script⟩, _ | ⟨usesKey, action⟩, inputs, shell, workingDirectory⟩
  · -- a step that does nothing lacks both keys
    simp [readExec, hmissing rfl rfl, Clean]
  · rcases inputs with - | ⟨key, n⟩
    · rcases shell with - | _ <;> rcases workingDirectory with - | _ <;> simp [readExec]
    · rcases shell with - | _ <;> rcases workingDirectory with - | _ <;> simp [readExec]
  · rcases inputs with - | i <;> simp [readExec]
  · simp [readExec]

/-- Where it is left open what a step does, there is a problem. -/
theorem explained_readExec (owner : String) {s : Section} (pos : Position) {f : ExecFields}
    (hmissing : f.run = none → f.uses = none → (s.has "run" || s.has "uses") = false) :
    (readExec owner s pos f).Explained := by
  refine explained_of_clean fun hclean => ?_
  rcases (clean_readExec hmissing).mp hclean with ⟨hrun, huses, -⟩ | ⟨huses, hrun, -⟩
  · obtain ⟨run, hrun⟩ := Option.ne_none_iff_exists'.mp hrun
    simp [readExec, hrun, huses]
  · obtain ⟨uses, huses⟩ := Option.ne_none_iff_exists'.mp huses
    rcases hinputs : f.inputs with - | i <;> simp [readExec, hrun, huses, hinputs]

theorem nodup_readFields (what : String) (s : Section) (pos : Position) :
    (readFields what s pos).keys.Nodup := by
  simp [readFields, Form.keys]

/-- If nothing is wrong with the keys of a step, those without a value are not there. -/
theorem absent_of_clean {s : Section}
    (hfill : (s.fill policy what (readFields what s pos)).Clean) :
    ((readFields what s pos).value.1.run = none ↔ s.has "run" = false) ∧
    ((readFields what s pos).value.1.uses = none ↔ s.has "uses" = false) ∧
    ((readFields what s pos).value.1.inputs = none ↔ s.has "with" = false) ∧
    ((readFields what s pos).value.1.shell = none ↔ s.has "shell" = false) ∧
    ((readFields what s pos).value.1.workingDirectory = none ↔
      s.has "working-directory" = false) := by
  have habsent : ∀ {α : Type} {key : String} {read : Node → Checked (Option α)},
      (∀ n, (read n).Explained) →
      (key, s.problemsAt key read) ∈ (readFields what s pos).fields →
      ((s.fieldWithKey key read).value = none ↔ s.has key = false) := fun he hmem =>
    Section.fieldWithKey_eq_none he (nodup_readFields what s pos) hfill hmem
  refine ⟨?_, ?_, ?_, ?_, ?_⟩
  · exact habsent (explained_readText _) (by simp [readFields])
  · exact habsent (explained_readText _) (by simp [readFields])
  · exact habsent (fun n => explained_some n []) (by simp [readFields])
  · exact habsent (explained_readText _) (by simp [readFields])
  · exact habsent (explained_readText _) (by simp [readFields])

theorem missing_of_clean {s : Section}
    (hfill : (s.fill policy what (readFields what s pos)).Clean)
    (hrun : (readFields what s pos).value.1.run = none)
    (huses : (readFields what s pos).value.1.uses = none) :
    (s.has "run" || s.has "uses") = false := by
  obtain ⟨hr, hu, -⟩ := absent_of_clean hfill
  rw [hr.mp hrun, hu.mp huses]
  rfl

/-- What is accepted of the keys of a step on their own.  The inputs of an action are read when
it is known that there is one. -/
theorem clean_fill_readFields {s : Section}
    (hn : n.IsSection) (hs : ∀ key, s.get? key = n.get? key) :
    (s.fill policy what (readFields what s pos)).Clean ↔
      n.IsFixed policy ["id", "if", "name", "run", "uses", "with", "shell", "working-directory",
        "env", "continue-on-error", "timeout-minutes"] ∧
      n.Allows "id" Node.IsText ∧ n.Allows "if" Node.IsText ∧ n.Allows "name" Node.IsText ∧
      n.Allows "run" Node.IsText ∧ n.Allows "uses" Node.IsText ∧ n.Allows "shell" Node.IsText ∧
      n.Allows "working-directory" Node.IsText ∧ n.Allows "env" Node.IsAssignments ∧
      n.Allows "continue-on-error" Node.IsFlag ∧ n.Allows "timeout-minutes" Node.IsMinutes := by
  have hwith : n.Allows "with" fun _ => True := fun _ _ => trivial
  rw [Section.clean_fill (nodup_readFields what s pos)]
  simp [readFields, Form.keys, Section.problemsAt_eq_nil hs, hs, Node.IsFixed, hn, hwith]

/-- The conditions on the keys of a step come down to two ways of doing something. -/
theorem exec_iff {shape : Node → Prop} :
    ((n.Has "run" ∧ ¬ n.Has "uses" ∨ n.Has "uses" ∧ ¬ n.Has "run") ∧
      (n.Has "with" → n.Has "uses") ∧ (n.Has "shell" → n.Has "run") ∧
      (n.Has "working-directory" → n.Has "run") ∧ n.Allows "with" shape) ↔
    (n.Has "run" ∧ ¬ n.Has "uses" ∧ ¬ n.Has "with" ∨
      n.Has "uses" ∧ ¬ n.Has "run" ∧ ¬ n.Has "shell" ∧ ¬ n.Has "working-directory" ∧
        n.Allows "with" shape) := by
  have hwith : ¬ n.Has "with" → n.Allows "with" shape := fun hnot v hv => absurd ⟨v, hv⟩ hnot
  tauto

/-- What is accepted of the keys of a step together, once nothing is wrong with them on their
own: keys without a value are not there by then. -/
theorem clean_readExec_of_fill {s : Section}
    (hs : ∀ key, s.get? key = n.get? key)
    (hfill : (s.fill policy what (readFields what s pos)).Clean) :
    (readExec what s pos (readFields what s pos).value.1).Clean ↔
      n.Has "run" ∧ ¬ n.Has "uses" ∧ ¬ n.Has "with" ∨
      n.Has "uses" ∧ ¬ n.Has "run" ∧ ¬ n.Has "shell" ∧ ¬ n.Has "working-directory" ∧
        n.Allows "with" Node.IsAssignments := by
  have hhas : ∀ key, s.has key = false ↔ ¬ n.Has key := by
    intro key
    rw [← Bool.not_eq_true, Section.has_iff, hs]
    rfl
  have hinputs : (∀ i, (readFields what s pos).value.1.inputs = some i →
      i.2.IsAssignments) ↔ n.Allows "with" Node.IsAssignments := by
    unfold Node.Allows
    rw [← hs, Section.get?]
    rcases e : s.find? "with" with - | entry <;> simp [readFields, e]
  obtain ⟨hrun, huses, hwith, hshell, hdir⟩ := absent_of_clean hfill
  rw [hhas] at hrun huses hwith hshell hdir
  rw [clean_readExec (missing_of_clean hfill), hinputs]
  simp only [Ne, hrun, huses, hwith, hshell, hdir, not_not]

@[simp] theorem clean_read : (read policy what n).Clean ↔ IsStep policy n := by
  refine Section.clean_within (fun h => h.keys.1) fun s hn hs => ?_
  rw [clean_bind, Section.value_fill]
  show _ ∧ (Option.map _ <$> readExec what s n.pos (readFields what s n.pos).value.1).Clean ↔ _
  rw [clean_map, and_congr_right (clean_readExec_of_fill hs), ← exec_iff,
    clean_fill_readFields hn hs, isStep_iff]
  -- the grammar lists the conditions in another order
  constructor
  · rintro ⟨⟨keys, id, condition, name, run, uses, shell, dir, env, continued, timeout⟩,
      one, withUses, shellRuns, dirRuns, inputs⟩
    exact ⟨keys, one, withUses, shellRuns, dirRuns, id, condition, name, run, uses, inputs,
      shell, dir, env, continued, timeout⟩
  · rintro ⟨keys, one, withUses, shellRuns, dirRuns, id, condition, name, run, uses, inputs,
      shell, dir, env, continued, timeout⟩
    exact ⟨⟨keys, id, condition, name, run, uses, shell, dir, env, continued, timeout⟩,
      one, withUses, shellRuns, dirRuns, inputs⟩

theorem explained_read (policy : Policy) (what : String) (n : Node) :
    (read policy what n).Explained := by
  refine Section.explained_within fun s => explained_of_clean ?_
  rw [clean_bind]
  rintro ⟨hfill, hexec⟩
  have hvalue := explained_readExec what n.pos (missing_of_clean hfill)
  obtain ⟨exec, hexec⟩ := hvalue.exists_value (clean_bind.mp hexec).1
  show Option.map _ (readExec what s n.pos (readFields what s n.pos).value.1).value ≠ none
  rw [hexec]
  simp

/-- Steps are counted, which matters for messages alone. -/
@[simp] theorem clean_readList :
    (readList policy owner n).Clean ↔ n.IsSequenceOf (IsStep policy) := by
  unfold readList Node.IsSequenceOf
  rcases n.items? with - | items
  · simp
  · have hitems : (∀ x ∈ items.zipIdx, IsStep policy x.1) ↔ ∀ i ∈ items, IsStep policy i := by
      rw [← List.forall_mem_map (P := IsStep policy), List.zipIdx_map_fst]
    simp only [clean_map, clean_collect, List.forall_mem_map, clean_read, hitems,
      Option.some.injEq, exists_eq_left']

theorem accounts_readList (policy : Policy) (owner : String) (n : Node) :
    (readList policy owner n).Accounts n.size List.length := by
  rcases n with _ | _ | ⟨items, pos⟩ | _
  · exact accounts_refuse _ _ _
  · exact accounts_refuse _ _ _
  · have h := accounts_collect (fun x : Node × Nat =>
      explained_read policy s!"step {x.2 + 1} of {owner}" x.1) items.zipIdx
    rwa [List.length_zipIdx] at h
  · exact accounts_refuse _ _ _

end Step

end WorkflowTree
