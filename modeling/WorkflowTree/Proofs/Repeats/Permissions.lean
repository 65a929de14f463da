import WorkflowTree.Proofs.Repeats.Readers
import WorkflowTree.Proofs.Repeats.Section

/-!
# Repeated permissions

A workflow or a job may have many entries for permissions: words, mappings and other values, in any
order.  If both forms are there they exclude each other, and that is reported once, in place of the
repeats.  Otherwise each entry after the first is reported as a repeat.  Whatever else is repeated is
reported in both cases, and the permissions that are built are those of the first entry
(`permissions_judged`).
-/

namespace WorkflowTree

open Checked Section

variable {α : Type} {n root : Node} {what : String} {policy : Policy}

/-! ### Mappings with permissions -/

/-- What is reported about other mappings does not count. -/
theorem PermissionsJudged.append {ps qs : List Problem} (h : PermissionsJudged what n ps)
    (hqs : ∀ q ∈ qs, ∀ name, q.about? = some name → name ≠ what) :
    PermissionsJudged what n (ps ++ qs) := by
  have hexclusions : (ps ++ qs).filter (Problem.isExclusionIn what) =
      ps.filter (Problem.isExclusionIn what) := by
    rw [List.filter_append, Problem.filter_isExclusionIn_eq_nil hqs, List.append_nil]
  have hrepeats : ∀ key, (ps ++ qs).filter (Problem.isRepeatIn what key) =
      ps.filter (Problem.isRepeatIn what key) := by
    intro key
    rw [List.filter_append, Problem.filter_isRepeatIn_eq_nil key hqs, List.append_nil]
  constructor
  · intro blanket perScope word hblanket hperScope hword
    rw [hexclusions, hrepeats]
    exact h.both hblanket hperScope hword
  · intro hone
    rw [hexclusions, hrepeats]
    exact h.otherwise hone
  · intro key hkey
    rw [hrepeats]
    exact h.others hkey

/-- A reader of a workflow or a job reports about its keys what has to be reported, if all else that
it reports is about other mappings. -/
theorem judged_withinOwner {k : Section → Checked (Option α)}
    (hk : ∀ s, (k s).Concerns (· ≠ what)) :
    PermissionsJudged what n (withinOwner what n k).problems := by
  rw [withinOwner]
  rcases hs : (readWithPermissions what n).value with - | s
  · rw [andThen_of_none hs]
    exact judged_readWithPermissions what n
  · rw [andThen_of_some hs]
    exact (judged_readWithPermissions what n).append (hk s)

/-- The value under a key of a workflow or a job is that of the first entry with this key. -/
theorem value_field_of_readWithPermissions {s : Section} {key : String}
    {read : Node → Checked (Option α)} (hs : (readWithPermissions what n).value = some s) :
    (s.field key read).value = (n.get? key).bind fun v => (read v).value := by
  rw [value_field, get?_of_readWithPermissions hs]

/-! ### Jobs -/

namespace Job

theorem permissionsJudged_read (policy : Policy) (id : Text) (n : Node) :
    PermissionsJudged s!"job \"{id.value}\"" n (Job.read policy id n).problems := by
  refine judged_withinOwner fun s => ?_
  refine Concerns.bind ((concerns_fill (concerns_readFields policy _ id s)).mono
    fun _ hname => hname.ne_job id.value) fun _ => ?_
  refine (concerns_require _ _).bind fun _ => ?_
  exact (concerns_require _ _).bind fun _ => concerns_pure _

theorem permissions_of_read {id : Text} {j : Job} (h : (Job.read policy id n).value = some j) :
    j.permissions = (n.get? "permissions").bind fun v =>
      (Permissions.read s!"job \"{id.value}\"" v).value := by
  rw [Job.read, withinOwner] at h
  rcases hs : (readWithPermissions s!"job \"{id.value}\"" n).value with - | s
  · rw [andThen_of_none hs] at h
    cases h
  · rw [andThen_of_some hs] at h
    obtain ⟨runner, -, h⟩ := Option.bind_eq_some_iff.mp h
    obtain ⟨steps, -, h⟩ := Option.bind_eq_some_iff.mp h
    obtain rfl := Option.some.inj h
    exact value_field_of_readWithPermissions hs

end Job

/-! ### Workflows -/

namespace Workflow

theorem permissionsJudged_read (policy : Policy) (root : Node) :
    PermissionsJudged "workflow" root (Workflow.read policy root).problems := by
  refine judged_withinOwner fun s => ?_
  refine Concerns.bind ((concerns_fill (concerns_readFields policy _ s)).mono
    fun _ => ne_workflow) fun _ => ?_
  refine (concerns_require _ _).bind fun _ => ?_
  exact (concerns_require _ _).bind fun _ => concerns_pure _

theorem permissions_of_read {w : Workflow} (h : (Workflow.read policy root).value = some w) :
    w.permissions = (root.get? "permissions").bind fun v =>
      (Permissions.read "workflow" v).value := by
  rw [Workflow.read, withinOwner] at h
  rcases hs : (readWithPermissions "workflow" root).value with - | s
  · rw [andThen_of_none hs] at h
    cases h
  · rw [andThen_of_some hs] at h
    obtain ⟨triggers, -, h⟩ := Option.bind_eq_some_iff.mp h
    obtain ⟨jobs, -, h⟩ := Option.bind_eq_some_iff.mp h
    obtain rfl := Option.some.inj h
    exact value_field_of_readWithPermissions hs

end Workflow

/-- **Repeated permissions are one kind of problem**: in the mapping of a workflow or a job, whatever
its entries are, permissions in both forms exclude each other, once and without repeats; otherwise
each entry for permissions after the first is a repeat and nothing is excluded; the repeats of all
other keys are reported in both cases.  The permissions that are built are those of the first
entry. -/
theorem permissions_judged (policy : Policy) :
    (∀ root, PermissionsJudged "workflow" root (Workflow.read policy root).problems ∧
      ∀ w, (Workflow.read policy root).value = some w →
        w.permissions = (root.get? "permissions").bind fun v =>
          (Permissions.read "workflow" v).value) ∧
    ∀ id n, PermissionsJudged s!"job \"{id.value}\"" n (Job.read policy id n).problems ∧
      ∀ j, (Job.read policy id n).value = some j →
        j.permissions = (n.get? "permissions").bind fun v =>
          (Permissions.read s!"job \"{id.value}\"" v).value :=
  ⟨fun root => ⟨Workflow.permissionsJudged_read policy root, fun _ => Workflow.permissions_of_read⟩,
    fun id n => ⟨Job.permissionsJudged_read policy id n, fun _ => Job.permissions_of_read⟩⟩

end WorkflowTree
