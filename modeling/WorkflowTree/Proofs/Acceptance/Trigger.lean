import WorkflowTree.Proofs.Acceptance.Scalar
import WorkflowTree.Proofs.Grammar.Workflow

/-!
# What readers of triggers accept

Four readers share the work, and the name of a trigger decides which of them it gets.  The main
statement is `Trigger.clean_readList`, for all three ways in which triggers are written.
-/

namespace WorkflowTree

open Checked

variable {α : Type} {policy : Policy} {what : String} {n : Node} {pos : Position}

/-! ### Bodies -/

/-- A body is filled into a form.  If it is left out, or is no value, the form is filled with a
section without entries, in which nothing is wrong. -/
theorem clean_withinBody {body : Option Node} {form : Section → Form α} {shape : Node → Prop}
    (hsection : ∀ n, shape n → n.IsSection)
    (h : ∀ (s : Section) n, n.IsSection → (∀ key, s.get? key = n.get? key) →
      ((s.fill policy what (form s)).Clean ↔ shape n)) :
    (withinBody what body fun s => some <$> s.fill policy what (form s)).Clean ↔
      IsBody shape body := by
  have hempty : (some <$> Section.empty.fill policy what (form .empty)).Clean := rfl
  rcases body with - | n
  · simp only [withinBody, IsBody, Option.filter_none, reduceCtorEq, false_implies,
      implies_true, hempty]
  · have hn : (Section.within what n fun s => some <$> s.fill policy what (form s)).Clean ↔
        shape n := by
      refine Section.clean_within (hsection n) fun s hsec hs => ?_
      rw [clean_map, h s n hsec hs]
    rcases hnull : n.isNull with - | -
    · simp [withinBody, IsBody, Option.filter, hnull, hn]
    · simp only [withinBody, IsBody, Option.filter, hnull, Option.some.injEq, forall_eq',
        true_or, iff_true]
      exact hempty

theorem explained_withinBody {body : Option Node} {k : Section → Checked (Option α)}
    (h : ∀ s, (k s).Explained) : (withinBody what body k).Explained := by
  unfold withinBody
  split
  · exact h .empty
  · exact Section.explained_within h

/-! ### Webhooks -/

theorem WebhookTrigger.clean_read {hook : Text} {body : Option Node} :
    (WebhookTrigger.read policy hook body).Clean ↔ IsBody (IsWebhook policy) body := by
  refine clean_withinBody (fun _ h => h.keys.1) fun s n hn hs => ?_
  rw [Section.clean_fill (by simp [Form.keys]), isWebhook_iff]
  simp [Form.keys, Section.problemsAt_eq_nil hs, hs, Node.IsFixed, hn]

theorem WebhookTrigger.explained_read (policy : Policy) (hook : Text) (body : Option Node) :
    (WebhookTrigger.read policy hook body).Explained :=
  explained_withinBody fun _ => explained_map_some _

/-! ### Schedules -/

namespace ScheduleTrigger

theorem clean_readTime : (readTime policy n).Clean ↔ IsTime policy n := by
  refine Section.clean_within (fun h => h.keys.1) fun s hn hs => ?_
  rw [clean_bind, Section.clean_fill (by simp [Form.keys]), isTime_iff]
  simp [Form.keys, Section.problemsAt_eq_nil hs, Section.clean_require_bind hs, hs,
    Node.IsFixed, hn, Node.requires_iff, and_assoc, and_comm, and_left_comm]

theorem explained_readTime (policy : Policy) (n : Node) : (readTime policy n).Explained := by
  refine Section.explained_within fun s => explained_of_clean ?_
  simp only [clean_bind, Section.value_fill, Section.value_field]
  rintro ⟨hfill, hrequire⟩
  obtain ⟨cron, hcron⟩ := Section.exists_value_of_require (explained_readText _)
    (by simp [Form.keys]) hfill (by simp) hrequire
  simp [hcron]

theorem clean_read {body : Option Node} :
    (read policy pos body).Clean ↔ ∃ n, body = some n ∧ n.IsSequenceOf (IsTime policy) := by
  unfold read Node.IsSequenceOf
  rcases body with - | n
  · simp
  · rcases h : n.items? with - | items <;> simp [h, clean_readTime]

theorem accounts_read (policy : Policy) (pos : Position) (n : Node) :
    (read policy pos (some n)).Accounts n.size fun t => t.cron.length := by
  rcases n with _ | _ | ⟨items, p⟩ | _
  · exact accounts_refuse _ _ _
  · exact accounts_refuse _ _ _
  · refine accounts_some _ _ ?_
    rw [problems_pure, List.append_nil]
    exact length_le_collect (explained_readTime policy) items
  · exact accounts_refuse _ _ _

theorem explained_read (policy : Policy) (pos : Position) (body : Option Node) :
    (read policy pos body).Explained := by
  rcases body with - | n
  · exact explained_refuse _ _
  · exact (accounts_read policy pos n).explained

end ScheduleTrigger

/-! ### Triggers that are fired by hand or by another program -/

theorem DispatchInput.clean_read {e : Entry} :
    (DispatchInput.read policy e).Clean ↔ IsBody (IsDispatchInput policy) (some e.value) := by
  refine clean_withinBody (fun _ h => h.keys.1) fun s n hn hs => ?_
  rw [Section.clean_fill (by simp [Form.keys]), isDispatchInput_iff]
  simp [Form.keys, Section.problemsAt_eq_nil hs, hs, Node.IsFixed, hn]

theorem DispatchInput.explained_read (policy : Policy) (e : Entry) :
    (DispatchInput.read policy e).Explained :=
  explained_withinBody fun _ => explained_map_some _

namespace WorkflowDispatch

@[simp] theorem clean_readInputs :
    (readInputs policy n).Clean ↔
      n.IsFree fun _ v => IsBody (IsDispatchInput policy) (some v) :=
  Section.clean_free fun _ => DispatchInput.clean_read

theorem accounts_readInputs (policy : Policy) (n : Node) :
    (readInputs policy n).Accounts n.size Keyed.size :=
  Section.accounts_free (DispatchInput.explained_read policy)

theorem clean_read {body : Option Node} :
    (read policy pos body).Clean ↔ IsBody (IsWorkflowDispatch policy) body := by
  refine clean_withinBody (fun _ h => h.keys.1) fun s n hn hs => ?_
  rw [Section.clean_fill (by simp [Form.keys]), isWorkflowDispatch_iff]
  simp [Form.keys, Section.problemsAt_eq_nil hs, hs, Node.IsFixed, hn]

theorem explained_read (policy : Policy) (pos : Position) (body : Option Node) :
    (read policy pos body).Explained :=
  explained_withinBody fun _ => explained_map_some _

end WorkflowDispatch

theorem RepositoryDispatch.clean_read {body : Option Node} :
    (RepositoryDispatch.read policy pos body).Clean ↔
      IsBody (IsRepositoryDispatch policy) body := by
  refine clean_withinBody (fun _ h => h.keys.1) fun s n hn hs => ?_
  rw [Section.clean_fill (by simp [Form.keys]), isRepositoryDispatch_iff]
  simp [Form.keys, Section.problemsAt_eq_nil hs, hs, Node.IsFixed, hn]

theorem RepositoryDispatch.explained_read (policy : Policy) (pos : Position)
    (body : Option Node) : (RepositoryDispatch.read policy pos body).Explained :=
  explained_withinBody fun _ => explained_map_some _

/-! ### One trigger -/

theorem isTrigger_schedule {body : Option Node} :
    IsTrigger policy "schedule" body ↔ ∃ n, body = some n ∧ n.IsSequenceOf (IsTime policy) := by
  rw [isTrigger_iff]
  simp [and_comm]

theorem isTrigger_workflowDispatch {body : Option Node} :
    IsTrigger policy "workflow_dispatch" body ↔ IsBody (IsWorkflowDispatch policy) body := by
  rw [isTrigger_iff]
  simp

theorem isTrigger_repositoryDispatch {body : Option Node} :
    IsTrigger policy "repository_dispatch" body ↔
      IsBody (IsRepositoryDispatch policy) body := by
  rw [isTrigger_iff]
  simp

theorem isTrigger_webhook {name : String} {body : Option Node}
    (h : name ∉ ["schedule", "workflow_dispatch", "repository_dispatch"]) :
    IsTrigger policy name body ↔
      (name ∈ webhookNames ∨ name ∈ policy.extraWebhookEvents) ∧
        IsBody (IsWebhook policy) body := by
  have hnames : name ≠ "schedule" ∧ name ≠ "workflow_dispatch" ∧ name ≠ "repository_dispatch" := by
    simpa using h
  rw [isTrigger_iff]
  simp [hnames]

theorem allowsWebhook_iff {name : String} :
    policy.allowsWebhook name = true ↔
      name ∈ webhookNames ∨ name ∈ policy.extraWebhookEvents := by
  rw [Policy.allowsWebhook, Bool.or_eq_true, List.contains_iff_mem, List.contains_iff_mem]

namespace Trigger

theorem clean_read {hook : Text} {body : Option Node} :
    (read policy hook body).Clean ↔ IsTrigger policy hook.value body := by
  unfold read
  by_cases hs : hook.value = scheduleName
  · rw [if_pos hs, clean_map, ScheduleTrigger.clean_read, hs]
    exact isTrigger_schedule.symm
  rw [if_neg hs]
  by_cases hw : hook.value = workflowDispatchName
  · rw [if_pos hw, clean_map, WorkflowDispatch.clean_read, hw]
    exact isTrigger_workflowDispatch.symm
  rw [if_neg hw]
  by_cases hr : hook.value = repositoryDispatchName
  · rw [if_pos hr, clean_map, RepositoryDispatch.clean_read, hr]
    exact isTrigger_repositoryDispatch.symm
  rw [if_neg hr, isTrigger_webhook (by simpa using ⟨hs, hw, hr⟩), ← allowsWebhook_iff]
  -- only names of webhooks are left
  by_cases ha : policy.allowsWebhook hook.value = true
  · rw [if_pos ha, clean_map, WebhookTrigger.clean_read]
    exact (and_iff_right ha).symm
  · rw [if_neg ha]
    simp [ha]

theorem explained_read (policy : Policy) (hook : Text) (body : Option Node) :
    (read policy hook body).Explained := by
  unfold read
  split
  · exact explained_optionMap.mpr (ScheduleTrigger.explained_read _ _ _)
  · split
    · exact explained_optionMap.mpr (WorkflowDispatch.explained_read _ _ _)
    · split
      · exact explained_optionMap.mpr (RepositoryDispatch.explained_read _ _ _)
      · split
        · exact explained_optionMap.mpr (WebhookTrigger.explained_read _ _ _)
        · exact explained_refuse _ _

/-! ### All triggers -/

theorem clean_readItem :
    (readItem policy n).Clean ↔ ∃ name, n.text? = some name ∧ IsTrigger policy name none := by
  unfold readItem
  rw [Node.text?_eq_leaf?]
  rcases n.leaf? with - | hook
  · simp
  · simp [clean_read]

theorem explained_readItem (policy : Policy) (n : Node) : (readItem policy n).Explained := by
  unfold readItem
  split
  · exact explained_read _ _ _
  · exact explained_mismatch _ _ _

/-- The readers of one trigger share the work of all three spellings; only the mapping gives
them bodies. -/
@[simp] theorem clean_readList : (readList policy n).Clean ↔ IsTriggers policy n := by
  have hbodies : (Section.within listWhat n fun s =>
      some <$> Checked.collect (s.entries.map fun e => read policy e.key (some e.value))).Clean ↔
        n.IsFree fun name body => IsTrigger policy name (some body) := by
    refine Section.clean_within (fun h => h.1) fun s hn hs => ?_
    rw [clean_map, clean_collect, List.forall_mem_map]
    simp only [clean_read]
    rw [Section.forall_mem_entries (p := fun name body => IsTrigger policy name (some body))]
    simp only [hs]
    exact (and_iff_right hn).symm
  -- the kind of the node decides how the triggers are written
  rcases n with pos | ⟨text, plain, pos⟩ | ⟨items, pos⟩ | ⟨entries, pos⟩
  · refine hbodies.trans ⟨.bodies, ?_⟩
    rintro (⟨htext, -⟩ | ⟨_, hitems, -⟩ | hfree)
    · cases htext
    · cases hitems
    · exact hfree
  · rw [readList, clean_map, clean_read]
    refine ⟨.name rfl, ?_⟩
    rintro (⟨htext, hname⟩ | ⟨_, hitems, -⟩ | ⟨⟨_, hentries, -⟩, -⟩)
    · exact Option.some.inj htext ▸ hname
    · cases hitems
    · cases hentries
  · rw [readList, clean_map, clean_collect, List.forall_mem_map]
    simp only [clean_readItem]
    refine ⟨fun h => .names ⟨items, rfl, h⟩, ?_⟩
    rintro (⟨htext, -⟩ | ⟨_, hitems, hnames⟩ | ⟨⟨_, hentries, -⟩, -⟩)
    · cases htext
    · exact Option.some.inj hitems ▸ hnames
    · cases hentries
  · refine hbodies.trans ⟨.bodies, ?_⟩
    rintro (⟨htext, -⟩ | ⟨_, hitems, -⟩ | hfree)
    · cases htext
    · cases hitems
    · exact hfree

theorem accounts_readList (policy : Policy) (n : Node) :
    (readList policy n).Accounts n.size List.length := by
  have hbodies : (Section.within listWhat n fun s => some <$> Checked.collect
      (s.entries.map fun e => read policy e.key (some e.value))).Accounts n.size List.length := by
    refine Section.accounts_within fun s => ?_
    exact accounts_collect (fun e => explained_read policy e.key (some e.value)) s.entries
  rcases n with pos | ⟨text, plain, pos⟩ | ⟨items, pos⟩ | ⟨entries, pos⟩
  · exact hbodies
  · refine ⟨explained_optionMap.mpr (explained_read _ _ _), fun ts _ => Nat.zero_le _⟩
  · exact accounts_collect (explained_readItem policy) items
  · exact hbodies

end Trigger

end WorkflowTree
