import WorkflowTree.Proofs.Simulation.Workflow

/-!
# Allowing more webhooks

A policy may allow webhooks besides the known ones.  If it allows more of them, no trigger that was
accepted is read in another way: what is accepted stays accepted with the same workflow.  Names that
are built in need not be allowed, and allowing them does not change anything
(`Workflow.parse_withEvents`).
-/

namespace WorkflowTree

variable {policy : Policy} {names : List String} {name : String}

namespace Policy

/-- The policy that allows these webhooks besides the known ones. -/
def withEvents (policy : Policy) (names : List String) : Policy :=
  { policy with extraWebhookEvents := names }

/-- The name is built in: a known webhook has it, or a trigger that is no webhook. -/
def IsBuiltIn (name : String) : Prop := name ∈ webhookNames ∨ name ∈ Trigger.reservedNames

theorem allowsWebhook_withEvents (h : ∀ name ∈ policy.extraWebhookEvents, name ∈ names)
    (hname : policy.allowsWebhook name = true) :
    (policy.withEvents names).allowsWebhook name = true :=
  allowsWebhook_iff.mpr ((allowsWebhook_iff.mp hname).imp_right (h name))

/-- Names that are built in add no webhook. -/
theorem allowsWebhook_withEvents_eq (h : ∀ name ∈ policy.extraWebhookEvents, name ∈ names)
    (hadded : ∀ name ∈ names, name ∈ policy.extraWebhookEvents ∨ IsBuiltIn name)
    (hname : name ∉ Trigger.reservedNames) :
    (policy.withEvents names).allowsWebhook name = policy.allowsWebhook name := by
  rw [Bool.eq_iff_iff]
  refine ⟨fun hallows => ?_, allowsWebhook_withEvents h⟩
  rcases allowsWebhook_iff.mp hallows with hknown | hextra
  · exact allowsWebhook_iff.mpr (.inl hknown)
  · rcases hadded name hextra with hold | hknown | hreserved
    · exact allowsWebhook_iff.mpr (.inr hold)
    · exact allowsWebhook_iff.mpr (.inl hknown)
    · exact absurd hreserved hname

end Policy

namespace Workflow

open Policy

/-- **More webhooks**: let a policy allow all webhooks that another one allows, and perhaps more.
What the other one accepts it accepts with the same workflow.  If the names that it adds are built
in, it gives the same for every node, the problems included. -/
theorem parse_withEvents (policy : Policy) (names : List String) (root : Node)
    (h : ∀ name ∈ policy.extraWebhookEvents, name ∈ names) :
    (∀ w, parse policy root = .ok w → parse (policy.withEvents names) root = .ok w) ∧
    ((∀ name ∈ names, name ∈ policy.extraWebhookEvents ∨ IsBuiltIn name) →
      parse (policy.withEvents names) root = parse policy root) := by
  constructor
  · intro w hw
    -- in a file that is accepted no event is refused, so that only allowed webhooks count
    have hallowed : ∀ name, name ∉ Trigger.reservedNames →
        False ∨ policy.allowsWebhook name = true →
        (policy.withEvents names).allowsWebhook name = policy.allowsWebhook name := by
      intro name _ hallows
      have hold := hallows.resolve_left not_false
      rw [hold, allowsWebhook_withEvents h hold]
    let σ : Simulation False policy (policy.withEvents names) := .same rfl hallowed
    have hroot : σ.Rel Workflow.schema root root := rfl
    exact parse_eq_ok_of_transfers (transfers_read hroot) hw
  · intro hadded
    let σ : Simulation True policy (policy.withEvents names) :=
      .same rfl fun name hname _ => allowsWebhook_withEvents_eq h hadded hname
    have hroot : σ.Rel Workflow.schema root root := rfl
    exact parse_of_transfers rfl (transfers_read hroot)

/-- A workflow without jobs that two webhooks trigger. -/
def hooked : Node :=
  .mapping [
    (.scalar "on" true ⟨1, 1⟩, .sequence [.scalar "push" true ⟨1, 6⟩,
      .scalar "deploy_key" true ⟨1, 12⟩] ⟨1, 5⟩),
    (.scalar "jobs" true ⟨2, 1⟩, .mapping [] ⟨2, 7⟩)] ⟨1, 1⟩

/-- One of the webhooks has to be allowed.  Allowing a known one or a schedule as well does not
matter, whether it is or not. -/
theorem parse_hooked :
    (∃ w, parse { extraWebhookEvents := ["deploy_key"] } hooked = .ok w ∧
      parse { extraWebhookEvents := ["fork", "deploy_key"] } hooked = .ok w) ∧
    (∃ ps, parse {} hooked = .error ps) ∧
    parse { extraWebhookEvents := ["push", "schedule"] } hooked = parse {} hooked := by
  have haccepted : ∃ w, parse { extraWebhookEvents := ["deploy_key"] } hooked = .ok w := ⟨_, rfl⟩
  obtain ⟨w, hw⟩ := haccepted
  have hmore := parse_withEvents { extraWebhookEvents := ["deploy_key"] } ["fork", "deploy_key"]
    hooked (by simp)
  have hsame := parse_withEvents {} ["push", "schedule"] hooked (by simp)
  refine ⟨⟨w, hw, hmore.1 w hw⟩, ⟨_, rfl⟩, hsame.2 ?_⟩
  simp [IsBuiltIn, webhookNames, Trigger.reservedNames, Trigger.scheduleName]

end Workflow

end WorkflowTree
