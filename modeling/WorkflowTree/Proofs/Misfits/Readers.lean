import WorkflowTree.Proofs.Acceptance.Settings
import WorkflowTree.Proofs.Acceptance.Trigger
import WorkflowTree.Proofs.Misfits.Form

/-!
# Misfits that readers find

What the readers of leaves, settings, containers and triggers find: the misfits of the sites of what
they read, and nothing where there is no site.
-/

namespace WorkflowTree

open Checked Problem Section

variable {α : Type} {n : Node} {what key owner : String} {policy : Policy} {pos : Position}
variable {hook : Text} {body : Option Node} {e : Entry}

/-! ### Leaves -/

theorem finds_readText (what : String) (n : Node) : (readText what n).Finds [] := by
  unfold readText
  split
  · exact finds_pure _
  · exact finds_mismatch _ _ _

theorem finds_readPlain (read? : String → Option α) (expected what : String) (n : Node) :
    (readPlain read? expected what n).Finds [] := by
  unfold readPlain
  split
  · exact finds_pure _
  · exact finds_mismatch _ _ _

theorem finds_readFlag (what : String) (n : Node) : (readFlag what n).Finds [] :=
  finds_readPlain _ _ what n

theorem finds_readMinutes (what : String) (n : Node) : (readMinutes what n).Finds [] :=
  finds_readPlain _ _ what n

theorem finds_readTexts (what : String) (n : Node) : (readTexts what n).Finds [] := by
  unfold readTexts
  split
  · exact (finds_collect_nil fun item _ => finds_readText _ item).map
  · exact finds_mismatch _ _ _

theorem finds_readTextOrTexts (what : String) (n : Node) :
    (readTextOrTexts what n).Finds [] := by
  unfold readTextOrTexts
  split
  · exact finds_pure _
  · exact finds_readTexts what _
  · exact finds_mismatch _ _ _

theorem Assignment.finds_read (what : String) (e : Entry) : (Assignment.read what e).Finds [] :=
  (finds_readText what e.value).map

/-! ### Settings -/

theorem finds_readEnv (what : String) (n : Node) : (readEnv what n).Finds [] :=
  finds_free fun e => Assignment.finds_read _ e

theorem Permissions.finds_readGrant (e : Entry) : (readGrant e).Finds [] := by
  unfold readGrant
  split
  · exact finds_pure _
  · exact finds_mismatch _ _ _

theorem Permissions.finds_read (owner : String) (n : Node) :
    (Permissions.read owner n).Finds [] := by
  unfold Permissions.read
  dsimp only
  split
  · split
    · exact finds_pure _
    · exact finds_mismatch _ _ _
  · exact (finds_free finds_readGrant).map
  · exact finds_mismatch _ _ _

theorem ScriptDefaults.finds_read (policy : Policy) (n : Node) :
    (ScriptDefaults.read policy n).Finds [] := by
  refine finds_within (fun _ => rfl) fun s _ => finds_filled (by simp [Form.keys]) ?_
  refine (findsIn_field (finds_readText _)).last ?_
  exact (findsIn_field (finds_readText _)).last (Form.findsIn_pure _)

theorem Defaults.finds_read (policy : Policy) (owner : String) (n : Node) :
    (Defaults.read policy owner n).Finds [] := by
  refine finds_within (fun _ => rfl) fun s _ => finds_filled (by simp [Form.keys]) ?_
  exact (findsIn_field (ScriptDefaults.finds_read policy)).last (Form.findsIn_pure _)

/-- What has a short form has no site there. -/
theorem findsAt_leafOr {short : Text → α} {c : Checked (Option α)} {sites : List Site}
    (h : c.FindsAt (n.ifMapping sites)) : (match n.leaf? with
      | some t => pure (some (short t))
      | none => c : Checked (Option α)).FindsAt (n.ifMapping sites) := by
  rcases n with _ | _ | _ | _
  · exact h
  · exact finds_pure _
  · exact h
  · exact h

theorem Concurrency.findsAt_read (policy : Policy) (owner : String) (n : Node) :
    (Concurrency.read policy owner n).FindsAt (Concurrency.sites owner n) := by
  refine findsAt_leafOr (findsAt_within fun s hs => findsAt_cons rfl ?_)
  refine (finds_fill (by simp [Form.keys]) ?_).bind ?_
  · refine (findsIn_field (finds_readText _)).last ?_
    exact (findsIn_field (finds_readFlag _)).last (Form.findsIn_pure _)
  · exact (finds_require hs value_field_of_none).last (finds_pure _)

theorem Environment.findsAt_read (policy : Policy) (what : String) (n : Node) :
    (Environment.read policy what n).FindsAt (Environment.sites what n) := by
  refine findsAt_leafOr (findsAt_within fun s hs => findsAt_cons rfl ?_)
  refine (finds_fill (by simp [Form.keys]) ?_).bind ?_
  · refine (findsIn_field (finds_readText _)).last ?_
    exact (findsIn_field (finds_readText _)).last (Form.findsIn_pure _)
  · exact (finds_require hs value_field_of_none).last (finds_pure _)

/-! ### Containers -/

theorem Credentials.findsAt_read (policy : Policy) (what : String) (n : Node) :
    (Credentials.read policy what n).FindsAt (Credentials.sites what n) := by
  refine findsAt_within fun s hs => findsAt_cons rfl ?_
  refine (finds_fill (by simp [Form.keys]) ?_).bind ?_
  · refine (findsIn_field (finds_readText _)).last ?_
    exact (findsIn_field (finds_readText _)).last (Form.findsIn_pure _)
  · rw [Site.missing, Site.lacking_pair]
    refine (finds_require hs value_field_of_none).bind ?_
    exact (finds_require hs value_field_of_none).last (finds_pure _)

/-- Of the keys of a container one leads to another site. -/
theorem Container.findsIn_readFields {s : Section} (hs : s.HoldsFirsts n) (policy : Policy)
    (what : String) (pos : Position) : (readFields policy what s pos).FindsIn s
      ((n.under "credentials" (Credentials.sites s!"\"credentials\" in {what}")).flatMap
        Site.misfits) := by
  refine (findsIn_field (finds_readText _)).bind ?_
  refine (findsIn_fieldAt hs (Credentials.findsAt_read policy _)).last ?_
  refine (findsIn_field (finds_readEnv _)).last ?_
  refine (findsIn_field (finds_readTexts _)).last ?_
  refine (findsIn_field (finds_readTexts _)).last ?_
  exact (findsIn_field (finds_readText _)).last (Form.findsIn_pure _)

theorem Container.findsAt_read (policy : Policy) (what : String) (n : Node) :
    (Container.read policy what n).FindsAt (Container.sites what n) := by
  refine findsAt_leafOr (findsAt_within fun s hs => findsAt_cons rfl ?_)
  refine (finds_fill (nodup_readFields ..) (findsIn_readFields hs policy what n.pos)).bind ?_
  exact (finds_require hs value_field_of_none).last (finds_pure _)

theorem findsAt_readServices (policy : Policy) (what : String) (n : Node) :
    (readServices policy what n).FindsAt (servicesSites n) :=
  findsAt_free fun e => (Container.findsAt_read policy _ e.value).map

/-! ### Strategies -/

namespace Matrix

theorem finds_readCombination (what : String) (n : Node) : (readCombination what n).Finds [] :=
  finds_free fun e => Assignment.finds_read _ e

theorem finds_readCombinations (key : String) (n : Node) : (readCombinations key n).Finds [] := by
  unfold readCombinations
  dsimp only
  split
  · exact (finds_collect_nil fun item _ => finds_readCombination _ item).map
  · exact finds_mismatch _ _ _

theorem finds_readPart (e : Entry) : (readPart e).Finds [] := by
  unfold readPart
  split
  · exact (finds_readCombinations _ _).map
  · exact ((finds_readTexts _ _).map).map

theorem finds_read (n : Node) : (Matrix.read n).Finds [] :=
  (finds_free finds_readPart).map

end Matrix

theorem Strategy.finds_read (policy : Policy) (what : String) (n : Node) :
    (Strategy.read policy what n).Finds [] := by
  refine finds_within (fun _ => rfl) fun s _ => finds_filled (by simp [Form.keys]) ?_
  refine (findsIn_field Matrix.finds_read).last ?_
  refine (findsIn_field (finds_readFlag _)).last ?_
  exact (findsIn_field (finds_readPlain _ _ _)).last (Form.findsIn_pure _)

/-! ### Triggers -/

/-- The mapping that belongs to a trigger is no site, whether or not it is there. -/
theorem finds_withinBody {k : Section → Checked (Option α)} (h : ∀ s, (k s).Finds []) :
    (withinBody what body k).Finds [] := by
  unfold withinBody
  split
  · exact h .empty
  · exact finds_within (fun _ => rfl) fun s _ => h s

theorem WebhookTrigger.finds_read (policy : Policy) (hook : Text) (body : Option Node) :
    (WebhookTrigger.read policy hook body).Finds [] := by
  refine finds_withinBody fun s => finds_filled (by simp [Form.keys]) ?_
  refine (findsIn_field (finds_readTextOrTexts _)).last ?_
  refine (findsIn_field (finds_readTextOrTexts _)).last ?_
  refine (findsIn_field (finds_readTextOrTexts _)).last ?_
  refine (findsIn_field (finds_readTextOrTexts _)).last ?_
  refine (findsIn_field (finds_readTextOrTexts _)).last ?_
  refine (findsIn_field (finds_readTextOrTexts _)).last ?_
  refine (findsIn_field (finds_readTextOrTexts _)).last ?_
  exact (findsIn_field (finds_readTextOrTexts _)).last (Form.findsIn_pure _)

theorem DispatchInput.finds_read (policy : Policy) (e : Entry) :
    (DispatchInput.read policy e).Finds [] := by
  refine finds_withinBody fun s => finds_filled (by simp [Form.keys]) ?_
  refine (findsIn_field (finds_readText _)).last ?_
  refine (findsIn_field (finds_readFlag _)).last ?_
  refine (findsIn_field (finds_readText _)).last ?_
  refine (findsIn_field (finds_readText _)).last ?_
  exact (findsIn_field (finds_readTexts _)).last (Form.findsIn_pure _)

theorem WorkflowDispatch.finds_read (policy : Policy) (pos : Position) (body : Option Node) :
    (WorkflowDispatch.read policy pos body).Finds [] := by
  have hinputs : ∀ n : Node, (readInputs policy n).Finds [] :=
    fun n => finds_free (DispatchInput.finds_read policy)
  refine finds_withinBody fun s => finds_filled (by simp [Form.keys]) ?_
  exact (findsIn_field hinputs).last (Form.findsIn_pure _)

theorem RepositoryDispatch.finds_read (policy : Policy) (pos : Position) (body : Option Node) :
    (RepositoryDispatch.read policy pos body).Finds [] := by
  refine finds_withinBody fun s => finds_filled (by simp [Form.keys]) ?_
  exact (findsIn_field (finds_readTextOrTexts _)).last (Form.findsIn_pure _)

namespace ScheduleTrigger

theorem findsAt_readTime (policy : Policy) (n : Node) :
    (readTime policy n).FindsAt (timeSites n) := by
  refine findsAt_within fun s hs => findsAt_cons rfl ?_
  refine (finds_fill (by simp [Form.keys]) (findsIn_field (finds_readText _))).bind ?_
  exact finds_require hs value_field_of_none

theorem findsAt_read (policy : Policy) (hook : Text) (hschedule : hook.value = "schedule")
    (body : Option Node) :
    (ScheduleTrigger.read policy hook.pos body).FindsAt (Trigger.sites hook body) := by
  unfold Trigger.sites ScheduleTrigger.read
  rw [if_pos hschedule]
  rcases body with - | n
  · exact .refl _
  · dsimp only [Option.elim_some]
    rcases n.items? with - | items
    · exact finds_mismatch _ _ _
    · exact Finds.last (findsAt_collect fun item _ => findsAt_readTime policy item)
        (finds_pure _)

end ScheduleTrigger

namespace Trigger

theorem findsAt_read (policy : Policy) (hook : Text) (body : Option Node) :
    (Trigger.read policy hook body).FindsAt (Trigger.sites hook body) := by
  unfold Trigger.read
  split
  · next hschedule =>
    exact (ScheduleTrigger.findsAt_read policy hook hschedule body).map
  · next hother =>
    -- no other trigger has a site
    have hsites : Trigger.sites hook body = [] := if_neg hother
    rw [hsites]
    split
    · exact (WorkflowDispatch.finds_read policy hook.pos body).map
    · split
      · exact (RepositoryDispatch.finds_read policy hook.pos body).map
      · split
        · exact (WebhookTrigger.finds_read policy hook body).map
        · exact finds_refuse rfl

theorem findsAt_readItem (policy : Policy) (n : Node) :
    (readItem policy n).FindsAt (n.leaf?.elim [] (sites · none)) := by
  unfold readItem
  rcases n.leaf? with - | hook
  · exact finds_mismatch _ _ _
  · exact findsAt_read policy hook none

theorem findsAt_readList (policy : Policy) (n : Node) :
    (readList policy n).FindsAt (listSites n) := by
  have hbodies : (within listWhat n fun s => some <$> Checked.collect
        (s.entries.map fun e => read policy e.key (some e.value))).FindsAt
      (n.firstEntries.flatMap fun e => sites e.key (some e.value)) := by
    apply finds_within
    · intro hother
      rw [Node.firstEntries_of_not_isMapping hother]
      rfl
    · intro s hs
      rw [← hs.entries]
      exact Finds.map (findsAt_collect fun e _ => findsAt_read policy e.key (some e.value))
  rcases n with pos | ⟨text, plain, pos⟩ | ⟨items, pos⟩ | ⟨entries, pos⟩
  · exact hbodies
  · exact Finds.map (findsAt_read policy ⟨text, pos⟩ none)
  · exact Finds.map (findsAt_collect fun item _ => findsAt_readItem policy item)
  · exact hbodies

end Trigger

end WorkflowTree
