import WorkflowTree.Proofs.Acceptance.Settings
import WorkflowTree.Proofs.Simulation.Similar
import WorkflowTree.Reading.Strategy

/-!
# Reading parts of a file that are related by a simulation

The readers of leaves, settings, containers, strategies and triggers: nodes that are related under
the schema of a part are read alike.  A reader that takes a section apart asks for the keys of its
schema one by one, and each value is read alike because it is related under the schema of its key.

A part that may be written in a short form is read alike in its long form, whatever the simulation
is.
-/

namespace WorkflowTree

open Checked Section Simulation

variable {α : Type} {always : Prop} {policy policy' : Policy} {s : Schema} {n n' : Node}
variable {σ : Simulation always policy policy'} {what expected owner : String} {e e' : Entry}

/-! ### Leaves -/

theorem transfers_readText (h : σ.Rel .any n n') :
    (readText what n).Transfers always (readText what n') := by
  have hsimilar := similar_any h
  unfold readText
  rw [hsimilar.leaf?]
  rcases n.leaf? with - | t
  · exact transfers_mismatch hsimilar _ _
  · exact transfers_of_eq rfl

theorem transfers_readPlain {read? : String → Option α} (h : σ.Rel .plain n n') :
    (readPlain read? expected what n).Transfers always (readPlain read? expected what n') := by
  have hsimilar : n.Similar always σ.Rel .plain n' := (σ.step h).resolve_left not_false
  intro hclean
  -- a word that is read is written without quotes, and so the other one is as well
  have hplain : always ∨ n.plain? ≠ none := by
    refine hclean.imp_right fun hclean hnone => ?_
    rw [readPlain, hnone] at hclean
    exact not_clean_mismatch n what expected hclean
  revert hclean
  unfold readPlain
  rw [hsimilar.plain? hplain, hsimilar.pos]
  rcases n.plain?.bind read? with - | a
  · exact transfers_mismatch hsimilar _ _
  · exact transfers_of_eq rfl

/-- Items are read one by one. -/
theorem transfers_items {read read' : Node → Checked (Option α)} (h : n.Similar always σ.Rel s n')
    (hread : ∀ i i', σ.Rel s.item i i' → (read i).Transfers always (read' i')) :
    (match n.items? with
      | some items => some <$> Checked.collect (items.map read)
      | none => mismatch n what expected : Checked (Option (List α))).Transfers always
    (match n'.items? with
      | some items => some <$> Checked.collect (items.map read')
      | none => mismatch n' what expected) := by
  obtain ⟨hn, hn'⟩ | ⟨items, items', hn, hn', hitems⟩ := optionRel_cases h.items?
  · rw [hn, hn']
    exact transfers_mismatch h what expected
  · rw [hn, hn']
    exact (transfers_collect hitems hread).map

theorem transfers_readTexts (h : n.Similar always σ.Rel s n') (hs : s.item = .any) :
    (readTexts what n).Transfers always (readTexts what n') :=
  transfers_items h fun _ _ hi => transfers_readText (hs ▸ hi)

theorem transfers_readTextList (h : σ.Rel .any n n') :
    (readTexts what n).Transfers always (readTexts what n') :=
  transfers_readTexts (similar_any h) rfl

/-- What is read as one text or as a list of texts. -/
theorem transfers_textOrTexts (what expected : String) :
    n.Similar always σ.Rel s n' → s.item = .any →
    (match n with
      | .scalar text _ pos => pure (some [⟨text, pos⟩])
      | .sequence _ _ => readTexts what n
      | _ => mismatch n what expected : Checked (Option (List Text))).Transfers always
    (match n' with
      | .scalar text _ pos => pure (some [⟨text, pos⟩])
      | .sequence _ _ => readTexts what n'
      | _ => mismatch n' what expected) := by
  intro h hs
  have hmismatch := transfers_mismatch (α := List Text) h what expected
  have htexts : (readTexts what n).Transfers always (readTexts what n') :=
    transfers_readTexts h hs
  cases h with
  | null pos => exact hmismatch
  | scalar text pos => exact transfers_of_eq rfl
  | sequence pos => exact htexts
  | mapping pos => exact hmismatch

theorem transfers_readTextOrTexts (h : σ.Rel .texts n n') :
    (readTextOrTexts what n).Transfers always (readTextOrTexts what n') := by
  obtain ⟨⟨text, htext⟩, pos, rfl⟩ | hsimilar := σ.step h
  · -- one text is read as the list of it
    cases n with
    | scalar => exact transfers_of_eq rfl
    | _ => cases htext
  · exact transfers_textOrTexts what _ hsimilar rfl

theorem Assignment.transfers_read (hkey : e.key = e'.key) (h : σ.Rel .any e.value e'.value) :
    (Assignment.read what e).Transfers always (Assignment.read what e') := by
  unfold Assignment.read
  rw [hkey]
  exact (transfers_readText h).map

/-- Texts under free keys. -/
theorem transfers_readAssignments (whatOf : Text → String) (h : σ.Rel .any n n') :
    (within what n fun s => some <$> s.collect fun e =>
      Assignment.read (whatOf e.key) e).Transfers always
    (within what n' fun s => some <$> s.collect fun e => Assignment.read (whatOf e.key) e) := by
  apply transfers_free (fun _ => .any) (similar_any h) (fun _ => rfl)
  intro e e' hkey hvalue
  rw [hkey]
  exact Assignment.transfers_read hkey hvalue

/-! ### Settings -/

theorem transfers_readEnv (h : σ.Rel .any n n') :
    (readEnv what n).Transfers always (readEnv what n') :=
  transfers_readAssignments (fun key => s!"value of env var \"{key.value}\" in {what}") h

theorem Permissions.transfers_readGrant (hkey : e.key = e'.key)
    (h : σ.Rel .any e.value e'.value) : (readGrant e).Transfers always (readGrant e') := by
  have hsimilar := similar_any h
  unfold readGrant
  rw [hsimilar.text?, hkey]
  rcases e.value.text?.bind Access.ofScopeWord? with - | access
  · exact transfers_mismatch hsimilar _ _
  · exact transfers_of_eq rfl

theorem Permissions.transfers_read (h : σ.Rel .any n n') :
    (Permissions.read owner n).Transfers always (Permissions.read owner n') := by
  have hsimilar := similar_any h
  have hmismatch := transfers_mismatch (α := Permissions) hsimilar
    s!"\"permissions\" in {owner}" Permissions.expected
  have hscopes : (within s!"\"permissions\" in {owner}" n fun s =>
        some <$> s.collect readGrant).Transfers always
      (within s!"\"permissions\" in {owner}" n' fun s => some <$> s.collect readGrant) :=
    transfers_free (fun _ => .any) hsimilar (fun _ => rfl) fun _ _ => transfers_readGrant
  cases hsimilar with
  | null pos => exact hmismatch
  | sequence pos => exact hmismatch
  | mapping pos => exact hscopes.map
  | scalar word pos =>
    simp only [Permissions.read]
    rcases Access.ofBlanketWord? word with - | access
    · exact hmismatch
    · exact transfers_of_eq rfl

theorem ScriptDefaults.transfers_read (h : σ.Rel ScriptDefaults.schema n n') :
    (ScriptDefaults.read policy n).Transfers always (ScriptDefaults.read policy' n') := by
  have hsimilar := (σ.step h).resolve_left not_false
  unfold ScriptDefaults.read
  rw [hsimilar.pos]
  apply transfers_within hsimilar
  intro sec sec' hs
  refine Transfers.map (transfers_fill σ hs (by simp [Form.keys]) ?_)
  refine .bindEq (transfers_field hs rfl fun _ _ => transfers_readText) fun shell => ?_
  refine .bindEq (transfers_field hs rfl fun _ _ => transfers_readText) fun workingDirectory => ?_
  exact .pure rfl

theorem Defaults.transfers_read (h : σ.Rel Defaults.schema n n') :
    (Defaults.read policy owner n).Transfers always (Defaults.read policy' owner n') := by
  have hsimilar := (σ.step h).resolve_left not_false
  unfold Defaults.read
  rw [hsimilar.pos]
  apply transfers_within hsimilar
  intro sec sec' hs
  refine Transfers.map (transfers_fill σ hs (by simp [Form.keys]) ?_)
  refine .bindEq (transfers_field hs rfl fun _ _ => ScriptDefaults.transfers_read) fun run => ?_
  exact .pure rfl

theorem Concurrency.transfers_read (h : σ.Rel Concurrency.schema n n') :
    (Concurrency.read policy owner n).Transfers always (Concurrency.read policy' owner n') := by
  rcases σ.step h with hlong | hsimilar
  · -- the long form is read to the end: it has the group, and nothing else
    obtain ⟨text, plain, pos, plain', pos', rfl, rfl⟩ := hlong.of_short
    exact transfers_of_eq rfl
  unfold Concurrency.read
  rw [hsimilar.leaf?, hsimilar.pos]
  -- two texts are the same text, and two mappings are read key by key
  rcases n.leaf? with - | group
  · apply transfers_within hsimilar
    intro sec sec' hs
    refine Transfers.bind (transfers_fill σ hs (by simp [Form.keys]) ?_) fun fields => ?_
    · refine .bindEq (transfers_field hs rfl fun _ _ => transfers_readText) fun group => ?_
      refine .bindEq (transfers_field hs rfl fun _ _ => transfers_readPlain) fun cancels => ?_
      exact .pure rfl
    · exact (transfers_require hs _ _).bind fun group => .pure rfl
  · exact transfers_of_eq rfl

theorem Environment.transfers_read (h : σ.Rel Environment.schema n n') :
    (Environment.read policy what n).Transfers always (Environment.read policy' what n') := by
  rcases σ.step h with hlong | hsimilar
  · obtain ⟨text, plain, pos, plain', pos', rfl, rfl⟩ := hlong.of_short
    exact transfers_of_eq rfl
  unfold Environment.read
  rw [hsimilar.leaf?, hsimilar.pos]
  rcases n.leaf? with - | name
  · apply transfers_within hsimilar
    intro sec sec' hs
    refine Transfers.bind (transfers_fill σ hs (by simp [Form.keys]) ?_) fun fields => ?_
    · refine .bindEq (transfers_field hs rfl fun _ _ => transfers_readText) fun name => ?_
      refine .bindEq (transfers_field hs rfl fun _ _ => transfers_readText) fun url => ?_
      exact .pure rfl
    · exact (transfers_require hs _ _).bind fun name => .pure rfl
  · exact transfers_of_eq rfl

/-! ### Containers -/

theorem Credentials.transfers_read (h : σ.Rel Credentials.schema n n') :
    (Credentials.read policy what n).Transfers always (Credentials.read policy' what n') := by
  have hsimilar := (σ.step h).resolve_left not_false
  unfold Credentials.read
  rw [hsimilar.pos]
  apply transfers_within hsimilar
  intro sec sec' hs
  refine Transfers.bind (transfers_fill σ hs (by simp [Form.keys]) ?_) fun fields => ?_
  · refine .bindEq (transfers_field hs rfl fun _ _ => transfers_readText) fun username => ?_
    refine .bindEq (transfers_field hs rfl fun _ _ => transfers_readText) fun password => ?_
    exact .pure rfl
  · refine (transfers_require hs _ _).bind fun username => ?_
    exact (transfers_require hs _ _).bind fun password => .pure rfl

theorem Container.transfers_readFields {sec sec' : Section} {pos : Position}
    (hs : σ.Sections Container.schema sec sec') :
    (readFields policy what sec pos).TransfersBy always sec Eq
      (readFields policy' what sec' pos) := by
  refine .bindEq (transfers_field hs rfl fun _ _ => transfers_readText) fun image => ?_
  refine .bindEq (transfers_field hs rfl fun _ _ => Credentials.transfers_read) fun account => ?_
  refine .bindEq (transfers_field hs rfl fun _ _ => transfers_readEnv) fun env => ?_
  refine .bindEq (transfers_field hs rfl fun _ _ => transfers_readTextList) fun ports => ?_
  refine .bindEq (transfers_field hs rfl fun _ _ => transfers_readTextList) fun volumes => ?_
  refine .bindEq (transfers_field hs rfl fun _ _ => transfers_readText) fun options => ?_
  exact .pure rfl

theorem Container.transfers_read (h : σ.Rel Container.schema n n') :
    (Container.read policy what n).Transfers always (Container.read policy' what n') := by
  rcases σ.step h with hlong | hsimilar
  · obtain ⟨text, plain, pos, plain', pos', rfl, rfl⟩ := hlong.of_short
    exact transfers_of_eq rfl
  unfold Container.read
  rw [hsimilar.leaf?, hsimilar.pos]
  rcases n.leaf? with - | image
  · apply transfers_within hsimilar
    intro sec sec' hs
    refine Transfers.bind (transfers_fill σ hs (nodup_readFields ..) ?_) fun fields => ?_
    · exact transfers_readFields hs
    · exact (transfers_require hs _ _).bind fun image => .pure rfl
  · exact transfers_of_eq rfl

theorem transfers_readServices (h : σ.Rel (.free fun _ => Container.schema) n n') :
    (readServices policy what n).Transfers always (readServices policy' what n') := by
  apply transfers_free _ ((σ.step h).resolve_left not_false) fun _ => rfl
  intro e e' hkey hvalue
  rw [hkey]
  exact (Container.transfers_read hvalue).map

/-! ### Strategies -/

namespace Matrix

theorem transfers_readCombination (h : σ.Rel .any n n') :
    (readCombination what n).Transfers always (readCombination what n') :=
  transfers_readAssignments (fun key => s!"value of \"{key.value}\" in {what}") h

theorem transfers_readPart (hkey : e.key = e'.key) (h : σ.Rel .any e.value e'.value) :
    (readPart e).Transfers always (readPart e') := by
  unfold readPart readRow
  rw [hkey]
  split
  · exact (transfers_items (similar_any h) fun _ _ => transfers_readCombination).map
  · exact (transfers_readTextList h).map.map

theorem transfers_read (h : σ.Rel .any n n') :
    (Matrix.read n).Transfers always (Matrix.read n') := by
  have hsimilar := similar_any h
  have hparts : (readParts n).Transfers always (readParts n') :=
    transfers_free (fun _ => .any) hsimilar (fun _ => rfl) fun _ _ => transfers_readPart
  unfold Matrix.read
  rw [hsimilar.pos]
  exact hparts.map

end Matrix

theorem Strategy.transfers_read (h : σ.Rel Strategy.schema n n') :
    (Strategy.read policy what n).Transfers always (Strategy.read policy' what n') := by
  have hsimilar := (σ.step h).resolve_left not_false
  unfold Strategy.read
  rw [hsimilar.pos]
  apply transfers_within hsimilar
  intro sec sec' hs
  refine Transfers.map (transfers_fill σ hs (by simp [Form.keys]) ?_)
  refine .bindEq (transfers_field hs rfl fun _ _ => Matrix.transfers_read) fun matrix => ?_
  refine .bindEq (transfers_field hs rfl fun _ _ => transfers_readPlain) fun failFast => ?_
  refine .bindEq (transfers_field hs rfl fun _ _ => transfers_readPlain) fun maxParallel => ?_
  exact .pure rfl

/-! ### Triggers -/

section Body

variable {body body' : Option Node} {pos : Position} {hook : Text}

theorem WebhookTrigger.transfers_read (h : Option.Rel (σ.Rel WebhookTrigger.schema) body body') :
    (WebhookTrigger.read policy hook body).Transfers always
      (WebhookTrigger.read policy' hook body') := by
  apply transfers_withinBody h fun _ _ => not_false
  intro sec sec' hs
  refine Transfers.map (transfers_fill σ hs (by simp [Form.keys]) ?_)
  refine .bindEq (transfers_field hs rfl fun _ _ => transfers_readTextOrTexts) fun types => ?_
  refine .bindEq (transfers_field hs rfl fun _ _ => transfers_readTextOrTexts) fun branches => ?_
  refine .bindEq (transfers_field hs rfl fun _ _ => transfers_readTextOrTexts) fun branches' => ?_
  refine .bindEq (transfers_field hs rfl fun _ _ => transfers_readTextOrTexts) fun tags => ?_
  refine .bindEq (transfers_field hs rfl fun _ _ => transfers_readTextOrTexts) fun tags' => ?_
  refine .bindEq (transfers_field hs rfl fun _ _ => transfers_readTextOrTexts) fun paths => ?_
  refine .bindEq (transfers_field hs rfl fun _ _ => transfers_readTextOrTexts) fun paths' => ?_
  refine .bindEq (transfers_field hs rfl fun _ _ => transfers_readTextOrTexts) fun workflows => ?_
  exact .pure rfl

theorem ScheduleTrigger.transfers_readTime (h : σ.Rel ScheduleTrigger.timeSchema n n') :
    (readTime policy n).Transfers always (readTime policy' n') := by
  have hsimilar := (σ.step h).resolve_left not_false
  unfold readTime
  rw [hsimilar.pos]
  apply transfers_within hsimilar
  intro sec sec' hs
  refine Transfers.bind (transfers_fill σ hs (by simp [Form.keys]) ?_) fun cron => ?_
  · exact transfers_field hs rfl fun _ _ => transfers_readText
  · exact transfers_require hs _ _

theorem ScheduleTrigger.transfers_read
    (h : Option.Rel (σ.Rel (.items ScheduleTrigger.timeSchema)) body body') :
    (ScheduleTrigger.read policy pos body).Transfers always
      (ScheduleTrigger.read policy' pos body') := by
  unfold ScheduleTrigger.read
  cases h with
  | none => exact transfers_of_eq rfl
  | @some n n' hn =>
    have hsimilar := (σ.step hn).resolve_left not_false
    obtain ⟨hitems, hitems'⟩ | ⟨items, items', hitems, hitems', hrel⟩ :=
      optionRel_cases hsimilar.items?
    · simp only [hitems, hitems']
      exact transfers_mismatch hsimilar _ _
    · simp only [hitems, hitems']
      refine Transfers.bind (transfers_collect hrel fun _ _ => transfers_readTime) fun cron => ?_
      exact .pure rfl

theorem DispatchInput.transfers_read (hkey : e.key = e'.key)
    (h : σ.Rel DispatchInput.schema e.value e'.value) :
    (DispatchInput.read policy e).Transfers always (DispatchInput.read policy' e') := by
  unfold DispatchInput.read
  rw [hkey]
  apply transfers_withinBody (.some h) fun _ _ => not_false
  intro sec sec' hs
  refine Transfers.map (transfers_fill σ hs (by simp [Form.keys]) ?_)
  refine .bindEq (transfers_field hs rfl fun _ _ => transfers_readText) fun description => ?_
  refine .bindEq (transfers_field hs rfl fun _ _ => transfers_readPlain) fun required => ?_
  refine .bindEq (transfers_field hs rfl fun _ _ => transfers_readText) fun fallback => ?_
  refine .bindEq (transfers_field hs rfl fun _ _ => transfers_readText) fun type => ?_
  refine .bindEq (transfers_field hs rfl fun _ _ => transfers_readTextList) fun options => ?_
  exact .pure rfl

theorem WorkflowDispatch.transfers_readInputs
    (h : σ.Rel (.free fun _ => DispatchInput.schema) n n') :
    (readInputs policy n).Transfers always (readInputs policy' n') :=
  transfers_free _ ((σ.step h).resolve_left not_false) (fun _ => rfl)
    fun _ _ => DispatchInput.transfers_read

theorem WorkflowDispatch.transfers_read
    (h : Option.Rel (σ.Rel WorkflowDispatch.schema) body body') :
    (WorkflowDispatch.read policy pos body).Transfers always
      (WorkflowDispatch.read policy' pos body') := by
  apply transfers_withinBody h fun _ _ => not_false
  intro sec sec' hs
  refine Transfers.map (transfers_fill σ hs (by simp [Form.keys]) ?_)
  refine .bindEq (transfers_field hs rfl fun _ _ => transfers_readInputs) fun inputs => ?_
  exact .pure rfl

theorem RepositoryDispatch.transfers_read
    (h : Option.Rel (σ.Rel RepositoryDispatch.schema) body body') :
    (RepositoryDispatch.read policy pos body).Transfers always
      (RepositoryDispatch.read policy' pos body') := by
  apply transfers_withinBody h fun _ _ => not_false
  intro sec sec' hs
  refine Transfers.map (transfers_fill σ hs (by simp [Form.keys]) ?_)
  refine .bindEq (transfers_field hs rfl fun _ _ => transfers_readTextOrTexts) fun types => ?_
  exact .pure rfl

namespace Trigger

/-- A webhook is refused alike or allowed alike. -/
theorem transfers_hook (h : Option.Rel (σ.Rel WebhookTrigger.schema) body body')
    (hreserved : hook.value ∉ reservedNames) :
    (if policy.allowsWebhook hook.value then
        Option.map webhook <$> WebhookTrigger.read policy hook body
      else .refuse (.shape what expected s!"unknown event \"{hook.value}\"") hook.pos :
      Checked (Option Trigger)).Transfers always
    (if policy'.allowsWebhook hook.value then
        Option.map webhook <$> WebhookTrigger.read policy' hook body'
      else .refuse (.shape what expected s!"unknown event \"{hook.value}\"") hook.pos) := by
  rcases hallows : policy.allowsWebhook hook.value with - | -
  · -- nothing is said of what the other policy allows, unless `always` is true
    rintro (halways | hclean)
    · rw [σ.webhooks _ hreserved (.inl halways), hallows]
      exact ⟨rfl, rfl⟩
    · exact absurd hclean (not_clean_refuse _ _)
  · rw [σ.webhooks _ hreserved (.inr hallows), hallows]
    exact (WebhookTrigger.transfers_read h).map

/-- Names that are reserved are never looked up among the webhooks. -/
theorem transfers_read (h : Option.Rel (σ.Rel (Trigger.schema hook.value)) body body') :
    (Trigger.read policy hook body).Transfers always (Trigger.read policy' hook body') := by
  unfold Trigger.schema at h
  unfold Trigger.read
  by_cases hschedule : hook.value = scheduleName
  · rw [if_pos hschedule] at h ⊢
    rw [if_pos hschedule]
    exact (ScheduleTrigger.transfers_read h).map
  by_cases hmanual : hook.value = workflowDispatchName
  · rw [if_neg hschedule, if_pos hmanual] at h ⊢
    rw [if_neg hschedule, if_pos hmanual]
    exact (WorkflowDispatch.transfers_read h).map
  by_cases hremote : hook.value = repositoryDispatchName
  · rw [if_neg hschedule, if_neg hmanual, if_pos hremote] at h ⊢
    rw [if_neg hschedule, if_neg hmanual, if_pos hremote]
    exact (RepositoryDispatch.transfers_read h).map
  rw [if_neg hschedule, if_neg hmanual, if_neg hremote] at h ⊢
  rw [if_neg hschedule, if_neg hmanual, if_neg hremote]
  exact transfers_hook h (by simp [reservedNames, hschedule, hmanual, hremote])

/-- A trigger that is written as its name alone. -/
theorem transfers_readName (σ : Simulation always policy policy') (hook : Text) :
    (Trigger.read policy hook none).Transfers always (Trigger.read policy' hook none) :=
  transfers_read (.none : Option.Rel (σ.Rel _) none none)

theorem transfers_readItem (h : σ.Rel .any n n') :
    (readItem policy n).Transfers always (readItem policy' n') := by
  have hsimilar := similar_any h
  unfold readItem
  rw [hsimilar.leaf?]
  rcases n.leaf? with - | hook
  · exact transfers_mismatch hsimilar _ _
  · exact transfers_readName σ hook

theorem transfers_readList (h : σ.Rel Trigger.listSchema n n') :
    (readList policy n).Transfers always (readList policy' n') := by
  have hsimilar := (σ.step h).resolve_left not_false
  have hbodies : (within listWhat n fun sec => some <$> Checked.collect
        (sec.entries.map fun e => read policy e.key (some e.value))).Transfers always
      (within listWhat n' fun sec => some <$> Checked.collect
        (sec.entries.map fun e => read policy' e.key (some e.value))) := by
    apply transfers_within hsimilar
    intro sec sec' hs
    refine Transfers.map (transfers_collect hs fun e e' he => ?_)
    rw [he.key]
    exact transfers_read (.some (he.value _ (he.key ▸ rfl)))
  cases hsimilar with
  | null pos => exact hbodies
  | mapping pos => exact hbodies
  | scalar text pos => exact (transfers_readName σ ⟨text, pos⟩).map
  | sequence pos hitems => exact (transfers_collect hitems fun _ _ => transfers_readItem).map

end Trigger

end Body

end WorkflowTree
