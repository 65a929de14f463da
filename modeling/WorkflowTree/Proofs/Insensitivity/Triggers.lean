import WorkflowTree.Proofs.Independence.Workflow
import WorkflowTree.Proofs.Meaning.WellFormed

/-!
# Triggers without bodies

Triggers without bodies may be written in three ways: one name alone, a sequence of names, or a
mapping whose values say nothing.  Which names a node spells is said by `Node.Spells`, of the node
alone.

A body that says nothing is read as if it were left out, except for that of a schedule
(`Trigger.read_of_isVoid`, `Trigger.read_schedule`).  So the triggers that are read of a node are
those of the names that it spells (`Trigger.readList_of_spells`).
-/

namespace WorkflowTree

open Checked

variable {α : Type} {policy : Policy} {what : String} {n v v' : Node} {names : List Text}

/-! ### Names without bodies -/

/-- A body that says nothing: no value, or a mapping without entries. -/
inductive Node.IsVoid : Node → Prop
  | null (pos : Position) : IsVoid (.null pos)
  | empty (pos : Position) : IsVoid (.mapping [] pos)

/-- An entry has this name as its key, and its value says nothing. -/
def Node.NamesOnly (kv : Node × Node) (name : Text) : Prop := MeansText kv.1 name ∧ kv.2.IsVoid

/-- A node spells names: one name alone, a sequence of them, or a mapping that says nothing of
them. -/
inductive Node.Spells (names : List Text) : Node → Prop
  | name {text : String} {plain : Bool} {pos : Position} : names = [⟨text, pos⟩] →
      Spells names (.scalar text plain pos)
  | items {items : List Node} {pos : Position} : List.Forall₂ MeansText items names →
      Spells names (.sequence items pos)
  | keys {entries : List (Node × Node)} {pos : Position} :
      List.Forall₂ Node.NamesOnly entries names → Spells names (.mapping entries pos)

/-- A trigger of this name may be written, perhaps with a body. -/
def Policy.allowsTrigger (policy : Policy) (name : String) : Bool :=
  Trigger.reservedNames.contains name || policy.allowsWebhook name

/-- What is said of a name that no trigger has. -/
def Trigger.unknown (hook : Text) : Problem :=
  ⟨.shape "trigger" "a webhook event, \"schedule\", \"workflow_dispatch\" or \"repository_dispatch\""
    s!"unknown event \"{hook.value}\"", hook.pos⟩

/-! ### Bodies that say nothing -/

theorem Node.IsVoid.items? (h : n.IsVoid) : n.items? = none := by
  cases h <;> rfl

theorem withinBody_of_isVoid (h : n.IsVoid) (k : Section → Checked (Option α)) :
    withinBody what (some n) k = withinBody what none k := by
  cases h with
  | null pos => rfl
  | empty pos =>
    -- a mapping without entries is read as a section without entries
    show (Section.read what (.mapping [] pos)).andThen k = k .empty
    have hread : Section.read what (.mapping [] pos) = ⟨some .empty, []⟩ := rfl
    rw [hread, andThen_of_some rfl, List.nil_append]

/-- What holds of each value that is made of a section holds of what is made of a body. -/
theorem of_value_withinBody {P : α → Prop} {body : Option Node} {k : Section → Checked (Option α)}
    (hk : ∀ s a, (k s).value = some a → P a) {a : α}
    (h : (withinBody what body k).value = some a) : P a := by
  unfold withinBody at h
  split at h
  · exact hk _ _ h
  · next n _ =>
    rw [Section.within] at h
    rcases hs : (Section.read what n).value with - | s
    · rw [andThen_of_none hs] at h
      cases h
    · rw [andThen_of_some hs] at h
      exact hk s a h

/-! ### One trigger -/

section Readers

variable {hook : Text} {pos : Position} {body : Option Node}

theorem ScheduleTrigger.pos_of_read {t : ScheduleTrigger}
    (h : (read policy pos body).value = some t) : t.pos = pos := by
  unfold read at h
  split at h
  · cases h
  · split at h
    · cases h
      rfl
    · cases h

theorem WorkflowDispatch.pos_of_read {t : WorkflowDispatch}
    (h : (read policy pos body).value = some t) : t.pos = pos := by
  refine of_value_withinBody (P := fun t => t.pos = pos) (fun s t ht => ?_) h
  cases ht
  rfl

theorem RepositoryDispatch.pos_of_read {t : RepositoryDispatch}
    (h : (read policy pos body).value = some t) : t.pos = pos := by
  refine of_value_withinBody (P := fun t => t.pos = pos) (fun s t ht => ?_) h
  cases ht
  rfl

theorem WebhookTrigger.eq_of_read {t : WebhookTrigger}
    (h : (read policy hook body).value = some t) : t.hook = hook ∧ t.pos = hook.pos := by
  refine of_value_withinBody (P := fun t => t.hook = hook ∧ t.pos = hook.pos) (fun s t ht => ?_) h
  cases ht
  exact ⟨rfl, rfl⟩

end Readers

namespace Trigger

variable {hook : Text} {body : Option Node} {t : Trigger}

/-- Only a schedule needs a body that says something. -/
theorem read_of_isVoid (hhook : hook.value ≠ scheduleName) (hn : n.IsVoid) :
    read policy hook (some n) = read policy hook none := by
  have hdispatch : WorkflowDispatch.read policy hook.pos (some n) =
      WorkflowDispatch.read policy hook.pos none := by
    rw [WorkflowDispatch.read, withinBody_of_isVoid hn, WorkflowDispatch.read]
  have hrepository : RepositoryDispatch.read policy hook.pos (some n) =
      RepositoryDispatch.read policy hook.pos none := by
    rw [RepositoryDispatch.read, withinBody_of_isVoid hn, RepositoryDispatch.read]
  have hwebhook : WebhookTrigger.read policy hook (some n) =
      WebhookTrigger.read policy hook none := by
    rw [WebhookTrigger.read, withinBody_of_isVoid hn, WebhookTrigger.read]
  unfold read
  rw [if_neg hhook, if_neg hhook, hdispatch, hrepository, hwebhook]

/-- A schedule is refused with one problem if its body says nothing or is left out. -/
theorem read_schedule (hhook : hook.value = scheduleName)
    (hbody : ∀ n, body = some n → n.IsVoid) : ∃ p, read policy hook body = ⟨none, [p]⟩ := by
  unfold read
  rw [if_pos hhook]
  rcases body with - | n
  · exact ⟨_, rfl⟩
  · cases hbody n rfl with
    | null pos => exact ⟨_, rfl⟩
    | empty pos => exact ⟨_, rfl⟩

/-- Each trigger has the name and the place that it is read with, whatever belongs to it. -/
theorem eq_of_read (h : (read policy hook body).value = some t) : ⟨t.name, t.pos⟩ = hook := by
  -- three of the readers are chosen by the name, and the last one keeps it
  unfold read at h
  split at h
  · next hname =>
    obtain ⟨t', ht', rfl⟩ := Option.map_eq_some_iff.mp h
    show Located.mk scheduleName t'.pos = hook
    rw [← hname, ScheduleTrigger.pos_of_read ht']
  · split at h
    · next hname =>
      obtain ⟨t', ht', rfl⟩ := Option.map_eq_some_iff.mp h
      show Located.mk workflowDispatchName t'.pos = hook
      rw [← hname, WorkflowDispatch.pos_of_read ht']
    · split at h
      · next hname =>
        obtain ⟨t', ht', rfl⟩ := Option.map_eq_some_iff.mp h
        show Located.mk repositoryDispatchName t'.pos = hook
        rw [← hname, RepositoryDispatch.pos_of_read ht']
      · split at h
        · obtain ⟨t', ht', rfl⟩ := Option.map_eq_some_iff.mp h
          obtain ⟨hhook, hpos⟩ := WebhookTrigger.eq_of_read ht'
          show Located.mk t'.hook.value t'.pos = hook
          rw [hhook, hpos]
        · cases h

/-- A trigger without a body is read if its name is allowed, and is not known otherwise. -/
theorem read_none (policy : Policy) (hhook : hook.value ≠ scheduleName) :
    (∃ t, read policy hook none = pure (some t) ∧ policy.allowsTrigger hook.value = true) ∨
      (read policy hook none = ⟨none, [unknown hook]⟩ ∧
        policy.allowsTrigger hook.value = false) := by
  unfold read
  rw [if_neg hhook]
  split
  · next hdispatch => exact .inl ⟨_, rfl, by rw [hdispatch]; rfl⟩
  · next hdispatch =>
    split
    · next hrepository => exact .inl ⟨_, rfl, by rw [hrepository]; rfl⟩
    · next hrepository =>
      have hreserved : reservedNames.contains hook.value = false := by
        simp [reservedNames, hhook, hdispatch, hrepository]
      unfold Policy.allowsTrigger
      rw [hreserved, Bool.false_or]
      split
      · next hwebhook => exact .inl ⟨_, rfl, hwebhook⟩
      · next hwebhook => exact .inr ⟨rfl, Bool.not_eq_true _ ▸ hwebhook⟩

/-! ### All triggers -/

/-- The triggers of names without bodies. -/
def ofNames (policy : Policy) (names : List Text) : Checked (List Trigger) :=
  Checked.collect (names.map fun name => read policy name none)

theorem map_readItem {items : List Node} (h : List.Forall₂ MeansText items names) :
    items.map (readItem policy) = names.map fun name => read policy name none := by
  induction h with
  | nil => rfl
  | @cons item name items names hname _ ih =>
    have hitem : readItem policy item = read policy name none := by
      unfold readItem
      rw [show item.leaf? = some name from hname]
    rw [List.map_cons, List.map_cons, hitem, ih]

/-- The entries of a mapping that says nothing are read as names. -/
theorem map_read_of_namesOnly {entries : List (Node × Node)}
    (h : List.Forall₂ Node.NamesOnly entries names)
    (hschedule : scheduleName ∉ names.map Located.value) :
    (entries.filterMap Entry.ofPair?).map (fun e => read policy e.key (some e.value)) =
      names.map fun name => read policy name none := by
  induction h with
  | nil => rfl
  | @cons kv name entries names hkv _ ih =>
    obtain ⟨hkey, hvoid⟩ := hkv
    rw [List.map_cons, List.mem_cons, not_or] at hschedule
    have hpair : Entry.ofPair? kv = some ⟨name, kv.2⟩ := congrArg (Option.map _) hkey
    have hread : read policy name (some kv.2) = read policy name none :=
      read_of_isVoid (Ne.symm hschedule.1) hvoid
    rw [List.filterMap_cons_some hpair, List.map_cons, List.map_cons, hread, ih hschedule.2]

theorem isSection_of_namesOnly {entries : List (Node × Node)} (pos : Position)
    (h : List.Forall₂ Node.NamesOnly entries names) (hnodup : (names.map Located.value).Nodup) :
    (Node.mapping entries pos).IsSection := by
  have hkeys : entries.map (fun kv => kv.1.text?) = (names.map Located.value).map some := by
    clear hnodup
    induction h with
    | nil => rfl
    | @cons kv name entries names hkv _ ih =>
      have htext : kv.1.text? = some name.value := Node.text?_of_leaf? hkv.1
      rw [List.map_cons, List.map_cons, List.map_cons, htext, ih]
  refine ⟨entries, rfl, ?_, ?_⟩
  · intro kv hkv
    have hmem : kv.1.text? ∈ entries.map fun kv => kv.1.text? := List.mem_map_of_mem hkv
    rw [hkeys] at hmem
    obtain ⟨text, -, htext⟩ := List.mem_map.mp hmem
    exact ⟨text, htext.symm⟩
  · rw [hkeys]
    exact hnodup.map fun _ _ => Option.some.inj

/-- However names are spelled, the triggers that are read are those of the names. -/
theorem readList_of_spells (policy : Policy) (h : v.Spells names)
    (hnodup : (names.map Located.value).Nodup)
    (hschedule : scheduleName ∉ names.map Located.value) :
    (readList policy v).problems = (ofNames policy names).problems ∧
      (readList policy v).value.getD [] = (ofNames policy names).value := by
  cases h with
  | @name text plain pos hname =>
    subst hname
    constructor
    · show (Option.map ([·]) <$> read policy ⟨text, pos⟩ none).problems = _
      rw [problems_map]
      exact (List.append_nil _).symm
    · -- one name that is refused leaves no triggers, and not an empty list of them
      show ((read policy ⟨text, pos⟩ none).value.map ([·])).getD [] =
        [read policy ⟨text, pos⟩ none].filterMap Checked.value
      rcases ht : (read policy ⟨text, pos⟩ none).value with - | t
      · rw [List.filterMap_cons_none ht]
        rfl
      · rw [List.filterMap_cons_some ht]
        rfl
  | @items items pos hitems =>
    have hread : readList policy (.sequence items pos) = some <$> ofNames policy names := by
      show some <$> Checked.collect (items.map (readItem policy)) = _
      rw [map_readItem hitems, ofNames]
    rw [hread, problems_map]
    exact ⟨rfl, rfl⟩
  | @keys entries pos hentries =>
    obtain ⟨s, hs, hsentries⟩ :=
      Section.read_of_isSection listWhat (isSection_of_namesOnly pos hentries hnodup)
    have hread : readList policy (.mapping entries pos) = some <$> ofNames policy names := by
      show (Section.read listWhat (.mapping entries pos)).andThen (fun s =>
        some <$> Checked.collect (s.entries.map fun e => read policy e.key (some e.value))) = _
      rw [hs, andThen_of_some rfl, hsentries, map_read_of_namesOnly hentries hschedule]
      rfl
    rw [hread, problems_map]
    exact ⟨rfl, rfl⟩

/-- Of the names of triggers those that are allowed are read, and the others are refused one by
one. -/
theorem ofNames_eq (policy : Policy) (hschedule : scheduleName ∉ names.map Located.value) :
    (ofNames policy names).problems =
        (names.filter fun name => !policy.allowsTrigger name.value).map unknown ∧
      (ofNames policy names).value.map (fun t => (⟨t.name, t.pos⟩ : Text)) =
        names.filter fun name => policy.allowsTrigger name.value := by
  unfold ofNames
  rw [problems_collect, value_collect]
  induction names with
  | nil => exact ⟨rfl, rfl⟩
  | cons name names ih =>
    rw [List.map_cons, List.mem_cons, not_or] at hschedule
    obtain ⟨hproblems, htriggers⟩ := ih hschedule.2
    rw [List.map_cons, List.flatMap_cons, hproblems]
    obtain ⟨t, hread, hallowed⟩ | ⟨hread, hallowed⟩ :=
      read_none policy (Ne.symm hschedule.1)
    · have hvalue : (read policy name none).value = some t := by rw [hread, value_pure]
      rw [List.filterMap_cons_some hvalue, List.map_cons, htriggers, eq_of_read hvalue, hread]
      simp [hallowed]
    · have hvalue : (read policy name none).value = none := by rw [hread]
      rw [List.filterMap_cons_none hvalue, htriggers, hread]
      simp [hallowed]

/-- A name that is spelled names a trigger, beside a body that says nothing if there is one. -/
theorem exists_hook_of_spells (h : v.Spells names) {name : Text} (hmem : name ∈ names) :
    ∃ hook ∈ v.hooks, MeansText hook.1 name ∧ ∀ body, hook.2 = some body → body.IsVoid := by
  cases h with
  | @name text plain pos heq =>
    subst heq
    obtain rfl := List.mem_singleton.mp hmem
    exact ⟨(.scalar text plain pos, none), List.mem_singleton_self _, rfl, nofun⟩
  | items hitems =>
    obtain ⟨item, hitem, hleaf⟩ := exists_of_mem_right hitems hmem
    exact ⟨(item, none), List.mem_map_of_mem hitem, hleaf, nofun⟩
  | keys hentries =>
    obtain ⟨kv, hkv, hleaf, hvoid⟩ := exists_of_mem_right hentries hmem
    refine ⟨(kv.1, some kv.2), List.mem_map_of_mem hkv, hleaf, fun body hbody => ?_⟩
    obtain rfl := Option.some.inj hbody
    exact hvoid

/-- No spelling of names is accepted with a schedule among them. -/
theorem not_isTriggers_of_schedule (h : v.Spells names)
    (hschedule : scheduleName ∈ names.map Located.value) : ¬IsTriggers policy v := by
  obtain ⟨name, hmem, hname⟩ := List.mem_map.mp hschedule
  obtain ⟨hook, hhook, hleaf, hvoid⟩ := exists_hook_of_spells h hmem
  have htext : hook.1.text? = some "schedule" := by
    rw [Node.text?_of_leaf? hleaf, hname]
    rfl
  intro htriggers
  -- a body that says nothing is no sequence of times
  obtain ⟨body, hbody, _, hsequence, -⟩ :=
    isTrigger_schedule.mp (isTrigger_of_mem_hooks htriggers hhook htext)
  rw [(hvoid body hbody).items?] at hsequence
  cases hsequence

end Trigger

end WorkflowTree
