import WorkflowTree.Proofs.Insensitivity.Triggers
import WorkflowTree.Proofs.Meaning.Lists
import WorkflowTree.Proofs.Reporting.Budget

/-!
# Spellings of triggers

Two nodes that spell the same names are read as the same triggers with the same problems.  In a file
one of them may stand for the other: all other entries are read as before, and a trigger that is
refused is a problem in either spelling, so that its absence is not noticed
(`Workflow.parse_of_spells`).
-/

namespace WorkflowTree

open Checked

variable {α : Type} {policy : Policy} {v v' : Node}

/-! ### Sections with another spelling -/

/-- Two nodes are read as the same triggers, with the same problems. -/
structure Trigger.SameRead (policy : Policy) (v v' : Node) : Prop where
  problems : (readList policy v').problems = (readList policy v).problems
  triggers : (readList policy v').value.getD [] = (readList policy v).value.getD []

/-- A node is read as the triggers of those names that are allowed, and a problem for each of the
others. -/
structure Trigger.ReadAs (policy : Policy) (names : List Text) (v : Node) : Prop where
  problems : (readList policy v).problems =
    (names.filter fun name => !policy.allowsTrigger name.value).map unknown
  triggers : ((readList policy v).value.getD []).map (fun t => (⟨t.name, t.pos⟩ : Text)) =
    names.filter fun name => policy.allowsTrigger name.value

/-- If nothing is wrong, the triggers are there. -/
theorem Trigger.SameRead.value_eq (h : SameRead policy v v') (hclean : (readList policy v).Clean) :
    (readList policy v).value = (readList policy v').value := by
  have hclean' : (readList policy v').Clean := h.problems.trans hclean
  obtain ⟨ts, hts⟩ := (accounts_readList policy v).explained.exists_value hclean
  obtain ⟨ts', hts'⟩ := (accounts_readList policy v').explained.exists_value hclean'
  have htriggers := h.triggers
  rw [hts, hts', Option.getD_some, Option.getD_some] at htriggers
  rw [hts, hts', htriggers]

namespace Section

variable {value : Option String → Node → Node → Prop} {s s' : Section} {es es' : List Entry}

/-- One more entry, with another value on the other side. -/
theorem alikeInPlace_extend (what : String) (quiet : List String) {e e' : Entry}
    (hs : s.AlikeInPlace value s') (he : Entry.Alike value e e') :
    (extend what quiet s e).value.AlikeInPlace value (extend what quiet s' e').value ∧
      (extend what quiet s' e').problems = (extend what quiet s e).problems := by
  obtain ⟨hnew, hnew'⟩ | ⟨first, first', hfirst, hfirst', hfirsts⟩ :=
    optionRel_cases (hs.alike.find? e.key.value)
  · rw [he.key] at hnew'
    rw [extend_of_none hnew, extend_of_none hnew']
    exact ⟨List.rel_append hs (.cons he .nil), rfl⟩
  · -- a repeated key is reported with the place where it stands first
    rw [he.key] at hfirst'
    rw [extend_of_some hfirst, extend_of_some hfirst', ← he.key, ← hfirsts.key]
    exact ⟨hs, rfl⟩

theorem alikeInPlace_foldlM_extend (what : String) (quiet : List String)
    (h : List.Forall₂ (Entry.Alike value) es es') (hs : s.AlikeInPlace value s') :
    (es.foldlM (extend what quiet) s).value.AlikeInPlace value
        (es'.foldlM (extend what quiet) s').value ∧
      (es'.foldlM (extend what quiet) s').problems =
        (es.foldlM (extend what quiet) s).problems := by
  induction h generalizing s s' with
  | nil => exact ⟨hs, rfl⟩
  | @cons e e' es es' he _ ih =>
    obtain ⟨hs', hproblem⟩ := alikeInPlace_extend what quiet hs he
    obtain ⟨hsections, hproblems⟩ := ih hs'
    rw [List.foldlM_cons, List.foldlM_cons, value_bind, value_bind, problems_bind, problems_bind,
      hproblem, hproblems]
    exact ⟨hsections, rfl⟩

end Section

namespace Workflow

variable {always : Prop} {s s' : Section} {before after : List (Node × Node)} {key : Node}
variable {pos : Position}

/-- The values under a key are the same, or they are the triggers in another spelling. -/
def Respelled (policy : Policy) (key? : Option String) (w w' : Node) : Prop :=
  w = w' ∨ key? = some "on" ∧ Trigger.SameRead policy w w'

/-- Another key than that of the triggers has one value. -/
theorem transfers_other {read : Node → Checked (Option α)} {other : String}
    (hs : s.AlikeInPlace (Respelled policy) s') (hother : other ≠ "on") :
    (s.field other read).TransfersBy always s Eq (s'.field other read) := by
  apply Section.transfers_field hs
  rintro w w' (rfl | ⟨hkey, -⟩)
  · exact transfers_of_eq rfl
  · exact absurd (Option.some.inj hkey) hother

/-- The triggers themselves.  If one name is refused, its value is not there at all in one of the
spellings, but then the key is not missed. -/
theorem transfers_triggers (hs : s.AlikeInPlace (Respelled policy) s') :
    (s.field "on" (Trigger.readList policy)).TransfersBy always s
      (fun o o' => (always ∧ s.has "on" = true) ∨ o = o')
      (s'.field "on" (Trigger.readList policy)) := by
  intro hclean
  rw [Section.value_field, Section.value_field, Section.fields_field, Section.fields_field,
    Section.problemsAt, Section.problemsAt]
  obtain ⟨hw, hw'⟩ | ⟨w, w', hw, hw', hsame⟩ := optionRel_cases (hs.alike.get? "on")
  · rw [hw, hw']
    exact ⟨.inr rfl, rfl⟩
  · have hhas : s.has "on" = true := Section.has_iff.mpr ⟨w, hw⟩
    rw [hw, hw']
    rcases hsame with rfl | ⟨-, hsame⟩
    · exact ⟨.inr rfl, rfl⟩
    · rw [Option.elim_some, Option.elim_some, hsame.problems]
      refine ⟨?_, rfl⟩
      rcases hclean with halways | hclean
      · exact .inl ⟨halways, hhas⟩
      · -- the problems of the value stand under its key
        have hfield := hclean ("on", s.problemsAt "on" (Trigger.readList policy)) (by simp) hhas
        rw [Section.problemsAt, hw, Option.elim_some] at hfield
        exact .inr (hsame.value_eq hfield)

theorem transfers_readFields_respelled (hs : s.AlikeInPlace (Respelled policy) s') :
    (readFields policy what s).TransfersBy always s
      (fun x y => ((always ∧ s.has "on" = true) ∨ x.1 = y.1) ∧ x.2 = y.2)
      (readFields policy what s') := by
  refine .bindEq (transfers_other hs (by decide)) fun name => ?_
  refine .bindEq (transfers_other hs (by decide)) fun runName => ?_
  refine .bind (transfers_triggers hs) fun triggers triggers' htriggers => ?_
  refine .bindEq (transfers_other hs (by decide)) fun grants => ?_
  refine .bindEq (transfers_other hs (by decide)) fun env => ?_
  refine .bindEq (transfers_other hs (by decide)) fun defaults => ?_
  refine .bindEq (transfers_other hs (by decide)) fun group => ?_
  refine .bindEq (transfers_other hs (by decide)) fun jobs => ?_
  exact .pure ⟨htriggers, rfl⟩

/-- Reads a workflow from its section. -/
def readSection (policy : Policy) (start : Position) (s : Section) : Checked (Option Workflow) := do
  let (triggers, jobs, complete) ← s.fill policy "workflow" (readFields policy "workflow" s)
  let triggers ← s.require triggers "on" "workflow" start
  let jobs ← s.require jobs "jobs" "workflow" start
  return do
    let triggers ← triggers
    let jobs ← jobs
    some (complete triggers jobs)

theorem read_eq_withinOwner (policy : Policy) (root : Node) :
    read policy root = Section.withinOwner "workflow" root (readSection policy root.pos) := rfl

theorem transfers_readSection (always : Prop) (hs : s.AlikeInPlace (Respelled policy) s')
    (start : Position) :
    (readSection policy start s).TransfersBy always (fun o o' => always ∨ o = o')
      (readSection policy start s') := by
  refine TransfersBy.bind (Section.transfers_fill (nodup_readFields ..) rfl hs
    (transfers_readFields_respelled hs)) ?_
  rintro ⟨triggers, jobs, complete⟩ ⟨triggers', _, _⟩ ⟨htriggers, hrest⟩
  cases hrest
  have hrequire : (s.require triggers "on" "workflow" start).TransfersBy always
      (fun o o' => always ∨ o = o') (s'.require triggers' "on" "workflow" start) := by
    rcases htriggers with ⟨halways, hhas⟩ | rfl
    · intro _
      have hhas' : s'.has "on" = true := (hs.alike.has "on").symm.trans hhas
      refine ⟨.inl halways, ?_⟩
      simp only [Section.require, hhas, hhas', Bool.not_true, Bool.and_false]
    · intro hclean
      obtain ⟨hvalue, hproblems⟩ := Section.transfers_require hs triggers start hclean
      exact ⟨.inr hvalue, hproblems⟩
  refine TransfersBy.bind hrequire fun ts ts' hts => ?_
  refine (Section.transfers_require hs jobs start).bind fun jobs => .pure ?_
  rcases hts with halways | rfl
  · exact .inl halways
  · exact .inr rfl

/-! ### Files with another spelling -/

theorem readAll_split (what : String) {t : Text} (hkey : key.leaf? = some t) :
    Entry.readAll what (.mapping (before ++ (key, v) :: after) pos) =
      ⟨some (before.filterMap Entry.ofPair? ++ ⟨t, v⟩ :: after.filterMap Entry.ofPair?),
        (before ++ after).flatMap fun kv => (Entry.read what kv).problems⟩ := by
  have hpair : Entry.ofPair? (key, v) = some ⟨t, v⟩ := congrArg (Option.map _) hkey
  have hentry : Entry.read what (key, v) = pure (some ⟨t, v⟩) := by
    unfold Entry.read
    rw [hkey]
  apply Checked.ext
  · rw [Entry.value_readAll, Node.entries?, Option.map_some, List.filterMap_append,
      List.filterMap_cons_some hpair]
  · show (some <$> Checked.collect ((before ++ (key, v) :: after).map (Entry.read what))).problems =
      _
    rw [problems_map, problems_collect, List.flatMap_map, List.flatMap_append, List.flatMap_cons,
      hentry, List.flatMap_append]
    rfl

/-- Of the triggers only the value is another one, so the permissions are the same. -/
theorem formConflict?_split (what : String) {t : Text} (ht : t.value = "on")
    (es es' : List Entry) : Section.formConflict? what (es ++ ⟨t, v'⟩ :: es') =
      Section.formConflict? what (es ++ ⟨t, v⟩ :: es') := by
  have hfilter : ∀ w : Node, (es ++ ⟨t, w⟩ :: es').filter
      (fun e => e.key.value == Section.permissionsKey) =
        (es ++ es').filter fun e => e.key.value == Section.permissionsKey := by
    intro w
    have hother : (t.value == Section.permissionsKey) = false := by rw [ht]; rfl
    rw [List.filter_append, List.filter_cons_of_neg (by simp [hother]), List.filter_append]
  unfold Section.formConflict?
  rw [hfilter, hfilter]

/-- The file with the other spelling is read as a section that differs in the triggers only. -/
theorem exists_readWithPermissions (what : String) (before after : List (Node × Node))
    (pos : Position) (hkey : key.text? = some "on") (h : Trigger.SameRead policy v v') :
    ∃ s s' ps,
      Section.readWithPermissions what (.mapping (before ++ (key, v) :: after) pos) =
        ⟨some s, ps⟩ ∧
      Section.readWithPermissions what (.mapping (before ++ (key, v') :: after) pos) =
        ⟨some s', ps⟩ ∧ s.AlikeInPlace (Respelled policy) s' := by
  rw [Node.text?_eq_leaf?] at hkey
  obtain ⟨t, hleaf, ht⟩ := Option.map_eq_some_iff.mp hkey
  have hrefl : ∀ es : List Entry, List.Forall₂ (Entry.Alike (Respelled policy)) es es :=
    fun es => List.forall₂_same.mpr fun e _ => ⟨rfl, .inl rfl⟩
  have hentries : List.Forall₂ (Entry.Alike (Respelled policy))
      (before.filterMap Entry.ofPair? ++ ⟨t, v⟩ :: after.filterMap Entry.ofPair?)
      (before.filterMap Entry.ofPair? ++ ⟨t, v'⟩ :: after.filterMap Entry.ofPair?) := by
    apply List.rel_append (hrefl _)
    exact .cons ⟨rfl, .inr ⟨congrArg some ht, h⟩⟩ (hrefl _)
  have hempty : Section.empty.AlikeInPlace (Respelled policy) .empty := .nil
  unfold Section.readWithPermissions
  rw [readAll_split what hleaf, readAll_split what hleaf, andThen_of_some rfl, andThen_of_some rfl,
    formConflict?_split what ht]
  rcases Section.formConflict? what _ with - | p
  · obtain ⟨hs, hproblems⟩ := Section.alikeInPlace_foldlM_extend what [] hentries hempty
    refine ⟨_, _, _, rfl, ?_, hs⟩
    simp only [Section.distinct, problems_map, hproblems, value_map]
  · obtain ⟨hs, hproblems⟩ :=
      Section.alikeInPlace_foldlM_extend what [Section.permissionsKey] hentries hempty
    refine ⟨_, _, _, rfl, ?_, hs⟩
    simp only [Section.distinct, problems_bind, problems_map, hproblems, value_bind, value_map]

/-- What is found wrong, and the workflow if nothing is, decide what is given. -/
theorem parse_congr {root root' : Node}
    (hproblems : (read policy root').problems = (read policy root).problems)
    (hvalue : (read policy root).Clean → (read policy root').value = (read policy root).value) :
    parse policy root' = parse policy root := by
  by_cases hclean : (read policy root).Clean
  · have hread : read policy root' = read policy root := Checked.ext (hvalue hclean) hproblems
    rw [parse, hread, parse]
  · have hclean' : (read policy root').problems ≠ [] := fun hnil => hclean (hproblems.symm.trans hnil)
    rw [parse_of_problems_ne_nil hclean', parse_of_problems_ne_nil hclean, hproblems]

/-- Nodes that are read as the same triggers may stand for each other in a file. -/
theorem parse_of_sameRead (hkey : key.text? = some "on") (h : Trigger.SameRead policy v v') :
    parse policy (.mapping (before ++ (key, v') :: after) pos) =
      parse policy (.mapping (before ++ (key, v) :: after) pos) := by
  obtain ⟨s, s', ps, hread, hread', hs⟩ :=
    exists_readWithPermissions "workflow" before after pos hkey h
  have hroot : ∀ {w : Node} {s : Section},
      Section.readWithPermissions "workflow" (.mapping (before ++ (key, w) :: after) pos) =
        ⟨some s, ps⟩ →
      read policy (.mapping (before ++ (key, w) :: after) pos) =
        ⟨(readSection policy pos s).value, ps ++ (readSection policy pos s).problems⟩ := by
    intro w s hw
    rw [read_eq_withinOwner, Section.withinOwner, hw, andThen_of_some rfl]
    rfl
  rw [parse_congr]
  · -- the problems are the same in any case
    have halways := transfers_readSection True hs pos
    rw [hroot hread, hroot hread', (halways (.inl trivial)).2]
  · -- the workflow is the same if there are none
    intro hclean
    rw [hroot hread] at hclean
    have hsection : (readSection policy pos s).Clean := (List.append_eq_nil_iff.mp hclean).2
    have hvalue := (transfers_readSection False hs pos (.inr hsection)).1
    rw [hroot hread, hroot hread']
    exact (hvalue.resolve_left not_false).symm

/-- A file whose triggers are spelled with a schedule among them is not accepted. -/
theorem exists_parse_eq_error {names : List Text} (hkey : key.text? = some "on")
    (hv : v.Spells names) (hschedule : "schedule" ∈ names.map Located.value) :
    ∃ ps, parse policy (.mapping (before ++ (key, v) :: after) pos) = .error ps := by
  rcases hparse : parse policy (.mapping (before ++ (key, v) :: after) pos) with ps | w
  · exact ⟨ps, rfl⟩
  · exfalso
    have hworkflow := (exists_parse_eq_ok policy _).mp ⟨w, hparse⟩
    obtain ⟨v', hv', htriggers⟩ := hworkflow.triggers
    have hmem : (key, v) ∈ before ++ (key, v) :: after :=
      List.mem_append_right _ List.mem_cons_self
    have hget := hworkflow.keys.1.get?_of_mem hmem hkey
    obtain rfl := Option.some.inj (hget.symm.trans hv')
    exact Trigger.not_isTriggers_of_schedule hv hschedule htriggers

/-- **Triggers may be spelled in three ways.**  Of distinct names, none of which is a schedule, each
spelling is read as the same triggers with the same problems, and it may stand for each other one
in every file.  The triggers are those of the names that are allowed, in order, and each other name
is refused with one problem.  Whatever belongs to a trigger, it has the name and the place that are
written, and in a file that is accepted all of them do, in order.  A schedule is refused in all
spellings. -/
theorem parse_of_spells (policy : Policy) :
    (∀ names v v', (names.map Located.value).Nodup → "schedule" ∉ names.map Located.value →
      Node.Spells names v → Node.Spells names v' →
      Trigger.SameRead policy v v' ∧ Trigger.ReadAs policy names v ∧
      ∀ before key after pos, key.text? = some "on" →
        parse policy (.mapping (before ++ (key, v') :: after) pos) =
          parse policy (.mapping (before ++ (key, v) :: after) pos)) ∧
    (∀ hook body t, (Trigger.read policy hook body).value = some t →
      t.name = hook.value ∧ t.pos = hook.pos) ∧
    (∀ root w, parse policy root = .ok w → ∃ v, root.get? "on" = some v ∧
      List.Forall₂ (fun hook t => MeansText hook.1 ⟨t.name, t.pos⟩) v.hooks w.triggers) ∧
    (∀ pos body, (∀ n, body = some n → n.IsVoid) →
      ∃ p, Trigger.read policy ⟨"schedule", pos⟩ body = ⟨none, [p]⟩) ∧
    ∀ names v, "schedule" ∈ names.map Located.value → Node.Spells names v →
      ¬(Trigger.readList policy v).Clean ∧
      ∀ before key after pos, key.text? = some "on" →
        ∃ ps, parse policy (.mapping (before ++ (key, v) :: after) pos) = .error ps := by
  refine ⟨?_, ?_, ?_, ?_, ?_⟩
  · intro names v v' hnodup hschedule hv hv'
    obtain ⟨hproblems, htriggers⟩ := Trigger.readList_of_spells policy hv hnodup hschedule
    obtain ⟨hproblems', htriggers'⟩ :=
      Trigger.readList_of_spells policy hv' hnodup hschedule
    obtain ⟨hrefused, hnamed⟩ := Trigger.ofNames_eq policy hschedule
    have hsame : Trigger.SameRead policy v v' :=
      ⟨hproblems'.trans hproblems.symm, htriggers'.trans htriggers.symm⟩
    refine ⟨hsame, ⟨hproblems.trans hrefused, ?_⟩, fun before key after pos hkey => ?_⟩
    · rw [htriggers]
      exact hnamed
    · exact parse_of_sameRead hkey hsame
  · intro hook body t ht
    have hhook := Trigger.eq_of_read ht
    rw [← hhook]
    exact ⟨rfl, rfl⟩
  · intro root w hw
    have hmeans : MeansWorkflow root w := of_parse_eq_ok sound_read hw
    obtain ⟨v, hv, hlists⟩ := hmeans.lists.triggers
    exact ⟨v, hv, hlists.imp fun _ _ ht => ht.name⟩
  · intro pos body hbody
    exact Trigger.read_schedule rfl hbody
  · intro names v hschedule hv
    refine ⟨?_, fun before key after pos hkey => exists_parse_eq_error hkey hv hschedule⟩
    rw [Trigger.clean_readList]
    exact Trigger.not_isTriggers_of_schedule hv hschedule

/-- A file without jobs that triggers start. -/
def started (triggers : Node) : Node :=
  .mapping ([(.scalar "name" true ⟨1, 1⟩, .scalar "checks" true ⟨1, 7⟩)] ++
    (.scalar "on" true ⟨2, 1⟩, triggers) :: [(.scalar "jobs" true ⟨4, 1⟩, .mapping [] ⟨4, 7⟩)])
    ⟨1, 1⟩

/-- Three triggers as a sequence. -/
def listedTriggers : Node :=
  .sequence [.scalar "push" true ⟨3, 3⟩, .scalar "deploy_key" true ⟨3, 9⟩,
    .scalar "workflow_dispatch" true ⟨3, 21⟩] ⟨2, 5⟩

/-- The same triggers as a mapping. -/
def keyedTriggers : Node :=
  .mapping [(.scalar "push" true ⟨3, 3⟩, .null ⟨3, 8⟩),
    (.scalar "deploy_key" true ⟨3, 9⟩, .mapping [] ⟨3, 20⟩),
    (.scalar "workflow_dispatch" true ⟨3, 21⟩, .null ⟨3, 39⟩)] ⟨2, 5⟩

/-- The file is accepted with the sequence, and so it is with the mapping. -/
theorem parse_started : ∃ w,
    parse { extraWebhookEvents := ["deploy_key"] } (started listedTriggers) = .ok w ∧
    parse { extraWebhookEvents := ["deploy_key"] } (started keyedTriggers) = .ok w ∧
    w.triggers.map Trigger.name = ["push", "deploy_key", "workflow_dispatch"] := by
  let names : List Text :=
    [⟨"push", ⟨3, 3⟩⟩, ⟨"deploy_key", ⟨3, 9⟩⟩, ⟨"workflow_dispatch", ⟨3, 21⟩⟩]
  have hlisted : Node.Spells names listedTriggers :=
    .items (.cons rfl (.cons rfl (.cons rfl .nil)))
  have hkeyed : Node.Spells names keyedTriggers :=
    .keys (.cons ⟨rfl, .null _⟩ (.cons ⟨rfl, .empty _⟩ (.cons ⟨rfl, .null _⟩ .nil)))
  obtain ⟨-, -, hfiles⟩ := (parse_of_spells { extraWebhookEvents := ["deploy_key"] }).1 names
    listedTriggers keyedTriggers (by decide) (by decide) hlisted hkeyed
  exact ⟨_, rfl, (hfiles _ _ _ _ rfl).trans rfl, rfl⟩

end Workflow

end WorkflowTree
