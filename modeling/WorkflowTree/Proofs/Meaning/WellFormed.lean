import WorkflowTree.Proofs.Meaning.Workflow
import WorkflowTree.Proofs.Simulation.Similar

/-!
# Workflows that are read are well formed

The types of a workflow tree leave room for values that no file means: a webhook with the name of a
schedule, a hosted runner with the label of self-hosted ones, a blanket grant of nothing.
`Workflow.WellFormed` rules these out, part by part, and says how the parts that are stored under
names and places are stored under their own.

A policy matters for webhooks only, which may have names that the policy adds.

Most of it is part of what a file means, so each part that a node means is well formed
(`MeansJob.wellFormed` and its kin).  The names of webhooks are not, since meaning does not look at
the policy; they come from the grammar (`isTrigger_of_mem_hooks`).  The main statement is
`Workflow.wellFormed_of_parse`.
-/

namespace WorkflowTree

variable {α : Type} {n : Node} {policy : Policy}

/-! ### Well-formed parts -/

/-- Each value is stored under the text of its own name, and some names are not used. -/
structure Keyed.NamedOutside (reserved : List String) (name : α → Text) (m : Keyed α) : Prop where
  named : m.NamedBy fun a => (name a).value
  free : ∀ key ∈ reserved, m.find? key = none

/-- A webhook has the name of a known webhook or one that the policy adds, and never that of a
trigger of another shape. -/
structure WebhookTrigger.WellFormed (policy : Policy) (t : WebhookTrigger) : Prop where
  notReserved : t.hook.value ∉ Trigger.reservedNames
  allowed : t.hook.value ∈ webhookNames ∨ t.hook.value ∈ policy.extraWebhookEvents

/-- Triggers of the other shapes have one name each. -/
def Trigger.WellFormed (policy : Policy) (t : Trigger) : Prop :=
  ∀ hook, t = .webhook hook → hook.WellFormed policy

/-- The label that makes a runner self-hosted is no label of its own. -/
inductive Runner.WellFormed : Runner → Prop
  | hosted {label : Text} {pos : Position} : label.value ≠ selfHostedLabel →
      WellFormed (.hosted label pos)
  | selfHosted {labels : List Text} {pos : Position} :
      (∀ label ∈ labels, label.value ≠ selfHostedLabel) → WellFormed (.selfHosted labels pos)

/-- A grant for every scope has no name, grants something and stands where its block stands. -/
structure Grant.IsBlanket (g : Grant) (block : Position) : Prop where
  name : g.name = none
  access : g.access = .read ∨ g.access = .write
  pos : g.pos = block

/-- A grant for one scope has the name of the scope and stands at its name. -/
def Grant.IsOfScope (g : Grant) (scope : String) : Prop :=
  ∃ name, g.name = some name ∧ name.value = scope ∧ g.pos = name.pos

/-- Permissions in either form. -/
inductive Permissions.WellFormed : Permissions → Prop
  | all {g : Grant} {pos : Position} : g.IsBlanket pos → WellFormed ⟨.all g, pos⟩
  | scopes {gs : Keyed Grant} {pos : Position} :
      (∀ scope g, gs.find? scope = some g → g.IsOfScope scope) → WellFormed ⟨.scopes gs, pos⟩

/-- What is kept apart is no input. -/
def ActionUse.WellFormed (a : ActionUse) : Prop :=
  a.inputs.NamedOutside [entrypointKey, argsKey] Assignment.name

/-- A step with a script has nothing to keep apart. -/
def Step.WellFormed (s : Step) : Prop := ∀ a, s.exec = .action a → a.WellFormed

/-- The runs that are added or left out are no rows. -/
def Matrix.WellFormed (m : Matrix) : Prop :=
  m.rows.NamedOutside [includeKey, excludeKey] MatrixRow.name

/-- A job stands at its id. -/
structure Job.WellFormed (j : Job) : Prop where
  pos : j.pos = j.id.pos
  runsOn : j.runsOn.WellFormed
  permissions : ∀ p, j.permissions = some p → p.WellFormed
  steps : ∀ s ∈ j.steps, s.WellFormed
  matrix : ∀ m, j.strategy.bind Strategy.matrix = some m → m.WellFormed

/-- A workflow all of whose parts are well formed. -/
structure Workflow.WellFormed (policy : Policy) (w : Workflow) : Prop where
  triggers : ∀ t ∈ w.triggers, t.WellFormed policy
  permissions : ∀ p, w.permissions = some p → p.WellFormed
  jobs : ∀ id j, w.jobs.find? id = some j → j.WellFormed

/-! ### What is meant is well formed -/

/-- What is related to a node that may be absent has each property that the relation gives. -/
theorem forall_of_optionRel {R : Node → α → Prop} {P : α → Prop} {o : Option Node} {o' : Option α}
    (h : Option.Rel R o o') (hP : ∀ v a, R v a → P a) : ∀ a, o' = some a → P a := by
  rintro a rfl
  obtain ⟨v, -, hR⟩ := exists_of_optionRel_some h
  exact hP v a hR

/-- The values of a collection that a section means have the names of its entries. -/
theorem MeansKeyedBut.namedOutside {apart : List String} {means : Entry → α → Prop}
    {name : α → Text} {m : Keyed α} (h : MeansKeyedBut apart means n m)
    (hname : ∀ e a, means e a → name a = e.key) : m.NamedOutside apart name := by
  have hfound : ∀ key a, m.find? key = some a → (name a).value = key ∧ key ∉ apart := by
    intro key a ha
    obtain ⟨e, he, hmeans⟩ := exists_of_optionRel_some (ha ▸ h.rel key)
    obtain ⟨hapart, hentry⟩ := Option.ite_none_left_eq_some.mp he
    rw [hname e a hmeans]
    exact ⟨Node.key_of_entryAt? hentry, hapart⟩
  constructor
  · exact fun key a ha => (hfound key a ha).1
  · intro key hkey
    rw [Option.eq_none_iff_forall_ne_some]
    exact fun a ha => (hfound key a ha).2 hkey

theorem MeansPermissions.wellFormed {p : Permissions} (h : MeansPermissions n p) :
    p.WellFormed := by
  rcases p with ⟨grants, pos⟩
  obtain ⟨hgrants, hpos⟩ := h
  cases hgrants with
  | readAll _ => exact .all ⟨rfl, .inl rfl, hpos.symm⟩
  | writeAll _ => exact .all ⟨rfl, .inr rfl, hpos.symm⟩
  | scopes _ hscopes =>
    apply Permissions.WellFormed.scopes
    intro scope g hg
    obtain ⟨e, he, hgrant⟩ := exists_of_optionRel_some (hg ▸ hscopes.rel scope)
    exact ⟨e.key, hgrant.name, Node.key_of_entryAt? he, hgrant.pos⟩

theorem MeansRunner.wellFormed {r : Runner} (h : MeansRunner n r) : r.WellFormed := by
  cases h with
  | hosted _ hlabel => exact .hosted hlabel
  | selfHosted _ _ =>
    apply Runner.WellFormed.selfHosted
    intro label hlabel
    -- the labels that are left are those that the filter lets through
    have hkept := (List.mem_filter.mp hlabel).2
    simpa [Runner.selfHostedLabel] using hkept

theorem MeansActionUse.wellFormed {a : ActionUse} (h : MeansActionUse n a) : a.WellFormed := by
  show a.inputs.NamedOutside ["entrypoint", "args"] Assignment.name
  obtain ⟨action, inputs, entrypoint, args⟩ := a
  have hinputs := h.inputs
  generalize n.get? "with" = o at hinputs
  cases hinputs with
  | absent =>
    constructor
    · rintro key a ⟨⟩
    · exact fun _ _ => rfl
  | present hinputs => exact hinputs.namedOutside fun _ _ ha => ha.name

theorem MeansStep.wellFormed {s : Step} (h : MeansStep n s) : s.WellFormed := by
  intro a ha
  have hexec := ha ▸ h.exec
  cases hexec with
  | action _ haction => exact haction.wellFormed

theorem MeansMatrix.wellFormed {m : Matrix} (h : MeansMatrix n m) : m.WellFormed :=
  h.rows.namedOutside fun _ _ hrow => hrow.name

theorem MeansJob.wellFormed {e : Entry} {j : Job} (h : MeansJob e j) : j.WellFormed where
  pos := by rw [h.pos, h.id]
  runsOn := by
    obtain ⟨v, -, hrunner⟩ := h.runsOn
    exact hrunner.wellFormed
  permissions := forall_of_optionRel h.permissions fun _ _ hp => hp.wellFormed
  steps := by
    obtain ⟨v, -, items, -, hsteps⟩ := h.steps
    intro s hs
    obtain ⟨item, -, hstep⟩ := exists_of_mem_right hsteps hs
    exact hstep.wellFormed
  matrix := by
    intro m hm
    obtain ⟨s, hs, hsm⟩ := Option.bind_eq_some_iff.mp hm
    have hstrategy := forall_of_optionRel h.strategy fun _ _ hstrategy =>
      forall_of_optionRel hstrategy.matrix fun _ _ hmatrix => hmatrix.wellFormed
    exact hstrategy s hs m hsm

/-! ### The names of webhooks -/

/-- In a section an entry is what its key finds. -/
theorem Node.IsSection.find?_of_mem {entries : List (Node × Node)}
    (h : n.IsSection) (hn : n.entries? = some entries) {e : Node × Node} (he : e ∈ entries)
    {key : String} (hkey : e.1.text? = some key) :
    entries.find? (fun e' => e'.1.text? == some key) = some e := by
  obtain ⟨_, hentries, -, nodup⟩ := h
  cases hn.symm.trans hentries
  have hfound : ∃ e', entries.find? (fun e' => e'.1.text? == some key) = some e' := by
    rw [← Option.isSome_iff_exists, List.find?_isSome]
    exact ⟨e, he, by simpa using hkey⟩
  obtain ⟨e', he'⟩ := hfound
  have htext : e'.1.text? = some key := by simpa using List.find?_some he'
  -- no other entry has the key
  have hsame : e' = e := List.inj_on_of_nodup_map nodup (List.mem_of_find?_eq_some he') he
    (htext.trans hkey.symm)
  rw [he', hsame]

theorem Node.IsSection.get?_of_mem {entries : List (Node × Node)} {pos : Position}
    (h : (Node.mapping entries pos).IsSection) {e : Node × Node} (he : e ∈ entries) {key : String}
    (hkey : e.1.text? = some key) : (Node.mapping entries pos).get? key = some e.2 := by
  show (entries.find? _).map Prod.snd = _
  rw [h.find?_of_mem rfl he hkey, Option.map_some]

/-- In the grammar each name of a trigger stands beside what may belong to it, however the triggers
are written. -/
theorem isTrigger_of_mem_hooks (h : IsTriggers policy n) {hook : Node × Option Node}
    (hmem : hook ∈ n.hooks) {name : String} (hname : hook.1.text? = some name) :
    IsTrigger policy name hook.2 := by
  cases h with
  | name htext htrigger =>
    -- one name alone
    rcases n with _ | _ | _ | _ <;> cases htext
    obtain rfl := List.mem_singleton.mp hmem
    cases hname
    exact htrigger
  | names hitems =>
    -- a sequence of names
    obtain ⟨items, hitems, hall⟩ := hitems
    rcases n with _ | _ | _ | _ <;> cases hitems
    obtain ⟨item, hitem, rfl⟩ := List.mem_map.mp hmem
    obtain ⟨name', hname', htrigger⟩ := hall item hitem
    obtain rfl : name' = name := Option.some.inj (hname'.symm.trans hname)
    exact htrigger
  | bodies hfree =>
    -- a mapping, in which a name is a key
    obtain ⟨hsection, hall⟩ := hfree
    have hkeys := hsection
    obtain ⟨entries, hentries, -⟩ := hkeys
    rcases n with _ | _ | _ | _ <;> cases hentries
    obtain ⟨e, he, rfl⟩ := List.mem_map.mp hmem
    exact hall name e.2 (hsection.get?_of_mem he hname)

theorem MeansTrigger.wellFormed {name : Text} {body : Option Node} {t : Trigger}
    (h : MeansTrigger name body t) (hgrammar : IsTrigger policy name.value body) :
    t.WellFormed policy := by
  rintro hook rfl
  cases h with
  | webhook hreserved hwebhook =>
    have hallowed := ((isTrigger_webhook hreserved).mp hgrammar).1
    rw [← hwebhook.hook] at hreserved hallowed
    exact ⟨hreserved, hallowed⟩

theorem MeansTriggers.wellFormed {ts : List Trigger} (h : MeansTriggers n ts)
    (hgrammar : IsTriggers policy n) : ∀ t ∈ ts, t.WellFormed policy := by
  intro t ht
  obtain ⟨hook, hmem, name, hname, htrigger⟩ := exists_of_mem_right h ht
  have htext : hook.1.text? = some name.value := Node.text?_of_leaf? hname
  exact htrigger.wellFormed (isTrigger_of_mem_hooks hgrammar hmem htext)

/-! ### Workflows -/

theorem MeansWorkflow.wellFormed {w : Workflow} (h : MeansWorkflow n w)
    (hgrammar : IsWorkflow policy n) : w.WellFormed policy where
  triggers := by
    obtain ⟨v, hv, htriggers⟩ := h.triggers
    obtain ⟨v', hv', hshape⟩ := hgrammar.triggers
    obtain rfl : v = v' := Option.some.inj (hv.symm.trans hv')
    exact htriggers.wellFormed hshape
  permissions := forall_of_optionRel h.permissions fun _ _ hp => hp.wellFormed
  jobs := by
    obtain ⟨v, -, hjobs⟩ := h.jobs
    intro id j hj
    obtain ⟨e, -, hjob⟩ := exists_of_optionRel_some (hj ▸ hjobs.rel id)
    exact hjob.wellFormed

namespace Workflow

/-- **Workflows that are read are well formed**, for every file and every policy. -/
theorem wellFormed_of_parse (policy : Policy) (root : Node) (w : Workflow)
    (h : parse policy root = .ok w) : w.WellFormed policy := by
  have hmeans : MeansWorkflow root w := of_parse_eq_ok sound_read h
  have hclean : (read policy root).Clean := exists_parse_iff_clean.mp ⟨w, h⟩
  exact hmeans.wellFormed (clean_read.mp hclean)

/-- A workflow that a webhook of its policy triggers, with permissions in both forms, a self-hosted
runner, and a matrix and an action that each have a key that is kept apart. -/
def guarded : Node :=
  .mapping [
    (.scalar "on" true ⟨1, 1⟩, .sequence [.scalar "push" true ⟨1, 6⟩,
      .scalar "deploy_key" true ⟨1, 12⟩] ⟨1, 5⟩),
    (.scalar "permissions" true ⟨2, 1⟩, .mapping [
      (.scalar "contents" true ⟨3, 3⟩, .scalar "none" true ⟨3, 13⟩)] ⟨3, 3⟩),
    (.scalar "jobs" true ⟨4, 1⟩, .mapping [
      (.scalar "build" true ⟨5, 3⟩, .mapping [
        (.scalar "permissions" true ⟨6, 5⟩, .scalar "read-all" true ⟨6, 18⟩),
        (.scalar "runs-on" true ⟨7, 5⟩, .sequence [
          .scalar "linux" true ⟨7, 15⟩, .scalar "self-hosted" true ⟨7, 22⟩] ⟨7, 14⟩),
        (.scalar "strategy" true ⟨8, 5⟩, .mapping [
          (.scalar "matrix" true ⟨9, 7⟩, .mapping [
            (.scalar "exclude" true ⟨10, 9⟩, .sequence [] ⟨10, 18⟩),
            (.scalar "os" true ⟨11, 9⟩, .sequence [.scalar "linux" true ⟨11, 14⟩] ⟨11, 13⟩)]
            ⟨10, 9⟩)] ⟨9, 7⟩),
        (.scalar "steps" true ⟨12, 5⟩, .sequence [.mapping [
          (.scalar "uses" true ⟨13, 9⟩, .scalar "docker://alpine" true ⟨13, 15⟩),
          (.scalar "with" true ⟨14, 9⟩, .mapping [
            (.scalar "entrypoint" true ⟨15, 11⟩, .scalar "/bin/sh" true ⟨15, 23⟩),
            (.scalar "path" true ⟨16, 11⟩, .scalar "dist" true ⟨16, 17⟩)] ⟨15, 11⟩)] ⟨13, 9⟩]
          ⟨13, 7⟩)] ⟨6, 5⟩)] ⟨5, 3⟩)] ⟨1, 1⟩

theorem wellFormed_of_guarded :
    ∃ w, parse { extraWebhookEvents := ["deploy_key"] } guarded = .ok w ∧
    w.triggers.map Trigger.name = ["push", "deploy_key"] ∧
    (w.jobs.find? "build").map Job.runsOn = some (.selfHosted [⟨"linux", ⟨7, 15⟩⟩] ⟨7, 14⟩) ∧
    w.WellFormed { extraWebhookEvents := ["deploy_key"] } :=
  ⟨_, rfl, rfl, rfl, wellFormed_of_parse { extraWebhookEvents := ["deploy_key"] } guarded _ rfl⟩

end Workflow

end WorkflowTree
