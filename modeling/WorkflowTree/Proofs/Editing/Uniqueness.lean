import WorkflowTree.Edit.Workflow
import WorkflowTree.Proofs.Acceptance.Workflow
import WorkflowTree.Proofs.Editing.KeyedPart
import WorkflowTree.Proofs.Meaning.Source

/-!
# Names that are given twice

Seven keyed parts of workflows, jobs and steps can be edited as well as read.  What is refused when
values are added to one of them is what is reported of a mapping with the same names
(`keyedParts_agree`).
-/

namespace WorkflowTree

open Checked

variable {σ ε α : Type}

namespace KeyedPart

variable {k : KeyedPart σ ε α} {s t : σ} {sec : Section} {e : Entry}
variable {as : List α} {es : List Entry}

/-! ### Mappings -/

/-- The mapping has these names as its keys. -/
def Spelled (k : KeyedPart σ ε α) (as : List α) (kvs : List (Node × Node)) : Prop :=
  List.Forall₂ (fun a kv => MeansText kv.1 (k.name a)) as kvs

/-- What is reported of the keys of a mapping. -/
def reported (k : KeyedPart σ ε α) (kvs : List (Node × Node)) (pos : Position) : List Problem :=
  (Section.read k.scope (.mapping kvs pos)).problems

theorem Spelled.exists_entries {kvs : List (Node × Node)} (h : k.Spelled as kvs) :
    ∃ es, kvs.map Entry.ofPair? = es.map some ∧ List.Forall₂ k.Names as es := by
  induction h with
  | nil => exact ⟨[], rfl, .nil⟩
  | @cons a kv as kvs hkey _ ih =>
    obtain ⟨es, hes, hnames⟩ := ih
    have hpair : Entry.ofPair? kv = some ⟨k.name a, kv.2⟩ := congrArg (Option.map _) hkey
    refine ⟨⟨k.name a, kv.2⟩ :: es, ?_, .cons rfl hnames⟩
    rw [List.map_cons, List.map_cons, hpair, hes]

/-- A mapping whose keys are texts is read by keeping the first entries of its keys. -/
theorem read_of_entries (what : String) {kvs : List (Node × Node)} (pos : Position)
    (h : kvs.map Entry.ofPair? = es.map some) :
    Section.read what (.mapping kvs pos) = some <$> Section.distinct what [] es := by
  have hentries : kvs.filterMap Entry.ofPair? = es := by
    have hmap : (kvs.map Entry.ofPair?).filterMap id = (es.map some).filterMap id :=
      congrArg (List.filterMap id) h
    rw [List.filterMap_map, List.filterMap_map] at hmap
    exact hmap.trans List.filterMap_some
  have htext : ∀ kv ∈ kvs, kv.1.IsText := by
    intro kv hkv
    have hmem : Entry.ofPair? kv ∈ es.map some := h ▸ List.mem_map_of_mem hkv
    obtain ⟨e, -, he⟩ := List.mem_map.mp hmem
    exact Entry.isText_iff_ofPair?.mpr (he ▸ Option.some_ne_none e)
  have hread : Entry.readAll what (.mapping kvs pos) = ⟨some es, []⟩ := by
    apply Checked.ext
    · rw [Entry.value_readAll, Node.entries?, Option.map_some, hentries]
    · exact Entry.clean_readAll.mpr ⟨kvs, rfl, htext⟩
  rw [Section.read, hread, andThen_of_some rfl, List.nil_append]

/-! ### What a part and its mapping have in common -/

/-- A name is refused with one problem, and the other one is the first that is reported.  It is
reported of the entry at the same place, and not before. -/
structure FailsAt (k : KeyedPart σ ε α) (s : σ) (as : List α) (kvs : List (Node × Node))
    (pos : Position) (p q : Problem) (before : List α) (a : α) : Prop where
  next : ∃ after, as = before ++ a :: after
  refused : ∃ t, editAll k.edit s (before.map k.add) = .ok t ∧ k.edit t (k.add a) = .error p
  unreported : k.reported (kvs.take before.length) pos = []
  reported : k.reported (kvs.take (before.length + 1)) pos = [q]
  first : ∃ rest, k.reported kvs pos = q :: rest

/-- Adding values one by one comes to the same as reading a mapping with their names. -/
structure Agreement (k : KeyedPart σ ε α) (s : σ) (as : List α) (kvs : List (Node × Node))
    (pos : Position) : Prop where
  /-- What is reported of the keys comes first when the part is read. -/
  reads : k.reported kvs pos <+: (k.read (.mapping kvs pos)).problems
  refused_iff : Refused (editAll k.edit s (as.map k.add)) ↔
    ∃ q ∈ k.reported kvs pos, ∃ key first, q.fault = .duplicate k.scope key first
  refused : ∀ p, editAll k.edit s (as.map k.add) = .error p → ∃ before a, ∃ b ∈ before, ∃ what,
    (k.name b).value = (k.name a).value ∧ p = .repeated what (k.name a) (k.name b).pos ∧
    k.FailsAt s as kvs pos p (.repeated k.scope (k.name a) (k.name b).pos) before a
  made : ∀ t, editAll k.edit s (as.map k.add) = .ok t → ∃ m, k.part t = some m ∧
    m.values = as ∧ (m.keys = as.map fun a => (k.name a).value) ∧
    (∃ sec, Section.read k.scope (.mapping kvs pos) = ⟨some sec, []⟩ ∧
      sec.entries.map Entry.key = as.map k.name) ∧
    ((k.read (.mapping kvs pos)).Clean → ∃ m', (k.read (.mapping kvs pos)).value = some m' ∧
      m'.keys = m.keys ∧ m'.values.map k.name = as.map k.name)

/-- A part and its mapping agree, whatever is added to the part while it is empty. -/
def Agrees (k : KeyedPart σ ε α) : Prop :=
  ∀ s as kvs pos, k.part s = some .empty → k.Spelled as kvs → k.Agreement s as kvs pos

/-- What is kept of an entry that is read. -/
def kept (k : KeyedPart σ ε α) (e : Entry) : Option (String × α) :=
  (k.readEntry e).value.map (e.key.value, ·)

theorem kept_of_clean (h : (k.readEntry e).Clean) :
    ∃ a, k.kept e = some (e.key.value, a) ∧ k.name a = e.key := by
  obtain ⟨a, ha⟩ := (k.explained_readEntry e).exists_value h
  exact ⟨a, by rw [kept, ha, Option.map_some], k.name_readEntry e a ha⟩

/-- If nothing is wrong with entries, all of them are kept, under their keys. -/
theorem filterMap_kept (h : ∀ e ∈ es, (k.readEntry e).Clean) :
    (es.filterMap k.kept).map Prod.fst = es.map (fun e => e.key.value) ∧
      (es.filterMap k.kept).map (fun x => k.name x.2) = es.map Entry.key := by
  induction es with
  | nil => exact ⟨rfl, rfl⟩
  | cons e es ih =>
    obtain ⟨he, hes⟩ := List.forall_mem_cons.mp h
    obtain ⟨a, ha, hname⟩ := kept_of_clean he
    obtain ⟨hkeys, hnames⟩ := ih hes
    rw [List.filterMap_cons_some ha]
    constructor
    · rw [List.map_cons, List.map_cons, hkeys]
    · rw [List.map_cons, List.map_cons, hnames, hname]

theorem collect_of_clean (h : (sec.collect k.readEntry).Clean) :
    (sec.collect k.readEntry).value.keys = sec.entries.map (fun e => e.key.value) ∧
      (sec.collect k.readEntry).value.values.map k.name = sec.entries.map Entry.key := by
  have hentries : (sec.collect k.readEntry).value.entries = sec.entries.filterMap k.kept := by
    show (sec.entries.map _).filterMap _ = _
    rw [List.filterMap_map]
    rfl
  obtain ⟨hkeys, hnames⟩ := filterMap_kept (Section.clean_collect.mp h)
  constructor
  · rw [Keyed.keys, hentries]
    exact hkeys
  · rw [Keyed.values, hentries, List.map_map]
    exact hnames

/-- Two lists of names that agree one by one. -/
theorem map_key_of_names (h : List.Forall₂ k.Names as es) :
    es.map Entry.key = as.map k.name := by
  induction h with
  | nil => rfl
  | @cons a e as es ha _ ih => rw [List.map_cons, List.map_cons, ih, show e.key = k.name a from ha]

/-- What is made has the names of the section and of the mapping. -/
theorem Made.names {kvs : List (Node × Node)} {pos : Position} {m' : Keyed α}
    (h : k.Made s .empty .empty as es t m')
    (hread : Section.read k.scope (.mapping kvs pos) = some <$> Section.distinct k.scope [] es) :
    m'.values = as ∧ (m'.keys = as.map fun a => (k.name a).value) ∧
    (∃ sec, Section.read k.scope (.mapping kvs pos) = ⟨some sec, []⟩ ∧
      sec.entries.map Entry.key = as.map k.name) ∧
    ((k.read (.mapping kvs pos)).Clean → ∃ m'', (k.read (.mapping kvs pos)).value = some m'' ∧
      m''.keys = m'.keys ∧ m''.values.map k.name = as.map k.name) := by
  have hvalues : m'.values = as := h.values
  have hkeys : m'.keys = as.map fun a => (k.name a).value := by
    rw [Keyed.keys, Keyed.namedBy_iff.mp h.mirrors.named, hvalues, List.map_map]
    rfl
  have hproblems : (Section.distinct k.scope [] es).problems = [] := h.problems
  have hsection : Section.read k.scope (.mapping kvs pos) =
      ⟨some (Section.distinct k.scope [] es).value, []⟩ := by
    rw [hread, ← hproblems]
    exact Checked.ext rfl (problems_map _ _)
  have hentries : (Section.distinct k.scope [] es).value.entries.map Entry.key =
      as.map k.name := by
    rw [← hvalues]
    exact map_key_of_names h.mirrors.names
  refine ⟨hvalues, hkeys, ⟨_, hsection, hentries⟩, fun hclean => ?_⟩
  rw [k.read_eq, Section.within, hsection, andThen_of_some rfl] at hclean ⊢
  have hcollect : ((Section.distinct k.scope [] es).value.collect k.readEntry).Clean :=
    clean_map.mp hclean
  obtain ⟨hkeys', hnames'⟩ := collect_of_clean hcollect
  refine ⟨_, rfl, ?_, hnames'.trans hentries⟩
  rw [hkeys', hkeys]
  have hplaceless := congrArg (List.map Located.value) hentries
  rwa [List.map_map, List.map_map] at hplaceless

/-! ### Agreement -/

section

variable {kvs : List (Node × Node)} {pos : Position} {m' : Keyed α}

/-- What is reported of the first keys of a mapping. -/
theorem reported_take (h : kvs.map Entry.ofPair? = es.map some) (pos : Position) (n : Nat) :
    k.reported (kvs.take n) pos =
      ((es.take n).foldlM (Section.extend k.scope []) .empty).problems := by
  have htake : (kvs.take n).map Entry.ofPair? = (es.take n).map some := by
    rw [List.map_take, h, List.map_take]
  rw [reported, read_of_entries k.scope pos htake, problems_map, Section.distinct]

theorem reported_eq (h : kvs.map Entry.ofPair? = es.map some) (pos : Position) :
    k.reported kvs pos = (es.foldlM (Section.extend k.scope []) .empty).problems := by
  rw [reported, read_of_entries k.scope pos h, problems_map, Section.distinct]

/-- The keys of a part are read before its values. -/
theorem reported_prefix (h : kvs.map Entry.ofPair? = es.map some) (pos : Position) :
    k.reported kvs pos <+: (k.read (.mapping kvs pos)).problems := by
  have hvalue : (Section.read k.scope (.mapping kvs pos)).value =
      some (Section.distinct k.scope [] es).value := by
    rw [read_of_entries k.scope pos h, value_map]
  rw [k.read_eq, Section.within, andThen_of_some hvalue]
  exact List.prefix_append _ _

/-- Nothing is refused, and nothing is reported. -/
theorem Made.agreement (hmade : k.Made s .empty .empty as es t m')
    (h : kvs.map Entry.ofPair? = es.map some) : k.Agreement s as kvs pos where
  reads := reported_prefix h pos
  refused_iff := by
    constructor
    · rintro ⟨p, hp⟩
      rw [hmade.built] at hp
      cases hp
    · rintro ⟨q, hq, -⟩
      rw [reported_eq h, hmade.problems] at hq
      cases hq
  refused p hp := by
    rw [hmade.built] at hp
    cases hp
  made t' ht' := by
    rw [hmade.built] at ht'
    cases ht'
    exact ⟨m', hmade.part, hmade.names (read_of_entries k.scope pos h)⟩

variable {before : List α} {a b : α}

/-- No value is added behind the one that is refused. -/
theorem RefusedAt.editAll_eq (hat : k.RefusedAt s .empty .empty as es before a b t) :
    editAll k.edit s (as.map k.add) =
      .error (.repeated (k.label t) (k.name a) (k.name b).pos) := by
  obtain ⟨after, rfl⟩ := hat.next
  have hbefore : (before.map k.add).foldlM k.edit s = .ok t := hat.built
  rw [editAll, List.map_append, List.map_cons, List.foldlM_append, hbefore]
  show ((k.add a :: after.map k.add).foldlM k.edit t) = _
  rw [List.foldlM_cons, hat.refused]
  rfl

/-- The same name is refused and reported. -/
theorem RefusedAt.agreement (hat : k.RefusedAt s .empty .empty as es before a b t)
    (h : kvs.map Entry.ofPair? = es.map some) : k.Agreement s as kvs pos where
  reads := reported_prefix h pos
  refused_iff := by
    obtain ⟨rest, hrest⟩ := hat.first
    constructor
    · intro _
      refine ⟨.repeated k.scope (k.name a) (k.name b).pos, ?_, _, _, rfl⟩
      rw [reported_eq h, hrest]
      exact List.mem_cons_self
    · intro _
      exact ⟨_, hat.editAll_eq⟩
  refused p hp := by
    rw [hat.editAll_eq] at hp
    cases hp
    refine ⟨before, a, b, hat.taken, k.label t, hat.name, rfl, ?_⟩
    exact
      { next := hat.next
        refused := ⟨t, hat.built, hat.refused⟩
        unreported := (reported_take h pos before.length).trans hat.none
        reported := (reported_take h pos (before.length + 1)).trans hat.one
        first := by
          rw [reported_eq h]
          exact hat.first }
  made t' ht' := by
    rw [hat.editAll_eq] at ht'
    cases ht'

end

/-- A part and its mapping agree. -/
theorem agrees (k : KeyedPart σ ε α) : k.Agrees := by
  intro s as kvs pos hs hspelled
  obtain ⟨es, hpairs, hnames⟩ := hspelled.exists_entries
  obtain ⟨t, m', hmade⟩ | ⟨before, a, b, t, hat⟩ := run_cases hs mirrors_empty hnames
  · exact hmade.agreement hpairs
  · exact hat.agreement hpairs

end KeyedPart

/-! ### The parts -/

theorem Job.id_of_read {policy : Policy} {id : Text} {n : Node} {j : Job}
    (h : (Job.read policy id n).value = some j) : j.id = id := by
  unfold Job.read Section.withinOwner at h
  rcases hs : (Section.readWithPermissions s!"job \"{id.value}\"" n).value with - | s
  · rw [andThen_of_none hs] at h
    cases h
  · rw [andThen_of_some hs] at h
    obtain ⟨runsOn, -, hjob⟩ := Option.bind_eq_some_iff.mp h
    obtain ⟨steps, -, hjob⟩ := Option.bind_eq_some_iff.mp hjob
    cases hjob
    rfl

namespace KeyedPart

/-- A part that holds assignments. -/
def ofAssignments (scope : String) (what : Text → String)
    (read : Node → Checked (Option Assignments)) (edit : σ → ε → Except Problem σ)
    (add : Assignment → ε) (part : σ → Option Assignments) (put : σ → Assignments → σ)
    (label : σ → String)
    (read_eq : ∀ n, read n = Section.within scope n fun s =>
      some <$> s.collect fun e => Assignment.read (what e.key) e)
    (part_put : ∀ s m m', part s = some m → part (put s m') = some m')
    (edit_add : ∀ s m a, part s = some m → edit s (add a) =
      (m.addUnique (label s) a.name a fun b => b.name.pos) >>= fun m' => .ok (put s m')) :
    KeyedPart σ ε Assignment where
  name := Assignment.name
  scope
  readEntry e := Assignment.read (what e.key) e
  read
  edit
  add
  part
  put
  label
  name_readEntry e a h := by
    obtain ⟨value, -, rfl⟩ := Option.map_eq_some_iff.mp h
    rfl
  explained_readEntry e := Assignment.explained_read (what e.key) e
  read_eq
  part_put
  edit_add

/-- The variables of a workflow. -/
def workflowEnv (what : String) : KeyedPart Workflow WorkflowEdit Assignment :=
  ofAssignments what (fun key => s!"value of env var \"{key.value}\" in {what}") (readEnv what)
    Workflow.edit (fun a => .env a.name a.value) (fun w => some w.env)
    (fun w env => { w with env }) (fun _ => "\"env\" section") (fun _ => rfl)
    (fun _ _ _ _ => rfl) (fun _ _ _ h => by cases h; rfl)

/-- The jobs of a workflow. -/
def jobs (policy : Policy) : KeyedPart Workflow WorkflowEdit Job where
  name := Job.id
  scope := "\"jobs\" section"
  readEntry e := Job.read policy e.key e.value
  read := Job.readAll policy
  edit := Workflow.edit
  add := .job
  part w := some w.jobs
  put w jobs := { w with jobs }
  label _ := "\"jobs\" section"
  name_readEntry _ _ h := Job.id_of_read h
  explained_readEntry e := Job.explained_read policy e.key e.value
  read_eq _ := rfl
  part_put _ _ _ _ := rfl
  edit_add _ _ _ h := by cases h; rfl

/-- The variables of a job. -/
def jobEnv (what : String) : KeyedPart Job JobEdit Assignment :=
  ofAssignments what (fun key => s!"value of env var \"{key.value}\" in {what}") (readEnv what)
    Job.edit (fun a => .env a.name a.value) (fun j => some j.env) (fun j env => { j with env })
    (fun j => j.partOf "env") (fun _ => rfl) (fun _ _ _ _ => rfl) (fun _ _ _ h => by cases h; rfl)

/-- The outputs of a job. -/
def jobOutputs (what : String) : KeyedPart Job JobEdit Assignment :=
  ofAssignments what (fun key => s!"output \"{key.value}\"") (Job.readOutputs what) Job.edit
    (fun a => .output a.name a.value) (fun j => some j.outputs)
    (fun j outputs => { j with outputs }) (fun j => j.partOf "outputs") (fun _ => rfl)
    (fun _ _ _ _ => rfl) (fun _ _ _ h => by cases h; rfl)

/-- The containers beside a job. -/
def jobServices (policy : Policy) (what : String) : KeyedPart Job JobEdit Service where
  name := Service.name
  scope := what
  readEntry e := (Option.map fun container => ⟨e.key, container⟩) <$>
    Container.read policy s!"service \"{e.key.value}\"" e.value
  read := readServices policy what
  edit := Job.edit
  add := .service
  part j := some j.services
  put j services := { j with services }
  label j := j.partOf "services"
  name_readEntry e a h := by
    obtain ⟨container, -, rfl⟩ := Option.map_eq_some_iff.mp h
    rfl
  explained_readEntry _ := explained_optionMap.mpr (Container.explained_read _ _ _)
  read_eq _ := rfl
  part_put _ _ _ _ := rfl
  edit_add _ _ _ h := by cases h; rfl

/-- The variables of a step. -/
def stepEnv (what : String) : KeyedPart Step StepEdit Assignment :=
  ofAssignments what (fun key => s!"value of env var \"{key.value}\" in {what}") (readEnv what)
    Step.edit (fun a => .env a.name a.value) (fun s => some s.env) (fun s env => { s with env })
    (fun _ => "\"env\" of step") (fun _ => rfl) (fun _ _ _ _ => rfl)
    (fun _ _ _ h => by cases h; rfl)

/-- What is passed to the action of a step, if it uses one. -/
def stepInputs (owner : String) : KeyedPart Step StepEdit Assignment :=
  ofAssignments s!"\"with\" in {owner}" (fun key => s!"input \"{key.value}\" in {owner}")
    (ActionUse.readInputs owner) Step.edit (fun a => .input a.name a.value)
    (fun s => match s.exec with
      | .action a => some a.inputs
      | .run _ => none)
    (fun s inputs => match s.exec with
      | .action a => { s with exec := .action { a with inputs } }
      | .run _ => s)
    (fun _ => "\"with\" of step") (fun _ => rfl)
    (fun s m m' h => by
      rcases s with ⟨_, _, _, r | a⟩
      · cases h
      · rfl)
    (fun s m a h => by
      rcases s with ⟨_, _, _, r | a⟩
      · cases h
      · cases h
        rfl)

end KeyedPart

/-- **A name is refused where it is reported.**  Each of the seven parts that are both edited and read
agrees with a mapping that has the names of the values as its keys, in order: adding the values one
by one is refused if and only if a repeated key is reported, namely for the value at whose entry the
first one is reported, with the same name, the same place of it and the same place of the first one.
If nothing is refused, both have exactly these names. -/
theorem keyedParts_agree :
    (∀ what, (KeyedPart.workflowEnv what).Agrees) ∧ (∀ policy, (KeyedPart.jobs policy).Agrees) ∧
    (∀ what, (KeyedPart.jobEnv what).Agrees) ∧ (∀ what, (KeyedPart.jobOutputs what).Agrees) ∧
    (∀ policy what, (KeyedPart.jobServices policy what).Agrees) ∧
    (∀ what, (KeyedPart.stepEnv what).Agrees) ∧ ∀ owner, (KeyedPart.stepInputs owner).Agrees := by
  refine ⟨?_, ?_, ?_, ?_, ?_, ?_, ?_⟩
  -- parts of workflows
  · intro what
    exact (KeyedPart.workflowEnv what).agrees
  · intro policy
    exact (KeyedPart.jobs policy).agrees
  -- parts of jobs
  · intro what
    exact (KeyedPart.jobEnv what).agrees
  · intro what
    exact (KeyedPart.jobOutputs what).agrees
  · intro policy what
    exact (KeyedPart.jobServices policy what).agrees
  -- parts of steps
  · intro what
    exact (KeyedPart.stepEnv what).agrees
  · intro owner
    exact (KeyedPart.stepInputs owner).agrees

/-- Three variables, two of which have one name. -/
def Assignment.colors : List Assignment :=
  [⟨⟨"COLOR", ⟨2, 3⟩⟩, ⟨"red", ⟨2, 10⟩⟩⟩, ⟨⟨"SHAPE", ⟨3, 3⟩⟩, ⟨"disc", ⟨3, 10⟩⟩⟩,
    ⟨⟨"COLOR", ⟨4, 3⟩⟩, ⟨"blue", ⟨4, 10⟩⟩⟩]

/-- A mapping with the same names. -/
def Node.colors : List (Node × Node) :=
  [(.scalar "COLOR" true ⟨2, 3⟩, .scalar "red" true ⟨2, 10⟩),
    (.scalar "SHAPE" true ⟨3, 3⟩, .scalar "disc" true ⟨3, 10⟩),
    (.scalar "COLOR" true ⟨4, 3⟩, .scalar "blue" true ⟨4, 10⟩)]

/-- The third variable is refused, and the third entry is reported. -/
theorem keyedParts_agree_on_colors :
    editAll Workflow.edit (.ofTrigger (.repositoryDispatch { pos := ⟨1, 5⟩ }))
      (Assignment.colors.map fun a => .env a.name a.value) =
        .error (.repeated "\"env\" section" ⟨"COLOR", ⟨4, 3⟩⟩ ⟨2, 3⟩) ∧
    (Section.read "\"env\" section" (.mapping Node.colors ⟨2, 3⟩)).problems =
      [.repeated "\"env\" section" ⟨"COLOR", ⟨4, 3⟩⟩ ⟨2, 3⟩] ∧
    (KeyedPart.workflowEnv "\"env\" section").Agreement
      (.ofTrigger (.repositoryDispatch { pos := ⟨1, 5⟩ })) Assignment.colors Node.colors ⟨2, 3⟩ := by
  refine ⟨rfl, rfl, keyedParts_agree.1 _ _ _ _ _ rfl ?_⟩
  exact .cons rfl (.cons rfl (.cons rfl .nil))

end WorkflowTree
