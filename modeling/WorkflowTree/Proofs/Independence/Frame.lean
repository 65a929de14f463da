import WorkflowTree.Proofs.Acceptance.Workflow
import WorkflowTree.Proofs.Reordering.Alike

/-!
# What stands around the jobs of a file

A file is split into its jobs and a *frame* (`Workflow.Frame`), which holds all other entries.  The
problems of the file are those of its jobs between those of the frame
(`Workflow.Frame.exists_problems_read`), and what the jobs add to the workflow is one of its fields
(`Workflow.Frame.exists_value_read`).  In both cases the part of the frame is the same for all jobs.
-/

namespace WorkflowTree

open Checked

variable {α β : Type} {key key' : String} {s s' : Section}

/-! ### Sections that agree -/

namespace Section

/-- Two sections have the same under all keys but one. -/
def AgreeBut (key : String) (s s' : Section) : Prop := ∀ key', key' ≠ key → s.get? key' = s'.get? key'

theorem AgreeBut.require (h : s.AgreeBut key s') (hkey : key' ≠ key) (value : Option α)
    (what : String) (pos : Position) :
    s.require value key' what pos = s'.require value key' what pos := by
  have hhas : s.has key' = s'.has key' := by
    rw [Bool.eq_iff_iff, has_iff, has_iff, h key' hkey]
  rw [Section.require, Section.require, hhas]

/-- A form that lists a key last speaks of its entry, and of no other one. -/
theorem entryProblems_of_last {policy : Policy} {what : String} {f : Form α}
    {fields : List (String × List Problem)} {ps : List Problem}
    (hf : f.fields = fields ++ [(key, ps)]) (nodup : f.keys.Nodup) {e : Entry}
    (he : e.key.value = key) : entryProblems policy what f e = ps := by
  have hmem : (key, ps) ∈ f.fields := by
    rw [hf]
    exact List.mem_append_right _ (List.mem_singleton_self _)
  have hlookup : f.fields.lookup key = some ps := (Keyed.lookup_eq_some nodup).mpr hmem
  rw [entryProblems, he, hlookup]

theorem entryProblems_congr {policy : Policy} {what : String} {f : Form α} {g : Form β}
    {fields : List (String × List Problem)} {ps qs : List Problem}
    (hf : f.fields = fields ++ [(key, ps)]) (hg : g.fields = fields ++ [(key, qs)]) {e : Entry}
    (he : e.key.value ≠ key) :
    entryProblems policy what f e = entryProblems policy what g e := by
  have hlookup : ∀ ps : List Problem,
      (fields ++ [(key, ps)]).lookup e.key.value = fields.lookup e.key.value := by
    intro ps
    rw [List.lookup_append, Keyed.lookup_cons, if_neg he, List.lookup_nil, Option.or_none]
  have hkeys : f.keys = g.keys := by
    rw [Form.keys, Form.keys, hf, hg, List.map_append, List.map_append]
    rfl
  rw [entryProblems, entryProblems, hf, hg, hlookup, hlookup, hkeys]

end Section

namespace Workflow

/-! ### Frames -/

/-- A file without its jobs: the entries before and after them, and the key and the places of their
mapping.  No key of the file has the text of another one. -/
structure Frame where
  before : List (Node × Node)
  jobsKey : Node
  jobsPos : Position
  after : List (Node × Node)
  pos : Position
  isJobsKey : jobsKey.text? = some "jobs"
  nodup : ((before.map Prod.fst ++ jobsKey :: after.map Prod.fst).filterMap Node.text?).Nodup

namespace Frame

/-- The entries of the file with these jobs. -/
def entries (f : Frame) (jobs : List (Node × Node)) : List (Node × Node) :=
  f.before ++ (f.jobsKey, .mapping jobs f.jobsPos) :: f.after

/-- The file with these jobs. -/
def withJobs (f : Frame) (jobs : List (Node × Node)) : Node := .mapping (f.entries jobs) f.pos

variable {f : Frame} {jobs : List (Node × Node)}

theorem distinctKeys (f : Frame) (jobs : List (Node × Node)) :
    (f.withJobs jobs).DistinctKeys := by
  intro kvs hkvs
  obtain rfl := Option.some.inj hkvs
  have hnodup := f.nodup
  have hkeys : f.before.map Prod.fst ++ f.jobsKey :: f.after.map Prod.fst =
      (f.entries jobs).map Prod.fst := by
    rw [entries, List.map_append, List.map_cons]
  rw [hkeys, List.filterMap_map] at hnodup
  exact hnodup

/-- Each file whose keys are distinct and whose jobs are a mapping has a frame. -/
theorem exists_withJobs {root : Node} {pos : Position} (hroot : root.DistinctKeys)
    (hjobs : root.get? "jobs" = some (.mapping jobs pos)) : ∃ f : Frame, f.withJobs jobs = root := by
  obtain ⟨key, kvs, start, rfl, hmem, hkey⟩ := Node.get?_eq_some hjobs
  obtain ⟨before, after, rfl⟩ := List.append_of_mem hmem
  have hnodup := hroot _ rfl
  refine ⟨⟨before, key, pos, after, start, hkey, ?_⟩, rfl⟩
  have hkeys : before.map Prod.fst ++ key :: after.map Prod.fst =
      (before ++ (key, Node.mapping jobs pos) :: after).map Prod.fst := by
    rw [List.map_append, List.map_cons]
  rw [hkeys, List.filterMap_map]
  exact hnodup

/-- The entry of the jobs. -/
def jobsEntry (f : Frame) (jobs : List (Node × Node)) : Entry :=
  ⟨⟨"jobs", f.jobsKey.pos⟩, .mapping jobs f.jobsPos⟩

/-- The file as a section. -/
def toSection (f : Frame) (jobs : List (Node × Node)) : Section where
  entries := (f.entries jobs).filterMap Entry.ofPair?
  nodup := by
    rw [Section.keys_ofPair?]
    exact f.distinctKeys jobs _ rfl

theorem entries_toSection (f : Frame) (jobs : List (Node × Node)) :
    (f.toSection jobs).entries = f.before.filterMap Entry.ofPair? ++
      f.jobsEntry jobs :: f.after.filterMap Entry.ofPair? := by
  have hentry : Entry.ofPair? (f.jobsKey, .mapping jobs f.jobsPos) = some (f.jobsEntry jobs) := by
    have hkey := f.isJobsKey
    rw [Node.text?_eq_leaf?] at hkey
    obtain ⟨t, ht, htext⟩ := Option.map_eq_some_iff.mp hkey
    have hpos := Node.leaf?_pos ht
    rcases t with ⟨text, pos⟩
    dsimp only at htext hpos
    rw [Entry.ofPair?, ht, htext, hpos]
    rfl
  show (f.entries jobs).filterMap Entry.ofPair? = _
  rw [entries, List.filterMap_append, List.filterMap_cons_some hentry]

/-- The other entries have other keys. -/
theorem key_ne_jobs (f : Frame) {e : Entry} (he : e ∈ f.before.filterMap Entry.ofPair? ∨
    e ∈ f.after.filterMap Entry.ofPair?) : e.key.value ≠ "jobs" := by
  have hnodup := (f.toSection []).nodup
  rw [entries_toSection, List.map_append, List.map_cons] at hnodup
  obtain ⟨-, hafter, hbefore⟩ := List.nodup_append.mp hnodup
  intro hkey
  rcases he with he | he
  · exact hbefore _ (List.mem_map_of_mem he) _ List.mem_cons_self hkey
  · apply (List.nodup_cons.mp hafter).1
    show "jobs" ∈ _
    rw [← hkey]
    exact List.mem_map_of_mem he

theorem get?_toSection_jobs (f : Frame) (jobs : List (Node × Node)) :
    (f.toSection jobs).get? "jobs" = some (.mapping jobs f.jobsPos) := by
  have hmem : f.jobsEntry jobs ∈ (f.toSection jobs).entries := by
    rw [entries_toSection]
    exact List.mem_append_right _ List.mem_cons_self
  have hfind : (f.toSection jobs).find? "jobs" = some (f.jobsEntry jobs) :=
    Section.find?_eq_some.mpr ⟨hmem, rfl⟩
  rw [Section.get?, hfind]
  rfl

/-- What stands under the other keys does not depend on the jobs. -/
theorem agreeBut_toSection (f : Frame) (jobs jobs' : List (Node × Node)) :
    (f.toSection jobs).AgreeBut "jobs" (f.toSection jobs') := by
  intro key hkey
  have hother : ∀ jobs, (f.toSection jobs).find? key =
      (f.before.filterMap Entry.ofPair? ++ f.after.filterMap Entry.ofPair?).find?
        fun e => e.key.value == key := by
    intro jobs
    rw [Section.find?, entries_toSection, List.find?_append, List.find?_append,
      List.find?_cons_of_neg (by simpa [jobsEntry] using Ne.symm hkey)]
  rw [Section.get?, Section.get?, hother, hother]

/-! ### Reading a file -/

/-- The problems of keys that are no texts. -/
def keyProblems (f : Frame) (jobs : List (Node × Node)) : List Problem :=
  (f.entries jobs).flatMap fun kv => (Entry.read "workflow" kv).problems

theorem readWithPermissions_withJobs (f : Frame) (jobs : List (Node × Node)) :
    Section.readWithPermissions "workflow" (f.withJobs jobs) =
      ⟨some (f.toSection jobs), f.keyProblems jobs⟩ := by
  rw [Section.readWithPermissions_of_distinctKeys _ (f.distinctKeys jobs), withJobs,
    Section.read_of_distinctKeys _ (f.distinctKeys jobs)]
  rfl

theorem keyProblems_eq (f : Frame) (jobs jobs' : List (Node × Node)) :
    f.keyProblems jobs = f.keyProblems jobs' := by
  have hread : ∀ v v' : Node, (Entry.read "workflow" (f.jobsKey, v)).problems =
      (Entry.read "workflow" (f.jobsKey, v')).problems := by
    intro v v'
    unfold Entry.read
    rcases f.jobsKey.leaf? with - | t <;> rfl
  simp only [keyProblems, entries, List.flatMap_append, List.flatMap_cons]
  rw [hread _ (.mapping jobs' f.jobsPos)]

/-- The form of a file is the same for all jobs, but for what it says of the jobs. -/
theorem readFields_toSection (policy : Policy) (f : Frame) (jobs : List (Node × Node)) :
    (readFields policy "workflow" (f.toSection jobs)).value =
        ((readFields policy "workflow" (f.toSection [])).value.1,
          (Job.readAll policy (.mapping jobs f.jobsPos)).value,
          (readFields policy "workflow" (f.toSection [])).value.2.2) ∧
      (readFields policy "workflow" (f.toSection jobs)).fields =
        (readFields policy "workflow" (f.toSection [])).fields.dropLast ++
          [("jobs", (Job.readAll policy (.mapping jobs f.jobsPos)).problems)] := by
  have h := f.agreeBut_toSection jobs []
  have hjobs := f.get?_toSection_jobs jobs
  have hpermissions := h Section.permissionsKey (by decide)
  constructor
  · simp [readFields, h _, hpermissions, hjobs]
  · simp [readFields, Section.problemsAt, h _, hpermissions, hjobs]

/-- Reading a file fills its form, and then its required keys are asked for. -/
theorem read_withJobs (policy : Policy) (f : Frame) (jobs : List (Node × Node)) :
    let s := f.toSection jobs
    let form := readFields policy "workflow" s
    read policy (f.withJobs jobs) =
      ⟨form.value.1.bind fun triggers => form.value.2.1.map (form.value.2.2 triggers),
        f.keyProblems jobs ++ ((s.fill policy "workflow" form).problems ++
          ((s.require form.value.1 "on" "workflow" f.pos).problems ++
            (s.require form.value.2.1 "jobs" "workflow" f.pos).problems))⟩ := by
  dsimp only
  rw [read, Section.withinOwner, readWithPermissions_withJobs, andThen_of_some rfl]
  generalize readFields policy "workflow" (f.toSection jobs) = form
  obtain ⟨⟨triggers, js, complete⟩, fields⟩ := form
  apply Checked.ext
  · rcases triggers with - | ts
    · rfl
    · rcases js with - | js <;> rfl
  · show _ ++ (_ ++ (_ ++ (_ ++ []))) = _
    rw [List.append_nil]
    rfl

/-- What the jobs add to the problems of a file stands between the problems of the frame. -/
theorem exists_problems_read (policy : Policy) (f : Frame) : ∃ before after : List Problem,
    ∀ jobs, (read policy (f.withJobs jobs)).problems =
      before ++ ((Job.readAll policy (.mapping jobs f.jobsPos)).problems ++ after) := by
  -- the problems of the other entries are those of the frame without any jobs
  let others (es : List (Node × Node)) : List Problem :=
    (es.filterMap Entry.ofPair?).flatMap (Section.entryProblems policy "workflow"
      (readFields policy "workflow" (f.toSection [])))
  let lacked : List Problem := ((f.toSection []).require
    (readFields policy "workflow" (f.toSection [])).value.1 "on" "workflow" f.pos).problems
  refine ⟨f.keyProblems [] ++ others f.before, others f.after ++ lacked, fun jobs => ?_⟩
  obtain ⟨hvalue, hfields⟩ := readFields_toSection policy f jobs
  obtain ⟨-, hfields₀⟩ := readFields_toSection policy f []
  -- a form speaks of such an entry in the same way, whatever the jobs are
  have hothers : ∀ es : List (Node × Node), (∀ e ∈ es.filterMap Entry.ofPair?,
      e.key.value ≠ "jobs") → (es.filterMap Entry.ofPair?).flatMap (Section.entryProblems policy
        "workflow" (readFields policy "workflow" (f.toSection jobs))) = others es := by
    intro es hes
    apply List.flatMap_congr
    intro e he
    exact Section.entryProblems_congr hfields hfields₀ (hes e he)
  have hjobs : Section.entryProblems policy "workflow"
      (readFields policy "workflow" (f.toSection jobs)) (f.jobsEntry jobs) =
        (Job.readAll policy (.mapping jobs f.jobsPos)).problems :=
    Section.entryProblems_of_last hfields (nodup_readFields ..) rfl
  have hfill : ((f.toSection jobs).fill policy "workflow"
      (readFields policy "workflow" (f.toSection jobs))).problems = others f.before ++
        ((Job.readAll policy (.mapping jobs f.jobsPos)).problems ++ others f.after) := by
    rw [Section.fill, entries_toSection, List.flatMap_append, List.flatMap_cons, hjobs,
      hothers f.before fun e he => f.key_ne_jobs (.inl he),
      hothers f.after fun e he => f.key_ne_jobs (.inr he)]
  have hlacked : ((f.toSection jobs).require
      (readFields policy "workflow" (f.toSection jobs)).value.1 "on" "workflow" f.pos).problems =
        lacked := by
    rw [hvalue, (f.agreeBut_toSection jobs []).require (by decide)]
  -- the jobs are there, so they are not missed, even if none of them can be read
  have hhas : (f.toSection jobs).has "jobs" = true :=
    Section.has_iff.mpr ⟨_, f.get?_toSection_jobs jobs⟩
  have hnone : ((f.toSection jobs).require (readFields policy "workflow"
      (f.toSection jobs)).value.2.1 "jobs" "workflow" f.pos).problems = [] := by
    rw [Section.require, hhas, Bool.not_true, Bool.and_false, if_neg Bool.false_ne_true]
  rw [read_withJobs]
  dsimp only
  rw [f.keyProblems_eq jobs [], hfill, hlacked, hnone]
  simp only [List.append_assoc, List.append_nil]

/-- What the jobs add to the workflow of a file is one of its fields. -/
theorem exists_value_read (policy : Policy) (f : Frame) :
    ∃ (triggers : Option (List Trigger)) (complete : List Trigger → Keyed Job → Workflow),
      (∀ ts jobs, (complete ts jobs).jobs = jobs) ∧
      (∀ ts jobs jobs', { complete ts jobs with jobs := jobs' } = complete ts jobs') ∧
      ∀ jobs, (read policy (f.withJobs jobs)).value = triggers.bind fun ts =>
        (Job.readAll policy (.mapping jobs f.jobsPos)).value.map (complete ts) := by
  refine ⟨(readFields policy "workflow" (f.toSection [])).value.1,
    (readFields policy "workflow" (f.toSection [])).value.2.2, fun _ _ => rfl, fun _ _ _ => rfl,
    fun jobs => ?_⟩
  rw [read_withJobs]
  dsimp only
  rw [(readFields_toSection policy f jobs).1]

end Frame

end Workflow

end WorkflowTree
