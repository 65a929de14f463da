import WorkflowTree.Proofs.Independence.Frame
import WorkflowTree.Proofs.Leniency.Workflow

/-!
# Jobs do not depend on each other

Reading several jobs is reading each of them alone (`Section.problems_free`, `Section.value_free`).
A file with several jobs has the problems of the files with one of them each, if the problems of its
frame are counted once, and its workflow is put together from theirs (`Workflow.parse_jobs`).
-/

namespace WorkflowTree

open Checked

variable {α β : Type}

/-! ### Free sections -/

namespace Section

variable {what : String} {kvs : List (Node × Node)} {pos : Position}
variable {read : Entry → Checked (Option α)}

theorem distinctKeys_of_isSection (h : (Node.mapping kvs pos).IsSection) :
    (Node.mapping kvs pos).DistinctKeys := by
  intro kvs' hkvs'
  obtain rfl := Option.some.inj hkvs'
  obtain ⟨_, hkvs, htext, hnodup⟩ := h
  obtain rfl := Option.some.inj hkvs
  rw [Entry.keys_filterMap_ofPair? htext] at hnodup
  rw [← keys_ofPair?]
  exact hnodup.of_map _

theorem flatMap_filterMap_ofPair? (g : Entry → List β) (kvs : List (Node × Node)) :
    (kvs.filterMap Entry.ofPair?).flatMap g =
      kvs.flatMap fun kv => (Entry.ofPair? kv).elim [] g := by
  induction kvs with
  | nil => rfl
  | cons kv kvs ih =>
    rcases h : Entry.ofPair? kv with - | e
    · rw [List.filterMap_cons_none h, List.flatMap_cons, h, ih]
      rfl
    · rw [List.filterMap_cons_some h, List.flatMap_cons, List.flatMap_cons, h, ih]
      rfl

/-- What is read of an entry alone: its problems. -/
def entryProblemsOf (read : Entry → Checked (Option α)) (kv : Node × Node) : List Problem :=
  (Entry.ofPair? kv).elim [] fun e => (read e).problems

/-- What is read of an entry alone: the value, under the key of the entry. -/
def entryValuesOf (read : Entry → Checked (Option α)) (kv : Node × Node) : List (String × α) :=
  (Entry.ofPair? kv).elim [] fun e => ((read e).value.map (e.key.value, ·)).toList

theorem read_of_isSection (what : String) (h : (Node.mapping kvs pos).IsSection) :
    ∃ s, Section.read what (.mapping kvs pos) = ⟨some s, []⟩ ∧
      s.entries = kvs.filterMap Entry.ofPair? := by
  have hproblems : (Section.read what (.mapping kvs pos)).problems = [] := clean_read.mpr h
  have hread := read_of_distinctKeys what (distinctKeys_of_isSection h)
  rw [hread] at hproblems
  dsimp only at hproblems
  rw [hread, hproblems]
  exact ⟨_, rfl, rfl⟩

/-- The problems of entries with distinct texts as keys are those of each entry. -/
theorem problems_free (h : (Node.mapping kvs pos).IsSection) :
    (within what (.mapping kvs pos) fun s => some <$> s.collect read).problems =
      kvs.flatMap (entryProblemsOf read) := by
  obtain ⟨s, hs, hentries⟩ := read_of_isSection what h
  have hcollect : (s.collect read).problems = s.entries.flatMap fun e => (read e).problems := by
    simp [collect, List.flatMap_map]
  rw [within, hs, andThen_of_some rfl]
  show [] ++ (some <$> s.collect read).problems = _
  rw [List.nil_append, problems_map, hcollect, hentries, flatMap_filterMap_ofPair?]
  rfl

theorem value_free (h : (Node.mapping kvs pos).IsSection) :
    ∃ m, (within what (.mapping kvs pos) fun s => some <$> s.collect read).value = some m ∧
      m.entries = kvs.flatMap (entryValuesOf read) := by
  obtain ⟨s, hs, hentries⟩ := read_of_isSection what h
  rw [within, hs, andThen_of_some rfl]
  refine ⟨_, rfl, ?_⟩
  have hkeyed : (s.collect read).value.entries =
      s.entries.flatMap fun e => ((read e).value.map (e.key.value, ·)).toList := by
    rw [← List.filterMap_eq_flatMap_toList]
    simp [collect, keyed, List.filterMap_map]
  rw [hkeyed, hentries, flatMap_filterMap_ofPair?]
  rfl

end Section

/-! ### Parts between others -/

/-- Parts that stand between the same others each time are the parts and as many others. -/
theorem perm_flatMap_between [DecidableEq α] (before after : List α) (part : β → List α)
    (bs : List β) : (bs.flatMap fun b => before ++ (part b ++ after)).Perm
      ((List.replicate bs.length (before ++ after)).flatten ++ bs.flatMap part) := by
  induction bs with
  | nil => exact .nil
  | cons b bs ih =>
    rw [List.perm_iff_count] at ih ⊢
    intro a
    have hcount := ih a
    simp only [List.flatMap_cons, List.length_cons, List.replicate_succ, List.flatten_cons,
      List.count_append] at hcount ⊢
    omega

theorem perm_flatten_replicate {as bs : List α} (h : as.Perm bs) (n : Nat) :
    (List.replicate n as).flatten.Perm (List.replicate n bs).flatten := by
  induction n with
  | zero => exact .nil
  | succ n ih =>
    rw [List.replicate_succ, List.replicate_succ, List.flatten_cons, List.flatten_cons]
    exact h.append ih

namespace Workflow

variable {policy : Policy} {f : Frame} {es : List (Node × Node)}

/-! ### Jobs -/

/-- Entries that are jobs: their ids are texts, and no two of them are the same. -/
structure AreJobs (es : List (Node × Node)) : Prop where
  text : ∀ e ∈ es, e.1.IsText
  nodup : (es.map fun e => e.1.text?).Nodup

theorem AreJobs.isSection (h : AreJobs es) (pos : Position) : (Node.mapping es pos).IsSection :=
  ⟨es, rfl, h.text, h.nodup⟩

theorem AreJobs.single (h : AreJobs es) {e : Node × Node} (he : e ∈ es) : AreJobs [e] where
  text := by
    intro e' he'
    obtain rfl := List.mem_singleton.mp he'
    exact h.text e' he
  nodup := List.nodup_singleton _

/-- Reads a job from its entry. -/
def readJob (policy : Policy) (e : Entry) : Checked (Option Job) := Job.read policy e.key e.value

theorem problems_readAll (policy : Policy) (h : AreJobs es) (pos : Position) :
    (Job.readAll policy (.mapping es pos)).problems =
      es.flatMap (Section.entryProblemsOf (readJob policy)) :=
  Section.problems_free (h.isSection pos)

theorem value_readAll (policy : Policy) (h : AreJobs es) (pos : Position) :
    ∃ jobs, (Job.readAll policy (.mapping es pos)).value = some jobs ∧
      jobs.entries = es.flatMap (Section.entryValuesOf (readJob policy)) :=
  Section.value_free (h.isSection pos)

/-- The problems of several jobs, and those of the frame for all jobs but one, are the problems of
each job alone. -/
theorem problems_withJobs (policy : Policy) (f : Frame) (h : AreJobs es) (hes : es ≠ []) :
    ((read policy (f.withJobs es)).problems ++ (List.replicate (es.length - 1)
      (read policy (f.withJobs [])).problems).flatten).Perm
        (es.flatMap fun e => (read policy (f.withJobs [e])).problems) := by
  obtain ⟨before, after, hread⟩ := f.exists_problems_read policy
  have hnone : (read policy (f.withJobs [])).problems = before ++ after := by
    have hempty : AreJobs [] := ⟨by simp, List.nodup_nil⟩
    rw [hread, problems_readAll policy hempty]
    rfl
  have hsingle : ∀ e ∈ es, (read policy (f.withJobs [e])).problems =
      before ++ (Section.entryProblemsOf (readJob policy) e ++ after) := by
    intro e he
    rw [hread, problems_readAll policy (h.single he), List.flatMap_singleton]
  obtain ⟨n, hn⟩ := Nat.exists_eq_succ_of_ne_zero (mt List.length_eq_zero_iff.mp hes)
  rw [List.flatMap_congr hsingle, hread, problems_readAll policy h, hnone]
  -- of the copies of the frame one belongs to the whole
  refine .trans ?_ (perm_flatMap_between before after _ es).symm
  rw [hn, Nat.succ_sub_one, List.replicate_succ, List.flatten_cons, List.perm_iff_count]
  intro p
  simp only [List.count_append]
  omega

/-- If each job alone is accepted, so are all of them: the workflow has the jobs of each file with
one job, and apart from them it is the workflow of each of these files. -/
theorem parse_withJobs_ok (h : AreJobs es) (hes : es ≠ []) {single : Node × Node → Workflow}
    (hsingle : ∀ e ∈ es, parse policy (f.withJobs [e]) = .ok (single e)) :
    ∃ w, parse policy (f.withJobs es) = .ok w ∧
      w.jobs.entries = es.flatMap (fun e => (single e).jobs.entries) ∧
      ∀ e ∈ es, { w with jobs := (single e).jobs } = single e := by
  obtain ⟨triggers, complete, hjobs, hothers, hvalue⟩ := f.exists_value_read policy
  obtain ⟨jobs, hall, hentries⟩ := value_readAll policy h f.jobsPos
  -- the workflow of one job is completed with this job
  have hparts : ∀ e ∈ es, ∃ ts, triggers = some ts ∧ complete ts (single e).jobs = single e ∧
      (single e).jobs.entries = Section.entryValuesOf (readJob policy) e := by
    intro e he
    obtain ⟨job, hjob, hentry⟩ := value_readAll policy (h.single he) f.jobsPos
    have hread := (parse_eq_ok_iff.mp (hsingle e he)).2
    rw [hvalue, hjob] at hread
    obtain ⟨ts, hts, hcomplete⟩ := Option.bind_eq_some_iff.mp hread
    have hsingle : complete ts job = single e := Option.some.inj hcomplete
    refine ⟨ts, hts, ?_, ?_⟩
    · rw [← hsingle, hjobs]
    · rw [← hsingle, hjobs, hentry, List.flatMap_singleton]
  have hclean : (read policy (f.withJobs es)).problems = [] := by
    have hnone : (es.flatMap fun e => (read policy (f.withJobs [e])).problems) = [] := by
      rw [List.flatMap_eq_nil_iff]
      intro e he
      exact (parse_eq_ok_iff.mp (hsingle e he)).1
    have hperm := problems_withJobs policy f h hes
    rw [hnone] at hperm
    exact (List.append_eq_nil_iff.mp hperm.eq_nil).1
  -- the triggers are those of any of the jobs
  obtain ⟨e, he⟩ := List.exists_mem_of_ne_nil es hes
  obtain ⟨ts, hts, -, -⟩ := hparts e he
  refine ⟨complete ts jobs, parse_eq_ok_iff.mpr ⟨hclean, ?_⟩, ?_, ?_⟩
  · rw [hvalue, hts, hall, Option.bind_some, Option.map_some]
  · rw [hjobs, hentries]
    apply List.flatMap_congr
    intro e he
    obtain ⟨_, _, _, hentry⟩ := hparts e he
    exact hentry.symm
  · intro e he
    obtain ⟨ts', hts', hcomplete, -⟩ := hparts e he
    obtain rfl : ts = ts' := Option.some.inj (hts.symm.trans hts')
    rw [hothers]
    exact hcomplete

/-- **Jobs do not depend on each other**: where all problems are kept, the problems of a file with
several jobs, and for each job but one those of the file without jobs, are the problems of the files
with one of the jobs each.  If all of these files are accepted, so is the whole.  Its jobs are theirs,
none of which have an id in common, and it agrees with each of them in all other fields. -/
theorem parse_jobs (policy : Policy) (f : Frame) (es : List (Node × Node))
    (hbudget : policy.budget = none) (h : AreJobs es) (hes : es ≠ []) :
    (reported policy (f.withJobs es) ++ (List.replicate (es.length - 1)
        (reported policy (f.withJobs []))).flatten).Perm
      (es.flatMap fun e => reported policy (f.withJobs [e])) ∧
    ∀ single : Node × Node → Workflow,
      (∀ e ∈ es, parse policy (f.withJobs [e]) = .ok (single e)) →
      ∃ w, parse policy (f.withJobs es) = .ok w ∧
        w.jobs.entries = es.flatMap (fun e => (single e).jobs.entries) ∧
        (es.Pairwise fun e e' => (single e).jobs.keys.Disjoint (single e').jobs.keys) ∧
        ∀ e ∈ es, { w with jobs := (single e).jobs } = single e := by
  have hreported : ∀ root, (reported policy root).Perm (read policy root).problems :=
    reported_perm hbudget
  constructor
  · have hleft := (hreported (f.withJobs es)).append
      (perm_flatten_replicate (hreported (f.withJobs [])) (es.length - 1))
    have hright := List.Perm.flatMap_left es fun e _ => hreported (f.withJobs [e])
    exact hleft.trans ((problems_withJobs policy f h hes).trans hright.symm)
  · intro single hsingle
    obtain ⟨w, hw, hentries, hothers⟩ := parse_withJobs_ok h hes hsingle
    refine ⟨w, hw, hentries, ?_, hothers⟩
    -- no key of the whole is repeated, so the parts have none in common
    have hnodup := w.jobs.nodup
    rw [hentries, List.map_flatMap, List.nodup_flatMap] at hnodup
    exact hnodup.2

/-- A file that a push starts, without its jobs. -/
def onPush : Frame where
  before := [(.scalar "on" true ⟨1, 1⟩, .scalar "push" true ⟨1, 5⟩)]
  jobsKey := .scalar "jobs" true ⟨2, 1⟩
  jobsPos := ⟨3, 3⟩
  after := []
  pos := ⟨1, 1⟩
  isJobsKey := rfl
  nodup := by simp [Node.text?]

/-- A job with one step, which starts in this line. -/
def scriptJob (id script : String) (line : Nat) : Node × Node :=
  (.scalar id true ⟨line, 3⟩, .mapping [
    (.scalar "runs-on" true ⟨line + 1, 5⟩, .scalar "ubuntu-latest" true ⟨line + 1, 14⟩),
    (.scalar "steps" true ⟨line + 2, 5⟩, .sequence [.mapping [
      (.scalar "run" true ⟨line + 3, 9⟩, .scalar script true ⟨line + 3, 14⟩)]
      ⟨line + 3, 9⟩] ⟨line + 3, 7⟩)] ⟨line + 1, 5⟩)

/-- Two jobs that are accepted alone are accepted together. -/
theorem parse_buildAndTest : ∃ w, parse {} (onPush.withJobs
    [scriptJob "build" "make" 3, scriptJob "test" "make test" 7]) = .ok w ∧
      w.jobs.keys = ["build", "test"] := by
  have hjobs : AreJobs [scriptJob "build" "make" 3, scriptJob "test" "make test" 7] := by
    constructor
    · simp [scriptJob, Node.IsText, Node.text?]
    · simp [scriptJob, Node.text?]
  let single (e : Node × Node) : Workflow :=
    (read {} (onPush.withJobs [e])).value.getD { triggers := [] }
  have hsingle : ∀ e ∈ [scriptJob "build" "make" 3, scriptJob "test" "make test" 7],
      parse {} (onPush.withJobs [e]) = .ok (single e) := by
    intro e he
    rcases List.mem_cons.mp he with rfl | he
    · rfl
    · obtain rfl := List.mem_singleton.mp he
      rfl
  obtain ⟨w, hw, hentries, -, -⟩ :=
    (parse_jobs {} onPush _ rfl hjobs (List.cons_ne_nil _ _)).2 single hsingle
  refine ⟨w, hw, ?_⟩
  rw [Keyed.keys, hentries]
  rfl

end Workflow

end WorkflowTree
