import WorkflowTree.Proofs.Queries.Permissions
import Mathlib.Data.List.Perm.Basic

/-!
# The jobs in the order of the file

The jobs of a workflow are found by their ids, in no order.  What keeps their order is the place that
each job has as part of its id, and sorting by place brings it back.

The jobs of a workflow that was read are in some order what the entries of its `jobs` mean, one job
for each entry (`MeansKeyed.exists_perm`).  Where the places of the entries ascend there is one way
only to sort them (`Workflow.jobsByPlace_eq`), so the order in which the collection has its jobs makes
no difference.  The main statement is `Workflow.jobIds_inOrder`.
-/

namespace WorkflowTree

variable {α β : Type} {n : Node} {kvs : List (Node × Node)}

/-! ### Collections without their order -/

/-- Where each element gives a value, the values are given element for element. -/
theorem forall₂_filterMap {R : α → β → Prop} {f : α → Option β} {as : List α}
    (h : ∀ a ∈ as, ∃ b, f a = some b ∧ R a b) : List.Forall₂ R as (as.filterMap f) := by
  induction as with
  | nil => exact .nil
  | cons a as ih =>
    obtain ⟨b, hb, hR⟩ := h a List.mem_cons_self
    rw [List.filterMap_cons_some hb]
    exact .cons hR (ih fun a' ha' => h a' (List.mem_cons_of_mem a ha'))

namespace Keyed

variable {m : Keyed α}

/-- The values are what is found under the keys. -/
theorem filterMap_find?_keys (m : Keyed α) : m.keys.filterMap m.find? = m.values := by
  have hfind : ∀ e ∈ m.entries, m.find? e.1 = some e.2 := fun e he => find?_eq_some.mpr he
  rw [keys, values, List.filterMap_map, ← List.filterMap_eq_map]
  exact List.filterMap_congr hfind

/-- Values with names of their own have these names as their keys. -/
theorem NamedBy.map_values {name : α → String} (h : m.NamedBy name) :
    m.values.map name = m.keys := by
  rw [keys, namedBy_iff.mp h, List.map_map]
  rfl

end Keyed

/-! ### Collections that were read -/

section

variable {means : Entry → α → Prop} {m : Keyed α}

/-- What a section means does not depend on the order of the collection. -/
theorem MeansKeyed.of_same {m' : Keyed α} (h : MeansKeyed means n m) (hsame : m'.Same m) :
    MeansKeyed means n m' :=
  ⟨h.isSection, fun key => hsame key ▸ MeansKeyedBut.rel h key⟩

/-- An entry of a section has a meaning, which is found under its key. -/
theorem MeansKeyed.exists_of_mem (h : MeansKeyed means n m) (hn : n.entries? = some kvs)
    {kv : Node × Node} (hkv : kv ∈ kvs) :
    ∃ a, (kv.1.text?.bind m.find?) = some a ∧ ∃ e, Entry.ofPair? kv = some e ∧ means e a := by
  have hsection : n.IsSection := h.isSection
  obtain ⟨_, hentries, htext, -⟩ := hsection
  cases hn.symm.trans hentries
  obtain ⟨e, he⟩ := Option.ne_none_iff_exists'.mp (Entry.isText_iff_ofPair?.mp (htext kv hkv))
  have hkey := (Entry.ofPair?_eq_some he).1
  have hentry : n.entryAt? e.key.value = some e := by
    rw [Node.entryAt?, hn, Option.bind_some, Node.IsSection.find?_of_mem h.isSection hn hkv hkey,
      Option.bind_some, he]
  obtain ⟨hnone, -⟩ | ⟨e', a, he', ha, hmeans⟩ := optionRel_cases (MeansKeyed.rel h e.key.value)
  · cases hentry.symm.trans hnone
  · obtain rfl := Option.some.inj (hentry.symm.trans he')
    exact ⟨a, by rw [hkey, Option.bind_some, ha], e, he, hmeans⟩

/-- The values of a collection that was read are, in some order, one for each entry of the section. -/
theorem MeansKeyed.exists_perm (h : MeansKeyed means n m) (hn : n.entries? = some kvs) :
    ∃ as, m.values.Perm as ∧
      List.Forall₂ (fun kv a => ∃ e, Entry.ofPair? kv = some e ∧ means e a) kvs as := by
  have hperm := (MeansKeyed.keys_perm h hn).filterMap fun o => o.bind m.find?
  have hvalues : (m.keys.map some).filterMap (fun o => o.bind m.find?) = m.values := by
    rw [List.filterMap_map, ← m.filterMap_find?_keys]
    rfl
  rw [hvalues, List.filterMap_map] at hperm
  exact ⟨_, hperm, forall₂_filterMap fun kv hkv => MeansKeyed.exists_of_mem h hn hkv⟩

end

/-! ### Jobs by place -/

namespace Workflow

variable {w : Workflow} {js : List Job}

/-- Jobs whose places ascend are sorted in one way. -/
theorem jobsByPlace_eq (hperm : w.jobs.values.Perm js)
    (hjs : (js.map fun j => j.id.pos).Pairwise fun p q => p.before q = true) :
    w.jobsByPlace = js := by
  have hbefore : ∀ {p q : Position}, p.before q = true → p.le q = true ∧ p ≠ q := by
    intro p q h
    rw [Position.before_iff] at h
    refine ⟨Position.le_iff.mpr (by omega), ?_⟩
    rintro rfl
    omega
  -- two jobs at one place are one job
  have hnodup : (js.map fun j => j.id.pos).Nodup := hjs.imp fun h => (hbefore h).2
  have hsorted : js.Pairwise fun i j => i.id.pos.le j.id.pos = true :=
    (List.pairwise_map.mp hjs).imp fun h => (hbefore h).1
  have hall : w.jobsByPlace.Perm js := w.jobsByPlace_perm.trans hperm
  refine List.Perm.eq_of_pairwise ?_ w.jobsByPlace_pairwise hsorted hall
  intro i j hi hj hij hji
  exact List.inj_on_of_nodup_map hnodup (hall.mem_iff.mp hi) hj (Position.le_antisymm hij hji)

/-- What the entries of a section mean comes in the order of the entries. -/
theorem jobIds_of_means {n : Node} (h : MeansKeyed MeansJob n w.jobs)
    (hn : n.entries? = some kvs)
    (hplaces : kvs.Pairwise fun e e' => e.1.pos.before e'.1.pos = true) :
    w.jobIds.map some = kvs.map fun e => e.1.text? := by
  obtain ⟨js, hperm, hall⟩ := MeansKeyed.exists_perm h hn
  have hids : List.Forall₂ (fun kv j => kv.1.leaf? = some j.id) kvs js := by
    refine hall.imp ?_
    rintro kv j ⟨e, he, hj⟩
    obtain ⟨t, ht, rfl⟩ := Option.map_eq_some_iff.mp he
    rw [ht, hj.id]
  have htexts : kvs.map (fun e => e.1.text?) = js.map fun j => some j.id.value := by
    rw [← List.forall₂_eq_eq_eq, List.forall₂_map_left_iff, List.forall₂_map_right_iff]
    exact hids.imp fun _ _ hid => Node.text?_of_leaf? hid
  have hpos : kvs.map (fun e => e.1.pos) = js.map fun j => j.id.pos := by
    rw [← List.forall₂_eq_eq_eq, List.forall₂_map_left_iff, List.forall₂_map_right_iff]
    exact hids.imp fun _ _ hid => (Node.leaf?_pos hid).symm
  rw [jobIds, jobsByPlace_eq hperm (hpos ▸ List.pairwise_map.mpr hplaces), List.map_map, htexts]
  rfl

/-- Where jobs are stored under their own ids, each id is listed once, and earlier ids before later
ones. -/
theorem jobIds_sorted (h : w.jobs.NamedBy fun j => j.id.value) :
    w.jobIds.Perm w.jobs.keys ∧ w.jobIds.Pairwise fun a b => ∀ i j, w.jobs.find? a = some i →
      w.jobs.find? b = some j → i.id.pos.le j.id.pos = true := by
  have hfind : ∀ i ∈ w.jobsByPlace, ∀ i', w.jobs.find? i.id.value = some i' → i' = i := by
    intro i hi i' hi'
    obtain ⟨key, hkey⟩ := Keyed.mem_values.mp (w.jobsByPlace_perm.mem_iff.mp hi)
    obtain rfl := h key i hkey
    exact Option.some.inj (hi'.symm.trans hkey)
  constructor
  · rw [← h.map_values]
    exact w.jobsByPlace_perm.map _
  · refine List.pairwise_map.mpr (w.jobsByPlace_pairwise.imp_of_mem ?_)
    intro i j hi hj hle i' j' hi' hj'
    rwa [hfind i hi i' hi', hfind j hj j' hj']

/-- **Jobs are listed in the order of the file.**  If the keys of the jobs of a workflow that is
accepted stand one after the other, the ids are listed in the order of the keys, whatever the order
is that the collection has the jobs in.  Of any workflow whose jobs are stored under their own ids
each id is listed once, and the ids are sorted by the places of their keys. -/
theorem jobIds_inOrder :
    (∀ policy root w, parse policy root = .ok w → ∃ v kvs, root.get? "jobs" = some v ∧
      v.entries? = some kvs ∧ (kvs.Pairwise (fun e e' => e.1.pos.before e'.1.pos = true) →
        ∀ jobs : Keyed Job, jobs.Same w.jobs →
          ({ w with jobs } : Workflow).jobIds.map some = kvs.map fun e => e.1.text?)) ∧
    ∀ w : Workflow, (w.jobs.NamedBy fun j => j.id.value) →
      w.jobIds.Nodup ∧ w.jobIds.Perm w.jobs.keys ∧
      w.jobIds.Pairwise fun a b => ∀ i j, w.jobs.find? a = some i → w.jobs.find? b = some j →
        i.id.pos.le j.id.pos = true := by
  constructor
  · intro policy root w hw
    obtain ⟨v, hv, hmeans⟩ := (means_of_parse policy root w hw).jobs
    have hsection : v.IsSection := hmeans.isSection
    obtain ⟨kvs, hkvs, -⟩ := hsection
    refine ⟨v, kvs, hv, hkvs, fun hplaces jobs hsame => ?_⟩
    exact jobIds_of_means (MeansKeyed.of_same hmeans hsame) hkvs hplaces
  · intro w h
    obtain ⟨hperm, hsorted⟩ := jobIds_sorted h
    exact ⟨hperm.nodup_iff.mpr w.jobs.nodup, hperm, hsorted⟩

/-- A workflow whose jobs do not stand in the order of their names. -/
def twoJobs : Node :=
  let job (row : Nat) : Node := .mapping [
    (.scalar "runs-on" true ⟨row, 5⟩, .scalar "ubuntu-latest" true ⟨row, 14⟩),
    (.scalar "steps" true ⟨row + 1, 5⟩, .sequence [.mapping [
      (.scalar "run" true ⟨row + 2, 9⟩, .scalar "make" true ⟨row + 2, 14⟩)] ⟨row + 2, 9⟩]
      ⟨row + 2, 7⟩)] ⟨row, 5⟩
  .mapping [
    (.scalar "on" true ⟨1, 1⟩, .scalar "push" true ⟨1, 5⟩),
    (.scalar "jobs" true ⟨2, 1⟩, .mapping [(.scalar "test" true ⟨3, 3⟩, job 4),
      (.scalar "build" true ⟨7, 3⟩, job 8)] ⟨3, 3⟩)] ⟨1, 1⟩

theorem jobIds_of_twoJobs : ∃ w, parse {} twoJobs = .ok w ∧
    (∀ jobs : Keyed Job, jobs.Same w.jobs →
      ({ w with jobs } : Workflow).jobIds = ["test", "build"]) ∧
    w.jobIds.Perm w.jobs.keys := by
  refine ⟨_, rfl, ?_, ?_⟩
  · obtain ⟨_, _, hv, hkvs, hids⟩ := jobIds_inOrder.1 {} twoJobs _ rfl
    cases hv
    cases hkvs
    intro jobs hsame
    exact List.map_injective_iff.mpr (fun _ _ => Option.some.inj) (hids (by decide) jobs hsame)
  · exact (jobIds_inOrder.2 _ (Keyed.namedBy_iff.mpr rfl)).2.1

end Workflow

end WorkflowTree
