import WorkflowTree.Proofs.Misfits.Finding

/-!
# Which mapping a problem is about

A key that is repeated and keys that exclude each other are problems of one mapping, and their
reports name it (`Problem.about?`).  A workflow is called by one word and a job by its id; the names
of all mappings inside of a job or a workflow begin in other ways (`IsPartName`).  So a report about
the mapping of a workflow or a job is never due to a mapping inside of it.

`Checked.Concerns` says what the mappings are called that problems are about.  There is one rule for
each way in which readers are put together.
-/

namespace WorkflowTree

variable {α β γ : Type} {P Q : String → Prop}

/-! ### Names of mappings -/

/-- The mapping in which keys exclude each other or a key is repeated. -/
def Problem.about? (p : Problem) : Option String :=
  match p.fault with
  | .exclusive scope _ _ | .duplicate scope _ _ => some scope
  | _ => none

/-- The name is that of a mapping inside of a workflow or a job.  It begins with a key in quotes or
with the word for a step, a service, an element or an input. -/
def IsPartName (name : String) : Prop :=
  name.toList.head? ∈ ['"', 's', 'e', 'i'].map some

/-- The name is that of a job. -/
def IsJobName (name : String) : Prop := name.toList.head? = some 'j'

instance (name : String) : Decidable (IsPartName name) := by
  unfold IsPartName
  infer_instance

/-- A name goes on as it likes. -/
theorem head?_append {a : String} {c : Char} (b : String) (h : a.toList.head? = some c) :
    (a ++ b).toList.head? = some c := by
  rw [String.toList_append, List.head?_append, h, Option.some_or]

theorem IsPartName.append {a : String} (h : IsPartName a) (b : String) : IsPartName (a ++ b) := by
  obtain ⟨c, hc, ha⟩ := List.mem_map.mp h
  rw [IsPartName, head?_append b ha.symm]
  exact List.mem_map_of_mem hc

/-- The name of a key in quotes. -/
theorem isPartName_key (key what : String) : IsPartName s!"\"{key}\" in {what}" :=
  (((show IsPartName "\"" by decide).append key).append "\" in ").append what

theorem isJobName_job (id : String) : IsJobName s!"job \"{id}\"" :=
  head?_append _ (head?_append _ rfl)

theorem IsPartName.ne_job {name : String} (h : IsPartName name) (id : String) :
    name ≠ s!"job \"{id}\"" := by
  rintro rfl
  rw [IsPartName, isJobName_job id] at h
  exact absurd h (by decide)

theorem ne_workflow {name : String} (h : IsPartName name ∨ IsJobName name) :
    name ≠ "workflow" := by
  rintro rfl
  rcases h with hpart | hjob
  · exact absurd hpart (by decide)
  · exact absurd hjob (by unfold IsJobName; decide)

/-! ### Values -/

namespace Checked

/-- The problems that are about one mapping are about mappings of this kind. -/
def Concerns (P : String → Prop) (c : Checked α) : Prop :=
  ∀ p ∈ c.problems, ∀ name, p.about? = some name → P name

theorem Concerns.mono {c : Checked α} (h : c.Concerns P) (hPQ : ∀ name, P name → Q name) :
    c.Concerns Q := fun p hp name hname => hPQ name (h p hp name hname)

theorem concerns_pure (a : α) : (pure a : Checked α).Concerns P := fun _ hp => nomatch hp

theorem Concerns.bind {c : Checked α} {f : α → Checked β} (h : c.Concerns P)
    (hf : ∀ a, (f a).Concerns P) : (c >>= f).Concerns P :=
  List.forall_mem_append.mpr ⟨h, hf c.value⟩

theorem Concerns.map {c : Checked α} {f : α → β} (h : c.Concerns P) : (f <$> c).Concerns P := by
  unfold Concerns
  rw [problems_map]
  exact h

/-- What is refused for its shape or for a missing key is about no mapping. -/
theorem concerns_refuse {fault : Fault} {pos : Position}
    (h : (⟨fault, pos⟩ : Problem).about? = none) :
    (refuse fault pos : Checked (Option α)).Concerns P := by
  refine List.forall_mem_singleton.mpr fun name hname => ?_
  rw [h] at hname
  cases hname

theorem Concerns.andThen {c : Checked (Option α)} {k : α → Checked (Option β)}
    (h : c.Concerns P) (hk : ∀ a, (k a).Concerns P) : (c.andThen k).Concerns P := by
  rcases e : c.value with - | a
  · rw [andThen_of_none e]
    exact h
  · rw [andThen_of_some e]
    exact List.forall_mem_append.mpr ⟨h, hk a⟩

theorem concerns_flatMap {f : β → List Problem} {bs : List β}
    (h : ∀ b ∈ bs, ∀ p ∈ f b, ∀ name, p.about? = some name → P name) :
    ∀ p ∈ bs.flatMap f, ∀ name, p.about? = some name → P name := by
  intro p hp
  obtain ⟨b, hb, hp⟩ := List.mem_flatMap.mp hp
  exact h b hb p hp

theorem concerns_collect {bs : List β} {read : β → Checked (Option α)}
    (h : ∀ b, (read b).Concerns P) : (collect (bs.map read)).Concerns P := by
  unfold Concerns
  rw [problems_collect, List.flatMap_map]
  exact concerns_flatMap fun b _ => h b

end Checked

open Checked

variable {n : Node} {s : Section} {what key : String} {policy : Policy}

theorem concerns_mismatch (n : Node) (what expected : String) :
    (mismatch n what expected : Checked (Option α)).Concerns P := concerns_refuse rfl

/-! ### Sections -/

theorem Entry.concerns_readAll (what : String) (n : Node) : (Entry.readAll what n).Concerns P := by
  unfold readAll
  split
  · refine (concerns_collect fun kv => ?_).map
    unfold read
    split
    · exact concerns_pure _
    · exact concerns_mismatch _ _ _
  · exact concerns_mismatch _ _ _

namespace Section

/-- Repeated keys are about the section. -/
theorem concerns_distinct (h : P what) (quiet : List String) (es : List Entry) :
    (distinct what quiet es).Concerns P := by
  unfold distinct
  -- whatever keys have been kept already
  generalize empty = s
  induction es generalizing s with
  | nil => exact concerns_pure _
  | cons e es ih =>
    have hextend : (extend what quiet s e).Concerns P := by
      rcases hfind : s.find? e.key.value with - | first
      · rw [extend_of_none hfind]
        exact concerns_pure _
      · rw [extend_of_some hfind]
        unfold Concerns
        dsimp only
        split
        · exact fun _ hp => nomatch hp
        · refine List.forall_mem_singleton.mpr ?_
          rintro _ ⟨⟩
          exact h
    rw [List.foldlM_cons]
    exact hextend.bind ih

theorem concerns_within {k : Section → Checked (Option α)} (h : P what)
    (hk : ∀ s, (k s).Concerns P) : (within what n k).Concerns P :=
  ((Entry.concerns_readAll what n).andThen fun es => (concerns_distinct h [] es).map).andThen hk

/-- The two forms of permissions are about the mapping that they are written in. -/
theorem about?_of_formConflict? {es : List Entry} {p : Problem}
    (h : formConflict? what es = some p) : p.about? = some what := by
  obtain ⟨word, hfault⟩ := fault_of_formConflict? h
  rw [Problem.about?, hfault]

theorem concerns_withinOwner {k : Section → Checked (Option α)} (h : P what)
    (hk : ∀ s, (k s).Concerns P) : (withinOwner what n k).Concerns P := by
  refine Concerns.andThen ((Entry.concerns_readAll what n).andThen fun es => ?_) hk
  split
  · exact (concerns_distinct h [] es).map
  · next p hconflict =>
    refine Concerns.bind (List.forall_mem_singleton.mpr ?_) fun _ =>
      (concerns_distinct h [permissionsKey] es).map
    rintro name hname
    rw [about?_of_formConflict? hconflict] at hname
    exact Option.some.inj hname ▸ h

/-- Where keys are free, the problems are about the section and what its entries are about. -/
theorem concerns_free {read : Entry → Checked (Option α)} (h : P what)
    (hread : ∀ e, (read e).Concerns P) :
    (within what n fun s => some <$> s.collect read).Concerns P := by
  refine concerns_within h fun s => Concerns.map ?_
  have hproblems : (s.collect read).problems = s.entries.flatMap fun e => (read e).problems := by
    simp [collect, List.flatMap_map]
  unfold Concerns
  rw [hproblems]
  exact concerns_flatMap fun e _ => hread e

end Section

/-! ### Forms -/

/-- The problems under the keys of a form that are about one mapping are about mappings of this
kind. -/
def Form.Concerns (P : String → Prop) (f : Form α) : Prop :=
  ∀ field ∈ f.fields, ∀ p ∈ field.2, ∀ name, p.about? = some name → P name

theorem Form.concerns_pure (a : α) : (pure a : Form α).Concerns P := fun _ hf => nomatch hf

theorem Form.Concerns.bind {f : Form α} {k : α → Form β} (h : f.Concerns P)
    (hk : ∀ a, (k a).Concerns P) : (f >>= k).Concerns P :=
  List.forall_mem_append.mpr ⟨h, hk f.value⟩

namespace Section

theorem concerns_problemsAt {read : Node → Checked β} (h : ∀ v, (read v).Concerns P) :
    ∀ p ∈ s.problemsAt key read, ∀ name, p.about? = some name → P name := by
  unfold problemsAt
  rcases s.get? key with - | v
  · exact fun _ hp => nomatch hp
  · exact h v

theorem concerns_field {read : Node → Checked (Option α)} (h : ∀ v, (read v).Concerns P) :
    (s.field key read).Concerns P := by
  unfold Form.Concerns
  rw [fields_field]
  exact List.forall_mem_singleton.mpr (concerns_problemsAt h)

theorem concerns_fieldWithKey {read : Node → Checked (Option α)} (h : ∀ v, (read v).Concerns P) :
    (s.fieldWithKey key read).Concerns P := by
  unfold Form.Concerns
  rw [fields_fieldWithKey]
  exact List.forall_mem_singleton.mpr (concerns_problemsAt h)

/-- Filling a form adds only keys that are not expected, which are about no mapping. -/
theorem concerns_fill {f : Form α} (h : f.Concerns P) : (s.fill policy what f).Concerns P := by
  refine concerns_flatMap fun e _ => ?_
  unfold entryProblems
  split
  · next ps hlookup =>
    obtain ⟨before, behind, hfields, -⟩ := List.lookup_eq_some_iff.mp hlookup
    exact h (e.key.value, ps) (by simp [hfields])
  · split
    · exact fun _ hp => nomatch hp
    · exact List.forall_mem_singleton.mpr fun _ hname => nomatch hname

theorem concerns_filled {f : Form α} (h : f.Concerns P) :
    (some <$> s.fill policy what f).Concerns P := (concerns_fill h).map

theorem concerns_require (value : Option α) (pos : Position) :
    (s.require value key what pos).Concerns P := by
  unfold require Concerns
  dsimp only
  split
  · exact List.forall_mem_singleton.mpr fun _ hname => nomatch hname
  · exact fun _ hp => nomatch hp

end Section

end WorkflowTree
