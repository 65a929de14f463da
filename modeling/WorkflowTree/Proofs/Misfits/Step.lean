import WorkflowTree.Proofs.Misfits.Workflow

/-!
# What a step does

A step says what it does with a text under `run` or with a text under `uses`.  Each of the two keys
may be absent, may have a text or may have another value, and so may the keys that go with only one
of them.  Of a repeated key the first entry counts.

`Step.Judged` says for every such combination which keys are reported to exclude each other, when
both keys are missed, and which step is made.  Each mapping is judged so (`Step.judged_of_read`),
whatever else stands in it.
-/

namespace WorkflowTree

open Checked Problem Section

variable {n : Node} {s : Section} {what key : String} {pos : Position}

namespace Step

/-! ### Judgement -/

/-- What has to come of a step with the mapping `n`. -/
structure Judged (what : String) (n : Node) (c : Checked (Option Step)) : Prop where
  /-- Two texts that say what the step does exclude each other, and there is no step. -/
  both {run uses script action : Text} : n.textAt? "run" = some (run, script) →
    n.textAt? "uses" = some (uses, action) →
    c.problems.filter isExclusion =
      [if run.pos.before uses.pos then exclusive what run uses else exclusive what uses run] ∧
    c.value = none
  /-- A script excludes inputs, whatever they are. -/
  script {run script : Text} : n.textAt? "run" = some (run, script) → n.textAt? "uses" = none →
    c.problems.filter isExclusion = (n.keyAt? "with").toList.map (exclusive what run) ∧
    ∃ step r, c.value = some step ∧ step.exec = .run r ∧ r.script = script
  /-- An action excludes the settings of a script that are texts. -/
  action {uses action : Text} : n.textAt? "run" = none → n.textAt? "uses" = some (uses, action) →
    (c.problems.filter isExclusion).Perm
      (((n.textKeyAt? "shell").toList ++ (n.textKeyAt? "working-directory").toList).map
        (exclusive what uses)) ∧
    ∃ step a, c.value = some step ∧ step.exec = .action a ∧ a.action = action
  /-- Without a text that says what it does there is no step, and nothing to exclude. -/
  neither : n.textAt? "run" = none → n.textAt? "uses" = none →
    c.problems.filter isExclusion = [] ∧ c.value = none
  /-- What the step does is missed once, and only if neither key is there. -/
  missing : c.problems.filter isMissing =
    if n.hasKey "run" || n.hasKey "uses" then [] else [⟨.missing what "run or uses", n.pos⟩]
  /-- A key that is there without a text is reported for its value, and is not missed. -/
  malformed {key : String} {v : Node} : key ∈ ["run", "uses"] → n.get? key = some v →
    v.text? = none →
    ⟨.shape s!"\"{key}\" in {what}" "a string" v.describe, v.pos⟩ ∈ c.problems ∧
      c.problems.filter isMissing = []

/-! ### Misfits of one step -/

theorem misfits_read (policy : Policy) (what : String) (hn : n.isMapping = true) :
    (misfits (read policy what n).problems).Perm (Site.misfits (.step what n)) := by
  have hfound : (misfits (read policy what n).problems).Perm
      ((sites what n).flatMap Site.misfits) := findsAt_read policy what n
  rwa [sites, Node.ifMapping, if_pos hn, List.flatMap_singleton] at hfound

/-- The keys that are reported to exclude each other, by the texts that say what the step does. -/
theorem exclusions_read (policy : Policy) (what : String) (hn : n.isMapping = true) :
    ((read policy what n).problems.filter isExclusion).Perm
      (match (n.textAt? "run").map Prod.fst, (n.textAt? "uses").map Prod.fst with
      | some run, some uses =>
        [if run.pos.before uses.pos then exclusive what run uses else exclusive what uses run]
      | some run, none => (n.keyAt? "with").toList.map (exclusive what run)
      | none, some uses =>
        ((n.textKeyAt? "shell").toList ++ (n.textKeyAt? "working-directory").toList).map
          (exclusive what uses)
      | none, none => []) := by
  have hfound := (misfits_read policy what hn).filter isExclusion
  rw [filter_isExclusion_misfits, Site.filter_isExclusion_misfits] at hfound
  rw [← Node.textKeyAt?_eq_map, ← Node.textKeyAt?_eq_map]
  exact hfound

theorem missing_read (policy : Policy) (what : String) (hn : n.isMapping = true) :
    (read policy what n).problems.filter isMissing =
      if n.hasKey "run" || n.hasKey "uses" then []
      else [⟨.missing what "run or uses", n.pos⟩] := by
  have hfound := (misfits_read policy what hn).filter isMissing
  rw [filter_isMissing_misfits, Site.filter_isMissing_misfits, Site.missing] at hfound
  split at hfound
  · next hkey => rw [if_pos hkey, hfound.eq_nil]
  · next hkey => rw [if_neg hkey, hfound.eq_singleton]

/-! ### The step that is made -/

/-- A mapping is read as a section that holds its first entries. -/
theorem exists_section (what : String) (hn : n.isMapping = true) :
    ∃ s, (Section.read what n).value = some s ∧ s.HoldsFirsts n := by
  rcases hs : (Section.read what n).value with - | s
  · rw [isMapping_of_read hs] at hn
    cases hn
  · exact ⟨s, rfl, holdsFirsts_of_read hs⟩

theorem value_read (policy : Policy) (h : (Section.read what n).value = some s) :
    (read policy what n).value =
      (readExec what s n.pos (readFields what s n.pos).value.1).value.map
        (readFields what s n.pos).value.2 := by
  rw [read, within, andThen_of_some h]
  rfl

theorem run_readFields (hs : s.HoldsFirsts n) (what : String) (pos : Position) :
    (readFields what s pos).value.1.run = n.textAt? "run" :=
  value_fieldWithKey_readText hs "run" _

theorem uses_readFields (hs : s.HoldsFirsts n) (what : String) (pos : Position) :
    (readFields what s pos).value.1.uses = n.textAt? "uses" :=
  value_fieldWithKey_readText hs "uses" _

/-- With two texts that say what a step does there is no step, and none without any. -/
theorem value_readExec_eq_none {f : ExecFields} (h : f.run.isSome = f.uses.isSome) :
    (readExec what s pos f).value = none := by
  obtain ⟨run, uses, _, _, _⟩ := f
  rcases run with - | ⟨_, _⟩ <;> rcases uses with - | ⟨_, _⟩
  · -- whether or not both keys are missed
    simp only [readExec]
    split <;> rfl
  · cases h
  · cases h
  · rfl

theorem value_read_eq_none (policy : Policy) (what : String) (hn : n.isMapping = true)
    (h : (n.textAt? "run").isSome = (n.textAt? "uses").isSome) :
    (read policy what n).value = none := by
  obtain ⟨s, hs, hfirsts⟩ := exists_section what hn
  rw [← run_readFields hfirsts what n.pos, ← uses_readFields hfirsts what n.pos] at h
  rw [value_read policy hs, value_readExec_eq_none h, Option.map_none]

theorem exists_readExec_of_script (what : String) (s : Section) (pos : Position) {f : ExecFields}
    {run script : Text} (hrun : f.run = some (run, script)) (huses : f.uses = none) :
    ∃ r, (readExec what s pos f).value = some (.run r) ∧ r.script = script := by
  obtain ⟨_, _, _, _, _⟩ := f
  cases hrun
  cases huses
  exact ⟨_, rfl, rfl⟩

/-- A text under `run` alone makes a step that runs it. -/
theorem exists_value_read_of_script (policy : Policy) (what : String) (hn : n.isMapping = true)
    {run script : Text} (hrun : n.textAt? "run" = some (run, script))
    (huses : n.textAt? "uses" = none) :
    ∃ step r, (read policy what n).value = some step ∧ step.exec = .run r ∧ r.script = script := by
  obtain ⟨s, hs, hfirsts⟩ := exists_section what hn
  obtain ⟨r, hr, hscript⟩ := exists_readExec_of_script what s n.pos
    ((run_readFields hfirsts what n.pos).trans hrun)
    ((uses_readFields hfirsts what n.pos).trans huses)
  refine ⟨(readFields what s n.pos).value.2 (.run r), r, ?_, rfl, hscript⟩
  rw [value_read policy hs, hr, Option.map_some]

theorem exists_readExec_of_action (what : String) (s : Section) (pos : Position) {f : ExecFields}
    {uses action : Text} (hrun : f.run = none) (huses : f.uses = some (uses, action)) :
    ∃ a, (readExec what s pos f).value = some (.action a) ∧ a.action = action := by
  obtain ⟨_, _, inputs, _, _⟩ := f
  cases hrun
  cases huses
  rcases inputs with - | ⟨_, v⟩
  · exact ⟨_, rfl, rfl⟩
  · exact ⟨_, rfl, rfl⟩

/-- A text under `uses` alone makes a step that uses it. -/
theorem exists_value_read_of_action (policy : Policy) (what : String) (hn : n.isMapping = true)
    {uses action : Text} (hrun : n.textAt? "run" = none)
    (huses : n.textAt? "uses" = some (uses, action)) :
    ∃ step a, (read policy what n).value = some step ∧ step.exec = .action a ∧
      a.action = action := by
  obtain ⟨s, hs, hfirsts⟩ := exists_section what hn
  obtain ⟨a, ha, haction⟩ := exists_readExec_of_action what s n.pos
    ((run_readFields hfirsts what n.pos).trans hrun)
    ((uses_readFields hfirsts what n.pos).trans huses)
  refine ⟨(readFields what s n.pos).value.2 (.action a), a, ?_, rfl, haction⟩
  rw [value_read policy hs, ha, Option.map_some]

/-! ### Malformed keys -/

/-- What is found under a key that a form lists is reported with the section. -/
theorem mem_problems_fill {α β : Type} (policy : Policy) (what : String) {f : Form α}
    {read : Node → Checked β} {v : Node} {p : Problem} (hs : s.HoldsFirsts n) (nodup : f.keys.Nodup)
    (hfield : (key, s.problemsAt key read) ∈ f.fields) (hv : n.get? key = some v)
    (hp : p ∈ (read v).problems) : p ∈ (s.fill policy what f).problems := by
  have hget : s.get? key = some v := (hs.get? key).trans hv
  obtain ⟨e, he, rfl⟩ := Option.map_eq_some_iff.mp hget
  obtain ⟨hmem, hkey⟩ := find?_eq_some.mp he
  refine List.mem_flatMap.mpr ⟨e, hmem, ?_⟩
  rw [entryProblems, hkey, (Keyed.lookup_eq_some nodup).mpr hfield]
  rwa [problemsAt, hget]

theorem problems_readText {v : Node} (h : v.text? = none) :
    (readText what v).problems = [⟨.shape what "a string" v.describe, v.pos⟩] := by
  rw [Node.text?_eq_leaf?, Option.map_eq_none_iff] at h
  rw [readText, h]
  rfl

/-- Both keys that say what a step does are read as texts. -/
theorem mem_fields_readFields (s : Section) (what : String) (pos : Position)
    (h : key ∈ ["run", "uses"]) :
    (key, s.problemsAt key (readText s!"\"{key}\" in {what}")) ∈
      (readFields what s pos).fields := by
  obtain rfl | rfl : key = "run" ∨ key = "uses" := by simpa using h
  · simp [readFields]
  · simp [readFields]

/-- A key that says what the step does is reported for a value that is no text. -/
theorem shape_read (policy : Policy) (what : String) (hkey : key ∈ ["run", "uses"]) {v : Node}
    (hv : n.get? key = some v) (htext : v.text? = none) :
    ⟨.shape s!"\"{key}\" in {what}" "a string" v.describe, v.pos⟩ ∈
      (read policy what n).problems := by
  have hn : n.isMapping = true := by
    obtain ⟨_, _, _, rfl, -⟩ := Node.get?_eq_some hv
    rfl
  obtain ⟨s, hs, hfirsts⟩ := exists_section what hn
  have hfill := mem_problems_fill policy what hfirsts (nodup_readFields what s n.pos)
    (mem_fields_readFields s what n.pos hkey) hv
    (by rw [problems_readText htext]; exact List.mem_singleton_self _)
  rw [read, within, andThen_of_some hs, problems_bind]
  exact List.mem_append_right _ (List.mem_append_left _ hfill)

theorem hasKey_of_get? (hkey : key ∈ ["run", "uses"]) {v : Node} (hv : n.get? key = some v) :
    (n.hasKey "run" || n.hasKey "uses") = true := by
  have hhas : n.hasKey key = true := by rw [Node.hasKey, hv, Option.isSome_some]
  obtain rfl | rfl : key = "run" ∨ key = "uses" := by simpa using hkey
  · rw [hhas, Bool.true_or]
  · rw [hhas, Bool.or_true]

/-! ### The result -/

/-- **Each step is judged by its keys**: whatever stands in a mapping that is read as a step, and
however often, exactly those keys are reported to exclude each other that do, what the step does is
missed exactly if both keys are, and there is a step exactly if one key says what it does. -/
theorem judged_of_read (policy : Policy) (what : String) (entries : List (Node × Node))
    (pos : Position) :
    Judged what (.mapping entries pos) (read policy what (.mapping entries pos)) := by
  have hn : (Node.mapping entries pos).isMapping = true := rfl
  have hexclusions := exclusions_read policy what hn
  constructor
  · -- two texts
    intro run uses script action hrun huses
    rw [hrun, huses] at hexclusions
    exact ⟨hexclusions.eq_singleton, value_read_eq_none policy what hn (by rw [hrun, huses]; rfl)⟩
  · -- a script alone
    intro run script hrun huses
    rw [hrun, huses] at hexclusions
    refine ⟨?_, exists_value_read_of_script policy what hn hrun huses⟩
    -- there is one key for inputs at most
    rcases hwith : (Node.mapping entries pos).keyAt? "with" with - | inputs
    · rw [hwith] at hexclusions
      exact hexclusions.eq_nil
    · rw [hwith] at hexclusions
      exact hexclusions.eq_singleton
  · -- an action alone
    intro uses action hrun huses
    rw [hrun, huses] at hexclusions
    exact ⟨hexclusions, exists_value_read_of_action policy what hn hrun huses⟩
  · -- no text
    intro hrun huses
    rw [hrun, huses] at hexclusions
    exact ⟨hexclusions.eq_nil, value_read_eq_none policy what hn (by rw [hrun, huses])⟩
  · exact missing_read policy what hn
  · intro key v hkey hv htext
    refine ⟨shape_read policy what hkey hv htext, ?_⟩
    rw [missing_read policy what hn, if_pos (hasKey_of_get? hkey hv)]

end Step

end WorkflowTree
