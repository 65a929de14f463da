import WorkflowTree.Proofs.Acceptance.Step
import WorkflowTree.Proofs.Editing.Step
import WorkflowTree.Proofs.Meaning.WellFormed
import WorkflowTree.Proofs.Reordering.Same

/-!
# Inputs of actions

An action that is passed some inputs comes about in two ways: its step is edited, input by input, or
it is read from a mapping.  Two names are special.  Where a step is read, what has one of them is
kept apart from the inputs (`ActionUse.KeepsApart`).  Where a step is edited, it is an input like any
other one (`ActionUse.KeepsTogether`).

* `ActionUse.keepsTogether_of_editAll` and `ActionUse.keepsApart_of_means` say what each way makes;
* `Step.exec_same_iff` says that both make the same just if no special name is among the inputs.
-/

namespace WorkflowTree

open Checked

variable {n v : Node} {u : Text} {m : Assignments} {key : String} {a b : ActionUse}

/-! ### Mappings that pass inputs -/

/-- The mapping uses an action and passes these assignments to it, and it has no other keys. -/
structure Node.Passes (n : Node) (u : Text) (m : Assignments) : Prop where
  only : n.IsFree fun key _ => key ∈ ["uses", "with"]
  action : n.Requires "uses" (MeansText · u)
  inputs : n.Requires "with" (MeansAssignments · m)

theorem isText_of_means {t : Text} (h : MeansText v t) : v.IsText := ⟨_, Node.text?_of_leaf? h⟩

/-- What a section assigns are texts. -/
theorem MeansAssignments.isAssignments (h : MeansAssignments v m) : v.IsAssignments := by
  refine ⟨h.isSection, fun key w hw => ?_⟩
  obtain ⟨hnone, -⟩ | ⟨w', t, hw', -, ht⟩ := optionRel_cases (ActionUse.rel_apart h key)
  · rw [hw] at hnone
    cases hnone
  · obtain rfl : w' = w := Option.some.inj (hw'.symm.trans hw)
    exact isText_of_means ht

theorem rightUnique_meansAssignment : Relator.RightUnique MeansAssignment := by
  rintro e ⟨name, value⟩ ⟨name', value'⟩ h h'
  obtain rfl : name = name' := h.name.trans h'.name.symm
  obtain rfl : value = value' := rightUnique_meansText h.value h'.value
  rfl

namespace Node.Passes

/-- Other keys are not there. -/
theorem not_has (h : n.Passes u m) (hkey : key ∉ ["uses", "with"]) : ¬ n.Has key := by
  rintro ⟨w, hw⟩
  exact hkey (h.only.2 key w hw)

theorem allows (h : n.Passes u m) (hkey : key ∉ ["uses", "with"]) (shape : Node → Prop) :
    n.Allows key shape := fun w hw => absurd ⟨w, hw⟩ (h.not_has hkey)

/-- Such a mapping is a step. -/
theorem isStep (h : n.Passes u m) (policy : Policy) : IsStep policy n := by
  obtain ⟨hasUses, usesText⟩ := requires_iff.mp h.action
  obtain ⟨-, assigns⟩ := requires_iff.mp h.inputs
  have hknown : ["uses", "with"] ⊆ ["id", "if", "name", "run", "uses", "with", "shell",
      "working-directory", "env", "continue-on-error", "timeout-minutes"] := by decide
  exact
    { keys := ⟨h.only.1, fun key w hw => .inl (hknown (h.only.2 key w hw))⟩
      one := .inr ⟨hasUses, h.not_has (by decide)⟩
      withUses := fun _ => hasUses
      shellRuns := fun hshell => absurd hshell (h.not_has (by decide))
      workingDirectoryRuns := fun hdir => absurd hdir (h.not_has (by decide))
      id := h.allows (by decide) _
      condition := h.allows (by decide) _
      name := h.allows (by decide) _
      run := h.allows (by decide) _
      uses := fun w hw => isText_of_means (usesText w hw)
      inputs := fun w hw => (assigns w hw).isAssignments
      shell := h.allows (by decide) _
      workingDirectory := h.allows (by decide) _
      env := h.allows (by decide) _
      continueOnError := h.allows (by decide) _
      timeout := h.allows (by decide) _ }

end Node.Passes

/-! ### Actions that are passed inputs -/

namespace ActionUse

/-- All that is passed to the action are inputs. -/
structure KeepsTogether (a : ActionUse) (u : Text) (m : Assignments) : Prop where
  action : a.action = u
  inputs : a.inputs = m
  entrypoint : a.entrypoint = none
  args : a.args = none

/-- All that is passed to the action are inputs, but for what has one of two names. -/
structure KeepsApart (a : ActionUse) (u : Text) (m : Assignments) : Prop where
  action : a.action = u
  inputs : ∀ key, a.inputs.find? key = if key ∈ ["entrypoint", "args"] then none else m.find? key
  entrypoint : a.entrypoint = (m.find? "entrypoint").map Assignment.value
  args : a.args = (m.find? "args").map Assignment.value

/-- The two are the same just if there is nothing to be kept apart. -/
theorem KeepsTogether.same_iff (h : a.KeepsTogether u m) (h' : b.KeepsApart u m) :
    a.Same b ↔ ∀ key ∈ ["entrypoint", "args"], key ∉ m.keys := by
  constructor
  · intro hsame key hkey
    have hfind : m.find? key = none := by
      have hinputs := hsame.inputs key
      rwa [h.inputs, h'.inputs, if_pos hkey] at hinputs
    exact Keyed.find?_eq_none.mp hfind
  · intro hnot
    have hfind : ∀ key ∈ ["entrypoint", "args"], m.find? key = none :=
      fun key hkey => Keyed.find?_eq_none.mpr (hnot key hkey)
    have haction : a.action = b.action := h.action.trans h'.action.symm
    have hentrypoint : a.entrypoint = b.entrypoint := by
      rw [h.entrypoint, h'.entrypoint, hfind _ (by decide), Option.map_none]
    have hargs : a.args = b.args := by
      rw [h.args, h'.args, hfind _ (by decide), Option.map_none]
    constructor
    · intro key
      rw [h.inputs, h'.inputs]
      split
      · next hkey => exact hfind key hkey
      · rfl
    · cases a
      cases b
      cases haction
      cases hentrypoint
      cases hargs
      rfl

/-- Edits keep together what is passed. -/
theorem keepsTogether_of_editAll (u : Text) (pos : Position) (h : m.NamedBy fun x => x.name.value) :
    ∃ s a, editAll Step.edit (.ofAction u pos) (m.values.map fun x => .input x.name x.value) =
      .ok s ∧ s.exec = .action a ∧ a.KeepsTogether u m := by
  refine ⟨{ exec := .action { action := u, inputs := m }, pos }, _, ?_, rfl, rfl, rfl, rfl, rfl⟩
  -- no other part of the step is written
  have hcalls : Step.calls (m.values.map fun x => .input x.name x.value) =
      ⟨[], [], [], [], [], [], [], [], m.values⟩ := by
    simp [Step.calls, List.filterMap_map]
  have hinputs : Keyed.empty.ExtendedBy Assignment.name m.values m :=
    Keyed.extendedBy_empty_values.mpr h
  rw [Step.describes.editAll_eq_ok, hcalls]
  exact ⟨rfl, rfl, rfl, ⟨rfl, rfl, m, hinputs, rfl⟩, Keyed.extendedBy_nil.mpr rfl, rfl, rfl, rfl⟩

/-- What a mapping means keeps two of the names apart. -/
theorem keepsApart_of_means (h : n.Passes u m) (ha : MeansActionUse n a) : a.KeepsApart u m := by
  obtain ⟨w, hwith, hm⟩ := h.inputs
  -- the mapping means the assignments too, and no node means two different texts
  have hapart : ∀ {key : String} {o : Option Text}, Option.Rel MeansText (n.at? ["with", key]) o →
      o = (m.find? key).map Assignment.value := by
    intro key o hrel
    rw [at?_with, hwith] at hrel
    exact optionRel_unique rightUnique_meansText hrel (rel_apart hm key)
  refine ⟨?_, fun key => ?_, hapart ha.entrypoint, hapart ha.args⟩
  · obtain ⟨x, hx, hu⟩ := h.action
    obtain ⟨x', hx', hu'⟩ := ha.action
    obtain rfl : x = x' := Option.some.inj (hx.symm.trans hx')
    exact rightUnique_meansText hu' hu
  · have hinputs := ha.inputs
    rw [hwith] at hinputs
    cases hinputs with
    | present hmeans =>
      have hrel := hmeans.rel key
      split
      · next hkey =>
        rw [if_pos hkey] at hrel
        exact optionRel_unique rightUnique_meansAssignment hrel .none
      · next hkey =>
        rw [if_neg hkey] at hrel
        exact optionRel_unique rightUnique_meansAssignment hrel (MeansKeyed.rel hm key)

end ActionUse

/-! ### The result -/

namespace Step

/-- A mapping that passes inputs is read as a step that uses the action. -/
theorem exists_read_of_passes (policy : Policy) (what : String) (h : n.Passes u m) :
    ∃ s a, read policy what n = ⟨some s, []⟩ ∧ s.exec = .action a ∧ a.KeepsApart u m := by
  have hclean : (read policy what n).Clean := clean_read.mpr (h.isStep policy)
  obtain ⟨s, hs, hmeans⟩ := sound_read hclean
  have hread : read policy what n = ⟨some s, []⟩ := Checked.ext hs hclean
  rcases hexec : s.exec with r | a
  · -- a step that runs a script uses no action
    have hnot := hmeans.exec
    rw [hexec] at hnot
    obtain ⟨w, hw, -⟩ := h.action
    cases hnot with
    | run hnone _ =>
      rw [hw] at hnone
      cases hnone
  · have haction := hmeans.exec
    rw [hexec] at haction
    cases haction with
    | action _ ha => exact ⟨s, a, hread, hexec, ActionUse.keepsApart_of_means h ha⟩

/-- **Inputs are kept apart where a step is read, and only there**.  Assignments with distinct names
are passed to an action in two ways: by edits, one by one, and by a mapping that has them as its
entries, in any order.  All the edits are made, and the mapping is accepted.  A name that is not
special is found among the inputs on both sides.  A special one is found there after the edits, while
what is read has its value in a place of its own.  So the two steps do the same exactly if no name is
special. -/
theorem exec_same_iff (policy : Policy) (what : String) (pos : Position) (h : n.Passes u m) :
    ∃ edited read a b,
      editAll Step.edit (.ofAction u pos) (m.values.map fun x => .input x.name x.value) =
        .ok edited ∧ edited.exec = .action a ∧ a.KeepsTogether u m ∧
      Step.read policy what n = ⟨some read, []⟩ ∧ read.exec = .action b ∧ b.KeepsApart u m ∧
      (edited.exec.Same read.exec ↔ ∀ key ∈ ["entrypoint", "args"], key ∉ m.keys) := by
  obtain ⟨w, -, hm⟩ := h.inputs
  have hnamed : m.NamedBy fun x => x.name.value :=
    (MeansKeyedBut.namedOutside hm fun _ _ hx => hx.name).named
  obtain ⟨edited, a, hedited, ha, htogether⟩ := ActionUse.keepsTogether_of_editAll u pos hnamed
  obtain ⟨read, b, hread, hb, hapart⟩ := exists_read_of_passes policy what h
  refine ⟨edited, read, a, b, hedited, ha, htogether, hread, hb, hapart, ?_⟩
  rw [← htogether.same_iff hapart, ha, hb]
  constructor
  · intro hsame
    cases hsame with
    | action h => exact h
  · intro hsame
    exact .action hsame

end Step

/-- A text and a program that are passed to an action. -/
def Assignments.greeting : Assignments where
  entries := [("who", ⟨⟨"who", ⟨3, 3⟩⟩, ⟨"world", ⟨3, 8⟩⟩⟩),
    ("entrypoint", ⟨⟨"entrypoint", ⟨4, 3⟩⟩, ⟨"/bin/sh", ⟨4, 15⟩⟩⟩)]
  nodup := by decide

/-- A mapping that assigns them. -/
def Node.greeting : Node :=
  .mapping [(.scalar "who" true ⟨3, 3⟩, .scalar "world" true ⟨3, 8⟩),
    (.scalar "entrypoint" true ⟨4, 3⟩, .scalar "/bin/sh" true ⟨4, 15⟩)] ⟨3, 3⟩

/-- A step that passes them to an image. -/
def Node.greetingStep : Node :=
  .mapping [(.scalar "uses" true ⟨1, 1⟩, .scalar "docker://alpine:3.20" true ⟨1, 7⟩),
    (.scalar "with" true ⟨2, 1⟩, .greeting)] ⟨1, 1⟩

theorem Node.passes_greeting :
    Node.greetingStep.Passes ⟨"docker://alpine:3.20", ⟨1, 7⟩⟩ Assignments.greeting := by
  have hsection : (Section.read "step 1" Node.greetingStep).Clean := rfl
  have hinputs : ActionUse.readInputs "step 1" Node.greeting = ⟨some .greeting, []⟩ := rfl
  refine ⟨⟨Section.clean_read.mp hsection, fun key w hw => ?_⟩, ⟨_, rfl, rfl⟩, ⟨_, rfl, ?_⟩⟩
  · obtain ⟨k, entries, pos, hn, hmem, hkey⟩ := Node.get?_eq_some hw
    cases hn
    rcases hmem with _ | ⟨_, _ | ⟨_, hmem⟩⟩
    · cases hkey
      decide
    · cases hkey
      decide
    · cases hmem
  · -- what a mapping assigns is what is read of it
    obtain ⟨m, hm, hmeans⟩ := ActionUse.sound_readInputs (congrArg Checked.problems hinputs)
    rw [hinputs] at hm
    cases hm
    exact hmeans

/-- The program is an input after the edits, and it is kept apart where the mapping is read. -/
theorem Step.exec_same_iff_greeting : ∃ edited read a b,
    editAll Step.edit (.ofAction ⟨"docker://alpine:3.20", ⟨1, 7⟩⟩ ⟨1, 1⟩)
      [.input ⟨"who", ⟨3, 3⟩⟩ ⟨"world", ⟨3, 8⟩⟩,
        .input ⟨"entrypoint", ⟨4, 3⟩⟩ ⟨"/bin/sh", ⟨4, 15⟩⟩] = .ok edited ∧
    edited.exec = .action a ∧ a.entrypoint = none ∧
    Step.read {} "step 1" Node.greetingStep = ⟨some read, []⟩ ∧
    read.exec = .action b ∧ b.entrypoint = some ⟨"/bin/sh", ⟨4, 15⟩⟩ ∧
    ¬ edited.exec.Same read.exec := by
  obtain ⟨edited, read, a, b, hedited, ha, htogether, hread, hb, hapart, hsame⟩ :=
    Step.exec_same_iff {} "step 1" ⟨1, 1⟩ Node.passes_greeting
  refine ⟨edited, read, a, b, hedited, ha, htogether.entrypoint, hread, hb, hapart.entrypoint, ?_⟩
  rw [hsame]
  exact fun hfree => hfree "entrypoint" (by decide) (by decide)

end WorkflowTree
