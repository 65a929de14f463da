import WorkflowTree.Files.Pattern

/-!
# The selection of files

Each argument of a check stands for files: for itself, for the workflow files below it, or for
the files that match it. What it stands for is found out elsewhere; here the findings are put
together into one list in the order of paths, without repeats.

* `Selection.pairwise_ordered` says that no two paths of such a list agree, and that they ascend;
* `Selection.mem_of_mem_ordered` and `Selection.exists_agrees_of_mem` say that the list has
  exactly the paths that were found, up to agreement.
-/

namespace WorkflowTree

/-- What an argument was found to be. -/
inductive Target
  | file
  /-- A directory, with all files below it. -/
  | directory (files : List Path)
  /-- Nothing that is there, and so a pattern, with the files that match it. -/
  | pattern (files : Except PatternFlaw (List Path))
  deriving Repr

/-- Why no files are selected. -/
inductive SelectionFailure
  | badPattern (argument : String) (flaw : PatternFlaw)
  | noMatch (argument : String)
  deriving DecidableEq, Repr

/-- The files that an argument selects. A directory may select none, but a pattern may not. -/
def Target.select (argument : String) : Target → Except SelectionFailure (List Path)
  | file => .ok [⟨argument⟩]
  | directory files => .ok (files.filter Path.isWorkflow)
  | pattern (.error flaw) => .error (.badPattern argument flaw)
  | pattern (.ok files) => if files.isEmpty then .error (.noMatch argument) else .ok files

namespace Selection

/-- Leaves out each path that agrees with the last one that was kept. -/
def collapse : List Path → List Path
  | [] => []
  | p :: ps => p :: after p ps
where
  /-- What is kept of the paths behind one that was kept. -/
  after (kept : Path) : List Path → List Path
    | [] => []
    | p :: ps => if kept.agrees p then after kept ps else p :: after p ps

/-- The paths in their order. Of paths that agree, the first is kept. -/
def ordered (ps : List Path) : List Path := collapse (ps.mergeSort Path.le)

/-- The files that the arguments of a check select together. The first argument that fails
decides. -/
def select (targets : List (String × Target)) : Except SelectionFailure (List Path) := do
  let found ← targets.mapM fun (argument, target) => target.select argument
  return ordered found.flatten

/-! ### The order of a selection -/

theorem mem_of_mem_after {q kept : Path} {ps : List Path} (h : q ∈ collapse.after kept ps) :
    q ∈ ps := by
  induction ps generalizing kept with
  | nil => exact h
  | cons p ps ih =>
    unfold collapse.after at h
    split at h
    · exact .tail _ (ih h)
    · rcases List.mem_cons.1 h with rfl | h
      · exact .head _
      · exact .tail _ (ih h)

theorem mem_of_mem_collapse {q : Path} {ps : List Path} (h : q ∈ collapse ps) : q ∈ ps := by
  cases ps with
  | nil => exact h
  | cons p ps =>
    rcases List.mem_cons.1 h with rfl | h
    · exact .head _
    · exact .tail _ (mem_of_mem_after h)

theorem exists_agrees_of_mem_after {q : Path} (kept : Path) {ps : List Path} (h : q ∈ ps) :
    kept.agrees q = true ∨ ∃ r ∈ collapse.after kept ps, r.agrees q = true := by
  induction ps generalizing kept with
  | nil => cases h
  | cons p ps ih =>
    unfold collapse.after
    split
    · next hp =>
      rcases List.mem_cons.1 h with rfl | h
      · exact .inl hp
      · exact ih kept h
    · rcases List.mem_cons.1 h with rfl | h
      · exact .inr ⟨_, .head _, Path.agrees_refl _⟩
      · rcases ih p h with hq | ⟨r, hr, hq⟩
        · exact .inr ⟨p, .head _, hq⟩
        · exact .inr ⟨r, .tail _ hr, hq⟩

theorem exists_agrees_of_mem_collapse {q : Path} {ps : List Path} (h : q ∈ ps) :
    ∃ r ∈ collapse ps, r.agrees q = true := by
  cases ps with
  | nil => cases h
  | cons p ps =>
    rcases List.mem_cons.1 h with rfl | h
    · exact ⟨_, .head _, Path.agrees_refl _⟩
    · rcases exists_agrees_of_mem_after p h with hq | ⟨r, hr, hq⟩
      · exact ⟨p, .head _, hq⟩
      · exact ⟨r, .tail _ hr, hq⟩

/-- Everything behind a path that was kept comes strictly after it. -/
theorem pairwise_after {kept : Path} {ps : List Path}
    (h : (kept :: ps).Pairwise fun p q => p.le q = true) :
    (kept :: collapse.after kept ps).Pairwise fun p q => p.lt q = true := by
  induction ps generalizing kept with
  | nil => simp [collapse.after]
  | cons p ps ih =>
    have hkept := List.pairwise_cons.1 h
    unfold collapse.after
    split
    · exact ih (List.pairwise_cons.2
        ⟨fun q hq => hkept.1 q (.tail _ hq), (List.pairwise_cons.1 hkept.2).2⟩)
    · next hp =>
      have hlt : kept.lt p = true :=
        Path.lt_iff.2 ⟨hkept.1 p (.head _), by simpa using hp⟩
      have rest := ih hkept.2
      refine List.pairwise_cons.2 ⟨fun q hq => ?_, rest⟩
      rcases List.mem_cons.1 hq with rfl | hq
      · exact hlt
      · exact Path.lt_trans hlt ((List.pairwise_cons.1 rest).1 q hq)

theorem pairwise_ordered (ps : List Path) :
    (ordered ps).Pairwise fun p q => p.lt q = true := by
  have h : (ps.mergeSort Path.le).Pairwise fun p q => p.le q = true :=
    @List.pairwise_mergeSort _ Path.le (fun _ _ _ => Path.le_trans) Path.le_total ps
  unfold ordered
  cases hs : ps.mergeSort Path.le with
  | nil => exact .nil
  | cons p qs => exact pairwise_after (hs ▸ h)

theorem mem_of_mem_ordered {q : Path} {ps : List Path} (h : q ∈ ordered ps) : q ∈ ps :=
  (List.mergeSort_perm ps Path.le).mem_iff.1 (mem_of_mem_collapse h)

theorem exists_agrees_of_mem {q : Path} {ps : List Path} (h : q ∈ ps) :
    ∃ r ∈ ordered ps, r.agrees q = true :=
  exists_agrees_of_mem_collapse ((List.mergeSort_perm ps Path.le).mem_iff.2 h)

end Selection

end WorkflowTree
