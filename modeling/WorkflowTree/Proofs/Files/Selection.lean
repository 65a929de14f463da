import WorkflowTree.CommandLine.Run
import Mathlib.Data.List.Forall2
import Mathlib.Data.List.Perm.Basic
import Mathlib.Data.List.TakeDrop
import Mathlib.Data.List.TakeWhile

/-!
# The files of a check

Which files a check is about depends on the set of its arguments only: not on their order, and not
on how often each is given.

What one argument stands for is said without the others (`FileSystem.Selects`,
`FileSystem.Unmatched`).  The files of a check are then those that some argument stands for, and
there are none just if some argument is unmatched (`FileSystem.of_select_eq_ok`,
`FileSystem.exists_select_eq_error`).  They come in strictly ascending order of components, and
strictly ascending lists of the same paths agree one by one (`Path.forall₂_agrees`).  The main
statement is `CommandLine.filesToCheck_by_set`.
-/

namespace WorkflowTree

variable {α β ε : Type}

/-! ### Names of workflow files -/

/-- The part of a list in front of the first element that fails a test. -/
theorem span_eq_cons {p : α → Bool} {as front back : List α} {a : α} :
    as.span p = (front, a :: back) ↔
      (∀ b ∈ front, p b = true) ∧ p a = false ∧ as = front ++ a :: back := by
  rw [List.span_eq_takeWhile_dropWhile, Prod.mk.injEq]
  constructor
  · rintro ⟨rfl, hback⟩
    refine ⟨fun b hb => List.mem_takeWhile_imp hb, ?_, ?_⟩
    · have hfails := List.head?_dropWhile_not p as
      rw [hback] at hfails
      exact hfails
    · rw [← hback, List.takeWhile_append_dropWhile]
  · rintro ⟨hfront, ha, rfl⟩
    rw [List.takeWhile_append_of_pos hfront, List.dropWhile_append_of_pos hfront]
    simp [ha]

namespace Path

variable {p : Path} {ps qs : List Path}

theorem suffix?_eq_some {name suffix : String} : suffix? name = some suffix ↔
    '.' ∉ suffix.toList ∧ ∃ stem, stem ≠ "" ∧ name = stem ++ ("." ++ suffix) := by
  unfold suffix?
  constructor
  · intro h
    split at h
    · next front dot last rest hspan =>
      obtain ⟨hfree, hdot, hname⟩ := span_eq_cons.mp hspan
      obtain rfl := Option.some.inj h
      have hdot : dot = '.' := by simpa using hdot
      refine ⟨fun hmem => ?_, .ofList (last :: rest).reverse, by simp, ?_⟩
      · cases hfree '.' (by simpa using hmem)
      · apply String.toList_inj.mp
        have hreverse := congrArg List.reverse hname
        simpa [hdot] using hreverse
    · cases h
  · rintro ⟨hfree, stem, hstem, rfl⟩
    have hspan : (stem ++ ("." ++ suffix)).toList.reverse.span (· != '.') =
        (suffix.toList.reverse, '.' :: stem.toList.reverse) := by
      apply span_eq_cons.mpr
      refine ⟨fun c hc => ?_, rfl, by simp⟩
      have hne : c ≠ '.' := by
        rintro rfl
        exact hfree (List.mem_reverse.mp hc)
      simpa using hne
    rw [hspan]
    rcases hlast : stem.toList.reverse with _ | ⟨last, rest⟩
    · exact absurd (by simpa using hlast) hstem
    · simp

/-- The name ends as those of workflow files do, behind something else. -/
def HasWorkflowName (p : Path) : Prop :=
  ∃ stem, stem ≠ "" ∧ (p.name? = some (stem ++ ".yml") ∨ p.name? = some (stem ++ ".yaml"))

theorem isWorkflow_iff : p.isWorkflow = true ↔ p.HasWorkflowName := by
  have hiff : p.isWorkflow = true ↔
      p.name?.bind suffix? = some "yml" ∨ p.name?.bind suffix? = some "yaml" := by
    unfold isWorkflow
    cases p.name?.bind suffix? <;> simp
  have hname : ∀ s : String, '.' ∉ s.toList → (p.name?.bind suffix? = some s ↔
      ∃ stem, stem ≠ "" ∧ p.name? = some (stem ++ ("." ++ s))) := by
    intro s hs
    rw [Option.bind_eq_some_iff]
    simp only [suffix?_eq_some]
    constructor
    · rintro ⟨name, hname, -, stem, hstem, rfl⟩
      exact ⟨stem, hstem, hname⟩
    · rintro ⟨stem, hstem, hname⟩
      exact ⟨_, hname, hs, stem, hstem, rfl⟩
  rw [hiff, hname "yml" (by decide), hname "yaml" (by decide), HasWorkflowName]
  simp only [and_or_left, exists_or]
  rfl

/-! ### Ascending lists of paths -/

theorem nodup_components (h : ps.Pairwise fun p q => p.lt q = true) :
    (ps.map components).Nodup := by
  rw [List.Nodup, List.pairwise_map]
  refine h.imp fun {p q} hpq heq => ?_
  have hagrees := agrees_iff.2 heq
  rw [(lt_iff.1 hpq).2] at hagrees
  cases hagrees

theorem pairwise_components (h : ps.Pairwise fun p q => p.lt q = true) :
    (ps.map components).Pairwise fun as bs => leComponents as bs = true := by
  rw [List.pairwise_map]
  exact h.imp fun hpq => (lt_iff.1 hpq).1

/-- Strictly ascending lists with the same paths agree one by one. -/
theorem forall₂_agrees (hps : ps.Pairwise fun p q => p.lt q = true)
    (hqs : qs.Pairwise fun p q => p.lt q = true)
    (h : ∀ r : Path, (∃ p ∈ ps, p.agrees r = true) ↔ ∃ q ∈ qs, q.agrees r = true) :
    List.Forall₂ (fun p q => p.agrees q = true) ps qs := by
  have hmem : ∀ as, as ∈ ps.map components ↔ as ∈ qs.map components := by
    simp only [agrees_iff] at h
    intro as
    rw [List.mem_map, List.mem_map]
    constructor
    · rintro ⟨p, hp, rfl⟩
      exact (h p).mp ⟨p, hp, rfl⟩
    · rintro ⟨q, hq, rfl⟩
      exact (h q).mpr ⟨q, hq, rfl⟩
  have hperm := (List.perm_ext_iff_of_nodup (nodup_components hps) (nodup_components hqs)).mpr hmem
  have heq : ps.map components = qs.map components := List.Perm.eq_of_pairwise
    (fun _ _ _ _ hab hba => leComponents_antisymm hab hba) (pairwise_components hps)
    (pairwise_components hqs) hperm
  have hforall : List.Forall₂ Eq (ps.map components) (qs.map components) := by
    rw [List.forall₂_eq_eq_eq]
    exact heq
  rw [List.forall₂_map_left_iff, List.forall₂_map_right_iff] at hforall
  exact hforall.imp fun p q hpq => agrees_iff.2 hpq

end Path

namespace Selection

theorem after_of_pairwise {kept : Path} {ps : List Path}
    (h : (kept :: ps).Pairwise fun p q => p.lt q = true) : collapse.after kept ps = ps := by
  induction ps generalizing kept with
  | nil => rfl
  | cons p ps ih =>
    have hkept := List.pairwise_cons.mp h
    have hlt := Path.lt_iff.mp (hkept.1 p List.mem_cons_self)
    rw [collapse.after, if_neg (by simp [hlt.2]), ih hkept.2]

/-- A list that ascends strictly is in order. -/
theorem ordered_of_pairwise {ps : List Path} (h : ps.Pairwise fun p q => p.lt q = true) :
    ordered ps = ps := by
  rw [ordered, List.mergeSort_of_pairwise (h.imp fun hpq => (Path.lt_iff.mp hpq).1)]
  rcases ps with - | ⟨p, ps⟩
  · rfl
  · rw [collapse, after_of_pairwise h]

end Selection

/-! ### Findings that may fail -/

theorem exists_mapM_eq_error {f : α → Except ε β} {as : List α} :
    (∃ e, as.mapM f = .error e) ↔ ∃ a ∈ as, ∃ e, f a = .error e := by
  induction as with
  | nil => simp [pure, Except.pure]
  | cons a as ih =>
    simp only [List.mapM_cons, List.mem_cons, exists_eq_or_imp, ← ih]
    rcases f a with e | b
    · simp [bind, Except.bind]
    · rcases as.mapM f with e | bs <;> simp [bind, Except.bind, pure, Except.pure]

/-- What is found for a list is found for its elements. -/
theorem mem_flatten_of_mapM_eq_ok {f : α → Except ε (List β)} {as : List α} {found : List (List β)}
    (h : as.mapM f = .ok found) {b : β} :
    b ∈ found.flatten ↔ ∃ a ∈ as, ∃ bs, f a = .ok bs ∧ b ∈ bs := by
  induction as generalizing found with
  | nil =>
    cases h
    simp
  | cons a as ih =>
    rw [List.mapM_cons] at h
    rcases ha : f a with e | bs
    · rw [ha] at h
      cases h
    · rcases has : as.mapM f with e | rest
      · rw [ha, has] at h
        cases h
      · rw [ha, has] at h
        cases h
        rw [List.flatten_cons, List.mem_append, ih has]
        simp [ha]

/-! ### What one argument stands for -/

namespace FileSystem

variable {fs : FileSystem Id} {argument : String} {arguments : List String} {p : Path}
variable {ps : List Path}

/-- A file stands for itself, a directory for the workflow files below it, and anything else, as a
pattern, for the files that match it. -/
def Selects (fs : FileSystem Id) (argument : String) (p : Path) : Prop :=
  match (fs.kind? ⟨argument⟩).run with
  | some .file => p = ⟨argument⟩
  | some .directory => p ∈ (fs.filesBelow ⟨argument⟩).run ∧ p.HasWorkflowName
  | none => ∃ pattern, Pattern.read argument = .ok pattern ∧ p ∈ (fs.filesMatching pattern).run

/-- Nothing stands at the argument, and as a pattern it is invalid or no file matches it. -/
structure Unmatched (fs : FileSystem Id) (argument : String) : Prop where
  kind : (fs.kind? ⟨argument⟩).run = none
  pattern : ∀ pattern, Pattern.read argument = .ok pattern → (fs.filesMatching pattern).run = []

/-- The files that one argument selects. -/
def selection (fs : FileSystem Id) (argument : String) : Except SelectionFailure (List Path) :=
  (fs.target argument).run.select argument

theorem selection_eq : fs.selection argument = match (fs.kind? ⟨argument⟩).run with
    | some .file => .ok [⟨argument⟩]
    | some .directory => .ok ((fs.filesBelow ⟨argument⟩).run.filter Path.isWorkflow)
    | none => match Pattern.read argument with
      | .error flaw => .error (.badPattern argument flaw)
      | .ok pattern =>
        if (fs.filesMatching pattern).run.isEmpty then .error (.noMatch argument)
        else .ok (fs.filesMatching pattern).run := by
  have htarget : fs.target argument = match (fs.kind? ⟨argument⟩).run with
    | some .file => pure .file
    | some .directory => do return .directory (← fs.filesBelow ⟨argument⟩)
    | none => match Pattern.read argument with
      | .error flaw => pure (.pattern (.error flaw))
      | .ok pattern => do return .pattern (.ok (← fs.filesMatching pattern)) := rfl
  rw [selection, htarget]
  rcases (fs.kind? ⟨argument⟩).run with _ | _ | _
  · dsimp only
    rcases Pattern.read argument with flaw | pattern <;> rfl
  · rfl
  · rfl

theorem exists_selection_eq_error :
    (∃ cause, fs.selection argument = .error cause) ↔ fs.Unmatched argument := by
  rw [selection_eq]
  constructor
  · rintro ⟨cause, h⟩
    split at h
    · cases h
    · cases h
    · next hkind =>
      refine ⟨hkind, fun pattern hread => ?_⟩
      rw [hread] at h
      dsimp only at h
      split at h
      · next hempty => exact List.isEmpty_iff.mp hempty
      · cases h
  · rintro ⟨hkind, hpattern⟩
    rw [hkind]
    dsimp only
    rcases hread : Pattern.read argument with flaw | pattern
    · exact ⟨_, rfl⟩
    · dsimp only
      rw [hpattern pattern hread]
      exact ⟨_, rfl⟩

theorem mem_of_selection_eq_ok (h : fs.selection argument = .ok ps) :
    p ∈ ps ↔ fs.Selects argument p := by
  rw [selection_eq] at h
  unfold Selects
  generalize (fs.kind? ⟨argument⟩).run = kind? at h ⊢
  rcases kind? with _ | _ | _
  · -- a pattern
    dsimp only at h ⊢
    generalize Pattern.read argument = pattern at h ⊢
    rcases pattern with flaw | pattern
    · cases h
    · dsimp only at h
      split at h
      · cases h
      · cases h
        simp
  · -- a file
    cases h
    exact List.mem_singleton
  · -- a directory
    cases h
    rw [List.mem_filter, Path.isWorkflow_iff]

/-! ### What the arguments stand for together -/

theorem select_eq (arguments : List String) : (fs.select arguments).run =
    (arguments.mapM fs.selection).map fun found => Selection.ordered found.flatten := by
  have htargets : (arguments.mapM fun argument => (do
      return (argument, ← fs.target argument) : Id (String × Target))) =
      arguments.map fun argument => (argument, (fs.target argument).run) := List.mapM_pure
  show Selection.select _ = _
  rw [htargets, Selection.select, List.mapM_map]
  rfl

theorem exists_select_eq_error : (∃ cause, (fs.select arguments).run = .error cause) ↔
    ∃ argument ∈ arguments, fs.Unmatched argument := by
  simp only [← exists_selection_eq_error]
  rw [← exists_mapM_eq_error, select_eq]
  rcases arguments.mapM fs.selection with cause | found <;> simp [Except.map]

/-- Before they are put in order, the files are those that some argument selects. -/
theorem mem_found {found : List (List Path)} (h : arguments.mapM fs.selection = .ok found) :
    p ∈ found.flatten ↔ ∃ argument ∈ arguments, fs.Selects argument p := by
  rw [mem_flatten_of_mapM_eq_ok h]
  constructor
  · rintro ⟨argument, hargument, files, hfiles, hp⟩
    exact ⟨argument, hargument, (mem_of_selection_eq_ok hfiles).mp hp⟩
  · rintro ⟨argument, hargument, hp⟩
    rcases hfiles : fs.selection argument with cause | files
    · -- one that fails would have made all fail
      obtain ⟨_, herror⟩ := exists_mapM_eq_error.mpr ⟨argument, hargument, cause, hfiles⟩
      cases h.symm.trans herror
    · exact ⟨argument, hargument, files, hfiles, (mem_of_selection_eq_ok hfiles).mpr hp⟩

theorem exists_found (h : (fs.select arguments).run = .ok ps) :
    ∃ found, arguments.mapM fs.selection = .ok found ∧ Selection.ordered found.flatten = ps := by
  rw [select_eq] at h
  rcases hfound : arguments.mapM fs.selection with cause | found
  · rw [hfound] at h
    cases h
  · rw [hfound] at h
    exact ⟨found, rfl, Except.ok.inj h⟩

/-- The paths of a check are selected as they are spelled. -/
theorem exists_selects_of_mem (h : (fs.select arguments).run = .ok ps) (hp : p ∈ ps) :
    ∃ argument ∈ arguments, fs.Selects argument p := by
  obtain ⟨found, hfound, rfl⟩ := exists_found h
  exact (mem_found hfound).mp (Selection.mem_of_mem_ordered hp)

/-- The files of a check ascend, and they are those that some argument selects, in some spelling. -/
theorem of_select_eq_ok (h : (fs.select arguments).run = .ok ps) :
    ps.Pairwise (fun p q => p.lt q = true) ∧ ∀ r : Path, (∃ p ∈ ps, p.agrees r = true) ↔
      ∃ argument ∈ arguments, ∃ q, fs.Selects argument q ∧ q.agrees r = true := by
  obtain ⟨found, hfound, rfl⟩ := exists_found h
  refine ⟨Selection.pairwise_ordered found.flatten, fun r => ⟨?_, ?_⟩⟩
  · -- a path that was kept was found
    rintro ⟨p, hp, hpr⟩
    obtain ⟨argument, hargument, hselects⟩ := exists_selects_of_mem h hp
    exact ⟨argument, hargument, p, hselects, hpr⟩
  · -- beside a path that was found one with the same components was kept
    rintro ⟨argument, hargument, q, hselects, hqr⟩
    have hq : q ∈ found.flatten := (mem_found hfound).mpr ⟨argument, hargument, hselects⟩
    obtain ⟨p, hp, hpq⟩ := Selection.exists_agrees_of_mem hq
    exact ⟨p, hp, Path.agrees_trans hpq hqr⟩

/-- Files that were found in strictly ascending order are selected as they are. -/
theorem select_eq_of_pairwise {found : List (List Path)}
    (h : arguments.mapM fs.selection = .ok found)
    (hfound : found.flatten.Pairwise fun p q => p.lt q = true) :
    (fs.select arguments).run = .ok found.flatten := by
  rw [select_eq, h, Except.map, Selection.ordered_of_pairwise hfound]

end FileSystem

/-! ### Checks -/

namespace CommandLine

variable {fs : FileSystem Id} {as bs : List String}

theorem mem_checkedArguments (h : ∀ a, a ∈ as ↔ a ∈ bs) (a : String) :
    a ∈ checkedArguments as ↔ a ∈ checkedArguments bs := by
  have hnil : as = [] ↔ bs = [] := by
    simp only [List.eq_nil_iff_forall_not_mem, h]
  by_cases has : as = []
  · rw [has, hnil.mp has]
  · simp [checkedArguments, has, mt hnil.mpr has, h]

/-- **The files of a check depend on the set of its arguments.**  Two lists with the same arguments
select paths that agree one by one, or both fail, which is so just if some argument is unmatched.
The paths ascend strictly, and they are those that some argument selects. -/
theorem filesToCheck_by_set (fs : FileSystem Id) (as bs : List String)
    (h : ∀ a, a ∈ as ↔ a ∈ bs) :
    ((∃ ps qs, (filesToCheck fs as).run = .ok ps ∧ (filesToCheck fs bs).run = .ok qs ∧
        List.Forall₂ (fun p q => p.agrees q = true) ps qs) ∨
      (∃ cause, (filesToCheck fs as).run = .error cause) ∧
        ∃ cause, (filesToCheck fs bs).run = .error cause) ∧
    ((∃ cause, (filesToCheck fs as).run = .error cause) ↔
      ∃ a ∈ checkedArguments as, fs.Unmatched a) ∧
    ∀ ps, (filesToCheck fs as).run = .ok ps → ps.Pairwise (fun p q => p.lt q = true) ∧
      ∀ r : Path, (∃ p ∈ ps, p.agrees r = true) ↔
        ∃ a ∈ checkedArguments as, ∃ q, fs.Selects a q ∧ q.agrees r = true := by
  refine ⟨?_, FileSystem.exists_select_eq_error, fun ps => FileSystem.of_select_eq_ok⟩
  have hsame := mem_checkedArguments h
  have hfails : (∃ cause, (filesToCheck fs as).run = .error cause) ↔
      ∃ cause, (filesToCheck fs bs).run = .error cause := by
    rw [filesToCheck, filesToCheck, FileSystem.exists_select_eq_error,
      FileSystem.exists_select_eq_error]
    simp only [hsame]
  rcases has : (filesToCheck fs as).run with cause | ps
  · exact .inr ⟨⟨cause, rfl⟩, hfails.mp ⟨cause, has⟩⟩
  rcases hbs : (filesToCheck fs bs).run with cause | qs
  · obtain ⟨_, herror⟩ := hfails.mpr ⟨cause, hbs⟩
    cases has.symm.trans herror
  · obtain ⟨hps, hmem⟩ := FileSystem.of_select_eq_ok has
    obtain ⟨hqs, hmem'⟩ := FileSystem.of_select_eq_ok hbs
    refine .inl ⟨ps, qs, rfl, rfl, Path.forall₂_agrees hps hqs fun r => ?_⟩
    rw [hmem, hmem']
    simp only [hsame]

/-- Two workflows, one of them in a directory with another file. -/
def scattered : FileSystem Id := FileTree.fileSystem
  { files := [(["ci", "build.yml"], ""), (["ci", "notes.txt"], ""), (["all.yaml"], "")]
    directories := [] } ⟨"/"⟩

/-- One argument finds a file in a directory, another one names it with two slashes. -/
theorem filesToCheck_by_set_of_scattered :
    (∀ a, a ∈ ["ci", "ci//build.yml", "*.yaml"] ↔
      a ∈ ["*.yaml", "ci//build.yml", "*.yaml", "ci"]) ∧
    ∃ ps qs, (filesToCheck scattered ["ci", "ci//build.yml", "*.yaml"]).run = .ok ps ∧
      (filesToCheck scattered ["*.yaml", "ci//build.yml", "*.yaml", "ci"]).run = .ok qs ∧
      List.Forall₂ (fun p q => p.agrees q = true) ps qs ∧
      ps.Pairwise (fun p q => p.lt q = true) ∧ ∃ p ∈ ps, p.agrees ⟨"ci/build.yml"⟩ = true := by
  have hset : ∀ a, a ∈ ["ci", "ci//build.yml", "*.yaml"] ↔
      a ∈ ["*.yaml", "ci//build.yml", "*.yaml", "ci"] := by
    intro a
    simp only [List.mem_cons, List.not_mem_nil, or_false]
    tauto
  have hdirectory : (scattered.kind? ⟨"ci"⟩).run = some .directory := by decide +kernel
  have hfile : (scattered.kind? ⟨"ci//build.yml"⟩).run = some .file := by decide +kernel
  have hmatching : (Pattern.read "*.yaml").map (fun pattern =>
      (scattered.filesMatching pattern).run) = .ok [⟨"all.yaml"⟩] := by decide +kernel
  obtain ⟨houtcome, hfails, hfiles⟩ := filesToCheck_by_set scattered _ _ hset
  have hmatched : ¬ ∃ a ∈ checkedArguments ["ci", "ci//build.yml", "*.yaml"],
      scattered.Unmatched a := by
    rintro ⟨a, ha, hkind, hnone⟩
    simp only [checkedArguments, List.isEmpty_cons, Bool.false_eq_true, if_false, List.mem_cons,
      List.not_mem_nil, or_false] at ha
    rcases ha with rfl | rfl | rfl
    · cases hdirectory.symm.trans hkind
    · cases hfile.symm.trans hkind
    · rcases hread : Pattern.read "*.yaml" with flaw | pattern
      · rw [hread] at hmatching
        cases hmatching
      · rw [hread, Except.map, hnone pattern hread] at hmatching
        cases hmatching
  rcases houtcome with ⟨ps, qs, hps, hqs, hagree⟩ | ⟨herror, -⟩
  · obtain ⟨hascend, hmem⟩ := hfiles ps hps
    refine ⟨hset, ps, qs, hps, hqs, hagree, hascend, (hmem _).mpr ?_⟩
    refine ⟨"ci//build.yml", by simp [checkedArguments], ⟨"ci//build.yml"⟩, ?_, by decide +kernel⟩
    rw [FileSystem.Selects, hfile]
  · exact absurd (hfails.mp herror) hmatched

end CommandLine

end WorkflowTree
