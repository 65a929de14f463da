import WorkflowTree.Proofs.Repeats.Scope

/-!
# Repeated keys

Of the entries of a mapping with one key the first one counts, and each later one repeats its key.
A section that is read reports each repeat with the place of the first entry
(`Section.repeats_distinct`), key by key and in order.

In the mapping of a workflow or a job the repeats of one key may be passed over: permissions that
are written in both of their forms exclude each other, which is one problem for all of them.
`PermissionsJudged` says what has to be reported about the keys of such a mapping, and reading the
mapping reports it (`Section.judged_readWithPermissions`).
-/

namespace WorkflowTree

open Checked

variable {α β : Type} {n : Node} {what key : String} {es : List Entry}

/-! ### Problems of mappings -/

namespace Problem

/-- Keys of this mapping exclude each other. -/
def isExclusionIn (scope : String) (p : Problem) : Bool :=
  p.isExclusion && p.about? == some scope

/-- This key of this mapping is repeated. -/
def isRepeatIn (scope key : String) (p : Problem) : Bool :=
  match p.fault with
  | .duplicate scope' key' _ => scope' == scope && key' == key
  | _ => false

theorem filter_isExclusionIn_eq_nil {scope : String} {ps : List Problem}
    (h : ∀ p ∈ ps, ∀ name, p.about? = some name → name ≠ scope) :
    ps.filter (isExclusionIn scope) = [] := by
  rw [List.filter_eq_nil_iff]
  intro p hp hexclusion
  rw [isExclusionIn, Bool.and_eq_true, beq_iff_eq] at hexclusion
  exact h p hp scope hexclusion.2 rfl

theorem filter_isRepeatIn_eq_nil {scope : String} (key : String) {ps : List Problem}
    (h : ∀ p ∈ ps, ∀ name, p.about? = some name → name ≠ scope) :
    ps.filter (isRepeatIn scope key) = [] := by
  rw [List.filter_eq_nil_iff]
  rintro ⟨fault, pos⟩ hp hrepeat
  cases fault with
  | duplicate scope' key' first =>
    rw [isRepeatIn, Bool.and_eq_true, beq_iff_eq] at hrepeat
    exact h _ hp scope' rfl hrepeat.1
  | _ => cases hrepeat

end Problem

/-! ### What is repeated -/

/-- The reports of the entries that repeat the key of the first one. -/
def Entry.repeats (what : String) : List Entry → List Problem
  | [] => []
  | first :: later =>
    later.map fun e => ⟨.duplicate what first.key.value first.key.pos, e.key.pos⟩

namespace Node

/-- The entries of a mapping with this key, in order. -/
def entriesAt (n : Node) (key : String) : List Entry :=
  n.textEntries.filter fun e => e.key.value == key

/-- The reports of the entries of a mapping that repeat this key. -/
def repeats (n : Node) (what key : String) : List Problem := Entry.repeats what (n.entriesAt key)

end Node

/-- What has to be reported about the keys of the mapping of a workflow or a job. -/
structure PermissionsJudged (what : String) (n : Node) (ps : List Problem) : Prop where
  /-- Permissions in both of their forms exclude each other, and are not reported as repeated. -/
  both {blanket perScope : Entry} {word : String} :
    ((n.entriesAt "permissions").find? fun e => e.value.text?.isSome) = some blanket →
    ((n.entriesAt "permissions").find? fun e => e.value.isMapping) = some perScope →
    blanket.value.text? = some word →
    ps.filter (Problem.isExclusionIn what) =
      [⟨.exclusive what s!"blanket permissions \"{word}\"" "per-scope permissions",
        blanket.key.pos.later perScope.key.pos⟩] ∧
    ps.filter (Problem.isRepeatIn what "permissions") = []
  /-- Without one of the forms nothing is excluded, and each entry after the first is a repeat. -/
  otherwise :
    ((n.entriesAt "permissions").find? fun e => e.value.text?.isSome) = none ∨
      ((n.entriesAt "permissions").find? fun e => e.value.isMapping) = none →
    ps.filter (Problem.isExclusionIn what) = [] ∧
    ps.filter (Problem.isRepeatIn what "permissions") = n.repeats what "permissions"
  /-- The repeats of all other keys are reported in both cases. -/
  others {key : String} : key ≠ "permissions" →
    ps.filter (Problem.isRepeatIn what key) = n.repeats what key

namespace Section

/-! ### Distinct keys -/

/-- Of the entries that come on, those with a key that was met are repeats of the first one. -/
theorem repeats_foldlM_extend (what : String) (quiet : List String) (key : String)
    (es : List Entry) (s : Section) :
    (es.foldlM (extend what quiet) s).problems.filter (Problem.isRepeatIn what key) =
      if quiet.contains key then []
      else Entry.repeats what
        ((s.find? key).toList ++ es.filter fun e => e.key.value == key) := by
  induction es generalizing s with
  | nil => rcases s.find? key with - | first <;> simp [Entry.repeats]
  | cons e es ih =>
    rw [List.foldlM_cons, problems_bind, List.filter_append]
    rcases h : s.find? e.key.value with - | first
    · -- the key is new: if it is the one that is looked at, the entry is its first
      rw [extend_of_none h, value_pure, problems_pure, ih, find?_add, List.filter_nil,
        List.nil_append]
      by_cases hkey : e.key.value = key
      · rw [hkey] at h
        simp [h, hkey]
      · simp [hkey]
    · rw [extend_of_some h, ih]
      by_cases hkey : e.key.value = key
      · -- a repeat of the key, whose first entry is kept already
        rw [hkey] at h
        have hfirst : first.key.value = key := (find?_eq_some.mp h).2
        rw [h, hkey]
        rcases quiet.contains key with - | -
        · simp [Entry.repeats, hkey, hfirst, Problem.isRepeatIn]
        · rfl
      · -- a repeat of another key
        have hother : (if quiet.contains e.key.value then []
            else [⟨.duplicate what e.key.value first.key.pos, e.key.pos⟩] : List Problem).filter
            (Problem.isRepeatIn what key) = [] := by
          split
          · rfl
          · simp [Problem.isRepeatIn, hkey]
        rw [hother, List.nil_append, List.filter_cons_of_neg (by simpa using hkey)]

/-- Each repeat of a key that is not passed over is reported, once. -/
theorem repeats_distinct (what : String) (quiet : List String) (es : List Entry) (key : String) :
    (distinct what quiet es).problems.filter (Problem.isRepeatIn what key) =
      if quiet.contains key then []
      else Entry.repeats what (es.filter fun e => e.key.value == key) := by
  rw [distinct, repeats_foldlM_extend]
  simp [empty, find?]

/-- A repeated key excludes nothing. -/
theorem exclusions_distinct (what : String) (quiet : List String) (es : List Entry)
    (scope : String) :
    (distinct what quiet es).problems.filter (Problem.isExclusionIn scope) = [] := by
  have hnone := Problem.misfits_eq_nil.mp (finds_distinct what quiet es).eq_nil
  rw [List.filter_eq_nil_iff]
  intro p hp hexclusion
  rw [Problem.isExclusionIn, Bool.and_eq_true] at hexclusion
  have hmisfit := hnone p hp
  rw [Problem.isMisfit, hexclusion.1, Bool.true_or] at hmisfit
  cases hmisfit

/-! ### Two forms of permissions -/

theorem formConflict?_eq_some (what : String) {blanket perScope : Entry} {word : String}
    (hblanket : ((n.entriesAt "permissions").find? fun e => e.value.text?.isSome) = some blanket)
    (hperScope : ((n.entriesAt "permissions").find? fun e => e.value.isMapping) = some perScope)
    (hword : blanket.value.text? = some word) : formConflict? what n.textEntries =
      some ⟨.exclusive what s!"blanket permissions \"{word}\"" "per-scope permissions",
        blanket.key.pos.later perScope.key.pos⟩ := by
  unfold Node.entriesAt Node.isMapping at *
  simp only [formConflict?, permissionsKey, hblanket, hperScope, hword, Option.bind_eq_bind,
    Option.bind_some]
  rfl

theorem formConflict?_eq_none (what : String)
    (h : ((n.entriesAt "permissions").find? fun e => e.value.text?.isSome) = none ∨
      ((n.entriesAt "permissions").find? fun e => e.value.isMapping) = none) :
    formConflict? what n.textEntries = none := by
  unfold Node.entriesAt Node.isMapping at h
  rcases h with h | h
  · simp only [formConflict?, permissionsKey, h, Option.bind_eq_bind, Option.bind_none]
  · simp only [formConflict?, permissionsKey, h, Option.bind_eq_bind, Option.bind_none,
      Option.bind_fun_none]

/-- The problems of the mapping of a workflow or a job, one kind after the other. -/
theorem problems_readWithPermissions (hes : (Entry.readAll what n).value = some es) :
    (readWithPermissions what n).problems = (Entry.readAll what n).problems ++
      ((formConflict? what es).toList ++ (distinct what
        (if (formConflict? what es).isSome then [permissionsKey] else []) es).problems) := by
  rw [readWithPermissions, andThen_of_some hes]
  rcases formConflict? what es with - | p
  · dsimp only
    rw [problems_map]
    rfl
  · dsimp only
    rw [problems_bind, problems_map]
    rfl

/-- Keys that are no texts are about no mapping. -/
theorem about?_readAll (what : String) (n : Node) (scope : String) :
    ∀ p ∈ (Entry.readAll what n).problems, ∀ name, p.about? = some name → name ≠ scope :=
  Entry.concerns_readAll what n

/-- What stands in a mapping that is not one. -/
theorem textEntries_of_readAll_eq_none (hes : (Entry.readAll what n).value = none) :
    n.textEntries = [] := Node.textEntries_of_not_isMapping (isMapping_of_readAll hes)

/-- Of the keys of a workflow or a job the two forms of permissions exclude each other. -/
theorem exclusions_readWithPermissions (what : String) (n : Node) :
    (readWithPermissions what n).problems.filter (Problem.isExclusionIn what) =
      (formConflict? what n.textEntries).toList := by
  have hentries := Problem.filter_isExclusionIn_eq_nil (about?_readAll what n what)
  rcases hes : (Entry.readAll what n).value with - | es
  · rw [readWithPermissions, andThen_of_none hes, hentries, textEntries_of_readAll_eq_none hes]
    rfl
  · rw [problems_readWithPermissions hes, textEntries_of_readAll hes, List.filter_append,
      List.filter_append, hentries, exclusions_distinct, List.append_nil, List.nil_append,
      List.filter_eq_self]
    intro p hp
    obtain ⟨word, hfault⟩ := fault_of_formConflict? (Option.mem_toList.mp hp)
    simp [Problem.isExclusionIn, Problem.isExclusion, Problem.about?, hfault, Fault.code]

/-- The repeats of all keys are reported, but for those of permissions that exclude each other. -/
theorem repeats_readWithPermissions (what : String) (n : Node) (key : String) :
    (readWithPermissions what n).problems.filter (Problem.isRepeatIn what key) =
      if (formConflict? what n.textEntries).isSome && key == permissionsKey then []
      else n.repeats what key := by
  have hentries := Problem.filter_isRepeatIn_eq_nil key (about?_readAll what n what)
  rcases hes : (Entry.readAll what n).value with - | es
  · have hnil := textEntries_of_readAll_eq_none hes
    rw [readWithPermissions, andThen_of_none hes, hentries, Node.repeats, Node.entriesAt, hnil]
    simp [Entry.repeats]
  · rw [problems_readWithPermissions hes, textEntries_of_readAll hes, List.filter_append,
      List.filter_append, hentries, repeats_distinct, List.nil_append, Node.repeats,
      Node.entriesAt, textEntries_of_readAll hes]
    rcases hconflict : formConflict? what es with - | p
    · rfl
    · -- the exclusion is no repeat, and only the repeats of permissions are passed over
      obtain ⟨word, hfault⟩ := fault_of_formConflict? hconflict
      have hrepeat : [p].filter (Problem.isRepeatIn what key) = [] := by
        simp [Problem.isRepeatIn, hfault]
      rw [Option.toList_some, hrepeat, List.nil_append, Option.isSome_some, if_pos rfl,
        Bool.true_and, List.contains_cons, List.contains_nil, Bool.or_false]

/-- Reading the mapping of a workflow or a job reports about its keys what has to be reported. -/
theorem judged_readWithPermissions (what : String) (n : Node) :
    PermissionsJudged what n (readWithPermissions what n).problems where
  both := by
    intro blanket perScope word hblanket hperScope hword
    have hconflict := formConflict?_eq_some what hblanket hperScope hword
    rw [exclusions_readWithPermissions, repeats_readWithPermissions, hconflict]
    exact ⟨rfl, rfl⟩
  otherwise := by
    intro h
    have hconflict := formConflict?_eq_none what h
    rw [exclusions_readWithPermissions, repeats_readWithPermissions, hconflict]
    exact ⟨rfl, rfl⟩
  others := by
    intro key hkey
    rw [repeats_readWithPermissions, if_neg]
    simpa [permissionsKey] using fun _ => hkey

end Section

end WorkflowTree
