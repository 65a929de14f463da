import WorkflowTree.Proofs.Misfits.Site
import WorkflowTree.Proofs.Reading.Form
import Mathlib.Data.List.Perm.Lattice

/-!
# Finding misfits

A checked value *finds* certain problems (`Checked.Finds`) if they are the misfits among the problems
that were found while it was made, in some order.  Problems of other kinds do not count.

There is one rule for each way in which readers are put together.  A reader of a section finds what
does not fit in the mapping: what is found under the keys of a form is found once each
(`Section.finds_fill`), since no key of a section is repeated.
-/

namespace WorkflowTree

variable {α β : Type}

/-! ### Misfits -/

namespace Problem

/-- Two keys exclude each other. -/
def isExclusion (p : Problem) : Bool := p.fault.code == "GHWF-002"

/-- A required key is missing. -/
def isMissing (p : Problem) : Bool := p.fault.code == "GHWF-003"

/-- Keys of one mapping do not fit together. -/
def isMisfit (p : Problem) : Bool := p.isExclusion || p.isMissing

/-- The misfits among some problems. -/
def misfits (ps : List Problem) : List Problem := ps.filter isMisfit

@[simp] theorem misfits_nil : misfits [] = [] := rfl

@[simp] theorem misfits_append (ps qs : List Problem) :
    misfits (ps ++ qs) = misfits ps ++ misfits qs := List.filter_append ..

theorem misfits_flatMap (as : List α) (f : α → List Problem) :
    misfits (as.flatMap f) = as.flatMap fun a => misfits (f a) := List.filter_flatMap ..

/-- Problems without misfits add nothing. -/
theorem misfits_eq_nil {ps : List Problem} :
    misfits ps = [] ↔ ∀ p ∈ ps, p.isMisfit = false := by
  simp [misfits, List.filter_eq_nil_iff]

theorem misfits_eq_self {ps : List Problem} :
    misfits ps = ps ↔ ∀ p ∈ ps, p.isMisfit = true := List.filter_eq_self

/-- A kind of misfits can be looked for among the misfits alone. -/
theorem filter_misfits {kind : Problem → Bool} (h : ∀ p, kind p = true → p.isMisfit = true)
    (ps : List Problem) : (misfits ps).filter kind = ps.filter kind := by
  rw [misfits, List.filter_filter]
  apply List.filter_congr
  intro p _
  rcases hkind : kind p with - | -
  · rfl
  · rw [h p hkind, Bool.and_self]

theorem filter_isMissing_misfits (ps : List Problem) :
    (misfits ps).filter isMissing = ps.filter isMissing :=
  filter_misfits (fun p hp => by rw [isMisfit, hp, Bool.or_true]) ps

theorem filter_isExclusion_misfits (ps : List Problem) :
    (misfits ps).filter isExclusion = ps.filter isExclusion :=
  filter_misfits (fun p hp => by rw [isMisfit, hp, Bool.true_or]) ps

/-- Keys that exclude each other are not missing. -/
theorem isMissing_of_isExclusion {p : Problem} (h : p.isExclusion = true) :
    p.isMissing = false := by
  rw [isExclusion, beq_iff_eq] at h
  rw [isMissing, h]
  rfl

end Problem

/-! ### Misfits of sites -/

namespace Site

theorem isMissing_of_mem_lacking {n : Node} {required : List String} {what : String}
    {pos : Position} {p : Problem} (h : p ∈ lacking n required what pos) :
    p.isMissing = true := by
  obtain ⟨key, -, hkey⟩ := List.mem_flatMap.mp h
  split at hkey
  · cases hkey
  · obtain rfl := List.mem_singleton.mp hkey
    rfl

theorem isMissing_of_mem_missing {site : Site} {p : Problem} (h : p ∈ site.missing) :
    p.isMissing = true := by
  cases site with
  | step what n =>
    rw [missing] at h
    split at h
    · cases h
    · obtain rfl := List.mem_singleton.mp h
      rfl
  | bareSchedule pos =>
    obtain rfl := List.mem_singleton.mp h
    rfl
  | _ => exact isMissing_of_mem_lacking h

theorem isExclusion_of_mem_exclusions {site : Site} {p : Problem} (h : p ∈ site.exclusions) :
    p.isExclusion = true := by
  obtain ⟨n, -, hp⟩ := excludes_of_mem_exclusions h
  cases hp <;> rfl

/-- Of the misfits of a site those that are missing are what the site lacks. -/
theorem filter_isMissing_misfits (site : Site) :
    site.misfits.filter Problem.isMissing = site.missing := by
  have hexclusions : site.exclusions.filter Problem.isMissing = [] := by
    rw [List.filter_eq_nil_iff]
    intro p hp
    rw [Problem.isMissing_of_isExclusion (isExclusion_of_mem_exclusions hp)]
    exact Bool.false_ne_true
  have hmissing : site.missing.filter Problem.isMissing = site.missing :=
    List.filter_eq_self.mpr fun p hp => isMissing_of_mem_missing hp
  rw [misfits, List.filter_append, hexclusions, hmissing, List.nil_append]

/-- The others are the keys of the site that exclude each other. -/
theorem filter_isExclusion_misfits (site : Site) :
    site.misfits.filter Problem.isExclusion = site.exclusions := by
  have hexclusions : site.exclusions.filter Problem.isExclusion = site.exclusions :=
    List.filter_eq_self.mpr fun p hp => isExclusion_of_mem_exclusions hp
  have hmissing : site.missing.filter Problem.isExclusion = [] := by
    rw [List.filter_eq_nil_iff]
    intro p hp hexclusion
    have hmissing := isMissing_of_mem_missing hp
    rw [Problem.isMissing_of_isExclusion hexclusion] at hmissing
    cases hmissing
  rw [misfits, List.filter_append, hexclusions, hmissing, List.append_nil]

end Site

open Problem

namespace Checked

/-- The misfits that were found are these, in some order. -/
def Finds (ps : List Problem) (c : Checked α) : Prop := (misfits c.problems).Perm ps

/-- The misfits that were found are those of these sites, in some order. -/
def FindsAt (ss : List Site) (c : Checked α) : Prop := c.Finds (ss.flatMap Site.misfits)

variable {ps qs : List Problem} {c : Checked α}

/-! ### Rules -/

theorem Finds.perm (h : c.Finds ps) (hps : ps.Perm qs) : c.Finds qs := h.trans hps

/-- Nothing is found where no problem is a misfit. -/
theorem finds_nil (h : ∀ p ∈ c.problems, p.isMisfit = false) : c.Finds [] := by
  have hnil : misfits c.problems = [] := misfits_eq_nil.mpr h
  unfold Finds
  rw [hnil]

theorem finds_pure (a : α) : (pure a : Checked α).Finds [] := .refl _

theorem Finds.bind {f : α → Checked β} (h : c.Finds ps) (hf : (f c.value).Finds qs) :
    (c >>= f).Finds (ps ++ qs) := by
  unfold Finds
  rw [problems_bind, misfits_append]
  exact h.append hf

/-- The last step of a reader finds nothing. -/
theorem Finds.last {f : α → Checked β} (h : c.Finds ps) (hf : (f c.value).Finds []) :
    (c >>= f).Finds ps := by
  have hbind := h.bind hf
  rwa [List.append_nil] at hbind

theorem Finds.map {f : α → β} (h : c.Finds ps) : (f <$> c).Finds ps := by
  unfold Finds
  rw [problems_map]
  exact h

theorem finds_reportAll {ps : List Problem} (h : ∀ p ∈ ps, p.isMisfit = true) :
    (reportAll ps).Finds ps := by
  have hself : misfits ps = ps := misfits_eq_self.mpr h
  unfold Finds
  rw [problems_reportAll, hself]

/-- What is refused for another reason is no misfit. -/
theorem finds_refuse {fault : Fault} {pos : Position}
    (h : (⟨fault, pos⟩ : Problem).isMisfit = false) :
    (refuse fault pos : Checked (Option α)).Finds [] := by
  refine finds_nil fun p hp => ?_
  obtain rfl := List.mem_singleton.mp hp
  exact h

theorem Finds.andThen {c : Checked (Option α)} {k : α → Checked (Option β)} (h : c.Finds ps)
    (hnone : c.value = none → qs = []) (hk : ∀ a, c.value = some a → (k a).Finds qs) :
    (c.andThen k).Finds (ps ++ qs) := by
  rcases e : c.value with - | a
  · rw [andThen_of_none e, hnone e, List.append_nil]
    exact h
  · have hrest : (misfits (k a).problems).Perm qs := hk a e
    unfold Finds
    rw [andThen_of_some e, misfits_append]
    exact h.append hrest

theorem finds_flatMap {f : β → List Problem} {as : List β} {g : β → List Problem}
    (h : ∀ a ∈ as, (misfits (f a)).Perm (g a)) :
    (misfits (as.flatMap f)).Perm (as.flatMap g) := by
  rw [misfits_flatMap]
  exact List.Perm.flatMap_left as h

theorem finds_collect {read : β → Checked (Option α)} {as : List β} {g : β → List Problem}
    (h : ∀ a ∈ as, (read a).Finds (g a)) : (collect (as.map read)).Finds (as.flatMap g) := by
  unfold Finds
  rw [problems_collect, List.flatMap_map]
  exact finds_flatMap h

theorem findsAt_collect {read : β → Checked (Option α)} {as : List β} {sites : β → List Site}
    (h : ∀ a ∈ as, (read a).FindsAt (sites a)) :
    (collect (as.map read)).FindsAt (as.flatMap sites) := by
  unfold FindsAt
  rw [List.flatMap_assoc]
  exact finds_collect h

theorem finds_collect_nil {read : β → Checked (Option α)} {as : List β}
    (h : ∀ a ∈ as, (read a).Finds []) : (collect (as.map read)).Finds [] := by
  have hall := finds_collect h
  rwa [List.flatMap_eq_nil_iff.mpr fun _ _ => rfl] at hall

end Checked

open Checked

variable {n : Node} {what key : String} {ps qs : List Problem} {s : Section} {es : List Entry}

theorem finds_mismatch (n : Node) (what expected : String) :
    (mismatch n what expected : Checked (Option α)).Finds [] := finds_refuse rfl

/-! ### Sections -/

namespace Entry

theorem finds_read (what : String) (kv : Node × Node) : (read what kv).Finds [] := by
  unfold read
  split
  · exact finds_pure _
  · exact finds_mismatch _ _ _

theorem finds_readAll (what : String) (n : Node) : (readAll what n).Finds [] := by
  unfold readAll
  split
  · exact (finds_collect_nil fun kv _ => finds_read what kv).map
  · exact finds_mismatch _ _ _

theorem find?_textEntries (n : Node) (key : String) :
    (n.textEntries.find? fun e => e.key.value == key) = n.entryAt? key := by
  rcases hn : n.entries? with - | kvs
  · simp [Node.textEntries, Node.entryAt?, hn]
  · simp only [Node.textEntries, Node.entryAt?, hn, Option.getD_some, Option.bind_some]
    clear hn
    induction kvs with
    | nil => rfl
    | cons kv kvs ih =>
      rcases h : ofPair? kv with - | e
      · -- a pair whose key is no text is found by neither look-up
        rw [List.filterMap_cons_none h,
          List.find?_cons_of_neg (by simp [ofPair?_eq_none.mp h]), ih]
      · have htext : kv.1.text? = some e.key.value := (ofPair?_eq_some h).1
        rw [List.filterMap_cons_some h]
        by_cases hkey : e.key.value = key
        · rw [List.find?_cons_of_pos (by simpa using hkey),
            List.find?_cons_of_pos (by simpa [htext] using hkey), Option.bind_some, h]
        · rw [List.find?_cons_of_neg (by simpa using hkey),
            List.find?_cons_of_neg (by simpa [htext] using hkey), ih]

end Entry

namespace Section

/-- The node is a mapping, and the section holds its entries, of each key the first one. -/
structure HoldsFirsts (n : Node) (s : Section) : Prop where
  mapping : n.isMapping = true
  entries : s.entries = n.firstEntries
  find? : ∀ key, s.find? key = n.entryAt? key

theorem HoldsFirsts.get? {s : Section} (h : s.HoldsFirsts n) (key : String) :
    s.get? key = n.get? key := by
  rw [Section.get?, h.find? key, n.map_value_entryAt?]

theorem HoldsFirsts.has {s : Section} (h : s.HoldsFirsts n) (key : String) :
    s.has key = n.hasKey key := by
  rw [Section.has, Node.hasKey, ← h.get? key, Section.get?, Option.isSome_map]

/-- Of the entries that come on, those with new keys are added, of each key the first one. -/
theorem entries_foldlM_extend_firsts (what : String) (quiet : List String) (es : List Entry)
    (s : Section) : (es.foldlM (extend what quiet) s).value.entries = s.entries ++
      (es.filter fun e => (s.find? e.key.value).isNone).eraseDupsBy
        fun e e' => e.key.value == e'.key.value := by
  induction es generalizing s with
  | nil => simp
  | cons e es ih =>
    rw [List.foldlM_cons, value_bind]
    rcases h : s.find? e.key.value with - | first
    · -- the entry is added, and its key is not new any more
      have hnew : (es.filter fun e' => ((s.add e h).find? e'.key.value).isNone) =
          (es.filter fun e' => (s.find? e'.key.value).isNone).filter
            fun e' => (e'.key.value == e.key.value) = false := by
        rw [List.filter_filter]
        apply List.filter_congr
        intro e' _
        rw [find?_add, Option.isNone_or, Bool.and_comm]
        by_cases hkey : e'.key.value = e.key.value <;> simp [hkey, Ne.symm]
      have hentries : (s.add e h).entries = s.entries ++ [e] := rfl
      rw [extend_of_none h, value_pure, ih, hnew, List.filter_cons_of_pos (by simp [h]),
        List.eraseDupsBy_cons, hentries, List.append_assoc, List.singleton_append]
    · rw [extend_of_some h, ih, List.filter_cons_of_neg (by simp [h])]

theorem entries_distinct (what : String) (quiet : List String) (es : List Entry) :
    (distinct what quiet es).value.entries =
      es.eraseDupsBy fun e e' => e.key.value == e'.key.value := by
  rw [distinct, entries_foldlM_extend_firsts]
  simp [empty, find?]

/-- A repeated key is no misfit. -/
theorem finds_distinct (what : String) (quiet : List String) (es : List Entry) :
    (distinct what quiet es).Finds [] := by
  unfold distinct
  -- whatever keys have been kept already
  generalize empty = s
  induction es generalizing s with
  | nil => exact finds_pure _
  | cons e es ih =>
    have hextend : (extend what quiet s e).Finds [] := by
      apply finds_nil
      intro p hp
      rcases h : s.find? e.key.value with - | first
      · rw [extend_of_none h] at hp
        cases hp
      · rw [extend_of_some h] at hp
        dsimp only at hp
        split at hp
        · cases hp
        · obtain rfl := List.mem_singleton.mp hp
          rfl
    rw [List.foldlM_cons]
    exact hextend.bind (ih _)

/-- A node that is read as entries is a mapping, and any other node is not. -/
theorem isMapping_of_readAll {o : Option (List Entry)} (h : (Entry.readAll what n).value = o) :
    n.isMapping = o.isSome := by
  rw [← h, Entry.value_readAll, Option.isSome_map]
  rfl

theorem textEntries_of_readAll (h : (Entry.readAll what n).value = some es) :
    n.textEntries = es := by
  rw [Entry.value_readAll] at h
  obtain ⟨kvs, hkvs, rfl⟩ := Option.map_eq_some_iff.mp h
  rw [Node.textEntries, hkvs, Option.getD_some]

theorem holdsFirsts_distinct {quiet : List String} (h : (Entry.readAll what n).value = some es) :
    (distinct what quiet es).value.HoldsFirsts n := by
  have hes := textEntries_of_readAll h
  refine ⟨isMapping_of_readAll h, ?_, ?_⟩
  · rw [entries_distinct, Node.firstEntries, hes]
  · intro key
    rw [← Entry.find?_textEntries, hes, find?_distinct]

theorem finds_read (what : String) (n : Node) : (Section.read what n).Finds [] :=
  (Entry.finds_readAll what n).andThen (fun _ => rfl) fun es _ => (finds_distinct what [] es).map

theorem isMapping_of_read (h : (Section.read what n).value = none) : n.isMapping = false := by
  rcases hes : (Entry.readAll what n).value with - | es
  · exact isMapping_of_readAll hes
  · rw [read, andThen_of_some hes] at h
    cases h

theorem holdsFirsts_of_read (h : (Section.read what n).value = some s) : s.HoldsFirsts n := by
  rcases hes : (Entry.readAll what n).value with - | es
  · rw [read, andThen_of_none hes] at h
    cases h
  · rw [read, andThen_of_some hes] at h
    obtain rfl := Option.some.inj h
    exact holdsFirsts_distinct hes

/-- A reader of a section finds the misfits of a mapping, and none where there is no mapping. -/
theorem finds_within {k : Section → Checked (Option α)} (hother : n.isMapping = false → ps = [])
    (h : ∀ s, s.HoldsFirsts n → (k s).Finds ps) : (within what n k).Finds ps :=
  (finds_read what n).andThen (fun hnone => hother (isMapping_of_read hnone))
    fun _ hs => h _ (holdsFirsts_of_read hs)

/-! ### Repeated permissions -/

/-- The two forms exclude each other in the mapping that they are written in. -/
theorem fault_of_formConflict? {es : List Entry} {p : Problem}
    (h : formConflict? what es = some p) : ∃ word : String, p.fault =
      .exclusive what s!"blanket permissions \"{word}\"" "per-scope permissions" := by
  simp only [formConflict?, Option.bind_eq_bind, Option.bind_eq_some_iff] at h
  obtain ⟨_, _, _, _, word, _, hp⟩ := h
  obtain rfl := Option.some.inj hp
  exact ⟨word, rfl⟩

theorem isExclusion_of_formConflict? {es : List Entry} {p : Problem}
    (h : formConflict? what es = some p) : p.isExclusion = true := by
  obtain ⟨word, hfault⟩ := fault_of_formConflict? h
  rw [isExclusion, hfault]
  rfl

/-- Reading the mapping of a workflow or a job finds the two forms of its permissions. -/
theorem finds_readWithPermissions (what : String) (n : Node) :
    (readWithPermissions what n).Finds (formConflict? what n.textEntries).toList := by
  unfold readWithPermissions
  refine (Entry.finds_readAll what n).andThen ?_ ?_
  · intro hnone
    rw [Node.textEntries_of_not_isMapping (isMapping_of_readAll hnone)]
    rfl
  · intro es hes
    rw [textEntries_of_readAll hes]
    rcases hconflict : formConflict? what es with - | p
    · exact (finds_distinct what [] es).map
    · have hp : p.isMisfit = true := by
        rw [Problem.isMisfit, isExclusion_of_formConflict? hconflict, Bool.true_or]
      have hreport : (reportAll [p]).Finds [p] := finds_reportAll (by simpa using hp)
      exact hreport.bind (finds_distinct what [permissionsKey] es).map

/-- Whether or not permissions are repeated in two forms, the first entries are kept. -/
theorem value_readWithPermissions (h : (Entry.readAll what n).value = some es) :
    ∃ quiet, (readWithPermissions what n).value = some (distinct what quiet es).value := by
  rw [readWithPermissions, andThen_of_some h]
  dsimp only
  split
  · exact ⟨[], rfl⟩
  · exact ⟨[permissionsKey], rfl⟩

theorem isMapping_of_readWithPermissions (h : (readWithPermissions what n).value = none) :
    n.isMapping = false := by
  rcases hes : (Entry.readAll what n).value with - | es
  · exact isMapping_of_readAll hes
  · obtain ⟨quiet, hvalue⟩ := value_readWithPermissions hes
    rw [hvalue] at h
    cases h

theorem holdsFirsts_of_readWithPermissions (h : (readWithPermissions what n).value = some s) :
    s.HoldsFirsts n := by
  rcases hes : (Entry.readAll what n).value with - | es
  · rw [readWithPermissions, andThen_of_none hes] at h
    cases h
  · obtain ⟨quiet, hvalue⟩ := value_readWithPermissions hes
    obtain rfl := Option.some.inj (hvalue.symm.trans h)
    exact holdsFirsts_distinct hes

/-- A reader of a workflow or a job finds the two forms of its permissions besides what else is
found in the mapping. -/
theorem finds_withinOwner {k : Section → Checked (Option α)}
    (hother : n.isMapping = false → ps = []) (h : ∀ s, s.HoldsFirsts n → (k s).Finds ps) :
    (withinOwner what n k).Finds ((formConflict? what n.textEntries).toList ++ ps) :=
  (finds_readWithPermissions what n).andThen
    (fun hnone => hother (isMapping_of_readWithPermissions hnone))
    fun _ hs => h _ (holdsFirsts_of_readWithPermissions hs)

end Section

end WorkflowTree
