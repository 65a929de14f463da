import WorkflowTree.Proofs.Misfits.Finding
import Mathlib.Data.List.Perm.Basic

/-!
# Misfits of sections

A reader of a section finds what does not fit in its mapping.  A form finds what is found under the
keys that it lists: no key of a section is repeated, so what is found under a key is found once
(`Section.finds_fill`), and a key that the section does not have adds nothing.
-/

namespace WorkflowTree

open Checked Problem

variable {α β : Type} {n : Node} {what key : String} {ps qs : List Problem} {s : Section}

/-! ### Forms -/

/-- The misfits that were found under the keys of a form are these, in some order, and none of them
was found under a key that the section does not have. -/
structure Form.FindsIn (s : Section) (ps : List Problem) (f : Form α) : Prop where
  found : (misfits (f.fields.flatMap Prod.snd)).Perm ps
  silent : ∀ field ∈ f.fields, s.get? field.1 = none → field.2 = []

namespace Form

variable {f : Form α}

theorem findsIn_pure (a : α) : (pure a : Form α).FindsIn s [] where
  found := .refl _
  silent := by
    intro field hfield
    cases hfield

theorem FindsIn.bind {k : α → Form β} (h : f.FindsIn s ps) (hk : (k f.value).FindsIn s qs) :
    (f >>= k).FindsIn s (ps ++ qs) where
  found := by
    rw [fields_bind, List.flatMap_append, misfits_append]
    exact h.found.append hk.found
  silent := by
    intro field hfield
    rw [fields_bind] at hfield
    rcases List.mem_append.mp hfield with hfield | hfield
    · exact h.silent field hfield
    · exact hk.silent field hfield

/-- The last field of a form. -/
theorem FindsIn.last {k : α → Form β} (h : f.FindsIn s ps) (hk : (k f.value).FindsIn s []) :
    (f >>= k).FindsIn s ps := by
  have hbind := h.bind hk
  rwa [List.append_nil] at hbind

end Form

namespace Section

/-- Under the keys of a form nothing is found but under the keys that the section has. -/
theorem findsIn_of_fields {f : Form α} {read : Node → Checked β}
    (hf : f.fields = [(key, s.problemsAt key read)])
    (h : ∀ v, s.get? key = some v → (read v).Finds ps) (hnone : s.get? key = none → ps = []) :
    f.FindsIn s ps where
  found := by
    rw [hf]
    rcases e : s.get? key with - | v
    · rw [hnone e]
      simp [problemsAt, e]
    · have hv : (misfits (read v).problems).Perm ps := h v e
      simpa [problemsAt, e] using hv
  silent := by
    rw [hf]
    intro field hfield hnone
    obtain rfl := List.mem_singleton.mp hfield
    rw [problemsAt, hnone, Option.elim_none]

/-- Nothing is found under a key if the reader of its value finds nothing. -/
theorem findsIn_field {read : Node → Checked (Option α)} (h : ∀ v, (read v).Finds []) :
    (s.field key read).FindsIn s [] :=
  findsIn_of_fields (fields_field ..) (fun v _ => h v) fun _ => rfl

theorem findsIn_fieldWithKey {read : Node → Checked (Option α)} (h : ∀ v, (read v).Finds []) :
    (s.fieldWithKey key read).FindsIn s [] :=
  findsIn_of_fields (fields_fieldWithKey ..) (fun v _ => h v) fun _ => rfl

/-- Under a key the misfits are found of the sites of what stands there. -/
theorem findsIn_fieldAt {read : Node → Checked (Option α)} {sites : Node → List Site}
    (hs : s.HoldsFirsts n) (h : ∀ v, (read v).FindsAt (sites v)) :
    (s.field key read).FindsIn s ((n.under key sites).flatMap Site.misfits) := by
  have hget : s.get? key = n.get? key := hs.get? key
  apply findsIn_of_fields (fields_field ..)
  · intro v hv
    rw [Node.under, ← hget, hv]
    exact h v
  · intro hnone
    rw [Node.under, ← hget, hnone]
    rfl

/-! ### Filling forms -/

/-- Of entries with distinct keys one at most has a given key. -/
theorem flatMap_key {es : List Entry} (nodup : (es.map fun e => e.key.value).Nodup)
    (key : String) (ps : List Problem) :
    (es.flatMap fun e => if e.key.value = key then ps else []) =
      (es.find? fun e => e.key.value == key).elim [] fun _ => ps := by
  induction es with
  | nil => rfl
  | cons e es ih =>
    rw [List.map_cons, List.nodup_cons] at nodup
    obtain ⟨hnot, nodup⟩ := nodup
    rw [List.flatMap_cons, ih nodup]
    by_cases hkey : e.key.value = key
    · -- the key does not come again
      have hrest : (es.find? fun e => e.key.value == key) = none := by
        rw [List.find?_eq_none]
        rintro e' he' hkey'
        apply hnot
        rw [hkey, ← beq_iff_eq.mp hkey']
        exact List.mem_map_of_mem he'
      rw [if_pos hkey, hrest, List.find?_cons_of_pos (by simpa using hkey)]
      simp
    · rw [if_neg hkey, List.find?_cons_of_neg (by simpa using hkey), List.nil_append]

/-- What a form says of the keys of a section is what it says of the keys that it lists, in the
order of the entries. -/
theorem flatMap_lookup_perm (s : Section) {fields : List (String × List Problem)}
    (nodup : (fields.map Prod.fst).Nodup)
    (silent : ∀ field ∈ fields, s.get? field.1 = none → field.2 = []) :
    (s.entries.flatMap fun e => (fields.lookup e.key.value).getD []).Perm
      (fields.flatMap Prod.snd) := by
  -- on the fields: the first one speaks of one entry at most, which is the one with its key
  induction fields with
  | nil => simp
  | cons field fields ih =>
    obtain ⟨key, ps⟩ := field
    rw [List.map_cons, List.nodup_cons] at nodup
    obtain ⟨hnot, nodup⟩ := nodup
    have hrest := ih nodup fun field hfield => silent field (List.mem_cons_of_mem _ hfield)
    have hsplit : ∀ e : Entry, (((key, ps) :: fields).lookup e.key.value).getD [] =
        (if e.key.value = key then ps else []) ++ (fields.lookup e.key.value).getD [] := by
      intro e
      rw [Keyed.lookup_cons]
      by_cases hkey : e.key.value = key
      · have hlookup : fields.lookup key = none := Keyed.lookup_eq_none.mpr hnot
        simp [hkey, hlookup]
      · simp [hkey]
    have hfirst : (s.entries.flatMap fun e => if e.key.value = key then ps else []) = ps := by
      rw [flatMap_key s.nodup, ← Section.find?]
      rcases e : s.find? key with - | e'
      · have hnone : s.get? key = none := by rw [get?, e, Option.map_none]
        have hps : ps = [] := silent _ List.mem_cons_self hnone
        rw [hps, Option.elim_none]
      · rw [Option.elim_some]
    simp only [hsplit, List.flatMap_cons]
    refine (List.flatMap_append_perm _ _ _).symm.trans ?_
    rw [hfirst]
    exact hrest.append_left ps

/-- A key that the form does not list is no misfit. -/
theorem misfits_entryProblems (policy : Policy) (what : String) (f : Form α) (e : Entry) :
    misfits (entryProblems policy what f e) = misfits ((f.fields.lookup e.key.value).getD []) := by
  unfold entryProblems
  rcases f.fields.lookup e.key.value with - | ps
  · dsimp only
    split <;> rfl
  · rfl

/-- Filling a form finds what is found under its keys. -/
theorem finds_fill {policy : Policy} {f : Form α} (nodup : f.keys.Nodup) (h : f.FindsIn s ps) :
    (s.fill policy what f).Finds ps := by
  have hperm := flatMap_lookup_perm s nodup h.silent
  have hmisfits : misfits (s.fill policy what f).problems =
      misfits (s.entries.flatMap fun e => (f.fields.lookup e.key.value).getD []) := by
    rw [misfits_flatMap]
    unfold fill
    rw [misfits_flatMap]
    simp only [misfits_entryProblems]
  unfold Finds
  rw [hmisfits]
  exact (hperm.filter _).trans h.found

/-- Filling the form of a section that is made whatever is found. -/
theorem finds_filled {policy : Policy} {f : Form α} (nodup : f.keys.Nodup) (h : f.FindsIn s ps) :
    (some <$> s.fill policy what f).Finds ps := (finds_fill nodup h).map

/-! ### Required keys -/

theorem value_field_of_none {read : Node → Checked (Option α)} (h : s.get? key = none) :
    (s.field key read).value = none := by
  rw [value_field, h, Option.bind_none]

/-- A required key is missing exactly if the mapping does not have it: its value is absent then. -/
theorem finds_require {value : Option α} {pos : Position} (hs : s.HoldsFirsts n)
    (hvalue : s.get? key = none → value = none) :
    (s.require value key what pos).Finds (Site.lacking n [key] what pos) := by
  have hhas : s.has key = n.hasKey key := hs.has key
  have hproblems : (s.require value key what pos).problems = Site.lacking n [key] what pos := by
    rw [hs.get? key] at hvalue
    rcases e : n.get? key with - | v
    · simp [require, hhas, Site.lacking, Node.hasKey, e, hvalue e]
    · simp [require, hhas, Site.lacking, Node.hasKey, e]
  unfold Finds
  rw [hproblems, misfits_eq_self.mpr]
  intro p hp
  simp only [Site.lacking, List.flatMap_cons, List.flatMap_nil, List.append_nil] at hp
  split at hp
  · cases hp
  · obtain rfl := List.mem_singleton.mp hp
    rfl

/-! ### Mappings -/

/-- A reader of a section finds the misfits of the sites of a mapping. -/
theorem findsAt_within {k : Section → Checked (Option α)} {sites : List Site}
    (h : ∀ s, s.HoldsFirsts n → (k s).FindsAt sites) :
    (within what n k).FindsAt (n.ifMapping sites) := by
  apply finds_within
  · intro hother
    rw [Node.ifMapping, hother, if_neg Bool.false_ne_true, List.flatMap_nil]
  · intro s hs
    rw [Node.ifMapping, hs.mapping, if_pos rfl]
    exact h s hs

/-- What is found at a site comes after what is found at the sites inside of it, where no keys of
the site exclude each other. -/
theorem findsAt_cons {c : Checked α} {site : Site} {sites : List Site}
    (hsite : site.exclusions = []) (h : c.Finds (sites.flatMap Site.misfits ++ site.missing)) :
    c.FindsAt (site :: sites) := by
  apply h.perm
  rw [List.flatMap_cons, Site.misfits, hsite, List.nil_append]
  exact List.perm_append_comm

/-- A reader of a workflow or a job finds what its site misses and the misfits of the sites inside
of it.  The keys of its site that exclude each other are found before. -/
theorem findsAt_withinOwner {k : Section → Checked (Option α)} {site : Site} {sites : List Site}
    (hsite : site.exclusions = (formConflict? what n.textEntries).toList)
    (h : ∀ s, s.HoldsFirsts n → (k s).Finds (sites.flatMap Site.misfits ++ site.missing)) :
    (withinOwner what n k).FindsAt (n.ifMapping (site :: sites)) := by
  rcases hmapping : n.isMapping with - | -
  · have hfinds : (withinOwner what n k).Finds
        ((formConflict? what n.textEntries).toList ++ []) := by
      refine finds_withinOwner (fun _ => rfl) fun s hs => ?_
      rw [hs.mapping] at hmapping
      cases hmapping
    rw [Node.textEntries_of_not_isMapping hmapping] at hfinds
    rw [Node.ifMapping, hmapping, if_neg Bool.false_ne_true]
    exact hfinds
  · have hfinds : (withinOwner what n k).Finds ((formConflict? what n.textEntries).toList ++
        (sites.flatMap Site.misfits ++ site.missing)) := by
      refine finds_withinOwner (fun hother => ?_) h
      rw [hother] at hmapping
      cases hmapping
    apply hfinds.perm
    rw [Node.ifMapping, hmapping, if_pos rfl, List.flatMap_cons, Site.misfits, hsite,
      List.append_assoc]
    exact List.perm_append_comm.append_left _

/-! ### Free keys -/

theorem finds_collect {read : Entry → Checked (Option α)} {g : Entry → List Problem}
    (h : ∀ e, (read e).Finds (g e)) : (s.collect read).Finds (s.entries.flatMap g) := by
  have hproblems : (s.collect read).problems = s.entries.flatMap fun e => (read e).problems := by
    simp [collect, List.flatMap_map]
  unfold Finds
  rw [hproblems]
  exact finds_flatMap fun e _ => h e

/-- Where keys are free, the misfits are found of the sites of all first entries. -/
theorem findsAt_free {read : Entry → Checked (Option α)} {sites : Entry → List Site}
    (h : ∀ e, (read e).FindsAt (sites e)) :
    (within what n fun s => some <$> s.collect read).FindsAt (n.firstEntries.flatMap sites) := by
  unfold FindsAt
  rw [List.flatMap_assoc]
  apply finds_within
  · intro hother
    rw [Node.firstEntries_of_not_isMapping hother, List.flatMap_nil]
  · intro s hs
    rw [← hs.entries]
    exact (finds_collect h).map

/-- Where keys are free, nothing is found if nothing is found in any entry. -/
theorem finds_free {read : Entry → Checked (Option α)} (h : ∀ e, (read e).Finds []) :
    (within what n fun s => some <$> s.collect read).Finds [] := by
  apply finds_within (fun _ => rfl)
  intro s _
  have hcollect := finds_collect (s := s) h
  rw [List.flatMap_eq_nil_iff.mpr fun _ _ => rfl] at hcollect
  exact hcollect.map

end Section

end WorkflowTree
