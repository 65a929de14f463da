import WorkflowTree.Proofs.Reading.Form
import WorkflowTree.Proofs.Reading.Related
import WorkflowTree.Proofs.Reordering.Node
import WorkflowTree.Proofs.Reordering.Same
import WorkflowTree.Reading.Trigger

/-!
# Readings that agree

Two checked values are *alike* (`Checked.Alike`) if their values are related and the problems of the
one are those of the other, in some order.

There is one rule for each way in which readers are put together.  Where no key of a mapping is
repeated, reading it is taking its entries as they come, so two mappings that are permuted give two
sections with the same keys (`Section.Alike`).
-/

namespace WorkflowTree

variable {α β γ δ : Type}

namespace Checked

/-- The values are related, and the problems are the same, in some order. -/
structure Alike (R : α → β → Prop) (c : Checked α) (d : Checked β) : Prop where
  value : R c.value d.value
  problems : c.problems.Perm d.problems

variable {R : α → β → Prop} {S : γ → δ → Prop} {c : Checked α} {d : Checked β}

/-! ### Rules -/

theorem Alike.pure {a : α} {b : β} (h : R a b) : (pure a : Checked α).Alike R (pure b) :=
  ⟨h, .refl _⟩

theorem alike_of_eq {c d : Checked α} (h : c = d) : c.Alike Eq d := by
  subst h
  exact ⟨rfl, .refl _⟩

theorem Alike.bind {f : α → Checked γ} {g : β → Checked δ} (h : c.Alike R d)
    (hfg : ∀ a b, R a b → (f a).Alike S (g b)) : (c >>= f).Alike S (d >>= g) := by
  have hrest := hfg c.value d.value h.value
  exact ⟨hrest.value, h.problems.append hrest.problems⟩

theorem Alike.map {f : α → γ} {g : β → δ} (h : c.Alike R d) (hfg : ∀ a b, R a b → S (f a) (g b)) :
    (f <$> c).Alike S (g <$> d) := by
  refine ⟨hfg _ _ h.value, ?_⟩
  rw [problems_map, problems_map]
  exact h.problems

theorem Alike.mono {R' : α → β → Prop} (h : c.Alike R d) (hR : ∀ a b, R a b → R' a b) :
    c.Alike R' d := ⟨hR _ _ h.value, h.problems⟩

theorem Alike.trans {T : α → γ → Prop} {Q : β → γ → Prop} {e : Checked γ} (h : c.Alike R d)
    (h' : d.Alike Q e) (hT : ∀ x y z, R x y → Q y z → T x z) : c.Alike T e :=
  ⟨hT _ _ _ h.value h'.value, h.problems.trans h'.problems⟩

theorem Alike.some (h : c.Alike R d) :
    (Option.some <$> c).Alike (Option.Rel R) (Option.some <$> d) := h.map fun _ _ => .some

theorem Alike.someEq {c d : Checked α} (h : c.Alike Eq d) :
    (Option.some <$> c).Alike Eq (Option.some <$> d) := h.map fun _ _ => congrArg Option.some

/-- Equal values are related part by part. -/
theorem Alike.optionRel {c d : Checked (Option α)} (h : c.Alike Eq d) :
    c.Alike (Option.Rel Eq) d := by
  refine h.mono ?_
  rintro o _ rfl
  exact optionRel_refl (fun _ => rfl) o

/-- Equal values are put to one use. -/
theorem Alike.optionMapEq {S : γ → γ → Prop} {c d : Checked (Option α)} {f : α → γ}
    (h : c.Alike Eq d) (hf : ∀ a, S (f a) (f a)) :
    (Option.map f <$> c).Alike (Option.Rel S) (Option.map f <$> d) := by
  refine h.map ?_
  rintro o _ rfl
  rcases o with - | a
  · exact .none
  · exact .some (hf a)

theorem Alike.optionMap {c : Checked (Option α)} {d : Checked (Option β)} {f : α → γ} {g : β → δ}
    (h : c.Alike (Option.Rel R) d) (hfg : ∀ a b, R a b → S (f a) (g b)) :
    (Option.map f <$> c).Alike (Option.Rel S) (Option.map g <$> d) := by
  refine h.map fun a b hab => ?_
  cases hab with
  | some hab => exact .some (hfg _ _ hab)
  | none => exact .none

theorem Alike.andThen {S : Option γ → Option δ → Prop} {c : Checked (Option α)}
    {d : Checked (Option β)} {k : α → Checked (Option γ)} {l : β → Checked (Option δ)}
    (hnone : S none none) (h : c.Alike (Option.Rel R) d)
    (hkl : ∀ a b, R a b → (k a).Alike S (l b)) : (c.andThen k).Alike S (d.andThen l) := by
  obtain ⟨hvalue, hproblems⟩ := h
  obtain ⟨hc, hd⟩ | ⟨a, b, hc, hd, hab⟩ := optionRel_cases hvalue
  · rw [andThen_of_none hc, andThen_of_none hd]
    exact ⟨hnone, hproblems⟩
  · have hrest := hkl a b hab
    rw [andThen_of_some hc, andThen_of_some hd]
    exact ⟨hrest.value, hproblems.append hrest.problems⟩

theorem alike_reportAll {ps qs : List Problem} (h : ps.Perm qs) :
    (reportAll ps).Alike Eq (reportAll qs) := ⟨rfl, h⟩

/-- What is read of related parts is related, part by part. -/
theorem alike_collect {P : γ → δ → Prop} {read : γ → Checked (Option α)}
    {read' : δ → Checked (Option β)} {cs : List γ} {ds : List δ} (h : List.Forall₂ P cs ds)
    (hread : ∀ c d, P c d → (read c).Alike (Option.Rel R) (read' d)) :
    (collect (cs.map read)).Alike (List.Forall₂ R) (collect (ds.map read')) := by
  constructor
  · -- what is left out on one side is left out on the other
    rw [value_collect, value_collect, List.filterMap_map, List.filterMap_map]
    exact List.rel_filterMap (fun c d hcd => (hread c d hcd).value) h
  · rw [problems_collect, problems_collect, List.flatMap_map, List.flatMap_map]
    exact perm_flatMap_of_forall₂ h fun c d hcd => (hread c d hcd).problems

end Checked

open Checked Node

variable {n m n' : Node} {what key : String} {value : Option String → Node → Node → Prop}

theorem mismatch_eq (h : n.SameOutside n') (what expected : String) :
    (mismatch n what expected : Checked (Option α)) = mismatch n' what expected := by
  unfold mismatch
  rw [h.describe, h.pos]

theorem alike_mismatch {Q : Option α → Option β → Prop} (hQ : Q none none)
    (h : n.SameOutside n') (what expected : String) :
    (mismatch n what expected).Alike Q (mismatch n' what expected) := by
  unfold mismatch
  rw [h.describe, h.pos]
  exact ⟨hQ, .refl _⟩

/-! ### Sections -/

/-- Two entries with one key, whose values are related. -/
structure Entry.Alike (value : Option String → Node → Node → Prop) (e e' : Entry) : Prop where
  key : e.key = e'.key
  value : value (some e.key.value) e.value e'.value

namespace Section

variable {s s' : Section}

/-- Two sections with the same keys in one order, and related values. -/
def AlikeInPlace (value : Option String → Node → Node → Prop) (s s' : Section) : Prop :=
  List.Forall₂ (Entry.Alike value) s.entries s'.entries

/-- Two sections with the same keys, in any order, and related values. -/
def Alike (value : Option String → Node → Node → Prop) (s s' : Section) : Prop :=
  ∃ es, List.Forall₂ (Entry.Alike value) s.entries es ∧ es.Perm s'.entries

/-! #### From mappings to sections -/

theorem distinct_of_nodup (what : String) {es : List Entry}
    (h : (es.map fun e => e.key.value).Nodup) : distinct what [] es = ⟨⟨es, h⟩, []⟩ := by
  have hclean : (distinct what [] es).Clean := clean_distinct.mpr h
  have hentries : (distinct what [] es).value.entries = es := entries_foldlM_extend hclean
  refine Checked.ext ?_ hclean
  rcases hs : (distinct what [] es).value with ⟨es', h'⟩
  rw [hs] at hentries
  subst hentries
  rfl

theorem keys_ofPair? (kvs : List (Node × Node)) :
    (kvs.filterMap Entry.ofPair?).map (fun e => e.key.value) =
      kvs.filterMap fun kv => kv.1.text? := by
  rw [List.map_filterMap]
  congr 1
  funext kv
  rw [Entry.ofPair?, Node.text?_eq_leaf?, Option.map_map]
  rfl

/-- A mapping without repeated keys is read by taking its entries as they come. -/
theorem read_of_distinctKeys (what : String) {kvs : List (Node × Node)} {pos : Position}
    (h : (Node.mapping kvs pos).DistinctKeys) :
    read what (.mapping kvs pos) =
      ⟨some ⟨kvs.filterMap Entry.ofPair?, by rw [keys_ofPair?]; exact h kvs rfl⟩,
        kvs.flatMap fun kv => (Entry.read what kv).problems⟩ := by
  have hkeys : ((kvs.filterMap Entry.ofPair?).map fun e => e.key.value).Nodup := by
    rw [keys_ofPair?]
    exact h kvs rfl
  have hvalue : (Entry.readAll what (.mapping kvs pos)).value =
      some (kvs.filterMap Entry.ofPair?) := Entry.value_readAll what _
  have hproblems : (Entry.readAll what (.mapping kvs pos)).problems =
      kvs.flatMap fun kv => (Entry.read what kv).problems := by
    simp [Entry.readAll, Node.entries?, List.flatMap_map]
  rw [read, andThen_of_some hvalue, distinct_of_nodup what hkeys, hproblems, problems_map,
    value_map, List.append_nil]

/-- Permissions are not repeated where no key is. -/
theorem readWithPermissions_of_distinctKeys (what : String) (h : n.DistinctKeys) :
    readWithPermissions what n = read what n := by
  rcases hes : (Entry.readAll what n).value with - | es
  · rw [readWithPermissions, read, andThen_of_none hes, andThen_of_none hes]
  · have hnodup : (es.map fun e => e.key.value).Nodup := by
      rw [Entry.value_readAll] at hes
      obtain ⟨kvs, hkvs, rfl⟩ := Option.map_eq_some_iff.mp hes
      rw [keys_ofPair?]
      exact h kvs hkvs
    rw [readWithPermissions, read, andThen_of_some hes, andThen_of_some hes,
      formConflict?_of_nodup hnodup]

theorem forall₂_ofPair? {kvs kvs' : List (Node × Node)} (hkvs : ∀ kv ∈ kvs, kv.2.Distinct)
    (h : List.Forall₂ (EntryRel Permuted value) kvs kvs') :
    List.Forall₂ (Entry.Alike fun key v v' => v.Distinct ∧ value key v v')
      (kvs.filterMap Entry.ofPair?) (kvs'.filterMap Entry.ofPair?) := by
  refine List.rel_filterMap ?_ ((List.forall₂_and_left _ _).mpr ⟨hkvs, h⟩)
  rintro _ _ ⟨hv, @⟨k, k', v, v', hkey, hvalue⟩⟩
  rw [Entry.ofPair?, Entry.ofPair?, ← hkey.sameOutside.leaf?]
  rcases hk : k.leaf? with - | t
  · exact .none
  · have htext : k.text? = some t.value := Node.text?_of_leaf? hk
    rw [htext] at hvalue
    exact .some ⟨rfl, hv, hvalue⟩

/-- What is wrong with a key does not depend on its parts. -/
theorem perm_of_key {k k' v v' : Node} (h : k.SameOutside k') :
    (Entry.read what (k, v)).problems.Perm (Entry.read what (k', v')).problems := by
  simp only [Entry.read, h.leaf?, mismatch_eq h]
  rcases k'.leaf? with - | t <;> exact .refl _

/-- A node with other parts is read as a section with the same keys, in the same order. -/
theorem alike_read_inPlace (hn : n.Distinct) (h : PartsRel Permuted value n m) :
    (read what n).Alike
      (Option.Rel (AlikeInPlace fun key v v' => v.Distinct ∧ value key v v')) (read what m) := by
  have hkeys := hn.keys
  have hkeys' := hkeys.parts h
  cases h with
  | null pos => exact ⟨.none, .refl _⟩
  | scalar text plain pos => exact ⟨.none, .refl _⟩
  | sequence pos _ => exact ⟨.none, .refl _⟩
  | mapping pos hkvs =>
    cases hn with
    | mapping _ _ _ hvalues =>
      rw [read_of_distinctKeys what hkeys, read_of_distinctKeys what hkeys']
      refine ⟨.some (forall₂_ofPair? hvalues hkvs), perm_flatMap_of_forall₂ hkvs ?_⟩
      rintro _ _ ⟨hkey, -⟩
      exact perm_of_key hkey.sameOutside

/-- A node whose entries are shuffled is read as a section with the same entries. -/
theorem alike_read_shuffled (hn : n.DistinctKeys) (h : Shuffled n m) :
    (read what n).Alike (Option.Rel fun s s' => s.entries.Perm s'.entries) (read what m) := by
  have hm := hn.shuffled h
  cases h with
  | refl =>
    refine ⟨?_, .refl _⟩
    rcases (read what n).value with - | s
    · exact .none
    · exact .some (.refl _)
  | mapping pos hperm =>
    rw [read_of_distinctKeys what hn, read_of_distinctKeys what hm]
    exact ⟨.some (hperm.filterMap Entry.ofPair?), hperm.flatMap_right _⟩

theorem alike_read (hn : n.Distinct) (h : PartsRel Permuted value n m) (h' : Shuffled m n') :
    (read what n).Alike
      (Option.Rel (Alike fun key v v' => v.Distinct ∧ value key v v')) (read what n') := by
  -- the parts change in place first, then the entries change places
  refine (alike_read_inPlace hn h).trans (alike_read_shuffled (hn.keys.parts h) h') ?_
  rintro _ _ _ ⟨hs⟩ ⟨hperm⟩
  · exact .some ⟨_, hs, hperm⟩
  · exact .none

/-! #### Going on with a section -/

variable {Q : Option α → Option β → Prop} {k : Section → Checked (Option α)}
variable {l : Section → Checked (Option β)}

theorem alike_within (hQ : Q none none) (h : n.Alike n')
    (hkl : ∀ s s', s.Alike (fun _ => Node.Alike) s' → (k s).Alike Q (l s')) :
    (within what n k).Alike Q (within what n' l) := by
  obtain ⟨hn, hparts, hshuffled⟩ := h
  exact (alike_read hn hparts hshuffled).andThen hQ hkl

theorem alike_withinOwner (hQ : Q none none) (hn : n.Distinct)
    (h : PartsRel Permuted value n m) (h' : Shuffled m n')
    (hkl : ∀ s s', s.Alike (fun key v v' => v.Distinct ∧ value key v v') s' →
      (k s).Alike Q (l s')) : (withinOwner what n k).Alike Q (withinOwner what n' l) := by
  have hn' := (hn.keys.parts h).shuffled h'
  rw [withinOwner, withinOwner, readWithPermissions_of_distinctKeys what hn.keys,
    readWithPermissions_of_distinctKeys what hn']
  exact (alike_read hn h h').andThen hQ hkl

/-- A body that is left out, or is no value, has no entries. -/
theorem alike_empty : Section.empty.Alike value .empty := ⟨[], .nil, .refl _⟩

theorem alike_withinBody {body body' : Option Node} (hQ : Q none none)
    (h : Option.Rel Node.Alike body body')
    (hkl : ∀ s s', s.Alike (fun _ => Node.Alike) s' → (k s).Alike Q (l s')) :
    (withinBody what body k).Alike Q (withinBody what body' l) := by
  cases h with
  | none => exact hkl _ _ alike_empty
  | @some v v' hv =>
    -- whether a body is no value does not depend on its parts
    have hnull := hv.sameOutside.isNull
    rcases hisNull : v.isNull with - | -
    · have hbody : (some v).filter (fun v => !v.isNull) = some v := by simp [hisNull]
      have hbody' : (some v').filter (fun v => !v.isNull) = some v' := by simp [← hnull, hisNull]
      rw [withinBody, withinBody, hbody, hbody']
      exact alike_within hQ hv hkl
    · have hbody : (some v).filter (fun v => !v.isNull) = none := by simp [hisNull]
      have hbody' : (some v').filter (fun v => !v.isNull) = none := by simp [← hnull, hisNull]
      rw [withinBody, withinBody, hbody, hbody']
      exact hkl _ _ alike_empty

end Section

end WorkflowTree
