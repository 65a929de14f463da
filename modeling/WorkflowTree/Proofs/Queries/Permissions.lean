import WorkflowTree.Proofs.Meaning.Keys
import WorkflowTree.Proofs.Meaning.WellFormed

/-!
# What permissions give to a scope

A node that is accepted as permissions writes an access for every scope: one word for all scopes, or
an entry for the scope, whose key is the name of the scope letter for letter.  A scope without an
entry gets nothing.  `Node.WritesAccess` says so of the node alone.

What the permissions that are read give to a scope is what the node writes for it
(`Permissions.access_of_read`), since that is what permissions mean (`MeansPermissions`).  Of a node
that is not accepted one half remains: no scope gets an access that is not written for it.
-/

namespace WorkflowTree

open Checked

variable {α : Type} {n : Node} {p : Permissions} {scope : String}

/-! ### What a node writes -/

/-- The access that a node writes for a scope. -/
inductive Node.WritesAccess (n : Node) (scope : String) : Access → Prop
  | readAll : n.text? = some "read-all" → n.WritesAccess scope .read
  | writeAll : n.text? = some "write-all" → n.WritesAccess scope .write
  | entry {entries : List (Node × Node)} {e : Node × Node} {access : Access} :
      n.entries? = some entries → e ∈ entries → e.1.text? = some scope →
      e.2.text? = some access.word → n.WritesAccess scope access
  | absent {entries : List (Node × Node)} : n.entries? = some entries →
      (∀ e ∈ entries, e.1.text? ≠ some scope) → n.WritesAccess scope .none

/-- Permissions are what a node writes: each scope gets what is written for it, and the grants are
of the form of the node, with as many scopes as the node has entries. -/
structure Permissions.AsWritten (n : Node) (p : Permissions) : Prop where
  access : ∀ scope access, p.access scope = access ↔ n.WritesAccess scope access
  blanket : p.blanket?.isSome = n.text?.isSome
  scopes : p.scopes?.map Keyed.size = n.entries?.map List.length

/-! ### Entries of sections -/

theorem Access.word_injective : Function.Injective Access.word := by
  intro a b h
  have hwords := congrArg Access.ofScopeWord? h
  rw [ofScopeWord?_word, ofScopeWord?_word] at hwords
  exact Option.some.inj hwords

/-- A collection that a section means has the keys of the section. -/
theorem MeansKeyed.keys_perm {means : Entry → α → Prop} {m : Keyed α}
    {entries : List (Node × Node)} (h : MeansKeyed means n m) (hn : n.entries? = some entries) :
    (m.keys.map some).Perm (entries.map fun e => e.1.text?) := by
  rcases n with _ | _ | _ | ⟨_, pos⟩ <;> cases hn
  obtain ⟨_, hentries, htext, nodup⟩ := h.isSection
  cases hentries
  have hnodup : (m.keys.map some).Nodup := m.nodup.map fun _ _ => Option.some.inj
  refine (List.perm_ext_iff_of_nodup hnodup nodup).mpr ?_
  have hmem : ∀ key, key ∈ m.keys ↔ (Node.mapping entries pos).Has key := by
    intro key
    rw [(MeansKeyedBut.isOf h).mem_keys, and_iff_left List.not_mem_nil]
  intro o
  rw [List.mem_map, List.mem_map]
  constructor
  · rintro ⟨key, hkey, rfl⟩
    obtain ⟨v, hv⟩ := (hmem key).mp hkey
    obtain ⟨k, _, _, hn, he, hk⟩ := Node.get?_eq_some hv
    cases hn
    exact ⟨(k, v), he, hk⟩
  · rintro ⟨e, he, rfl⟩
    obtain ⟨key, hkey⟩ := htext e he
    exact ⟨key, (hmem key).mpr ⟨e.2, h.isSection.get?_of_mem he hkey⟩, hkey.symm⟩

/-- It has as many keys as the section has entries. -/
theorem MeansKeyed.size_eq {means : Entry → α → Prop} {m : Keyed α} {entries : List (Node × Node)}
    {pos : Position} (h : MeansKeyed means (.mapping entries pos) m) :
    m.size = entries.length := by
  have hlength := (h.keys_perm rfl).length_eq
  rwa [List.length_map, List.length_map, Keyed.keys, List.length_map] at hlength

/-! ### What permissions mean -/

/-- The entry that is looked up is an entry of the mapping. -/
theorem Node.exists_of_entryAt? {entries : List (Node × Node)} {pos : Position} {e : Entry}
    (h : (Node.mapping entries pos).entryAt? scope = some e) :
    ∃ kv ∈ entries, kv.1.text? = some scope ∧ kv.2 = e.value := by
  obtain ⟨kv, hkv, he⟩ := Option.bind_eq_some_iff.mp h
  obtain ⟨e', he', -, hvalue⟩ := Node.find?_entries_eq_some hkv
  obtain rfl : e' = e := Option.some.inj (he'.symm.trans he)
  exact ⟨kv, List.mem_of_find?_eq_some hkv, by simpa using List.find?_some hkv, hvalue.symm⟩

/-- What a scope gets is written for it. -/
theorem MeansPermissions.writesAccess (h : MeansPermissions n p) (scope : String) :
    n.WritesAccess scope (p.access scope) := by
  obtain ⟨grants, pos⟩ := p
  obtain ⟨hgrants, -⟩ := h
  cases hgrants with
  | readAll hword => exact .readAll hword
  | writeAll hword => exact .writeAll hword
  | @scopes entries gs hentries hgs =>
    rcases n with _ | _ | _ | ⟨_, npos⟩ <;> cases hentries
    have haccess : Permissions.access ⟨.scopes gs, pos⟩ scope =
        ((gs.find? scope).map Grant.access).getD .none := rfl
    rw [haccess]
    obtain ⟨hnone, hfind⟩ | ⟨e, g, he, hfind, hg⟩ := optionRel_cases (hgs.rel scope)
    · -- no entry has the name of the scope
      rw [hfind]
      refine .absent rfl fun e he hkey => ?_
      have hvalue := hgs.isSection.get?_of_mem he hkey
      rw [← Node.map_value_entryAt?, hnone] at hvalue
      cases hvalue
    · rw [hfind]
      obtain ⟨kv, hkv, hkey, hvalue⟩ := Node.exists_of_entryAt? he
      exact .entry rfl hkv hkey (hvalue ▸ hg.access)

/-- A text writes an access if it is a word for all scopes. -/
theorem Node.writesAccess_text {word : String} {plain : Bool} {pos : Position}
    {access : Access} : (Node.scalar word plain pos).WritesAccess scope access ↔
      (word = "read-all" ∧ access = .read) ∨ (word = "write-all" ∧ access = .write) := by
  constructor
  · intro h
    cases h with
    | readAll hword => exact .inl ⟨Option.some.inj hword, rfl⟩
    | writeAll hword => exact .inr ⟨Option.some.inj hword, rfl⟩
    | entry hentries => cases hentries
    | absent hentries => cases hentries
  · rintro (⟨rfl, rfl⟩ | ⟨rfl, rfl⟩)
    · exact .readAll rfl
    · exact .writeAll rfl

/-- A text is one word, which writes one access. -/
theorem Node.WritesAccess.unique_of_text {word : String} {plain : Bool} {pos : Position}
    {a b : Access} (ha : (Node.scalar word plain pos).WritesAccess scope a)
    (hb : (Node.scalar word plain pos).WritesAccess scope b) : a = b := by
  rcases Node.writesAccess_text.mp ha with ⟨hword, rfl⟩ | ⟨hword, rfl⟩
  · rcases Node.writesAccess_text.mp hb with ⟨-, rfl⟩ | ⟨hword', -⟩
    · rfl
    · exact absurd (hword.symm.trans hword') (by decide)
  · rcases Node.writesAccess_text.mp hb with ⟨hword', -⟩ | ⟨-, rfl⟩
    · exact absurd (hword.symm.trans hword') (by decide)
    · rfl

/-- A section writes one access for a scope: that of its only entry, or nothing. -/
theorem Node.WritesAccess.unique_of_isSection {entries : List (Node × Node)} {pos : Position}
    (hn : (Node.mapping entries pos).IsSection) {a b : Access}
    (ha : (Node.mapping entries pos).WritesAccess scope a)
    (hb : (Node.mapping entries pos).WritesAccess scope b) : a = b := by
  cases ha with
  | readAll hword => cases hword
  | writeAll hword => cases hword
  | entry hentries he hkey hvalue =>
    cases hentries
    cases hb with
    | readAll hword => cases hword
    | writeAll hword => cases hword
    | entry hentries' he' hkey' hvalue' =>
      -- both entries have the key, so their values are one value
      cases hentries'
      have hsame := (hn.get?_of_mem he hkey).symm.trans (hn.get?_of_mem he' hkey')
      rw [← Option.some.inj hsame, hvalue] at hvalue'
      exact Access.word_injective (Option.some.inj hvalue')
    | absent hentries' hnone =>
      -- the key is there
      cases hentries'
      exact absurd hkey (hnone _ he)
  | absent hentries hnone =>
    cases hentries
    cases hb with
    | readAll hword => cases hword
    | writeAll hword => cases hword
    | entry hentries' he hkey =>
      cases hentries'
      exact absurd hkey (hnone _ he)
    | absent => rfl

/-- Only one access is written for a scope. -/
theorem MeansPermissions.access_unique (h : MeansPermissions n p) {a b : Access}
    (ha : n.WritesAccess scope a) (hb : n.WritesAccess scope b) : a = b := by
  obtain ⟨grants, pos⟩ := p
  obtain ⟨hgrants, -⟩ := h
  cases hgrants with
  | readAll hword | writeAll hword =>
    rcases n with _ | ⟨word, plain, pos⟩ | _ | _ <;> cases hword
    exact Node.WritesAccess.unique_of_text ha hb
  | scopes hentries hgs =>
    rcases n with _ | _ | _ | ⟨entries, pos⟩ <;> cases hentries
    exact Node.WritesAccess.unique_of_isSection hgs.isSection ha hb

/-- Permissions that a node means are what the node writes. -/
theorem MeansPermissions.asWritten (h : MeansPermissions n p) : p.AsWritten n where
  access := by
    intro scope access
    constructor
    · rintro rfl
      exact h.writesAccess scope
    · exact h.access_unique (h.writesAccess scope)
  blanket := by
    obtain ⟨grants, pos⟩ := p
    obtain ⟨hgrants, -⟩ := h
    cases hgrants with
    | readAll hword => rw [hword]; rfl
    | writeAll hword => rw [hword]; rfl
    | scopes hentries hgs => rcases n with _ | _ | _ | _ <;> cases hentries; rfl
  scopes := by
    obtain ⟨grants, pos⟩ := p
    obtain ⟨hgrants, -⟩ := h
    cases hgrants with
    | readAll hword | writeAll hword => rcases n with _ | _ | _ | _ <;> cases hword; rfl
    | scopes hentries hgs =>
      rcases n with _ | _ | _ | ⟨entries, npos⟩ <;> cases hentries
      exact congrArg some hgs.size_eq

/-! ### What is read -/

namespace Permissions

theorem readGrant_eq_some {e : Entry} {g : Grant} (h : (readGrant e).value = some g) :
    e.value.text? = some g.access.word := by
  unfold readGrant at h
  split at h
  · next access haccess =>
    obtain ⟨word, hword, hof⟩ := Option.bind_eq_some_iff.mp haccess
    cases h
    rw [hword, Access.word_of_ofScopeWord? hof]
  · cases h

theorem ofBlanketWord?_eq_some {word : String} {access : Access}
    (h : Access.ofBlanketWord? word = some access) :
    (word = "read-all" ∧ access = .read) ∨ (word = "write-all" ∧ access = .write) := by
  unfold Access.ofBlanketWord? at h
  split at h
  · next hword => exact .inl ⟨hword, (Option.some.inj h).symm⟩
  · split at h
    · next hword => exact .inr ⟨hword, (Option.some.inj h).symm⟩
    · cases h

/-- Whatever is wrong with a node, a scope gets nothing that is not written for it. -/
theorem writesAccess_of_read {owner : String} (h : (read owner n).value = some p)
    (hsome : p.access scope ≠ .none) : n.WritesAccess scope (p.access scope) := by
  rcases n with _ | ⟨word, plain, pos⟩ | _ | ⟨entries, pos⟩
  · cases h
  · simp only [read] at h
    split at h
    · next access haccess =>
      obtain rfl := Option.some.inj h
      exact Node.writesAccess_text.mpr (ofBlanketWord?_eq_some haccess)
    · cases h
  · cases h
  · simp only [read, value_map, Option.map_eq_some_iff] at h
    obtain ⟨gs, hgs, rfl⟩ := h
    rw [Section.within] at hgs
    rcases hs : (Section.read s!"\"permissions\" in {owner}" (.mapping entries pos)).value
      with - | s
    · rw [andThen_of_none hs] at hgs
      cases hgs
    · rw [andThen_of_some hs] at hgs
      obtain rfl := Option.some.inj hgs
      rw [access_perScope, Section.find?_collect] at hsome ⊢
      rcases hfound : (s.find? scope).bind fun e => (readGrant e).value with - | g
      · rw [hfound] at hsome
        exact absurd rfl hsome
      · -- the entry of the section is the first of the mapping with this key
        obtain ⟨e, he, hg⟩ := Option.bind_eq_some_iff.mp hfound
        have hvalue := Section.get?_of_read hs scope
        rw [Section.get?, he] at hvalue
        obtain ⟨k, _, _, hn, hmem, hk⟩ := Node.get?_eq_some hvalue.symm
        cases hn
        exact .entry rfl hmem hk (readGrant_eq_some hg)

end Permissions

/-- **Each scope gets what is written for it.**  A node that is accepted as permissions gives
permissions, and each scope gets exactly the access that the node writes for it: what the one word
says for all scopes, or what the entry with the name of the scope says, or nothing without such an
entry.  The permissions have the form of the node, with as many scopes as it has entries.  And
whatever node is read, accepted or not, no scope gets an access that is not written for it. -/
theorem Permissions.access_of_read (owner : String) (n : Node) :
    ((Permissions.read owner n).Clean →
      ∃ p, (Permissions.read owner n).value = some p ∧ p.AsWritten n) ∧
    ∀ p, (Permissions.read owner n).value = some p →
      ∀ scope, p.access scope ≠ .none → n.WritesAccess scope (p.access scope) := by
  refine ⟨fun hclean => ?_, fun p hp scope => Permissions.writesAccess_of_read hp⟩
  obtain ⟨p, hp, hmeans⟩ := Permissions.sound_read hclean
  exact ⟨p, hp, hmeans.asWritten⟩

/-- Grants to two scopes whose names differ in case only, and to a third one. -/
def Node.similarScopes : Node :=
  .mapping
    [(.scalar "contents" true ⟨2, 3⟩, .scalar "read" true ⟨2, 13⟩),
      (.scalar "Contents" true ⟨3, 3⟩, .scalar "write" true ⟨3, 13⟩),
      (.scalar "packages" false ⟨4, 3⟩, .scalar "none" false ⟨4, 15⟩)] ⟨2, 3⟩

theorem Permissions.access_of_similarScopes :
    (Permissions.read "workflow" Node.similarScopes).Clean ∧
      ∃ p, (Permissions.read "workflow" Node.similarScopes).value = some p ∧
        p.AsWritten Node.similarScopes := by
  have hclean : (Permissions.read "workflow" Node.similarScopes).Clean := by rfl
  exact ⟨hclean, (Permissions.access_of_read "workflow" Node.similarScopes).1 hclean⟩

end WorkflowTree
