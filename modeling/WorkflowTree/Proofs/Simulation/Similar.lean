import WorkflowTree.Proofs.Grammar.Schema
import WorkflowTree.Proofs.Simulation.Transfer
import WorkflowTree.Reading.Trigger

/-!
# Simulations

A *simulation* (`Simulation`) relates nodes that are read alike under two policies.  It is a
relation for each schema, and one step of it is this: of two nodes that are related under a schema,
either the second one is the long form of the first one, or they are the same but for their parts,
and the parts that are read are related in turn (`Node.Similar`).

Of two related nodes the sections are read alike: they have the same keys, in the same order, and
under each key that the schema knows the values are related (`Simulation.transfers_within`).
-/

namespace WorkflowTree

variable {α : Type} {always : Prop} {R : Schema → Node → Node → Prop} {s : Schema}

namespace Node

/-! ### Similar nodes -/

/-- Entries with related keys.  Their values are related as far as they are read behind the earlier
keys. -/
inductive EntriesSimilar (R : Schema → Node → Node → Prop) (s : Schema) :
    List String → List (Node × Node) → List (Node × Node) → Prop
  | nil (earlier : List String) : EntriesSimilar R s earlier [] []
  | cons {earlier : List String} {k k' v v' : Node} {entries entries' : List (Node × Node)} :
      R .any k k' → (∀ t, s.read? earlier k.text? = some t → R t v v') →
      EntriesSimilar R s (earlier ++ k.text?.toList) entries entries' →
      EntriesSimilar R s earlier ((k, v) :: entries) ((k', v') :: entries')

/-- Two nodes that are the same but for their parts.  Whether a scalar is written without quotes may
be different where it does not matter, unless `always` is true. -/
inductive Similar (always : Prop) (R : Schema → Node → Node → Prop) (s : Schema) :
    Node → Node → Prop
  | null (pos : Position) : Similar always R s (.null pos) (.null pos)
  | scalar {plain plain' : Bool} (text : String) (pos : Position) :
      (always ∨ s = .plain ∧ plain = true → plain' = plain) →
      Similar always R s (.scalar text plain pos) (.scalar text plain' pos)
  | sequence {items items' : List Node} (pos : Position) : List.Forall₂ (R s.item) items items' →
      Similar always R s (.sequence items pos) (.sequence items' pos)
  | mapping {entries entries' : List (Node × Node)} (pos : Position) :
      EntriesSimilar R s [] entries entries' →
      Similar always R s (.mapping entries pos) (.mapping entries' pos)

variable {n n' : Node}

theorem Similar.leaf? (h : n.Similar always R s n') : n'.leaf? = n.leaf? := by
  cases h <;> rfl

theorem Similar.text? (h : n.Similar always R s n') : n'.text? = n.text? := by
  cases h <;> rfl

theorem Similar.pos (h : n.Similar always R s n') : n'.pos = n.pos := by
  cases h <;> rfl

theorem Similar.isNull (h : n.Similar always R s n') : n'.isNull = n.isNull := by
  cases h <;> rfl

theorem Similar.isSome_entries? (h : n.Similar always R s n') :
    n'.entries?.isSome = n.entries?.isSome := by
  cases h <;> rfl

theorem Similar.items? (h : n.Similar always R s n') :
    Option.Rel (List.Forall₂ (R s.item)) n.items? n'.items? := by
  cases h with
  | sequence _ hitems => exact .some hitems
  | _ => exact .none

/-- A word that is written without quotes stays one. -/
theorem Similar.plain? (h : n.Similar always R .plain n') (hplain : always ∨ n.plain? ≠ none) :
    n'.plain? = n.plain? := by
  cases h with
  | @scalar plain plain' text pos hflag =>
    have hflag' : plain' = plain := by
      refine hflag (hplain.imp_right fun h => ⟨rfl, ?_⟩)
      cases plain
      · exact absurd rfl h
      · rfl
    rw [hflag']
  | _ => rfl

theorem Similar.describe (h : n.Similar always R s n') (halways : always) :
    n'.describe = n.describe := by
  cases h with
  | scalar text pos hflag => rw [hflag (.inl halways)]
  | _ => rfl

section Refl

variable (hR : ∀ (s : Schema) (n : Node), R s n n)
include hR

theorem entriesSimilar_refl (earlier : List String) (entries : List (Node × Node)) :
    EntriesSimilar R s earlier entries entries := by
  induction entries generalizing earlier with
  | nil => exact .nil earlier
  | cons e entries ih => exact .cons (hR .any e.1) (fun t _ => hR t e.2) (ih _)

theorem similar_refl (n : Node) : n.Similar always R s n := by
  cases n with
  | null pos => exact .null pos
  | scalar text plain pos => exact .scalar text pos fun _ => rfl
  | sequence items pos => exact .sequence pos (List.forall₂_same.mpr fun i _ => hR _ i)
  | mapping entries pos => exact .mapping pos (entriesSimilar_refl hR [] entries)

end Refl

end Node

open Checked Node Section

theorem transfers_mismatch {n n' : Node} (h : n.Similar always R s n') (what expected : String) :
    (mismatch n what expected : Checked (Option α)).Transfers always
      (mismatch n' what expected) := by
  -- a node with other quotes is described in other words, but never if nothing is wrong
  rintro (halways | hclean)
  · unfold mismatch
    rw [h.describe halways, h.pos]
    exact ⟨rfl, rfl⟩
  · exact absurd hclean (not_clean_mismatch n what expected)

/-! ### Simulations -/

/-- The names of triggers that are no webhooks. -/
def Trigger.reservedNames : List String :=
  [scheduleName, workflowDispatchName, repositoryDispatchName]

/-- A relation between nodes that are read alike under two policies: the policies pass over unknown
keys alike and allow the same webhooks, or at least, unless `always` is true, the second one allows
those that the first one does. -/
structure Simulation (always : Prop) (policy policy' : Policy) where
  /-- The nodes are read alike under this schema. -/
  Rel : Schema → Node → Node → Prop
  step : ∀ {s : Schema} {n n' : Node}, Rel s n n' →
    s.LongForm n n' ∨ n.Similar always Rel s n'
  keys : policy'.allowUnknownKeys = policy.allowUnknownKeys
  webhooks : ∀ name, name ∉ Trigger.reservedNames → always ∨ policy.allowsWebhook name = true →
    policy'.allowsWebhook name = policy.allowsWebhook name

namespace Simulation

variable {policy policy' : Policy} (σ : Simulation always policy policy')

/-- The values under a key are related by the schema of the key. -/
def Under (s : Schema) (key? : Option String) (v v' : Node) : Prop :=
  ∀ t, key?.bind s.value = some t → σ.Rel t v v'

/-- Two sections with the same keys, in the same order, and related values under the keys that the
schema knows. -/
abbrev Sections (s : Schema) (sec sec' : Section) : Prop := sec.AlikeInPlace (σ.Under s) sec'

variable {σ}

/-- One node under two policies that allow the same keys and webhooks. -/
def same (keys : policy'.allowUnknownKeys = policy.allowUnknownKeys)
    (webhooks : ∀ name, name ∉ Trigger.reservedNames →
      always ∨ policy.allowsWebhook name = true →
      policy'.allowsWebhook name = policy.allowsWebhook name) :
    Simulation always policy policy' where
  Rel _ n n' := n = n'
  step := by
    rintro s n _ rfl
    exact .inr (similar_refl (fun _ _ => rfl) n)
  keys
  webhooks

/-- Two nodes under one policy. -/
def ofRel (policy : Policy) (Rel : Schema → Node → Node → Prop)
    (step : ∀ {s : Schema} {n n' : Node}, Rel s n n' →
      s.LongForm n n' ∨ n.Similar always Rel s n') : Simulation always policy policy where
  Rel
  step
  keys := rfl
  webhooks _ _ _ := rfl

theorem similar_any {n n' : Node} (h : σ.Rel .any n n') : n.Similar always σ.Rel .any n' :=
  (σ.step h).resolve_left not_false

/-! ### Entries -/

/-- Entries with the same keys, whose values are related as far as they are read. -/
inductive Entries (σ : Simulation always policy policy') (s : Schema) :
    List String → List Entry → List Entry → Prop
  | nil (earlier : List String) : Entries σ s earlier [] []
  | cons {earlier : List String} {e e' : Entry} {es es' : List Entry} : e.key = e'.key →
      (∀ t, s.read? earlier (some e.key.value) = some t → σ.Rel t e.value e'.value) →
      Entries σ s (earlier ++ [e.key.value]) es es' → Entries σ s earlier (e :: es) (e' :: es')

variable {earlier : List String} {kvs kvs' : List (Node × Node)} {what : String}

theorem entries_ofPair? (h : EntriesSimilar σ.Rel s earlier kvs kvs') :
    σ.Entries s earlier (kvs.filterMap Entry.ofPair?) (kvs'.filterMap Entry.ofPair?) := by
  induction h with
  | nil earlier => exact .nil earlier
  | @cons earlier k k' v v' _ _ hkey hvalue _ ih =>
    have hleaf := (similar_any hkey).leaf?
    rw [Node.text?_eq_leaf?] at hvalue ih
    rcases hk : k.leaf? with - | t
    · -- an entry whose key is no text is left out on both sides
      have hpair : Entry.ofPair? (k, v) = none := congrArg (Option.map _) hk
      have hpair' : Entry.ofPair? (k', v') = none := congrArg (Option.map _) (hleaf.trans hk)
      rw [List.filterMap_cons_none hpair, List.filterMap_cons_none hpair']
      simpa [hk] using ih
    · have hpair : Entry.ofPair? (k, v) = some ⟨t, v⟩ := congrArg (Option.map _) hk
      have hpair' : Entry.ofPair? (k', v') = some ⟨t, v'⟩ :=
        congrArg (Option.map _) (hleaf.trans hk)
      rw [List.filterMap_cons_some hpair, List.filterMap_cons_some hpair']
      rw [hk] at hvalue ih
      exact .cons rfl hvalue ih

/-- The same keys are refused, with the same words if `always` is true. -/
theorem problems_entryReads (h : EntriesSimilar σ.Rel s earlier kvs kvs')
    (hclean : always ∨ kvs.flatMap (fun kv => (Entry.read what kv).problems) = []) :
    (kvs'.flatMap fun kv => (Entry.read what kv).problems) =
      kvs.flatMap fun kv => (Entry.read what kv).problems := by
  induction h with
  | nil => rfl
  | @cons earlier k k' v v' _ _ hkey _ _ ih =>
    have hparts := hclean.imp_right fun h => List.append_eq_nil_iff.mp (List.flatMap_cons ▸ h)
    have hread : (Entry.read what (k', v')).problems = (Entry.read what (k, v)).problems := by
      have hsimilar := similar_any hkey
      have hkeyless := transfers_mismatch (α := Entry) hsimilar s!"key in {what}" "a string"
      have hfirst := hparts.imp_right And.left
      simp only [Entry.read, hsimilar.leaf?] at hfirst ⊢
      rcases hk : k.leaf? with - | t
      · rw [hk] at hfirst
        exact (hkeyless hfirst).2
      · rfl
    rw [List.flatMap_cons, List.flatMap_cons, hread, ih (hparts.imp_right And.right)]

theorem transfers_readAll {n n' : Node} (h : n.Similar always σ.Rel s n') (what : String) :
    (Entry.readAll what n).TransfersBy always (Option.Rel (σ.Entries s []))
      (Entry.readAll what n') := by
  -- what is no mapping on one side is none on the other, and both are refused
  have hnone : n.entries? = none → n'.entries? = none →
      (Entry.readAll what n).TransfersBy always (Option.Rel (σ.Entries s []))
        (Entry.readAll what n') := by
    intro hn hn' hclean
    unfold Entry.readAll at hclean ⊢
    rw [hn] at hclean ⊢
    rw [hn']
    obtain ⟨-, hproblems⟩ := transfers_mismatch (α := List Entry) h what "a mapping" hclean
    exact ⟨.none, hproblems⟩
  cases h with
  | mapping pos hentries =>
    intro hclean
    refine ⟨?_, ?_⟩
    · rw [Entry.value_readAll, Entry.value_readAll]
      exact .some (entries_ofPair? hentries)
    · simp only [Entry.readAll, Node.entries?, problems_map, problems_collect, List.flatMap_map,
        Clean] at hclean ⊢
      exact problems_entryReads hentries hclean
  | _ => exact hnone rfl rfl

/-! ### Sections -/

variable {es es' : List Entry} {sec sec' : Section}

/-- One more entry.  If it is kept, no entry before it has its key, so that its value is read. -/
theorem sections_extend (what : String) (quiet : List String) {e e' : Entry}
    (hs : σ.Sections s sec sec') (hearlier : ∀ key ∈ earlier, sec.has key = true)
    (hkey : e.key = e'.key)
    (hvalue : ∀ t, s.read? earlier (some e.key.value) = some t → σ.Rel t e.value e'.value) :
    σ.Sections s (extend what quiet sec e).value (extend what quiet sec' e').value ∧
      (extend what quiet sec' e').problems = (extend what quiet sec e).problems := by
  have hfind := hs.alike.find? e.key.value
  obtain ⟨hnew, hnew'⟩ | ⟨first, first', hfirst, hfirst', hfirsts⟩ := optionRel_cases hfind
  · -- a key that the section does not have yet is not among the keys before it
    have hnot : e.key.value ∉ earlier := by
      intro hmem
      have hhas := hearlier _ hmem
      rw [has, hnew] at hhas
      cases hhas
    have hunder : σ.Under s (some e.key.value) e.value e'.value :=
      fun t ht => hvalue t ((Schema.read?_of_not_mem hnot).trans ht)
    rw [hkey] at hnew'
    rw [extend_of_none hnew, extend_of_none hnew']
    exact ⟨List.rel_append hs (.cons ⟨hkey, hunder⟩ .nil), rfl⟩
  · -- a repeated key is reported with the place where it stands first
    rw [hkey] at hfirst'
    rw [extend_of_some hfirst, extend_of_some hfirst', ← hkey, ← hfirsts.key]
    exact ⟨hs, rfl⟩

/-- Of the entries of each key the first one is kept. -/
theorem sections_foldlM_extend (what : String) (quiet : List String)
    (h : σ.Entries s earlier es es') (hs : σ.Sections s sec sec')
    (hearlier : ∀ key ∈ earlier, sec.has key = true) :
    σ.Sections s (es.foldlM (extend what quiet) sec).value
        (es'.foldlM (extend what quiet) sec').value ∧
      (es'.foldlM (extend what quiet) sec').problems =
        (es.foldlM (extend what quiet) sec).problems := by
  -- the section has the keys of all entries so far
  induction h generalizing sec sec' with
  | nil => exact ⟨hs, rfl⟩
  | @cons earlier e e' es es' hkey hvalue _ ih =>
    obtain ⟨hs', hproblem⟩ := sections_extend what quiet hs hearlier hkey hvalue
    obtain ⟨hsections, hproblems⟩ := ih hs' fun key hmem => by
      rw [has_extend]
      rcases List.mem_append.mp hmem with hmem | hmem
      · rw [hearlier key hmem, Bool.true_or]
      · rw [List.mem_singleton.mp hmem, beq_self_eq_true, Bool.or_true]
    rw [List.foldlM_cons, List.foldlM_cons, value_bind, value_bind, problems_bind, problems_bind,
      hproblem, hproblems]
    exact ⟨hsections, rfl⟩

theorem transfers_distinct (what : String) (quiet : List String) (h : σ.Entries s [] es es') :
    (some <$> distinct what quiet es).TransfersBy always (Option.Rel (σ.Sections s))
      (some <$> distinct what quiet es') := by
  intro _
  have hempty : σ.Sections s .empty .empty := .nil
  obtain ⟨hvalue, hproblems⟩ := sections_foldlM_extend what quiet h hempty fun key hmem =>
    absurd hmem List.not_mem_nil
  refine ⟨.some hvalue, ?_⟩
  rw [problems_map, problems_map]
  exact hproblems

/-- All permissions of a workflow or a job are looked at, and it matters which form they have. -/
theorem permissions_entries (h : σ.Entries s earlier es es')
    (hrereads : s.rereads permissionsKey = true) (hs : s.value permissionsKey = some .any) :
    List.Forall₂ (fun e e' => e.key = e'.key ∧ e'.value.text? = e.value.text? ∧
        e'.value.entries?.isSome = e.value.entries?.isSome)
      (es.filter fun e => e.key.value == permissionsKey)
      (es'.filter fun e => e.key.value == permissionsKey) := by
  induction h with
  | nil => exact .nil
  | @cons earlier e e' es es' hkey hvalue _ ih =>
    rw [List.filter_cons, List.filter_cons, ← hkey]
    split
    · next hpermissions =>
      -- permissions are read wherever they stand among the entries
      have hread : s.read? earlier (some e.key.value) = some .any := by
        rw [beq_iff_eq.mp hpermissions, Schema.read?_of_rereads hrereads, hs]
      have hsimilar := similar_any (hvalue .any hread)
      exact .cons ⟨hkey, hsimilar.text?, hsimilar.isSome_entries?⟩ ih
    · exact ih

theorem formConflict?_entries (what : String) (h : σ.Entries s earlier es es')
    (hrereads : s.rereads permissionsKey = true) (hs : s.value permissionsKey = some .any) :
    formConflict? what es' = formConflict? what es := by
  have hpermissions := permissions_entries h hrereads hs
  simp only [formConflict?]
  generalize es.filter _ = ps, es'.filter _ = ps' at hpermissions ⊢
  have hblanket := optionRel_find? (p := fun e => e.value.text?.isSome)
    (q := fun e => e.value.text?.isSome) hpermissions fun e e' he => by rw [he.2.1]
  have hscoped := optionRel_find? (p := fun e => e.value.entries?.isSome)
    (q := fun e => e.value.entries?.isSome) hpermissions fun e e' he => he.2.2.symm
  obtain ⟨hb, hb'⟩ | ⟨b, b', hb, hb', hbkey, hbtext, -⟩ := optionRel_cases hblanket
  · rw [hb, hb']
    rfl
  obtain ⟨hp, hp'⟩ | ⟨p, p', hp, hp', hpkey, -⟩ := optionRel_cases hscoped
  · rw [hb, hb', hp, hp']
    rfl
  simp only [hb, hb', hp, hp', Option.bind_eq_bind, Option.bind_some, hbtext, hbkey, hpkey]

theorem transfers_read {n n' : Node} (h : n.Similar always σ.Rel s n') (what : String) :
    (Section.read what n).TransfersBy always (Option.Rel (σ.Sections s)) (Section.read what n') :=
  (transfers_readAll h what).andThen .none fun _ _ hes => transfers_distinct what [] hes

theorem transfers_readWithPermissions {n n' : Node} (h : n.Similar always σ.Rel s n')
    (hrereads : s.rereads permissionsKey = true) (hs : s.value permissionsKey = some .any)
    (what : String) :
    (readWithPermissions what n).TransfersBy always (Option.Rel (σ.Sections s))
      (readWithPermissions what n') := by
  refine (transfers_readAll h what).andThen .none fun es es' hes => ?_
  rw [formConflict?_entries what hes hrereads hs]
  rcases formConflict? what es with - | p
  · exact transfers_distinct what [] hes
  · exact (transfers_of_eq rfl).bind fun _ => transfers_distinct what [permissionsKey] hes

/-! ### Going on with a section -/

variable {k l : Section → Checked (Option α)} {n n' : Node}

theorem transfers_within (h : n.Similar always σ.Rel s n')
    (hkl : ∀ sec sec', σ.Sections s sec sec' → (k sec).Transfers always (l sec')) :
    (within what n k).Transfers always (within what n' l) :=
  (transfers_read h what).andThen rfl hkl

theorem transfers_withinOwner (h : n.Similar always σ.Rel s n')
    (hrereads : s.rereads permissionsKey = true) (hs : s.value permissionsKey = some .any)
    (hkl : ∀ sec sec', σ.Sections s sec sec' → (k sec).Transfers always (l sec')) :
    (withinOwner what n k).Transfers always (withinOwner what n' l) :=
  (transfers_readWithPermissions h hrereads hs what).andThen rfl hkl

/-- What belongs to a trigger, if a mapping does. -/
theorem transfers_withinBody {body body' : Option Node} (h : Option.Rel (σ.Rel s) body body')
    (hlong : ∀ n n', ¬s.LongForm n n')
    (hkl : ∀ sec sec', σ.Sections s sec sec' → (k sec).Transfers always (l sec')) :
    (withinBody what body k).Transfers always (withinBody what body' l) := by
  cases h with
  | none => exact hkl .empty .empty .nil
  | @some n n' hn =>
    have hsimilar := (σ.step hn).resolve_left (hlong n n')
    unfold withinBody
    rw [Option.filter_some, Option.filter_some, hsimilar.isNull]
    cases n.isNull with
    | false => exact transfers_within hsimilar hkl
    | true => exact hkl .empty .empty .nil

/-- What is under a key that the schema knows. -/
theorem transfers_field {sec sec' : Section} {key : String} {t : Schema}
    {read read' : Node → Checked (Option α)} (hs : σ.Sections s sec sec')
    (ht : s.value key = some t) (h : ∀ v v', σ.Rel t v v' → (read v).Transfers always (read' v')) :
    (sec.field key read).TransfersBy always sec Eq (sec'.field key read') :=
  Section.transfers_field hs fun v v' hv => h v v' (hv t ht)

theorem transfers_fieldWithKey {sec sec' : Section} {key : String} {t : Schema}
    {read read' : Node → Checked (Option α)} (hs : σ.Sections s sec sec')
    (ht : s.value key = some t) (h : ∀ v v', σ.Rel t v v' → (read v).Transfers always (read' v')) :
    (sec.fieldWithKey key read).TransfersBy always sec Eq (sec'.fieldWithKey key read') :=
  Section.transfers_fieldWithKey hs fun v v' hv => h v v' (hv t ht)

/-- What is under a key is kept as it is, for later. -/
theorem transfers_kept {sec sec' : Section} {key : String} {t : Schema}
    (hs : σ.Sections s sec sec') (ht : s.value key = some t) :
    (sec.fieldWithKey key fun n => pure (some n)).TransfersBy always sec
      (Option.Rel fun x y => x.1 = y.1 ∧ σ.Rel t x.2 y.2)
      (sec'.fieldWithKey key fun n => pure (some n)) := by
  intro _
  unfold fieldWithKey
  obtain ⟨he, he'⟩ | ⟨e, e', he, he', hkeys, hvalue⟩ := optionRel_cases (hs.alike.find? key)
  · rw [he, he']
    exact ⟨.none, rfl⟩
  · have hkey : e.key.value = key := (find?_eq_some.mp he).2
    rw [he, he']
    exact ⟨.some ⟨hkeys, hvalue t (hkey ▸ ht)⟩, rfl⟩

/-- Filling a form under two policies that treat unknown keys alike. -/
theorem transfers_fill {β γ : Type} {Q : β → γ → Prop} {sec sec' : Section} {f : Form β}
    {g : Form γ} (σ : Simulation always policy policy') (hs : σ.Sections s sec sec')
    (nodup : f.keys.Nodup) (h : f.TransfersBy always sec Q g) :
    (sec.fill policy what f).TransfersBy always Q (sec'.fill policy' what g) :=
  Section.transfers_fill nodup σ.keys hs h

/-- What is under free keys. -/
theorem transfers_free (value : String → Schema) {read read' : Entry → Checked (Option α)}
    (h : n.Similar always σ.Rel s n') (hvalue : ∀ key, s.value key = some (value key))
    (hread : ∀ e e', e.key = e'.key → σ.Rel (value e.key.value) e.value e'.value →
      (read e).Transfers always (read' e')) :
    (within what n fun sec => some <$> sec.collect read).Transfers always
      (within what n' fun sec => some <$> sec.collect read') := by
  apply transfers_within h
  intro sec sec' hs
  refine Transfers.map (transfers_sectionCollect hs fun e e' he => ?_)
  exact hread e e' he.key (he.value _ (hvalue _))

end Simulation

end WorkflowTree
