import WorkflowTree.Proofs.Meaning.Part
import WorkflowTree.Proofs.Meaning.Sound
import WorkflowTree.Reading.Workflow

/-!
# Readers are sound

Reader by reader, from the leaves to the whole workflow: where nothing is found wrong, what is read
of a node is what the node means.
-/

namespace WorkflowTree

open Checked Section

variable {α : Type} {P : α → Prop} {n : Node} {policy : Policy} {what owner key : String}
variable {s : Section} {hook : Text} {body : Option Node} {pos : Position} {e : Entry}

/-! ### Leaves -/

theorem sound_readText : (readText what n).Sound (Given (MeansText n)) := by
  unfold readText
  split
  · next t ht => exact .given ht
  · exact sound_mismatch _ _ _

theorem sound_readPlain {read? : String → Option α} {expected : String} :
    (readPlain read? expected what n).Sound (Given fun x =>
      ∃ word, n = .scalar word true x.pos ∧ read? word = some x.value) := by
  unfold readPlain
  split
  · next a ha =>
    obtain ⟨word, hword, hread⟩ := Option.bind_eq_some_iff.mp ha
    rcases n with _ | ⟨text, _ | _, pos⟩ | _ | _ <;> cases hword
    exact .given ⟨word, rfl, hread⟩
  · exact sound_mismatch _ _ _

theorem word_of_readTruth? {word : String} {b : Bool} (h : readTruth? word = some b) :
    b = true ∧ word ∈ ["true", "True", "TRUE"] ∨
      b = false ∧ word ∈ ["false", "False", "FALSE"] := by
  unfold readTruth? at h
  split at h
  · next htrue => exact .inl ⟨(Option.some.inj h).symm, List.contains_iff_mem.mp htrue⟩
  · split at h
    · next hfalse => exact .inr ⟨(Option.some.inj h).symm, List.contains_iff_mem.mp hfalse⟩
    · cases h

theorem sound_readFlag : (readFlag what n).Sound (Given (MeansFlag n)) := by
  unfold readFlag
  refine sound_readPlain.mono ?_
  rintro _ ⟨f, rfl, word, hn, hread⟩
  exact ⟨f, rfl, word, hn, word_of_readTruth? hread⟩

theorem sound_readCount : (readCount what n).Sound (Given (MeansCount n)) := sound_readPlain

theorem sound_readMinutes : (readMinutes what n).Sound (Given (MeansMinutes n)) := sound_readPlain

theorem sound_readTexts : (readTexts what n).Sound (Given (MeansTexts n)) := by
  unfold readTexts
  split
  · next items hitems => exact sound_list hitems fun _ => sound_readText
  · exact sound_mismatch _ _ _

/-- Where a sequence is read, it makes no difference that one text is allowed too. -/
theorem MeansTexts.textOrTexts {ts : List Text} (h : MeansTexts n ts) : MeansTextOrTexts n ts := by
  obtain ⟨items, hitems, hts⟩ := h
  rcases n with _ | _ | ⟨items', pos⟩ | _ <;> cases hitems
  exact hts

/-- One text may stand for a sequence of texts. -/
theorem meansTextOrTexts_scalar (text : String) (plain : Bool) (pos : Position) :
    MeansTextOrTexts (.scalar text plain pos) [⟨text, pos⟩] := .cons rfl .nil

/-- One text or a sequence of texts is read, whatever else was expected. -/
theorem sound_textOrTexts (expected : String) :
    (match n with
      | .scalar text _ pos => pure (some [⟨text, pos⟩])
      | .sequence _ _ => readTexts what n
      | _ => mismatch n what expected : Checked (Option (List Text))).Sound
        (Given (MeansTextOrTexts n)) := by
  split
  · exact .given (meansTextOrTexts_scalar _ _ _)
  · refine sound_readTexts.mono ?_
    rintro _ ⟨ts, rfl, hts⟩
    exact ⟨ts, rfl, hts.textOrTexts⟩
  · exact sound_mismatch _ _ _

theorem sound_readTextOrTexts : (readTextOrTexts what n).Sound (Given (MeansTextOrTexts n)) :=
  sound_textOrTexts _

/-! ### Parts with a fixed value -/

/-- A part that is absent is replaced by its fixed value. -/
theorem MeansOr.getD {R : Node → α → Prop} {o : Option Node} {v : Option α} {other : α}
    (h : Option.Rel R o v) : MeansOr other R o (v.getD other) := by
  cases h with
  | some hR => exact .present hR
  | none => exact .absent

/-! ### Settings -/

theorem Assignment.sound_read : (Assignment.read what e).Sound (Given (MeansAssignment e)) :=
  sound_readText.optionMap fun _ hvalue => ⟨rfl, hvalue⟩

/-- A mapping of assignments, whatever its entries are called in messages. -/
theorem sound_readAssignments {called : Entry → String} :
    (within what n fun s => some <$> s.collect fun e => Assignment.read (called e) e).Sound
      (Given (MeansAssignments n)) :=
  sound_free fun _ => Assignment.sound_read

theorem sound_readEnv : (readEnv what n).Sound (Given (MeansAssignments n)) :=
  sound_readAssignments

theorem Permissions.sound_readGrant : (readGrant e).Sound (Given (MeansGrant e)) := by
  unfold readGrant
  split
  · next access haccess =>
    obtain ⟨word, htext, hword⟩ := Option.bind_eq_some_iff.mp haccess
    have haccess : e.value.text? = some access.word := by
      rw [htext, Access.word_of_ofScopeWord? hword]
    exact .given ⟨rfl, haccess, rfl⟩
  · exact sound_mismatch _ _ _

/-- A word that grants the same to every scope is one of two. -/
theorem Permissions.meansGrants_all {word : String} {access : Access} (htext : n.text? = some word)
    (h : Access.ofBlanketWord? word = some access) :
    MeansGrants n (.all ⟨none, access, n.pos⟩) := by
  unfold Access.ofBlanketWord? at h
  split at h
  · next hword =>
    cases h
    exact .readAll (hword ▸ htext)
  · split at h
    · next hword =>
      cases h
      exact .writeAll (hword ▸ htext)
    · cases h

theorem Permissions.sound_read : (Permissions.read owner n).Sound (Given (MeansPermissions n)) := by
  unfold Permissions.read
  split
  · split
    · next hword => exact .given ⟨meansGrants_all rfl hword, rfl⟩
    · exact sound_mismatch _ _ _
  · refine Sound.optionMap (sound_free fun _ => sound_readGrant) fun gs hgs => ?_
    exact ⟨.scopes rfl hgs, rfl⟩
  · exact sound_mismatch _ _ _

theorem ScriptDefaults.sound_read :
    (ScriptDefaults.read policy n).Sound (Given (MeansScriptDefaults n)) := by
  refine sound_within fun s hs => (sound_fill (by simp [Form.keys]) ?_).some
  refine .bind (sound_field hs fun _ => sound_readText) fun shell hshell => ?_
  refine .bind (sound_field hs fun _ => sound_readText) fun dir hdir => ?_
  exact .pure ⟨hshell, hdir, rfl⟩

theorem Defaults.sound_read : (Defaults.read policy owner n).Sound (Given (MeansDefaults n)) := by
  refine sound_within fun s hs => (sound_fill (by simp [Form.keys]) ?_).some
  refine .bind (sound_field hs fun _ => ScriptDefaults.sound_read) fun run hrun => ?_
  exact .pure ⟨hrun, rfl⟩

/-! ### Short forms -/

/-- A text has nothing under any key. -/
theorem get?_of_meansText {t : Text} (h : MeansText n t) (key : String) : n.get? key = none := by
  rcases n with _ | _ | _ | _ <;> first | rfl | cases h

/-- A part whose key is not there is absent. -/
theorem rel_none {R : Node → α → Prop} {o : Option Node} (h : o = none) :
    Option.Rel R o none := h ▸ .none

theorem meansOr_other {R : Node → α → Prop} {o : Option Node} {other : α} (h : o = none) :
    MeansOr other R o other := h ▸ .absent

/-- A text may stand for a mapping with one key. -/
theorem sound_leafOr {short : Text → α} {c : Checked (Option α)}
    (hshort : ∀ t, MeansText n t → P (short t)) (hc : c.Sound (Given P)) :
    (match n.leaf? with
      | some t => pure (some (short t))
      | none => c : Checked (Option α)).Sound (Given P) := by
  rcases h : n.leaf? with - | t
  · exact hc
  · exact .given (hshort t h)

theorem Concurrency.sound_read :
    (Concurrency.read policy owner n).Sound (Given (MeansConcurrency n)) := by
  refine sound_leafOr (fun group hgroup => ?_) (sound_within fun s hs => ?_)
  · exact ⟨.inl hgroup, rel_none (get?_of_meansText hgroup _), rfl⟩
  -- the group may still be missing when the form is filled, and is required only then
  refine .bind (P := fun x => Option.Rel MeansText (n.get? "group") x.1 ∧
    Option.Rel MeansFlag (n.get? "cancel-in-progress") x.2)
    (sound_fill (by simp [Form.keys]) ?_) ?_
  · refine .bind (sound_field hs fun _ => sound_readText) fun group hgroup => ?_
    refine .bind (sound_field hs fun _ => sound_readFlag) fun cancel hcancel => ?_
    exact .pure ⟨hgroup, hcancel⟩
  · rintro ⟨group, cancel⟩ ⟨hgroup, hcancel⟩
    refine .bind (sound_require hs hgroup) ?_
    rintro _ ⟨group, rfl, hgroup⟩
    exact .given ⟨.inr hgroup, hcancel, rfl⟩

theorem Environment.sound_read :
    (Environment.read policy what n).Sound (Given (MeansEnvironment n)) := by
  refine sound_leafOr (fun name hname => ?_) (sound_within fun s hs => ?_)
  · exact ⟨.inl hname, rel_none (get?_of_meansText hname _), rfl⟩
  refine .bind (P := fun x => Option.Rel MeansText (n.get? "name") x.1 ∧
    Option.Rel MeansText (n.get? "url") x.2)
    (sound_fill (by simp [Form.keys]) ?_) ?_
  · refine .bind (sound_field hs fun _ => sound_readText) fun name hname => ?_
    refine .bind (sound_field hs fun _ => sound_readText) fun url hurl => ?_
    exact .pure ⟨hname, hurl⟩
  · rintro ⟨name, url⟩ ⟨hname, hurl⟩
    refine .bind (sound_require hs hname) ?_
    rintro _ ⟨name, rfl, hname⟩
    exact .given ⟨.inr hname, hurl, rfl⟩

/-! ### Containers -/

theorem Credentials.sound_read :
    (Credentials.read policy what n).Sound (Given (MeansCredentials n)) := by
  refine sound_within fun s hs => ?_
  refine .bind (P := fun x => Option.Rel MeansText (n.get? "username") x.1 ∧
    Option.Rel MeansText (n.get? "password") x.2)
    (sound_fill (by simp [Form.keys]) ?_) ?_
  · refine .bind (sound_field hs fun _ => sound_readText) fun username husername => ?_
    refine .bind (sound_field hs fun _ => sound_readText) fun password hpassword => ?_
    exact .pure ⟨husername, hpassword⟩
  · rintro ⟨username, password⟩ ⟨husername, hpassword⟩
    refine .bind (sound_require hs husername) ?_
    rintro _ ⟨username, rfl, husername⟩
    refine .bind (sound_require hs hpassword) ?_
    rintro _ ⟨password, rfl, hpassword⟩
    exact .given ⟨husername, hpassword, rfl⟩

/-- The keys besides the required one make a container of the image that is written alone or under
its key. -/
theorem Container.sound_readFields (hs : s.Holds (some n)) :
    (readFields policy what s n.pos).Sound s fun x =>
      Option.Rel MeansText (n.get? "image") x.1 ∧
      ∀ image, n.Requires "image" (MeansText · image) → MeansContainer n (x.2 image) := by
  refine .bind (sound_field hs fun _ => sound_readText) fun image himage => ?_
  refine .bind (sound_field hs fun _ => Credentials.sound_read) fun credentials hcreds => ?_
  refine .bind (sound_field hs fun _ => sound_readEnv) fun env henv => ?_
  refine .bind (sound_field hs fun _ => sound_readTexts) fun ports hports => ?_
  refine .bind (sound_field hs fun _ => sound_readTexts) fun volumes hvolumes => ?_
  refine .bind (sound_field hs fun _ => sound_readText) fun options hoptions => ?_
  refine .pure ⟨himage, fun image himage => ?_⟩
  exact ⟨.inr himage, hcreds, .getD henv, .getD hports, .getD hvolumes, hoptions, rfl⟩

theorem Container.sound_read :
    (Container.read policy what n).Sound (Given (MeansContainer n)) := by
  refine sound_leafOr (fun image himage => ?_) (sound_within fun s hs => ?_)
  · have hkeys := get?_of_meansText himage
    exact ⟨.inl himage, rel_none (hkeys _), meansOr_other (hkeys _), meansOr_other (hkeys _),
      meansOr_other (hkeys _), rel_none (hkeys _), rfl⟩
  refine .bind (sound_fill (by simp [readFields, Form.keys]) (sound_readFields hs)) ?_
  rintro ⟨image, complete⟩ ⟨himage, hcomplete⟩
  refine .bind (sound_require hs himage) ?_
  rintro _ ⟨image, rfl, himage⟩
  exact .given (hcomplete image himage)

theorem sound_readServices :
    (readServices policy what n).Sound (Given (MeansKeyed MeansService n)) :=
  sound_free fun _ => Container.sound_read.optionMap fun _ hc => ⟨rfl, hc⟩

/-! ### Strategies -/

namespace Matrix

/-- What an entry of a matrix means: runs that are added or left out, or a row. -/
inductive MeansPart (e : Entry) : Part → Prop
  | combinations {cs : List Assignments} : e.key.value ∈ ["include", "exclude"] →
      MeansList MeansAssignments e.value cs → MeansPart e (.combinations cs)
  | row {r : MatrixRow} : e.key.value ∉ ["include", "exclude"] → MeansRow e r →
      MeansPart e (.row r)

theorem sound_readCombinations :
    (readCombinations key n).Sound (Given (MeansList MeansAssignments n)) := by
  unfold readCombinations
  split
  · next items hitems => exact sound_list hitems fun _ => sound_readAssignments
  · exact sound_mismatch _ _ _

theorem sound_readRow : (readRow e).Sound (Given (MeansRow e)) :=
  sound_readTexts.optionMap fun _ hvalues => ⟨rfl, hvalues⟩

theorem sound_readPart : (readPart e).Sound (Given (MeansPart e)) := by
  unfold readPart
  split
  · next hkey =>
    have hkey : e.key.value ∈ ["include", "exclude"] := List.contains_iff_mem.mp hkey
    exact sound_readCombinations.optionMap fun _ hcs => .combinations hkey hcs
  · next hkey =>
    have hkey : e.key.value ∉ ["include", "exclude"] := fun h =>
      hkey (List.contains_iff_mem.mpr h)
    exact sound_readRow.optionMap fun _ hr => .row hkey hr

/-- The rows are what stands under the other keys. -/
theorem meansKeyedBut_rows {parts : Keyed Part} (h : MeansKeyed MeansPart n parts) :
    MeansKeyedBut ["include", "exclude"] MeansRow n (parts.filterMap fun _ p => p.row?) := by
  refine ⟨h.isSection, fun k => ?_⟩
  rw [Keyed.find?_filterMap]
  obtain ⟨hentry, hpart⟩ | ⟨entry, part, hentry, hpart, hmeans⟩ := optionRel_cases (h.rel k)
  · rw [hentry, hpart, ite_self]
    exact .none
  · -- the key of the entry says which part it is
    have hk : entry.key.value = k := Node.key_of_entryAt? hentry
    rw [hentry, hpart]
    cases hmeans with
    | combinations hkey _ =>
      rw [if_pos (hk ▸ hkey)]
      exact .none
    | row hkey hrow =>
      rw [if_neg (hk ▸ hkey)]
      exact .some hrow

/-- What is under one of the two keys is a list of runs. -/
theorem meansOr_runs {parts : Keyed Part} (h : MeansKeyed MeansPart n parts)
    (hkey : key ∈ ["include", "exclude"]) :
    MeansOr [] (MeansList MeansAssignments) (n.get? key)
      (((parts.find? key).map Part.runs).getD []) := by
  rw [← n.map_value_entryAt? key]
  obtain ⟨hentry, hpart⟩ | ⟨entry, part, hentry, hpart, hmeans⟩ := optionRel_cases (h.rel key)
  · rw [hentry, hpart]
    exact .absent
  · have hk : entry.key.value = key := Node.key_of_entryAt? hentry
    rw [hentry, hpart]
    cases hmeans with
    | combinations _ hcs => exact .present hcs
    | row hrow _ => exact absurd (hk ▸ hkey) hrow

theorem sound_read : (Matrix.read n).Sound (Given (MeansMatrix n)) := by
  have hparts : (readParts n).Sound (Given (MeansKeyed MeansPart n)) :=
    sound_free fun _ => sound_readPart
  refine hparts.optionMap fun parts hparts => ?_
  exact ⟨meansKeyedBut_rows hparts, meansOr_runs hparts (by simp), meansOr_runs hparts (by simp),
    rfl⟩

end Matrix

theorem Strategy.sound_read :
    (Strategy.read policy what n).Sound (Given (MeansStrategy n)) := by
  refine sound_within fun s hs => (sound_fill (by simp [Form.keys]) ?_).some
  refine .bind (sound_field hs fun _ => Matrix.sound_read) fun matrix hmatrix => ?_
  refine .bind (sound_field hs fun _ => sound_readFlag) fun failFast hfailFast => ?_
  refine .bind (sound_field hs fun _ => sound_readCount) fun parallel hparallel => ?_
  exact .pure ⟨hmatrix, hfailFast, hparallel, rfl⟩

/-! ### Triggers -/

theorem WebhookTrigger.sound_read :
    (WebhookTrigger.read policy hook body).Sound (Given (MeansWebhook hook body)) := by
  unfold WebhookTrigger.read
  refine sound_withinBody fun s hs => ?_
  refine (sound_fill (by simp [Form.keys]) ?_).some
  refine .bind (sound_field hs fun _ => sound_readTextOrTexts) fun types htypes => ?_
  refine .bind (sound_field hs fun _ => sound_readTextOrTexts) fun branches hbranches => ?_
  refine .bind (sound_field hs fun _ => sound_readTextOrTexts) fun branches' hbranches' => ?_
  refine .bind (sound_field hs fun _ => sound_readTextOrTexts) fun tags htags => ?_
  refine .bind (sound_field hs fun _ => sound_readTextOrTexts) fun tags' htags' => ?_
  refine .bind (sound_field hs fun _ => sound_readTextOrTexts) fun paths hpaths => ?_
  refine .bind (sound_field hs fun _ => sound_readTextOrTexts) fun paths' hpaths' => ?_
  refine .bind (sound_field hs fun _ => sound_readTextOrTexts) fun workflows hworkflows => ?_
  exact .pure
    ⟨rfl, ⟨htypes, hbranches, hbranches', htags, htags', hpaths, hpaths', hworkflows⟩, rfl⟩

theorem ScheduleTrigger.sound_readTime : (readTime policy n).Sound (Given (MeansTime n)) := by
  refine sound_within fun s hs => ?_
  refine .bind (sound_fill (by simp [Form.keys]) (sound_field hs fun _ => sound_readText)) ?_
  exact fun _ hcron => sound_require hs hcron

theorem ScheduleTrigger.sound_read :
    (ScheduleTrigger.read policy hook.pos body).Sound (Given (MeansSchedule hook body)) := by
  unfold ScheduleTrigger.read
  split
  · exact sound_refuse _ _
  · next n =>
    split
    · next items hitems =>
      refine .bind (Checked.sound_collect fun _ _ => sound_readTime) fun cron hcron => ?_
      exact .given ⟨⟨n, rfl, items, hitems, hcron⟩, rfl⟩
    · exact sound_mismatch _ _ _

theorem DispatchInput.sound_read :
    (DispatchInput.read policy e).Sound (Given (MeansDispatchInput e)) := by
  unfold DispatchInput.read
  refine sound_withinBody fun s hs => ?_
  refine (sound_fill (by simp [Form.keys]) ?_).some
  refine .bind (sound_field hs fun _ => sound_readText) fun description hdescription => ?_
  refine .bind (sound_field hs fun _ => sound_readFlag) fun required hrequired => ?_
  refine .bind (sound_field hs fun _ => sound_readText) fun fallback hfallback => ?_
  refine .bind (sound_field hs fun _ => sound_readText) fun type htype => ?_
  refine .bind (sound_field hs fun _ => sound_readTexts) fun options hoptions => ?_
  exact .pure ⟨rfl, hdescription, hrequired, hfallback, htype, hoptions⟩

theorem WorkflowDispatch.sound_readInputs :
    (readInputs policy n).Sound (Given (MeansKeyed MeansDispatchInput n)) :=
  sound_free fun _ => DispatchInput.sound_read

theorem WorkflowDispatch.sound_read :
    (WorkflowDispatch.read policy hook.pos body).Sound
      (Given (MeansWorkflowDispatch hook body)) := by
  unfold WorkflowDispatch.read
  refine sound_withinBody fun s hs => ?_
  refine (sound_fill (by simp [Form.keys]) ?_).some
  refine .bind (sound_field hs fun _ => sound_readInputs) fun inputs hinputs => ?_
  exact .pure ⟨.getD hinputs, rfl⟩

theorem RepositoryDispatch.sound_read :
    (RepositoryDispatch.read policy hook.pos body).Sound
      (Given (MeansRepositoryDispatch hook body)) := by
  unfold RepositoryDispatch.read
  refine sound_withinBody fun s hs => ?_
  refine (sound_fill (by simp [Form.keys]) ?_).some
  refine .bind (sound_field hs fun _ => sound_readTextOrTexts) fun types htypes => ?_
  exact .pure ⟨htypes, rfl⟩

theorem Trigger.sound_read :
    (Trigger.read policy hook body).Sound (Given (MeansTrigger hook body)) := by
  unfold Trigger.read
  -- the name decides what is read, and the last case is that of an unknown name
  split
  · next hname => exact ScheduleTrigger.sound_read.optionMap fun _ ht => .schedule hname ht
  · next hschedule =>
    split
    · next hname =>
      exact WorkflowDispatch.sound_read.optionMap fun _ ht => .workflowDispatch hname ht
    · next hdispatch =>
      split
      · next hname =>
        exact RepositoryDispatch.sound_read.optionMap fun _ ht => .repositoryDispatch hname ht
      · next hrepository =>
        split
        · have hname : hook.value ∉ ["schedule", "workflow_dispatch", "repository_dispatch"] := by
            simpa using ⟨hschedule, hdispatch, hrepository⟩
          exact WebhookTrigger.sound_read.optionMap fun _ ht => .webhook hname ht
        · exact sound_refuse _ _

theorem Trigger.sound_readItem : (readItem policy n).Sound (Given (MeansHook (n, none))) := by
  unfold readItem
  split
  · next name hname =>
    refine Trigger.sound_read.mono ?_
    rintro _ ⟨t, rfl, ht⟩
    exact ⟨t, rfl, name, hname, ht⟩
  · exact sound_mismatch _ _ _

/-- The triggers of a mapping stand beside its entries, in their order. -/
theorem Trigger.sound_readBodies :
    (within listWhat n fun s =>
      some <$> Checked.collect (s.entries.map fun e => read policy e.key (some e.value))).Sound
        (Given (MeansTriggers n)) := by
  refine Section.sound_read.andThen ?_
  rintro s ⟨kvs, hkvs, hentries⟩
  refine Sound.some (Sound.mono (Checked.sound_collect fun _ _ => Trigger.sound_read) ?_)
  intro ts hts
  rcases n with _ | _ | _ | ⟨kvs', pos⟩ <;> cases hkvs
  show List.Forall₂ MeansHook (kvs.map _) ts
  rw [List.forall₂_map_left_iff]
  -- both lists are related to the entries of the section
  generalize s.entries = es at hentries hts
  clear * - hentries hts
  induction hts generalizing kvs with
  | nil =>
    cases hentries
    exact .nil
  | cons ht _ ih =>
    cases hentries with
    | cons hpair hrest =>
      obtain ⟨name, hname, rfl⟩ := Option.map_eq_some_iff.mp hpair
      exact .cons ⟨name, hname, ht⟩ (ih _ hrest)

theorem Trigger.sound_readList :
    (Trigger.readList policy n).Sound (Given (MeansTriggers n)) := by
  unfold readList
  split
  · next text plain pos =>
    refine Trigger.sound_read.optionMap fun t ht => ?_
    exact .cons ⟨⟨text, pos⟩, rfl, ht⟩ .nil
  · next items pos =>
    refine Sound.some (Sound.mono (Checked.sound_collect fun _ _ => Trigger.sound_readItem) ?_)
    exact fun ts hts => List.forall₂_map_left_iff.mpr hts
  · exact Trigger.sound_readBodies

end WorkflowTree
