import WorkflowTree.Proofs.Reordering.Form
import WorkflowTree.Reading.Workflow

/-!
# Readers and the order of entries

Reader by reader: what is read of a node that is permuted is the same, with the same problems in
some order.  Readers of leaves and of lists of leaves do not look at entries at all, so they even
give equal results; readers of parts without collections give equal values; and the other ones give
what is the same once collections are taken as finite maps.
-/

namespace WorkflowTree

open Checked Node Section

variable {α : Type} {n n' : Node} {policy : Policy} {what owner : String}
variable {s s' : Section} {hook : Text} {body body' : Option Node} {pos : Position} {e e' : Entry}

/-! ### Leaves -/

theorem readText_eq (h : n.Alike n') : readText what n = readText what n' := by
  unfold readText
  rw [h.sameOutside.leaf?, mismatch_eq h.sameOutside]

theorem readPlain_eq (read? : String → Option α) (expected : String) (h : n.Alike n') :
    readPlain read? expected what n = readPlain read? expected what n' := by
  unfold readPlain
  rw [h.sameOutside.plain?, h.sameOutside.pos, mismatch_eq h.sameOutside]

theorem readFlag_eq (h : n.Alike n') : readFlag what n = readFlag what n' := readPlain_eq _ _ h

theorem readCount_eq (h : n.Alike n') : readCount what n = readCount what n' := readPlain_eq _ _ h

theorem readMinutes_eq (h : n.Alike n') : readMinutes what n = readMinutes what n' :=
  readPlain_eq _ _ h

theorem map_readText_eq {items items' : List Node} (h : List.Forall₂ Node.Alike items items') :
    items.map (readText what) = items'.map (readText what) := by
  induction h with
  | nil => rfl
  | cons hi _ ih => rw [List.map_cons, List.map_cons, readText_eq hi, ih]

theorem readTexts_eq (h : n.Alike n') : readTexts what n = readTexts what n' := by
  unfold readTexts
  rw [mismatch_eq h.sameOutside]
  obtain ⟨hn, hn'⟩ | ⟨items, items', hn, hn', hitems⟩ := optionRel_cases h.items
  · rw [hn, hn']
  · rw [hn, hn']
    show some <$> Checked.collect (items.map _) = some <$> Checked.collect (items'.map _)
    rw [map_readText_eq hitems]

/-- One text or a sequence of texts is read, whatever else was expected. -/
theorem textOrTexts_eq (expected : String) : n.Alike n' →
    (match n with
      | .scalar text _ pos => pure (some [⟨text, pos⟩])
      | .sequence _ _ => readTexts what n
      | _ => mismatch n what expected : Checked (Option (List Text))) =
    (match n' with
      | .scalar text _ pos => pure (some [⟨text, pos⟩])
      | .sequence _ _ => readTexts what n'
      | _ => mismatch n' what expected) := by
  intro h
  have htexts : readTexts what n = readTexts what n' := readTexts_eq h
  obtain ⟨-, hparts, hshuffled⟩ := h
  cases hparts with
  | null pos => cases hshuffled; rfl
  | scalar text plain pos => cases hshuffled; rfl
  | sequence pos _ => cases hshuffled; exact htexts
  | mapping pos _ => cases hshuffled <;> rfl

theorem readTextOrTexts_eq (h : n.Alike n') :
    readTextOrTexts what n = readTextOrTexts what n' := textOrTexts_eq _ h

/-! ### Settings -/

theorem Assignment.read_eq (hkey : e.key = e'.key) (h : e.value.Alike e'.value) :
    Assignment.read what e = Assignment.read what e' := by
  unfold Assignment.read
  rw [hkey, readText_eq h]

/-- A mapping of assignments, whatever its entries are called in messages. -/
theorem alike_readAssignments {called : Entry → String} (h : n.Alike n')
    (hcalled : ∀ e e' : Entry, e.key = e'.key → called e = called e') :
    (within what n fun s => some <$> s.collect fun e => Assignment.read (called e) e).Alike
      (Option.Rel Keyed.Same)
      (within what n' fun s => some <$> s.collect fun e => Assignment.read (called e) e) := by
  refine alike_free_eq h fun e e' hkey hvalue => alike_of_eq ?_
  rw [hcalled e e' hkey, Assignment.read_eq hkey hvalue]

theorem alike_readEnv (h : n.Alike n') :
    (readEnv what n).Alike (Option.Rel Keyed.Same) (readEnv what n') :=
  alike_readAssignments h fun e e' hkey => by rw [hkey]

/-- A collection that is left out is empty. -/
theorem same_getD {o o' : Option (Keyed α)} (h : Option.Rel Keyed.Same o o') :
    (o.getD .empty).Same (o'.getD .empty) := by
  cases h with
  | none => exact Keyed.Same.refl _
  | some hm => exact hm

theorem sameBy_getD {same : α → α → Prop} {o o' : Option (Keyed α)}
    (h : Option.Rel (Keyed.SameBy same) o o') : (o.getD .empty).SameBy same (o'.getD .empty) := by
  cases h with
  | none => exact fun _ => .none
  | some hm => exact hm

theorem sameBy_eq {m m' : Keyed α} (h : m.Same m') : m.SameBy Eq m' := by
  intro key
  rw [h key]
  exact optionRel_refl (fun _ => rfl) _

/-- What is chosen of two collections is the same, if the choice cannot tell them apart. -/
theorem same_filterMap {β : Type} {same : α → α → Prop} {m m' : Keyed α}
    {f : String → α → Option β} (h : m.SameBy same m')
    (hf : ∀ key a a', same a a' → f key a = f key a') :
    (m.filterMap f).Same (m'.filterMap f) := by
  intro key
  rw [Keyed.find?_filterMap, Keyed.find?_filterMap]
  obtain ⟨hm, hm'⟩ | ⟨a, a', hm, hm', ha⟩ := optionRel_cases (h key)
  · rw [hm, hm']
  · rw [hm, hm', Option.bind_some, Option.bind_some, hf key a a' ha]

theorem Permissions.readGrant_eq (hkey : e.key = e'.key) (h : e.value.Alike e'.value) :
    readGrant e = readGrant e' := by
  unfold readGrant
  rw [hkey, h.sameOutside.text?, mismatch_eq h.sameOutside]

theorem Permissions.alike_read (h : n.Alike n') :
    (Permissions.read owner n).Alike (Option.Rel Permissions.Same) (Permissions.read owner n') := by
  have hscopes : ∀ what, (within what n fun s => some <$> s.collect readGrant).Alike
      (Option.Rel Keyed.Same) (within what n' fun s => some <$> s.collect readGrant) :=
    fun _ => alike_free_eq h fun e e' hkey hv => alike_of_eq (readGrant_eq hkey hv)
  have hn := h.sameOutside
  obtain ⟨-, hparts, hshuffled⟩ := h
  -- only a mapping can be shuffled, so each other case is that of one node
  cases hparts with
  | null pos =>
    cases hshuffled
    exact alike_mismatch Option.Rel.none hn _ _
  | sequence pos _ =>
    cases hshuffled
    exact alike_mismatch Option.Rel.none hn _ _
  | mapping pos _ =>
    cases hshuffled <;> exact (hscopes _).optionMap fun gs gs' hgs => ⟨.scopes hgs, rfl⟩
  | scalar text plain pos =>
    cases hshuffled
    simp only [Permissions.read]
    rcases Access.ofBlanketWord? text with - | access
    · exact alike_mismatch Option.Rel.none hn _ _
    · exact .pure (Option.Rel.some ⟨Grants.Same.all _, rfl⟩)

theorem ScriptDefaults.alike_read (h : n.Alike n') :
    (ScriptDefaults.read policy n).Alike Eq (ScriptDefaults.read policy n') := by
  unfold ScriptDefaults.read
  rw [h.sameOutside.pos]
  refine alike_within rfl h fun s s' hs => (alike_fill hs ?_).someEq
  refine .bindEq (alike_field_eq hs fun _ _ => readText_eq) fun shell => ?_
  refine .bindEq (alike_field_eq hs fun _ _ => readText_eq) fun dir => ?_
  exact .pure rfl

theorem Defaults.alike_read (h : n.Alike n') :
    (Defaults.read policy owner n).Alike Eq (Defaults.read policy owner n') := by
  unfold Defaults.read
  rw [h.sameOutside.pos]
  refine alike_within rfl h fun s s' hs => (alike_fill hs ?_).someEq
  refine .bindEq (alike_field rfl hs fun _ _ => ScriptDefaults.alike_read) fun run => ?_
  exact .pure rfl

/-- A text that stands for a mapping with one key is not permuted. -/
theorem alike_leafOr {Q : Option α → Option α → Prop} (short : Text → Option α)
    {c d : Checked (Option α)} (h : n.Alike n') (hshort : ∀ t, Q (short t) (short t))
    (hcd : c.Alike Q d) :
    (match n.leaf? with
      | some t => pure (short t)
      | none => c : Checked (Option α)).Alike Q
    (match n'.leaf? with
      | some t => pure (short t)
      | none => d : Checked (Option α)) := by
  rw [h.sameOutside.leaf?]
  rcases n'.leaf? with - | t
  · exact hcd
  · exact .pure (hshort t)

theorem Concurrency.alike_read (h : n.Alike n') :
    (Concurrency.read policy owner n).Alike Eq (Concurrency.read policy owner n') := by
  unfold Concurrency.read
  rw [h.sameOutside.pos]
  refine alike_leafOr _ h (fun _ => rfl) (alike_within rfl h fun s s' hs => ?_)
  refine .bind (R := Eq) (alike_fill hs ?_) ?_
  · refine .bindEq (alike_field_eq hs fun _ _ => readText_eq) fun group => ?_
    refine .bindEq (alike_field_eq hs fun _ _ => readFlag_eq) fun cancel => ?_
    exact .pure rfl
  · rintro ⟨group, cancel⟩ _ rfl
    refine .bind (alike_require (Q := Eq) hs rfl rfl) ?_
    rintro group _ rfl
    exact .pure rfl

theorem Environment.alike_read (h : n.Alike n') :
    (Environment.read policy what n).Alike Eq (Environment.read policy what n') := by
  unfold Environment.read
  rw [h.sameOutside.pos]
  refine alike_leafOr _ h (fun _ => rfl) (alike_within rfl h fun s s' hs => ?_)
  refine .bind (R := Eq) (alike_fill hs ?_) ?_
  · refine .bindEq (alike_field_eq hs fun _ _ => readText_eq) fun name => ?_
    refine .bindEq (alike_field_eq hs fun _ _ => readText_eq) fun url => ?_
    exact .pure rfl
  · rintro ⟨name, url⟩ _ rfl
    refine .bind (alike_require (Q := Eq) hs rfl rfl) ?_
    rintro name _ rfl
    exact .pure rfl

/-! ### Containers -/

theorem Credentials.alike_read (h : n.Alike n') :
    (Credentials.read policy what n).Alike Eq (Credentials.read policy what n') := by
  unfold Credentials.read
  rw [h.sameOutside.pos]
  refine alike_within rfl h fun s s' hs => ?_
  refine .bind (R := Eq) (alike_fill hs ?_) ?_
  · refine .bindEq (alike_field_eq hs fun _ _ => readText_eq) fun username => ?_
    refine .bindEq (alike_field_eq hs fun _ _ => readText_eq) fun password => ?_
    exact .pure rfl
  · rintro ⟨username, password⟩ _ rfl
    refine .bind (alike_require (Q := Eq) hs rfl rfl) ?_
    rintro username _ rfl
    refine .bind (alike_require (Q := Eq) hs rfl rfl) ?_
    rintro password _ rfl
    exact .pure rfl

/-- Permuting the keys besides the required one gives the same container, whatever its image. -/
theorem Container.alike_readFields (hs : s.Alike (fun _ => Node.Alike) s') :
    (readFields policy what s pos).Alike
      (fun x y => x.1 = y.1 ∧ ∀ image, (x.2 image).Same (y.2 image))
      (readFields policy what s' pos) := by
  refine .bindEq (alike_field_eq hs fun _ _ => readText_eq) fun image => ?_
  refine .bindEq (alike_field rfl hs fun _ _ => Credentials.alike_read) fun credentials => ?_
  refine .bind (alike_field .none hs fun _ _ => alike_readEnv) fun env env' henv => ?_
  refine .bindEq (alike_field_eq hs fun _ _ => readTexts_eq) fun ports => ?_
  refine .bindEq (alike_field_eq hs fun _ _ => readTexts_eq) fun volumes => ?_
  refine .bindEq (alike_field_eq hs fun _ _ => readText_eq) fun options => ?_
  exact .pure ⟨rfl, fun _ => ⟨same_getD henv, rfl⟩⟩

theorem Container.alike_read (h : n.Alike n') :
    (Container.read policy what n).Alike (Option.Rel Container.Same)
      (Container.read policy what n') := by
  unfold Container.read
  rw [h.sameOutside.pos]
  refine alike_leafOr _ h (fun _ => .some ⟨Keyed.Same.refl _, rfl⟩) ?_
  refine alike_within .none h fun s s' hs => ?_
  refine .bind (alike_fill hs (alike_readFields hs)) ?_
  rintro ⟨image, complete⟩ ⟨_, complete'⟩ ⟨rfl, hcomplete⟩
  refine .bind (alike_require (Q := Eq) hs rfl rfl) ?_
  rintro image _ rfl
  refine .pure ?_
  rcases image with - | image
  · exact .none
  · exact .some (hcomplete image)

theorem alike_readServices (h : n.Alike n') :
    (readServices policy what n).Alike (Option.Rel (Keyed.SameBy Service.Same))
      (readServices policy what n') := by
  refine alike_free h fun e e' hkey hvalue => ?_
  rw [hkey]
  exact (Container.alike_read hvalue).optionMap fun _ _ hc => ⟨hc, rfl⟩

/-! ### Strategies -/

namespace Matrix

/-- The same part of a matrix. -/
inductive Part.Same : Part → Part → Prop
  | row (r : MatrixRow) : Same (.row r) (.row r)
  | combinations {cs cs' : List Assignments} : List.Forall₂ Keyed.Same cs cs' →
      Same (.combinations cs) (.combinations cs')

theorem alike_readCombination (h : n.Alike n') :
    (readCombination what n).Alike (Option.Rel Keyed.Same) (readCombination what n') :=
  alike_readAssignments h fun e e' hkey => by rw [hkey]

theorem alike_readCombinations (key : String) (h : n.Alike n') :
    (readCombinations key n).Alike (Option.Rel (List.Forall₂ Keyed.Same))
      (readCombinations key n') := by
  unfold readCombinations
  obtain ⟨hn, hn'⟩ | ⟨items, items', hn, hn', hitems⟩ := optionRel_cases h.items
  · rw [hn, hn']
    exact alike_mismatch .none h.sameOutside _ _
  · rw [hn, hn']
    exact (Checked.alike_collect hitems fun _ _ => alike_readCombination).some

theorem readRow_eq (hkey : e.key = e'.key) (h : e.value.Alike e'.value) :
    readRow e = readRow e' := by
  unfold readRow
  rw [hkey, readTexts_eq h]

theorem alike_readPart (hkey : e.key = e'.key) (h : e.value.Alike e'.value) :
    (readPart e).Alike (Option.Rel Part.Same) (readPart e') := by
  unfold readPart
  rw [hkey]
  split
  · exact (alike_readCombinations _ h).optionMap fun _ _ hcs => .combinations hcs
  · exact (alike_of_eq (readRow_eq hkey h)).optionMapEq .row

/-- The rows are found under the other keys, whatever the order. -/
theorem same_rows {parts parts' : Keyed Part} (h : parts.SameBy Part.Same parts') :
    (parts.filterMap fun _ p => p.row?).Same (parts'.filterMap fun _ p => p.row?) := by
  refine same_filterMap h fun key p p' hpp' => ?_
  cases hpp' <;> rfl

theorem same_runs {parts parts' : Keyed Part} (h : parts.SameBy Part.Same parts') (key : String) :
    List.Forall₂ Keyed.Same (((parts.find? key).map Part.runs).getD [])
      (((parts'.find? key).map Part.runs).getD []) := by
  -- a missing key and a row both stand for no runs at all
  obtain ⟨hp, hp'⟩ | ⟨p, p', hp, hp', hpp'⟩ := optionRel_cases (h key)
  · rw [hp, hp']
    exact .nil
  · rw [hp, hp']
    cases hpp' with
    | row r => exact .nil
    | combinations hcs => exact hcs

theorem alike_read (h : n.Alike n') :
    (Matrix.read n).Alike (Option.Rel Matrix.Same) (Matrix.read n') := by
  have hparts : (readParts n).Alike (Option.Rel (Keyed.SameBy Part.Same)) (readParts n') :=
    alike_free h fun e e' => alike_readPart
  unfold Matrix.read
  rw [h.sameOutside.pos]
  refine hparts.optionMap fun parts parts' hparts => ?_
  exact ⟨same_rows hparts, same_runs hparts _, same_runs hparts _, rfl⟩

end Matrix

theorem Strategy.alike_read (h : n.Alike n') :
    (Strategy.read policy what n).Alike (Option.Rel Strategy.Same)
      (Strategy.read policy what n') := by
  unfold Strategy.read
  rw [h.sameOutside.pos]
  refine alike_within .none h fun s s' hs => (alike_fill hs ?_).some
  refine .bind (alike_field .none hs fun _ _ => Matrix.alike_read) fun matrix matrix' hmatrix => ?_
  refine .bindEq (alike_field_eq hs fun _ _ => readFlag_eq) fun failFast => ?_
  refine .bindEq (alike_field_eq hs fun _ _ => readCount_eq) fun parallel => ?_
  exact .pure ⟨hmatrix, rfl⟩

/-! ### Triggers -/

theorem WebhookTrigger.alike_read (h : Option.Rel Node.Alike body body') :
    (WebhookTrigger.read policy hook body).Alike Eq (WebhookTrigger.read policy hook body') := by
  unfold WebhookTrigger.read
  refine alike_withinBody rfl h fun s s' hs => (alike_fill hs ?_).someEq
  refine .bindEq (alike_field_eq hs fun _ _ => readTextOrTexts_eq) fun types => ?_
  refine .bindEq (alike_field_eq hs fun _ _ => readTextOrTexts_eq) fun branches => ?_
  refine .bindEq (alike_field_eq hs fun _ _ => readTextOrTexts_eq) fun branches' => ?_
  refine .bindEq (alike_field_eq hs fun _ _ => readTextOrTexts_eq) fun tags => ?_
  refine .bindEq (alike_field_eq hs fun _ _ => readTextOrTexts_eq) fun tags' => ?_
  refine .bindEq (alike_field_eq hs fun _ _ => readTextOrTexts_eq) fun paths => ?_
  refine .bindEq (alike_field_eq hs fun _ _ => readTextOrTexts_eq) fun paths' => ?_
  refine .bindEq (alike_field_eq hs fun _ _ => readTextOrTexts_eq) fun workflows => ?_
  exact .pure rfl

theorem ScheduleTrigger.alike_readTime (h : n.Alike n') :
    (readTime policy n).Alike Eq (readTime policy n') := by
  unfold readTime
  rw [h.sameOutside.pos]
  refine alike_within rfl h fun s s' hs => ?_
  refine .bind (alike_fill hs (alike_field_eq hs fun _ _ => readText_eq)) ?_
  rintro cron _ rfl
  exact alike_require hs rfl rfl

theorem ScheduleTrigger.alike_read (h : Option.Rel Node.Alike body body') :
    (ScheduleTrigger.read policy pos body).Alike Eq (ScheduleTrigger.read policy pos body') := by
  unfold ScheduleTrigger.read
  cases h with
  | none => exact alike_of_eq rfl
  | @some n n' h =>
    obtain ⟨hn, hn'⟩ | ⟨items, items', hn, hn', hitems⟩ := optionRel_cases h.items
    · simp only [hn, hn']
      exact alike_mismatch rfl h.sameOutside _ _
    · simp only [hn, hn']
      refine .bind (Checked.alike_collect hitems fun _ _ hi => (alike_readTime hi).optionRel) ?_
      intro cron cron' hcron
      -- a time is a text, so the lists are equal and not only related one by one
      rw [List.forall₂_eq_eq_eq] at hcron
      subst hcron
      exact .pure rfl

theorem DispatchInput.alike_read (hkey : e.key = e'.key) (h : e.value.Alike e'.value) :
    (DispatchInput.read policy e).Alike Eq (DispatchInput.read policy e') := by
  unfold DispatchInput.read
  rw [hkey]
  refine alike_withinBody rfl (.some h) fun s s' hs => (alike_fill hs ?_).someEq
  refine .bindEq (alike_field_eq hs fun _ _ => readText_eq) fun description => ?_
  refine .bindEq (alike_field_eq hs fun _ _ => readFlag_eq) fun required => ?_
  refine .bindEq (alike_field_eq hs fun _ _ => readText_eq) fun fallback => ?_
  refine .bindEq (alike_field_eq hs fun _ _ => readText_eq) fun type => ?_
  refine .bindEq (alike_field_eq hs fun _ _ => readTexts_eq) fun options => ?_
  exact .pure rfl

theorem WorkflowDispatch.alike_read (h : Option.Rel Node.Alike body body') :
    (WorkflowDispatch.read policy pos body).Alike (Option.Rel WorkflowDispatch.Same)
      (WorkflowDispatch.read policy pos body') := by
  have hinputs : ∀ v v' : Node, v.Alike v' →
      (readInputs policy v).Alike (Option.Rel Keyed.Same) (readInputs policy v') :=
    fun v v' hv => alike_free_eq hv fun _ _ => DispatchInput.alike_read
  unfold WorkflowDispatch.read
  refine alike_withinBody .none h fun s s' hs => (alike_fill hs ?_).some
  refine .bind (alike_field .none hs hinputs) fun inputs inputs' hinputs => ?_
  exact .pure ⟨same_getD hinputs, rfl⟩

theorem RepositoryDispatch.alike_read (h : Option.Rel Node.Alike body body') :
    (RepositoryDispatch.read policy pos body).Alike Eq
      (RepositoryDispatch.read policy pos body') := by
  unfold RepositoryDispatch.read
  refine alike_withinBody rfl h fun s s' hs => (alike_fill hs ?_).someEq
  refine .bindEq (alike_field_eq hs fun _ _ => readTextOrTexts_eq) fun types => ?_
  exact .pure rfl

namespace Trigger

theorem alike_read (h : Option.Rel Node.Alike body body') :
    (Trigger.read policy hook body).Alike (Option.Rel Trigger.Same)
      (Trigger.read policy hook body') := by
  unfold Trigger.read
  split
  · exact (ScheduleTrigger.alike_read h).optionMapEq .schedule
  · split
    · exact (WorkflowDispatch.alike_read h).optionMap fun _ _ => .workflowDispatch
    · split
      · exact (RepositoryDispatch.alike_read h).optionMapEq .repositoryDispatch
      · split
        · exact (WebhookTrigger.alike_read h).optionMapEq .webhook
        · exact ⟨.none, .refl _⟩

theorem alike_readItem (h : n.Alike n') :
    (readItem policy n).Alike (Option.Rel Trigger.Same) (readItem policy n') := by
  unfold readItem
  rw [h.sameOutside.leaf?]
  rcases n'.leaf? with - | name
  · exact alike_mismatch .none h.sameOutside _ _
  · exact alike_read .none

/-- The triggers stand in the order of the entries, so these have to stay in place. -/
theorem alike_readList (hn : n.Distinct) (h : n.InPlace n') :
    (readList policy n).Alike (Option.Rel (List.Forall₂ Trigger.Same)) (readList policy n') := by
  have hbodies : (within listWhat n fun s => some <$> Checked.collect
        (s.entries.map fun e => read policy e.key (some e.value))).Alike
      (Option.Rel (List.Forall₂ Trigger.Same))
      (within listWhat n' fun s => some <$> Checked.collect
        (s.entries.map fun e => read policy e.key (some e.value))) := by
    refine (alike_read_inPlace hn h).andThen .none fun s s' hs => Alike.some ?_
    refine Checked.alike_collect hs fun e e' he => ?_
    rw [he.key]
    exact alike_read (.some he.value)
  cases h with
  | null pos => exact hbodies
  | mapping pos _ => exact hbodies
  | scalar text plain pos => exact (alike_read .none).optionMap fun _ _ ht => .cons ht .nil
  | sequence pos hitems =>
    cases hn with
    | sequence _ hdistinct =>
      refine Alike.some (Checked.alike_collect ?_ fun _ _ => alike_readItem)
      exact (List.forall₂_and_left _ _).mpr ⟨hdistinct, hitems⟩

end Trigger

end WorkflowTree
