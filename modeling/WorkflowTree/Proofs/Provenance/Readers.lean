import WorkflowTree.Proofs.Provenance.Evidence
import WorkflowTree.Reading.Workflow

/-!
# Readers are grounded

Reader by reader, from the leaves to the whole workflow: what is read of a part of a node comes
from the node, and the problems that are found are evidenced by it.  The part may be any node that
the node contains, so the reader of a section hands the same fact on to the readers of its values.
-/

namespace WorkflowTree

open Checked Section

variable {α : Type} {root n : Node} {policy : Policy} {what owner : String} {s : Section}
variable {hook id : Text} {body : Option Node} {pos : Position} {e : Entry}

/-! ### Leaves -/

theorem grounded_readText (h : root.Contains n) :
    (readText what n).Grounded root (IsFrom root) := by
  unfold readText
  split
  · next t ht =>
    rw [← ht]
    exact .pure h.isFrom_leaf?
  · exact grounded_mismatch h isFrom_none _ _

/-- A plain scalar that can be read gives a leaf, if leaves of its kind may come from it. -/
theorem grounded_readPlain [HasLeaves (Located α)] {read? : String → Option α} {expected : String}
    (h : root.Contains n)
    (hread : ∀ word a, root.Contains (.scalar word true n.pos) → read? word = some a →
      IsFrom root (⟨a, n.pos⟩ : Located α)) :
    (readPlain read? expected what n).Grounded root (IsFrom root) := by
  unfold readPlain
  split
  · next a ha =>
    obtain ⟨word, hword, ha⟩ := Option.bind_eq_some_iff.mp ha
    rcases n with _ | ⟨text, _ | _, pos⟩ | _ | _ <;> try cases hword
    exact .pure (isFrom_some.mpr (hread word a h ha))
  · exact grounded_mismatch h isFrom_none _ _

theorem grounded_readFlag (h : root.Contains n) :
    (readFlag what n).Grounded root (IsFrom root) := by
  refine grounded_readPlain h fun word b hword hb => List.forall_mem_singleton.mpr ?_
  refine ⟨word, hword, ?_⟩
  unfold readTruth? at hb
  split at hb
  · next htrue => exact .inl ⟨(Option.some.inj hb).symm, List.contains_iff_mem.mp htrue⟩
  · split at hb
    · next hfalse => exact .inr ⟨(Option.some.inj hb).symm, List.contains_iff_mem.mp hfalse⟩
    · cases hb

theorem grounded_readCount (h : root.Contains n) :
    (readCount what n).Grounded root (IsFrom root) :=
  grounded_readPlain h fun word _ hword hc => List.forall_mem_singleton.mpr ⟨word, hword, hc⟩

theorem grounded_readMinutes (h : root.Contains n) :
    (readMinutes what n).Grounded root (IsFrom root) :=
  grounded_readPlain h fun word _ hword hm => List.forall_mem_singleton.mpr ⟨word, hword, hm⟩

/-- The items of a sequence are read one by one. -/
theorem Node.Contains.items? {items : List Node} (h : root.Contains n)
    (hitems : n.items? = some items) : ∀ i ∈ items, root.Contains i := by
  rcases n with _ | _ | ⟨items', pos⟩ | _ <;> try cases hitems
  exact fun i hi => h.item hi

theorem grounded_readTexts (h : root.Contains n) :
    (readTexts what n).Grounded root (IsFrom root) := by
  unfold readTexts
  split
  · next items hitems =>
    exact (grounded_collect fun i hi => grounded_readText (h.items? hitems i hi)).some
  · exact grounded_mismatch h isFrom_none _ _

/-- One text may stand for a sequence of texts. -/
theorem grounded_text {text : String} {plain : Bool} {pos : Position}
    (h : root.Contains (.scalar text plain pos)) :
    (pure (some [⟨text, pos⟩]) : Checked (Option (List Text))).Grounded root (IsFrom root) :=
  .pure (isFrom_list.mpr (List.forall_mem_singleton.mpr (isFrom_text.mpr ⟨plain, h⟩)))

theorem grounded_readTextOrTexts (h : root.Contains n) :
    (readTextOrTexts what n).Grounded root (IsFrom root) := by
  unfold readTextOrTexts
  split
  · exact grounded_text h
  · exact grounded_readTexts h
  · exact grounded_mismatch h isFrom_none _ _

theorem Assignment.grounded_read (h : e.IsOf root) :
    (Assignment.read what e).Grounded root (IsFrom root) :=
  (grounded_readText h.value).optionMap fun _ hvalue => isFrom_flatten ⟨h.key, hvalue⟩

/-- A mapping of assignments, whatever its entries are called in messages. -/
theorem grounded_readAssignments {what : String} {called : Entry → String}
    (h : root.Contains n) :
    (within what n fun s => some <$> s.collect fun e => Assignment.read (called e) e).Grounded root
      (IsFrom root) :=
  grounded_free h fun _ => Assignment.grounded_read

/-! ### Settings -/

theorem grounded_readEnv (h : root.Contains n) :
    (readEnv what n).Grounded root (IsFrom root) := grounded_readAssignments h

theorem Permissions.grounded_readGrant (h : e.IsOf root) :
    (readGrant e).Grounded root (IsFrom root) := by
  unfold readGrant
  split
  · next access haccess =>
    obtain ⟨word, htext, hword⟩ := Option.bind_eq_some_iff.mp haccess
    have hplace := h.value
    rcases hvalue : e.value with _ | ⟨text, plain, pos⟩ | _ | _ <;>
      rw [hvalue] at htext hplace <;> try cases htext
    have hfrom : IsFrom root access := List.forall_mem_singleton.mpr
      ⟨word, plain, pos, hplace, .inl (Access.word_of_ofScopeWord? hword).symm⟩
    exact .pure (isFrom_some.mpr (isFrom_flatten ⟨isFrom_some.mpr h.key, hfrom, h.key.pos⟩))
  · exact grounded_mismatch h.value isFrom_none _ _

theorem Access.word_of_ofBlanketWord? {word : String} {access : Access}
    (h : ofBlanketWord? word = some access) : word = access.word ++ "-all" := by
  unfold ofBlanketWord? at h
  split at h
  · next hword => cases h; exact hword
  · split at h
    · next hword => cases h; exact hword
    · cases h

theorem Permissions.grounded_read (h : root.Contains n) :
    (Permissions.read owner n).Grounded root (IsFrom root) := by
  unfold Permissions.read
  split
  · next word plain pos =>
    have hpos : IsFrom root pos := h.isFrom_pos
    split
    · next access hword =>
      have haccess : IsFrom root access := List.forall_mem_singleton.mpr
        ⟨word, plain, pos, h, .inr (Access.word_of_ofBlanketWord? hword)⟩
      have hgrant : IsFrom root (⟨none, access, pos⟩ : Grant) :=
        isFrom_flatten ⟨isFrom_none, haccess, hpos⟩
      exact .pure (isFrom_some.mpr (isFrom_flatten ⟨hgrant, hpos⟩))
    · exact grounded_mismatch h isFrom_none _ _
  · exact (grounded_free h fun _ => grounded_readGrant).optionMap fun gs hgs =>
      isFrom_flatten ⟨hgs, h.isFrom_pos⟩
  · exact grounded_mismatch h isFrom_none _ _

theorem ScriptDefaults.grounded_read (h : root.Contains n) :
    (ScriptDefaults.read policy n).Grounded root (IsFrom root) := by
  refine grounded_within h fun s hs => (grounded_fill hs ?_).some
  refine .bind (grounded_field hs fun _ => grounded_readText) fun shell hshell => ?_
  refine .bind (grounded_field hs fun _ => grounded_readText) fun dir hdir => ?_
  exact .pure (isFrom_flatten ⟨hshell, hdir, h.isFrom_pos⟩)

theorem Defaults.grounded_read (h : root.Contains n) :
    (Defaults.read policy owner n).Grounded root (IsFrom root) := by
  refine grounded_within h fun s hs => (grounded_fill hs ?_).some
  refine .bind (grounded_field hs fun _ => ScriptDefaults.grounded_read) fun run hrun => ?_
  exact .pure (isFrom_flatten ⟨hrun, h.isFrom_pos⟩)

/-- A text may stand for a mapping with one key. -/
theorem grounded_leafOr [HasLeaves α] {short : Text → α} {c : Checked (Option α)}
    (h : root.Contains n) (hshort : ∀ t, IsFrom root t → IsFrom root (short t))
    (hc : c.Grounded root (IsFrom root)) :
    (match n.leaf? with
      | some t => pure (some (short t))
      | none => c : Checked (Option α)).Grounded root (IsFrom root) := by
  have hleaf := h.isFrom_leaf?
  rcases e : n.leaf? with - | t
  · exact hc
  · rw [e] at hleaf
    exact .pure (isFrom_some.mpr (hshort t hleaf))

theorem Concurrency.grounded_read (h : root.Contains n) :
    (Concurrency.read policy owner n).Grounded root (IsFrom root) := by
  refine grounded_leafOr h (fun group hgroup => ?_) (grounded_within h fun s hs => ?_)
  · exact isFrom_flatten ⟨hgroup, isFrom_none, h.isFrom_pos⟩
  refine .bind (P := IsFrom root) (grounded_fill hs ?_) fun (group, cancel) hfields => ?_
  · refine .bind (grounded_field hs fun _ => grounded_readText) fun group hgroup => ?_
    refine .bind (grounded_field hs fun _ => grounded_readFlag) fun cancel hcancel => ?_
    exact .pure (isFrom_prod.mpr ⟨hgroup, hcancel⟩)
  · obtain ⟨hgroup, hcancel⟩ := isFrom_prod.mp hfields
    refine .bind (grounded_require hgroup h.isFrom_pos) fun group hgroup => ?_
    exact .pure (hgroup.map fun _ hgroup => isFrom_flatten ⟨hgroup, hcancel, h.isFrom_pos⟩)

theorem Environment.grounded_read (h : root.Contains n) :
    (Environment.read policy what n).Grounded root (IsFrom root) := by
  refine grounded_leafOr h (fun name hname => ?_) (grounded_within h fun s hs => ?_)
  · exact isFrom_flatten ⟨hname, isFrom_none, h.isFrom_pos⟩
  refine .bind (P := IsFrom root) (grounded_fill hs ?_) fun (name, url) hfields => ?_
  · refine .bind (grounded_field hs fun _ => grounded_readText) fun name hname => ?_
    refine .bind (grounded_field hs fun _ => grounded_readText) fun url hurl => ?_
    exact .pure (isFrom_prod.mpr ⟨hname, hurl⟩)
  · obtain ⟨hname, hurl⟩ := isFrom_prod.mp hfields
    refine .bind (grounded_require hname h.isFrom_pos) fun name hname => ?_
    exact .pure (hname.map fun _ hname => isFrom_flatten ⟨hname, hurl, h.isFrom_pos⟩)

/-! ### Containers -/

theorem Credentials.grounded_read (h : root.Contains n) :
    (Credentials.read policy what n).Grounded root (IsFrom root) := by
  refine grounded_within h fun s hs => ?_
  refine .bind (P := IsFrom root) (grounded_fill hs ?_) fun (username, password) hfields => ?_
  · refine .bind (grounded_field hs fun _ => grounded_readText) fun username husername => ?_
    refine .bind (grounded_field hs fun _ => grounded_readText) fun password hpassword => ?_
    exact .pure (isFrom_prod.mpr ⟨husername, hpassword⟩)
  · obtain ⟨husername, hpassword⟩ := isFrom_prod.mp hfields
    refine .bind (grounded_require husername h.isFrom_pos) fun username husername => ?_
    refine .bind (grounded_require hpassword h.isFrom_pos) fun password hpassword => ?_
    refine .pure (husername.bind fun username husername => ?_)
    refine hpassword.bind fun password hpassword => ?_
    exact isFrom_some.mpr (isFrom_flatten ⟨husername, hpassword, h.isFrom_pos⟩)

/-- The keys besides the required one make a container of any image. -/
theorem Container.grounded_readFields (hs : s.IsOf root) (hpos : IsFrom root pos) :
    (readFields policy what s pos).Grounded root fun x =>
      IsFrom root x.1 ∧ ∀ image, IsFrom root image → IsFrom root (x.2 image) := by
  refine .bind (grounded_field hs fun _ => grounded_readText) fun image himage => ?_
  refine .bind (grounded_field hs fun _ => Credentials.grounded_read) fun credentials hcreds => ?_
  refine .bind (grounded_field hs fun _ => grounded_readEnv) fun env henv => ?_
  refine .bind (grounded_field hs fun _ => grounded_readTexts) fun ports hports => ?_
  refine .bind (grounded_field hs fun _ => grounded_readTexts) fun volumes hvolumes => ?_
  refine .bind (grounded_field hs fun _ => grounded_readText) fun options hoptions => ?_
  refine .pure ⟨himage, fun image himage => ?_⟩
  exact isFrom_flatten ⟨himage, hcreds, henv.getD isFrom_empty, hports.getD isFrom_nil,
    hvolumes.getD isFrom_nil, hoptions, hpos⟩

theorem Container.grounded_read (h : root.Contains n) :
    (Container.read policy what n).Grounded root (IsFrom root) := by
  refine grounded_leafOr h (fun image himage => ?_) (grounded_within h fun s hs => ?_)
  · exact isFrom_flatten ⟨himage, isFrom_none, isFrom_empty, isFrom_nil, isFrom_nil, isFrom_none,
      h.isFrom_pos⟩
  refine .bind (grounded_fill hs (grounded_readFields hs h.isFrom_pos)) ?_
  rintro ⟨image, complete⟩ ⟨himage, hcomplete⟩
  refine .bind (grounded_require himage h.isFrom_pos) fun image himage => ?_
  exact .pure (himage.map hcomplete)

theorem grounded_readServices (h : root.Contains n) :
    (readServices policy what n).Grounded root (IsFrom root) := by
  refine grounded_free h fun e he => ?_
  exact (Container.grounded_read he.value).optionMap fun _ hc => isFrom_flatten ⟨he.key, hc⟩

/-! ### Strategies -/

namespace Matrix

instance : HasLeaves Part :=
  ⟨fun
    | .row r => leaves r
    | .combinations cs => leaves cs⟩

theorem isFrom_runs {o : Option Part} (h : IsFrom root o) :
    IsFrom root ((o.map Part.runs).getD []) := by
  refine (h.map fun part hpart => ?_).getD isFrom_nil
  rcases part with r | cs
  · exact isFrom_nil
  · exact hpart

theorem isFrom_ofParts {parts : Keyed Part} (h : IsFrom root parts) (hpos : IsFrom root pos) :
    IsFrom root (ofParts parts pos) := by
  refine isFrom_flatten ⟨h.filterMap fun _ part r hr hpart => ?_, isFrom_runs (h.find? _),
    isFrom_runs (h.find? _), hpos⟩
  rcases part with r' | cs <;> cases hr
  exact hpart

theorem grounded_readCombinations {key : String} (h : root.Contains n) :
    (readCombinations key n).Grounded root (IsFrom root) := by
  unfold readCombinations
  split
  · next items hitems =>
    exact (grounded_collect fun i hi => grounded_readAssignments (h.items? hitems i hi)).some
  · exact grounded_mismatch h isFrom_none _ _

theorem grounded_readRow (h : e.IsOf root) : (readRow e).Grounded root (IsFrom root) :=
  (grounded_readTexts h.value).optionMap fun _ hvalues => isFrom_flatten ⟨h.key, hvalues⟩

theorem grounded_readPart (h : e.IsOf root) : (readPart e).Grounded root (IsFrom root) := by
  unfold readPart
  split
  · exact (grounded_readCombinations h.value).optionMap fun _ hcs => hcs
  · exact (grounded_readRow h).optionMap fun _ hr => hr

theorem grounded_read (h : root.Contains n) : (Matrix.read n).Grounded root (IsFrom root) :=
  (grounded_free h fun _ => grounded_readPart).optionMap fun _ hparts =>
    isFrom_ofParts hparts h.isFrom_pos

end Matrix

theorem Strategy.grounded_read (h : root.Contains n) :
    (Strategy.read policy what n).Grounded root (IsFrom root) := by
  refine grounded_within h fun s hs => (grounded_fill hs ?_).some
  refine .bind (grounded_field hs fun _ => Matrix.grounded_read) fun matrix hmatrix => ?_
  refine .bind (grounded_field hs fun _ => grounded_readFlag) fun failFast hfailFast => ?_
  refine .bind (grounded_field hs fun _ => grounded_readCount) fun parallel hparallel => ?_
  exact .pure (isFrom_flatten ⟨hmatrix, hfailFast, hparallel, h.isFrom_pos⟩)

/-! ### Triggers -/

theorem grounded_withinBody [HasLeaves α] {k : Section → Checked (Option α)}
    (h : IfPresent root.Contains body)
    (hk : ∀ s, s.IsOf root → (k s).Grounded root (IsFrom root)) :
    (withinBody what body k).Grounded root (IsFrom root) := by
  unfold withinBody
  split
  · exact hk .empty .empty
  · next n hn => exact grounded_within (h n (Option.eq_some_of_filter_eq_some hn)) hk

theorem WebhookTrigger.grounded_read (hhook : IsFrom root hook)
    (h : IfPresent root.Contains body) :
    (WebhookTrigger.read policy hook body).Grounded root (IsFrom root) := by
  unfold WebhookTrigger.read
  refine grounded_withinBody h fun s hs => ?_
  refine (grounded_fill hs ?_).some
  refine .bind (grounded_field hs fun _ => grounded_readTextOrTexts) fun types htypes => ?_
  refine .bind (grounded_field hs fun _ => grounded_readTextOrTexts) fun branches hbranches => ?_
  refine .bind (grounded_field hs fun _ => grounded_readTextOrTexts) fun branches' hbranches' => ?_
  refine .bind (grounded_field hs fun _ => grounded_readTextOrTexts) fun tags htags => ?_
  refine .bind (grounded_field hs fun _ => grounded_readTextOrTexts) fun tags' htags' => ?_
  refine .bind (grounded_field hs fun _ => grounded_readTextOrTexts) fun paths hpaths => ?_
  refine .bind (grounded_field hs fun _ => grounded_readTextOrTexts) fun paths' hpaths' => ?_
  refine .bind (grounded_field hs fun _ => grounded_readTextOrTexts) fun workflows hworkflows => ?_
  exact .pure (isFrom_flatten ⟨hhook, htypes, hbranches, hbranches', htags, htags', hpaths,
    hpaths', hworkflows, hhook.pos⟩)

theorem ScheduleTrigger.grounded_readTime (h : root.Contains n) :
    (readTime policy n).Grounded root (IsFrom root) := by
  refine grounded_within h fun s hs => ?_
  refine .bind (grounded_fill hs (grounded_field hs fun _ => grounded_readText)) ?_
  exact fun _ hcron => grounded_require hcron h.isFrom_pos

theorem ScheduleTrigger.grounded_read (hpos : IsFrom root pos)
    (h : IfPresent root.Contains body) :
    (ScheduleTrigger.read policy pos body).Grounded root (IsFrom root) := by
  unfold ScheduleTrigger.read
  split
  · exact ⟨isFrom_none, List.forall_mem_singleton.mpr ⟨isFrom_pos.mp hpos, trivial⟩⟩
  · next n =>
    have hn := h n rfl
    split
    · next items hitems =>
      refine .bind (grounded_collect fun i hi => grounded_readTime (hn.items? hitems i hi)) ?_
      exact fun _ hcron => .pure (isFrom_some.mpr (isFrom_flatten ⟨hcron, hpos⟩))
    · exact grounded_mismatch hn isFrom_none _ _

theorem DispatchInput.grounded_read (h : e.IsOf root) :
    (DispatchInput.read policy e).Grounded root (IsFrom root) := by
  unfold DispatchInput.read
  refine grounded_withinBody (.some h.value) fun s hs => ?_
  refine (grounded_fill hs ?_).some
  refine .bind (grounded_field hs fun _ => grounded_readText) fun description hdescription => ?_
  refine .bind (grounded_field hs fun _ => grounded_readFlag) fun required hrequired => ?_
  refine .bind (grounded_field hs fun _ => grounded_readText) fun fallback hfallback => ?_
  refine .bind (grounded_field hs fun _ => grounded_readText) fun type htype => ?_
  refine .bind (grounded_field hs fun _ => grounded_readTexts) fun options hoptions => ?_
  exact .pure (isFrom_flatten ⟨h.key, hdescription, hrequired, hfallback, htype, hoptions⟩)

theorem WorkflowDispatch.grounded_readInputs (h : root.Contains n) :
    (readInputs policy n).Grounded root (IsFrom root) :=
  grounded_free h fun _ => DispatchInput.grounded_read

theorem WorkflowDispatch.grounded_read (hpos : IsFrom root pos)
    (h : IfPresent root.Contains body) :
    (WorkflowDispatch.read policy pos body).Grounded root (IsFrom root) := by
  unfold WorkflowDispatch.read
  refine grounded_withinBody h fun s hs => ?_
  refine (grounded_fill hs ?_).some
  refine .bind (grounded_field hs fun _ => grounded_readInputs) fun inputs hinputs => ?_
  exact .pure (isFrom_flatten ⟨hinputs.getD isFrom_empty, hpos⟩)

theorem RepositoryDispatch.grounded_read (hpos : IsFrom root pos)
    (h : IfPresent root.Contains body) :
    (RepositoryDispatch.read policy pos body).Grounded root (IsFrom root) := by
  unfold RepositoryDispatch.read
  refine grounded_withinBody h fun s hs => ?_
  refine (grounded_fill hs ?_).some
  refine .bind (grounded_field hs fun _ => grounded_readTextOrTexts) fun types htypes => ?_
  exact .pure (isFrom_flatten ⟨htypes, hpos⟩)

theorem Trigger.grounded_read (hhook : IsFrom root hook)
    (h : IfPresent root.Contains body) :
    (Trigger.read policy hook body).Grounded root (IsFrom root) := by
  unfold Trigger.read
  split
  · exact (ScheduleTrigger.grounded_read hhook.pos h).optionMap fun _ ht => ht
  split
  · exact (WorkflowDispatch.grounded_read hhook.pos h).optionMap fun _ ht => ht
  split
  · exact (RepositoryDispatch.grounded_read hhook.pos h).optionMap fun _ ht => ht
  split
  · exact (WebhookTrigger.grounded_read hhook h).optionMap fun _ ht => ht
  · -- the unknown name is the text of the scalar that stands there
    obtain ⟨plain, hplain⟩ := isFrom_text.mp hhook
    refine ⟨isFrom_none, List.forall_mem_singleton.mpr ⟨⟨_, hplain, rfl⟩, .inr ?_⟩⟩
    exact ⟨hook.value, plain, hplain, rfl⟩

theorem Trigger.grounded_readItem (h : root.Contains n) :
    (readItem policy n).Grounded root (IsFrom root) := by
  have hleaf := h.isFrom_leaf?
  unfold readItem
  split
  · next hook hhook =>
    rw [hhook] at hleaf
    exact grounded_read hleaf .none
  · exact grounded_mismatch h isFrom_none _ _

theorem Trigger.grounded_readList (h : root.Contains n) :
    (readList policy n).Grounded root (IsFrom root) := by
  unfold readList
  split
  · next text plain pos =>
    have hhook : IsFrom root (⟨text, pos⟩ : Text) := isFrom_text.mpr ⟨plain, h⟩
    refine (grounded_read hhook .none).optionMap fun t ht => ?_
    exact isFrom_list.mpr (List.forall_mem_singleton.mpr ht)
  · exact (grounded_collect fun i hi => grounded_readItem (h.item hi)).some
  · refine grounded_within h fun s hs => (grounded_collect fun e he => ?_).some
    exact grounded_read (hs e he).key (.some (hs e he).value)

/-! ### Steps -/

theorem Assignment.isFrom_value {a : Assignment} (h : IsFrom root a) : IsFrom root a.value :=
  fun l hl => h l (List.mem_flatten.mpr ⟨leaves a.value, by simp, hl⟩)

theorem ActionUse.isFrom_ofAssignments {action : Text} {inputs : Assignments}
    (haction : IsFrom root action) (hinputs : IsFrom root inputs) :
    IsFrom root (ofAssignments action inputs) := by
  have hapart : ∀ key, IsFrom root ((inputs.find? key).map Assignment.value) := fun key =>
    (hinputs.find? key).map fun _ => Assignment.isFrom_value
  refine isFrom_flatten ⟨haction, hinputs.filterMap fun key a b hb ha => ?_, hapart _, hapart _⟩
  split at hb
  · cases hb
  · cases hb
    exact ha

theorem ActionUse.grounded_readInputs (h : root.Contains n) :
    (readInputs owner n).Grounded root (IsFrom root) := grounded_readAssignments h

namespace Step

theorem isEvidenced_exclusive {first second : Text} (h : IsFrom root second) :
    (exclusive owner first second).IsEvidenced root := ⟨isFrom_pos.mp h.pos, trivial⟩

/-- The keys and values that say what a step does come from the node. -/
structure ExecFields.AreFrom (root : Node) (f : ExecFields) : Prop where
  run : IfPresent (fun x => IsFrom root x.1 ∧ IsFrom root x.2) f.run
  uses : IfPresent (fun x => IsFrom root x.1 ∧ IsFrom root x.2) f.uses
  inputs : IfPresent (fun x => IsFrom root x.1 ∧ root.Contains x.2) f.inputs
  shell : IfPresent (fun x => IsFrom root x.1 ∧ IsFrom root x.2) f.shell
  workingDirectory : IfPresent (fun x => IsFrom root x.1 ∧ IsFrom root x.2) f.workingDirectory

theorem isFrom_map_snd {x : Option (Text × Text)}
    (h : IfPresent (fun x => IsFrom root x.1 ∧ IsFrom root x.2) x) :
    IsFrom root (x.map Prod.snd) := by
  rcases x with - | x
  · exact isFrom_none
  · exact (h x rfl).2

theorem grounded_readExec {f : ExecFields} (hf : f.AreFrom root) (hpos : IsFrom root pos) :
    (readExec owner s pos f).Grounded root (IsFrom root) := by
  unfold readExec
  split
  · next runKey script usesKey action hrun huses =>
    refine .bind (grounded_reportAll (List.forall_mem_singleton.mpr ?_)) fun _ _ =>
      .pure isFrom_none
    split
    · exact isEvidenced_exclusive (hf.uses _ huses).1
    · exact isEvidenced_exclusive (hf.run _ hrun).1
  · next runKey script hrun huses =>
    refine .bind (grounded_reportAll (List.forall_mem_map.mpr fun i hi => ?_)) fun _ _ => ?_
    · exact isEvidenced_exclusive (hf.inputs i (Option.mem_toList.mp hi)).1
    · exact .pure (isFrom_some.mpr (isFrom_flatten ⟨(hf.run _ hrun).2, isFrom_map_snd hf.shell,
        isFrom_map_snd hf.workingDirectory⟩))
  · next usesKey action hrun huses =>
    refine .bind (grounded_reportAll (List.forall_mem_map.mpr fun k hk => ?_)) fun _ _ => ?_
    · rcases List.mem_append.mp hk with hk | hk
      · exact isEvidenced_exclusive (hf.shell k (Option.mem_toList.mp hk)).1
      · exact isEvidenced_exclusive (hf.workingDirectory k (Option.mem_toList.mp hk)).1
    · rcases hinputs : f.inputs with - | ⟨key, n⟩
      · exact .pure (isFrom_some.mpr (ActionUse.isFrom_ofAssignments (hf.uses _ huses).2
          isFrom_empty))
      · refine .bind (ActionUse.grounded_readInputs (hf.inputs _ hinputs).2) fun inputs h => ?_
        exact .pure (isFrom_some.mpr (ActionUse.isFrom_ofAssignments (hf.uses _ huses).2
          (h.getD isFrom_empty)))
  · split
    · refine .bind (grounded_reportAll (List.forall_mem_singleton.mpr ?_)) fun _ _ =>
        .pure isFrom_none
      exact ⟨isFrom_pos.mp hpos, trivial⟩
    · exact .pure isFrom_none

/-- The keys besides those that say what a step does make a step of anything that is done. -/
theorem grounded_readFields (hs : s.IsOf root) (hpos : IsFrom root pos) :
    (readFields what s pos).Grounded root fun x =>
      x.1.AreFrom root ∧ ∀ exec, IsFrom root exec → IsFrom root (x.2 exec) := by
  have htext : ∀ {what}, ∀ n, root.Contains n →
      (readText what n).Grounded root (IfPresent (IsFrom root)) := fun n hn =>
    (grounded_readText hn).mono fun _ => isFrom_option.mp
  refine .bind (grounded_field hs fun _ => grounded_readText) fun id hid => ?_
  refine .bind (grounded_field hs fun _ => grounded_readText) fun condition hcondition => ?_
  refine .bind (grounded_field hs fun _ => grounded_readText) fun name hname => ?_
  refine .bind (grounded_fieldWithKey hs htext) fun run hrun => ?_
  refine .bind (grounded_fieldWithKey hs htext) fun uses huses => ?_
  refine .bind (grounded_fieldWithKey hs fun _ hn => .pure (.some hn)) fun inputs hinputs => ?_
  refine .bind (grounded_fieldWithKey hs htext) fun shell hshell => ?_
  refine .bind (grounded_fieldWithKey hs htext) fun workingDirectory hdir => ?_
  refine .bind (grounded_field hs fun _ => grounded_readEnv) fun env henv => ?_
  refine .bind (grounded_field hs fun _ => grounded_readFlag) fun continued hcontinued => ?_
  refine .bind (grounded_field hs fun _ => grounded_readMinutes) fun timeout htimeout => ?_
  refine .pure ⟨⟨hrun, huses, hinputs, hshell, hdir⟩, fun exec hexec => ?_⟩
  exact isFrom_flatten ⟨hid, hcondition, hname, hexec, henv.getD isFrom_empty, hcontinued,
    htimeout, hpos⟩

theorem grounded_read (h : root.Contains n) :
    (Step.read policy what n).Grounded root (IsFrom root) := by
  refine grounded_within h fun s hs => ?_
  refine .bind (grounded_fill hs (grounded_readFields hs h.isFrom_pos)) ?_
  rintro ⟨fields, complete⟩ ⟨hfields, hcomplete⟩
  exact (grounded_readExec hfields h.isFrom_pos).optionMap hcomplete

theorem grounded_readList (h : root.Contains n) :
    (readList policy owner n).Grounded root (IsFrom root) := by
  unfold readList
  split
  · next items hitems =>
    refine (grounded_collect fun x hx => grounded_read ?_).some
    exact h.items? hitems x.1 (List.fst_mem_of_mem_zipIdx hx)
  · exact grounded_mismatch h isFrom_none _ _

end Step

/-! ### Jobs -/

namespace Runner

theorem isFrom_ofLabels? {labels : List Text} (h : IsFrom root labels) (hpos : IsFrom root pos) :
    IsFrom root (ofLabels? labels pos) := by
  unfold ofLabels?
  split
  · refine isFrom_some.mpr (isFrom_flatten ⟨isFrom_list.mpr fun l hl => ?_, hpos⟩)
    exact isFrom_list.mp h l (List.mem_of_mem_filter hl)
  · split
    · exact isFrom_some.mpr (isFrom_flatten
        ⟨isFrom_list.mp h _ (List.mem_cons_self ..), hpos⟩)
    · exact isFrom_none

theorem grounded_readLabels (h : root.Contains n) :
    (readLabels what n).Grounded root (IsFrom root) := by
  unfold readLabels
  split
  · exact grounded_text h
  · exact grounded_readTexts h
  · exact grounded_mismatch h isFrom_none _ _

theorem grounded_read (h : root.Contains n) :
    (Runner.read what n).Grounded root (IsFrom root) := by
  refine Grounded.andThen ((grounded_readLabels h).mono fun _ => isFrom_option.mp) isFrom_none
    fun labels hlabels => ?_
  have hrunner := isFrom_ofLabels? hlabels h.isFrom_pos
  split
  · next r hr =>
    rw [hr] at hrunner
    exact .pure hrunner
  · exact grounded_mismatch h isFrom_none _ _

end Runner

namespace Job

theorem grounded_readOutputs (h : root.Contains n) :
    (readOutputs what n).Grounded root (IsFrom root) := grounded_readAssignments h

/-- The keys besides the required ones make a job of any runner and any steps. -/
theorem grounded_readFields (hid : IsFrom root id) (hs : s.IsOf root) :
    (readFields policy what id s).Grounded root fun x =>
      IsFrom root x.1 ∧ IsFrom root x.2.1 ∧ ∀ runsOn steps, IsFrom root runsOn →
        IsFrom root steps → IsFrom root (x.2.2 runsOn steps) := by
  refine .bind (grounded_field hs fun _ => grounded_readText) fun name hname => ?_
  refine .bind (grounded_field hs fun _ => grounded_readTextOrTexts) fun needs hneeds => ?_
  refine .bind (grounded_field hs fun _ => Runner.grounded_read) fun runsOn hrunsOn => ?_
  refine .bind (grounded_field hs fun _ => Permissions.grounded_read) fun permissions hperms => ?_
  refine .bind (grounded_field hs fun _ => Environment.grounded_read) fun environment henvi => ?_
  refine .bind (grounded_field hs fun _ => Concurrency.grounded_read) fun concurrency hconc => ?_
  refine .bind (grounded_field hs fun _ => grounded_readOutputs) fun outputs houtputs => ?_
  refine .bind (grounded_field hs fun _ => grounded_readEnv) fun env henv => ?_
  refine .bind (grounded_field hs fun _ => Defaults.grounded_read) fun defaults hdefaults => ?_
  refine .bind (grounded_field hs fun _ => grounded_readText) fun condition hcondition => ?_
  refine .bind (grounded_field hs fun _ => Step.grounded_readList) fun steps hsteps => ?_
  refine .bind (grounded_field hs fun _ => grounded_readMinutes) fun timeout htimeout => ?_
  refine .bind (grounded_field hs fun _ => Strategy.grounded_read) fun strategy hstrategy => ?_
  refine .bind (grounded_field hs fun _ => grounded_readFlag) fun continued hcontinued => ?_
  refine .bind (grounded_field hs fun _ => Container.grounded_read) fun container hcontainer => ?_
  refine .bind (grounded_field hs fun _ => grounded_readServices) fun services hservices => ?_
  refine .pure ⟨hrunsOn, hsteps, fun runsOn steps hrunsOn hsteps => ?_⟩
  exact isFrom_flatten ⟨hid, hname, hneeds.getD isFrom_nil, hrunsOn, hperms, henvi, hconc,
    houtputs.getD isFrom_empty, henv.getD isFrom_empty, hdefaults, hcondition, hsteps, htimeout,
    hstrategy, hcontinued, hcontainer, hservices.getD isFrom_empty, hid.pos⟩

theorem grounded_read (hid : IsFrom root id) (h : root.Contains n) :
    (Job.read policy id n).Grounded root (IsFrom root) := by
  refine grounded_withinOwner h fun s hs => ?_
  refine .bind (grounded_fill hs (grounded_readFields hid hs)) ?_
  rintro ⟨runsOn, steps, complete⟩ ⟨hrunsOn, hsteps, hcomplete⟩
  refine .bind (grounded_require hrunsOn hid.pos) fun runsOn hrunsOn => ?_
  refine .bind (grounded_require hsteps hid.pos) fun steps hsteps => ?_
  refine .pure (hrunsOn.bind fun runsOn hrunsOn => hsteps.bind fun steps hsteps => ?_)
  exact isFrom_some.mpr (hcomplete runsOn steps hrunsOn hsteps)

theorem grounded_readAll (h : root.Contains n) :
    (readAll policy n).Grounded root (IsFrom root) :=
  grounded_free h fun _ he => grounded_read he.key he.value

end Job

/-! ### Workflows -/

namespace Workflow

/-- The keys besides the required ones make a workflow of any triggers and any jobs. -/
theorem grounded_readFields (hs : s.IsOf root) :
    (readFields policy what s).Grounded root fun x =>
      IsFrom root x.1 ∧ IsFrom root x.2.1 ∧ ∀ triggers jobs, IsFrom root triggers →
        IsFrom root jobs → IsFrom root (x.2.2 triggers jobs) := by
  refine .bind (grounded_field hs fun _ => grounded_readText) fun name hname => ?_
  refine .bind (grounded_field hs fun _ => grounded_readText) fun runName hrunName => ?_
  refine .bind (grounded_field hs fun _ => Trigger.grounded_readList) fun triggers htriggers => ?_
  refine .bind (grounded_field hs fun _ => Permissions.grounded_read) fun permissions hperms => ?_
  refine .bind (grounded_field hs fun _ => grounded_readEnv) fun env henv => ?_
  refine .bind (grounded_field hs fun _ => Defaults.grounded_read) fun defaults hdefaults => ?_
  refine .bind (grounded_field hs fun _ => Concurrency.grounded_read) fun concurrency hconc => ?_
  refine .bind (grounded_field hs fun _ => Job.grounded_readAll) fun jobs hjobs => ?_
  refine .pure ⟨htriggers, hjobs, fun triggers jobs htriggers hjobs => ?_⟩
  exact isFrom_flatten ⟨hname, hrunName, htriggers, hperms, henv.getD isFrom_empty, hdefaults,
    hconc, hjobs⟩

theorem grounded_read (policy : Policy) (root : Node) :
    (Workflow.read policy root).Grounded root (IsFrom root) := by
  have hpos : IsFrom root root.pos := Node.Contains.refl.isFrom_pos
  refine grounded_withinOwner .refl fun s hs => ?_
  refine .bind (grounded_fill hs (grounded_readFields hs)) ?_
  rintro ⟨triggers, jobs, complete⟩ ⟨htriggers, hjobs, hcomplete⟩
  refine .bind (grounded_require htriggers hpos) fun triggers htriggers => ?_
  refine .bind (grounded_require hjobs hpos) fun jobs hjobs => ?_
  refine .pure (htriggers.bind fun triggers htriggers => hjobs.bind fun jobs hjobs => ?_)
  exact isFrom_some.mpr (hcomplete triggers jobs htriggers hjobs)

end Workflow

end WorkflowTree
