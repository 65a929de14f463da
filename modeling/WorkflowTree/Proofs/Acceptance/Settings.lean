import WorkflowTree.Proofs.Acceptance.Scalar
import WorkflowTree.Proofs.Grammar.Workflow
import WorkflowTree.Reading.Container
import WorkflowTree.Reading.Strategy

/-!
# What readers of settings accept

The readers of permissions, defaults, concurrency groups, environments, containers and
strategies accept the shapes of these names, and give a value or a problem.
-/

namespace WorkflowTree

open Checked

variable {α : Type} {policy : Policy} {what owner : String} {n : Node}

/-! ### Permissions -/

namespace Permissions

theorem exists_ofScopeWord?_eq_some {word : String} :
    (∃ a, Access.ofScopeWord? word = some a) ↔ word ∈ ["none", "read", "write"] := by
  unfold Access.ofScopeWord?
  split
  · simp_all
  · split
    · simp_all
    · split <;> simp_all

theorem exists_ofBlanketWord?_eq_some {word : String} :
    (∃ a, Access.ofBlanketWord? word = some a) ↔ word ∈ ["read-all", "write-all"] := by
  unfold Access.ofBlanketWord?
  split
  · simp_all
  · split <;> simp_all

theorem clean_readGrant {e : Entry} :
    (readGrant e).Clean ↔ e.value.IsWord ["none", "read", "write"] := by
  unfold readGrant Node.IsWord
  simp only [← exists_ofScopeWord?_eq_some]
  rcases e.value.text? with - | word
  · simp
  · rcases h : Access.ofScopeWord? word with - | a <;> simp [h]

theorem explained_readGrant (e : Entry) : (readGrant e).Explained := by
  unfold readGrant
  split
  · exact explained_some _ _
  · exact explained_mismatch _ _ _

@[simp] theorem clean_read : (read owner n).Clean ↔ IsPermissions n := by
  unfold IsPermissions Node.IsWord
  rcases n with pos | ⟨word, plain, pos⟩ | ⟨items, pos⟩ | ⟨entries, pos⟩
  · simp [read, Node.IsFree, Node.IsSection, Node.text?, Node.entries?]
  · simp only [read, Node.text?, Option.some.injEq, exists_eq_left',
      ← exists_ofBlanketWord?_eq_some]
    rcases Access.ofBlanketWord? word with - | a <;>
      simp [Node.IsFree, Node.IsSection, Node.entries?]
  · simp [read, Node.IsFree, Node.IsSection, Node.text?, Node.entries?]
  · simp only [read, clean_map, Node.text?, reduceCtorEq, false_and, exists_false, false_or]
    exact Section.clean_free fun _ => clean_readGrant

/-- The number of scopes that get a grant of their own. -/
def scopeCount (p : Permissions) : Nat := (p.scopes?.map Keyed.size).getD 0

theorem accounts_read (owner : String) (n : Node) :
    (read owner n).Accounts n.size scopeCount := by
  rcases n with pos | ⟨word, plain, pos⟩ | ⟨items, pos⟩ | ⟨entries, pos⟩
  · exact accounts_refuse _ _ _
  · simp only [read]
    split
    · exact accounts_some _ _ (Nat.zero_le _)
    · exact accounts_refuse _ _ _
  · exact accounts_refuse _ _ _
  · have h := @Section.accounts_free _ s!"\"permissions\" in {owner}" (.mapping entries pos) _
      explained_readGrant
    exact h.optionMap (f := (perScope · pos)) fun _ => rfl

end Permissions

/-! ### Defaults -/

@[simp] theorem ScriptDefaults.clean_read :
    (ScriptDefaults.read policy n).Clean ↔ IsScriptDefaults policy n := by
  refine Section.clean_within (fun h => h.keys.1) fun s hn hs => ?_
  rw [clean_map, Section.clean_fill (by simp [Form.keys]), isScriptDefaults_iff]
  simp [Form.keys, Section.problemsAt_eq_nil hs, hs, Node.IsFixed, hn]

theorem ScriptDefaults.explained_read (policy : Policy) (n : Node) :
    (ScriptDefaults.read policy n).Explained :=
  Section.explained_within fun _ => explained_map_some _

@[simp] theorem Defaults.clean_read :
    (Defaults.read policy owner n).Clean ↔ IsDefaults policy n := by
  refine Section.clean_within (fun h => h.keys.1) fun s hn hs => ?_
  rw [clean_map, Section.clean_fill (by simp [Form.keys]), isDefaults_iff]
  simp [Form.keys, Section.problemsAt_eq_nil hs, hs, Node.IsFixed, hn]

theorem Defaults.explained_read (policy : Policy) (owner : String) (n : Node) :
    (Defaults.read policy owner n).Explained :=
  Section.explained_within fun _ => explained_map_some _

/-! ### Short forms -/

/-- Some mappings have a short form, which is a text and stands for the mapping with one key. -/
theorem clean_leafOr {short : Text → α} {c : Checked (Option α)} {p : Prop}
    (h : c.Clean ↔ p) : (match n.leaf? with
      | some t => pure (some (short t))
      | none => c : Checked (Option α)).Clean ↔ n.IsText ∨ p := by
  unfold Node.IsText
  rw [Node.text?_eq_leaf?]
  rcases n.leaf? with - | t
  · simpa using h
  · simp

theorem explained_leafOr {short : Text → α} {c : Checked (Option α)}
    (h : c.Explained) : (match n.leaf? with
      | some t => pure (some (short t))
      | none => c : Checked (Option α)).Explained := by
  rcases n.leaf? with - | t
  · exact h
  · exact explained_some _ _

/-! ### Concurrency groups and environments -/

@[simp] theorem Concurrency.clean_read :
    (Concurrency.read policy owner n).Clean ↔ IsConcurrency policy n := by
  refine clean_leafOr ?_
  refine Section.clean_within (fun h => h.keys.1) fun s hn hs => ?_
  rw [clean_bind, Section.clean_fill (by simp [Form.keys]), isConcurrencyMapping_iff]
  simp [Form.keys, Section.problemsAt_eq_nil hs, Section.clean_require_bind hs, hs,
    Node.IsFixed, hn, Node.requires_iff, and_assoc, and_comm, and_left_comm]

theorem Concurrency.explained_read (policy : Policy) (owner : String) (n : Node) :
    (Concurrency.read policy owner n).Explained := by
  refine explained_leafOr ?_
  refine Section.explained_within fun s => explained_of_clean ?_
  simp only [clean_bind, Section.value_fill, Form.value_bind, Section.value_field,
    Form.value_pure]
  rintro ⟨hfill, hrequire, -⟩
  obtain ⟨group, hgroup⟩ := Section.exists_value_of_require (explained_readText _)
    (by simp [Form.keys]) hfill (by simp) hrequire
  simp [hgroup]

@[simp] theorem Environment.clean_read :
    (Environment.read policy what n).Clean ↔ IsEnvironment policy n := by
  refine clean_leafOr ?_
  refine Section.clean_within (fun h => h.keys.1) fun s hn hs => ?_
  rw [clean_bind, Section.clean_fill (by simp [Form.keys]), isEnvironmentMapping_iff]
  simp [Form.keys, Section.problemsAt_eq_nil hs, Section.clean_require_bind hs, hs,
    Node.IsFixed, hn, Node.requires_iff, and_assoc, and_comm, and_left_comm]

theorem Environment.explained_read (policy : Policy) (what : String) (n : Node) :
    (Environment.read policy what n).Explained := by
  refine explained_leafOr ?_
  refine Section.explained_within fun s => explained_of_clean ?_
  simp only [clean_bind, Section.value_fill, Form.value_bind, Section.value_field,
    Form.value_pure]
  rintro ⟨hfill, hrequire, -⟩
  obtain ⟨name, hname⟩ := Section.exists_value_of_require (explained_readText _)
    (by simp [Form.keys]) hfill (by simp) hrequire
  simp [hname]

/-! ### Containers -/

@[simp] theorem Credentials.clean_read :
    (Credentials.read policy what n).Clean ↔ IsCredentials policy n := by
  refine Section.clean_within (fun h => h.keys.1) fun s hn hs => ?_
  rw [clean_bind, Section.clean_fill (by simp [Form.keys]), isCredentials_iff]
  simp [Form.keys, Section.problemsAt_eq_nil hs, Section.clean_require_bind hs, hs,
    Node.IsFixed, hn, Node.requires_iff, and_assoc, and_comm, and_left_comm]

theorem Credentials.explained_read (policy : Policy) (what : String) (n : Node) :
    (Credentials.read policy what n).Explained := by
  refine Section.explained_within fun s => explained_of_clean ?_
  simp only [clean_bind, Section.value_fill, Form.value_bind, Section.value_field,
    Form.value_pure, Section.value_require]
  rintro ⟨hfill, husername, hpassword, -⟩
  obtain ⟨username, hu⟩ := Section.exists_value_of_require (explained_readText _)
    (by simp [Form.keys]) hfill (by simp) husername
  obtain ⟨password, hp⟩ := Section.exists_value_of_require (explained_readText _)
    (by simp [Form.keys]) hfill (by simp) hpassword
  simp [hu, hp]

namespace Container

theorem nodup_readFields (policy : Policy) (what : String) (s : Section) (pos : Position) :
    (readFields policy what s pos).keys.Nodup := by
  simp [readFields, Form.keys]

/-- The required key of a container is a field of its form; what the other keys give only serves
to complete the container. -/
theorem exists_value_readFields (policy : Policy) (what : String) (s : Section)
    (pos : Position) : ∃ imageWhat complete, (readFields policy what s pos).value =
        ((s.field "image" (readText imageWhat)).value, complete) ∧
      ("image", s.problemsAt "image" (readText imageWhat)) ∈
        (readFields policy what s pos).fields :=
  ⟨_, _, rfl, by simp [readFields]⟩

theorem clean_fill_readFields {s : Section} {pos : Position} (hn : n.IsSection)
    (hs : ∀ key, s.get? key = n.get? key) :
    (s.fill policy what (readFields policy what s pos)).Clean ↔
      n.IsFixed policy ["image", "credentials", "env", "ports", "volumes", "options"] ∧
      n.Allows "image" Node.IsText ∧ n.Allows "credentials" (IsCredentials policy) ∧
      n.Allows "env" Node.IsAssignments ∧ n.Allows "ports" (Node.IsSequenceOf Node.IsText) ∧
      n.Allows "volumes" (Node.IsSequenceOf Node.IsText) ∧ n.Allows "options" Node.IsText := by
  rw [Section.clean_fill (nodup_readFields policy what s pos)]
  simp [readFields, Form.keys, Section.problemsAt_eq_nil hs, hs, Node.IsFixed, hn]

@[simp] theorem clean_read : (read policy what n).Clean ↔ IsContainer policy n := by
  refine clean_leafOr ?_
  refine Section.clean_within (fun h => h.keys.1) fun s hn hs => ?_
  obtain ⟨_, complete, hvalue, -⟩ := exists_value_readFields policy what s n.pos
  rw [clean_bind, clean_fill_readFields hn hs, Section.value_fill, hvalue]
  simp only [clean_bind, Section.value_field, hs, Section.clean_require_bind hs, clean_pure,
    and_true]
  -- the required key is there, and what is there has its shape
  constructor
  · rintro ⟨⟨keys, image, credentials, env, ports, volumes, options⟩, hasImage⟩
    exact ⟨keys, Node.requires_iff.mpr ⟨hasImage, image⟩, credentials, env, ports, volumes,
      options⟩
  · intro h
    obtain ⟨hasImage, image⟩ := Node.requires_iff.mp h.image
    exact ⟨⟨h.keys, image, h.credentials, h.env, h.ports, h.volumes, h.options⟩, hasImage⟩

theorem explained_read (policy : Policy) (what : String) (n : Node) :
    (read policy what n).Explained := by
  refine explained_leafOr ?_
  refine Section.explained_within fun s => explained_of_clean ?_
  obtain ⟨_, complete, hvalue, hmem⟩ := exists_value_readFields policy what s n.pos
  simp only [clean_bind, Section.value_fill, hvalue, Section.value_field]
  rintro ⟨hfill, hrequire, -⟩
  obtain ⟨image, himage⟩ := Section.exists_value_of_require (explained_readText _)
    (nodup_readFields policy what s n.pos) hfill hmem hrequire
  simp [hvalue, himage]

end Container

@[simp] theorem clean_readServices :
    (readServices policy what n).Clean ↔ n.IsFree fun _ => IsContainer policy :=
  Section.clean_free fun _ => by rw [clean_map, Container.clean_read]

theorem accounts_readServices (policy : Policy) (what : String) (n : Node) :
    (readServices policy what n).Accounts n.size Keyed.size :=
  Section.accounts_free fun _ => explained_optionMap.mpr (Container.explained_read _ _ _)

/-! ### Strategies -/

namespace Matrix

@[simp] theorem clean_readCombination : (readCombination what n).Clean ↔ n.IsAssignments :=
  Section.clean_free fun _ => Assignment.clean_read

theorem accounts_readCombination (what : String) (n : Node) :
    (readCombination what n).Accounts n.size Keyed.size :=
  Section.accounts_free fun _ => Assignment.explained_read _ _

theorem clean_readCombinations {key : String} :
    (readCombinations key n).Clean ↔ n.IsSequenceOf Node.IsAssignments := by
  unfold readCombinations Node.IsSequenceOf
  rcases n.items? with - | items <;> simp

theorem accounts_readCombinations (key : String) (n : Node) :
    (readCombinations key n).Accounts n.size List.length := by
  rcases n with _ | _ | ⟨items, pos⟩ | _
  · exact accounts_refuse _ _ _
  · exact accounts_refuse _ _ _
  · exact accounts_collect (fun i => (accounts_readCombination _ i).explained) items
  · exact accounts_refuse _ _ _

theorem clean_readPart {e : Entry} : (readPart e).Clean ↔ IsMatrixValue e.key.value e.value := by
  unfold readPart IsMatrixValue includeKey excludeKey
  by_cases h : e.key.value = "include" ∨ e.key.value = "exclude"
  · rw [if_pos (by simpa using h), if_pos h, clean_map, clean_readCombinations]
  · rw [if_neg (by simpa using h), if_neg h, clean_map, readRow, clean_map, clean_readTexts]

theorem explained_readPart (e : Entry) : (readPart e).Explained := by
  unfold readPart
  split
  · exact explained_optionMap.mpr (accounts_readCombinations _ _).explained
  · exact explained_optionMap.mpr (explained_optionMap.mpr (accounts_readTexts _ _).explained)

theorem accounts_readParts (n : Node) : (readParts n).Accounts n.size Keyed.size :=
  Section.accounts_free explained_readPart

@[simp] theorem clean_read : (read n).Clean ↔ n.IsFree IsMatrixValue := by
  rw [read, clean_map]
  exact Section.clean_free fun _ => clean_readPart

theorem explained_read (n : Node) : (read n).Explained :=
  explained_optionMap.mpr (accounts_readParts n).explained

end Matrix

@[simp] theorem Strategy.clean_read :
    (Strategy.read policy what n).Clean ↔ IsStrategy policy n := by
  refine Section.clean_within (fun h => h.keys.1) fun s hn hs => ?_
  rw [clean_map, Section.clean_fill (by simp [Form.keys]), isStrategy_iff]
  simp [Form.keys, Section.problemsAt_eq_nil hs, hs, Node.IsFixed, hn]

theorem Strategy.explained_read (policy : Policy) (what : String) (n : Node) :
    (Strategy.read policy what n).Explained :=
  Section.explained_within fun _ => explained_map_some _

end WorkflowTree
