import WorkflowTree.Reading.Checked

/-!
# Clean and explained values

Two properties of a checked value.  It is *clean* (`Checked.Clean`) if nothing was found wrong
while it was made, and it is *explained* (`Checked.Explained`) if its absence comes with a
problem.  Both are kept by the ways in which readers are put together, so each reader gets them
from its parts.

`Checked.length_le_collect` is the quantitative form for lists of parts: each part that is left
out comes with a problem of its own.
-/

namespace WorkflowTree.Checked

variable {α β : Type}

/-- Nothing was found wrong. -/
def Clean (c : Checked α) : Prop := c.problems = []

/-- The absence of the value comes with a problem. -/
def Explained (c : Checked (Option α)) : Prop := c.value = none → c.problems ≠ []

/-! ### Clean values -/

@[simp] theorem clean_pure (a : α) : (pure a : Checked α).Clean := rfl

@[simp] theorem clean_bind {c : Checked α} {f : α → Checked β} :
    (c >>= f).Clean ↔ c.Clean ∧ (f c.value).Clean := by
  simp [Clean]

@[simp] theorem clean_map {f : α → β} {c : Checked α} : (f <$> c).Clean ↔ c.Clean := by
  simp [Clean]

@[simp] theorem clean_reportAll {ps : List Problem} : (reportAll ps).Clean ↔ ps = [] := Iff.rfl

@[simp] theorem not_clean_refuse (f : Fault) (pos : Position) :
    ¬ (refuse f pos : Checked (Option α)).Clean := by
  simp [Clean]

@[simp] theorem clean_collect {cs : List (Checked (Option α))} :
    (collect cs).Clean ↔ ∀ c ∈ cs, c.Clean := by
  simp [Clean]

theorem clean_andThen {c : Checked (Option α)} {k : α → Checked (Option β)} :
    (c.andThen k).Clean ↔ c.Clean ∧ ∀ a, c.value = some a → (k a).Clean := by
  rcases h : c.value with - | a
  · simp [andThen_of_none h, Clean]
  · simp [andThen_of_some h, Clean]

/-! ### Explained values -/

theorem explained_some (a : α) (ps : List Problem) :
    (⟨some a, ps⟩ : Checked (Option α)).Explained := by
  intro h
  cases h

theorem explained_map_some (c : Checked α) : (some <$> c).Explained :=
  explained_some c.value _

theorem explained_refuse (f : Fault) (pos : Position) :
    (refuse f pos : Checked (Option α)).Explained := by
  intro _ h
  cases h

@[simp] theorem explained_optionMap {f : α → β} {c : Checked (Option α)} :
    (Option.map f <$> c).Explained ↔ c.Explained := by
  simp [Explained]

/-- A value that is explained and clean is there. -/
theorem Explained.exists_value {c : Checked (Option α)} (he : c.Explained) (hc : c.Clean) :
    ∃ a, c.value = some a :=
  Option.ne_none_iff_exists'.mp fun h => he h hc

/-- To explain an absent value it is enough to find the value wherever nothing is wrong. -/
theorem explained_of_clean {c : Checked (Option α)} (h : c.Clean → c.value ≠ none) :
    c.Explained :=
  fun hv hp => h hp hv

theorem explained_andThen {c : Checked (Option α)} {k : α → Checked (Option β)}
    (hc : c.Explained) (hk : ∀ a, (k a).Explained) : (c.andThen k).Explained := by
  intro hv hp
  rcases h : c.value with - | a
  · rw [andThen_of_none h] at hp
    exact hc h hp
  · rw [andThen_of_some h] at hv hp
    exact hk a hv (List.append_eq_nil_iff.mp hp).2

/-! ### Parts -/

/-- Nothing is lost in silence: if the value is absent there is a problem, and else there is a
problem for each of a number of parts that the value does not hold. -/
structure Accounts (c : Checked (Option α)) (parts : Nat) (size : α → Nat) : Prop where
  explained : c.Explained
  counted : ∀ a, c.value = some a → parts ≤ size a + c.problems.length

theorem accounts_refuse {size : α → Nat} (f : Fault) (pos : Position) (parts : Nat) :
    (refuse f pos : Checked (Option α)).Accounts parts size where
  explained := explained_refuse f pos
  counted := by
    intro a h
    cases h

theorem accounts_some {size : α → Nat} (a : α) (ps : List Problem) {parts : Nat}
    (h : parts ≤ size a + ps.length) : (⟨some a, ps⟩ : Checked (Option α)).Accounts parts size where
  explained := explained_some a ps
  counted := by
    intro b hb
    obtain rfl : a = b := Option.some.inj hb
    exact h

theorem accounts_map_some {c : Checked α} {parts : Nat} {size : α → Nat}
    (h : parts ≤ size c.value + c.problems.length) : (some <$> c).Accounts parts size :=
  accounts_some c.value _ (by rwa [← problems_map some] at h)

theorem Accounts.optionMap {c : Checked (Option α)} {parts : Nat} {size : α → Nat}
    (h : c.Accounts parts size) {f : α → β} {size' : β → Nat} (hf : ∀ a, size' (f a) = size a) :
    (Option.map f <$> c).Accounts parts size' where
  explained := explained_optionMap.mpr h.explained
  counted := by
    intro b hb
    obtain ⟨a, ha, rfl⟩ := Option.map_eq_some_iff.mp hb
    rw [problems_map, hf]
    exact h.counted a ha

/-- Of parts that are all explained, each one that is left out comes with a problem of its
own. -/
theorem length_le_collect {read : β → Checked (Option α)} (h : ∀ b, (read b).Explained)
    (bs : List β) : bs.length ≤
      (collect (bs.map read)).value.length + (collect (bs.map read)).problems.length := by
  induction bs with
  | nil => exact Nat.le_refl 0
  | cons b bs ih =>
    simp only [value_collect, problems_collect] at ih
    simp only [List.map_cons, value_collect, problems_collect, List.flatMap_cons,
      List.length_append, List.length_cons]
    rcases e : (read b).value with - | a
    · -- the part is left out: it has a problem
      have hpos := List.length_pos_iff.mpr (h b e)
      rw [List.filterMap_cons_none e]
      omega
    · rw [List.filterMap_cons_some e, List.length_cons]
      omega

theorem accounts_collect {read : β → Checked (Option α)} (h : ∀ b, (read b).Explained)
    (bs : List β) : (some <$> collect (bs.map read)).Accounts bs.length List.length :=
  accounts_map_some (length_le_collect h bs)

end WorkflowTree.Checked
