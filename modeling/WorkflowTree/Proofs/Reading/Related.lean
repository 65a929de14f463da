import Mathlib.Data.List.Forall2
import Mathlib.Data.List.Perm.Basic

/-!
# Related values

Two values that may be absent are related (`Option.Rel`) if both are absent, or both are there and
related.  Two lists are related (`List.Forall₂`) if they have one length and their elements are
related, one by one.
-/

namespace WorkflowTree

variable {α β γ : Type} {R S : α → β → Prop} {o : Option α} {o' : Option β}
variable {as : List α} {bs : List β}

theorem optionRel_cases (h : Option.Rel R o o') :
    o = none ∧ o' = none ∨ ∃ a b, o = some a ∧ o' = some b ∧ R a b := by
  cases h with
  | none => exact .inl ⟨rfl, rfl⟩
  | some hR => exact .inr ⟨_, _, rfl, rfl, hR⟩

theorem optionRel_imp (h : Option.Rel R o o') (hRS : ∀ a b, R a b → S a b) :
    Option.Rel S o o' := by
  cases h with
  | none => exact .none
  | some hR => exact .some (hRS _ _ hR)

theorem optionRel_refl {Q : α → α → Prop} (hQ : ∀ a, Q a a) (o : Option α) :
    Option.Rel Q o o := by
  cases o with
  | none => exact .none
  | some a => exact .some (hQ a)

/-- A value stands beside a value. -/
theorem exists_of_optionRel_some {b : β} (h : Option.Rel R o (some b)) :
    ∃ a, o = some a ∧ R a b := by
  obtain ⟨-, hb⟩ | ⟨a, _, ha, hb, hR⟩ := optionRel_cases h
  · cases hb
  · cases hb
    exact ⟨a, ha, hR⟩

/-- Nothing stands beside nothing. -/
theorem eq_none_of_optionRel_none (h : Option.Rel R o (none : Option β)) : o = none := by
  obtain ⟨ha, -⟩ | ⟨_, _, -, hb, -⟩ := optionRel_cases h
  · exact ha
  · cases hb

/-- What stands beside a value is determined by it if the relation determines it. -/
theorem optionRel_unique {o'' : Option β} (hR : Relator.RightUnique R) (h : Option.Rel R o o')
    (h' : Option.Rel R o o'') : o' = o'' := by
  obtain ⟨rfl, rfl⟩ | ⟨a, b, rfl, rfl, hb⟩ := optionRel_cases h
  · cases h'
    rfl
  · cases h' with
    | some hb' => rw [hR hb hb']

/-- Beside each element on the right stands one on the left. -/
theorem exists_of_mem_right (h : List.Forall₂ R as bs) {b : β} (hb : b ∈ bs) :
    ∃ a ∈ as, R a b := by
  induction h with
  | nil => cases hb
  | @cons a _ as _ hab _ ih =>
    rcases List.mem_cons.mp hb with rfl | hb
    · exact ⟨a, List.mem_cons_self, hab⟩
    · obtain ⟨a', ha', hR⟩ := ih hb
      exact ⟨a', List.mem_cons_of_mem a ha', hR⟩

/-- Of related elements the first ones that are looked for are related. -/
theorem optionRel_find? {p : α → Bool} {q : β → Bool} (h : List.Forall₂ R as bs)
    (hpq : ∀ a b, R a b → p a = q b) : Option.Rel R (as.find? p) (bs.find? q) := by
  induction h with
  | nil => exact .none
  | @cons a b as bs hab _ ih =>
    rw [List.find?_cons, List.find?_cons, hpq a b hab]
    split
    · exact .some hab
    · exact ih

/-- Related elements that have the same parts, in some order, have the same parts as a whole. -/
theorem perm_flatMap_of_forall₂ {f : α → List γ} {g : β → List γ} (h : List.Forall₂ R as bs)
    (hfg : ∀ a b, R a b → (f a).Perm (g b)) : (as.flatMap f).Perm (bs.flatMap g) := by
  induction h with
  | nil => exact .nil
  | cons hab _ ih =>
    rw [List.flatMap_cons, List.flatMap_cons]
    exact (hfg _ _ hab).append ih

/-- Elements that are related one by one are related together with the numbers that count them. -/
theorem forall₂_zipIdx (h : List.Forall₂ R as bs) (k : Nat) :
    List.Forall₂ (fun x y => R x.1 y.1 ∧ x.2 = y.2) (as.zipIdx k) (bs.zipIdx k) := by
  induction h generalizing k with
  | nil => exact .nil
  | cons hab _ ih => exact .cons ⟨hab, rfl⟩ (ih (k + 1))

end WorkflowTree
