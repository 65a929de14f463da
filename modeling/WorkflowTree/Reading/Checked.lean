import WorkflowTree.Problem

/-!
# Checked values

A checked value comes with the problems that were found while it was made, in the order of
finding. Reading goes on behind a problem: what could not be made is absent.

* `Checked.problems_bind` says that problems are listed in the order of the steps;
* `Checked.collect` gathers what could be made of each of a list of parts.
-/

namespace WorkflowTree

/-- A value and the problems that were found while it was made. -/
structure Checked (α : Type) where
  value : α
  problems : List Problem
  deriving DecidableEq, Repr

namespace Checked

variable {α β : Type}

/-- A value without problems. -/
protected def pure (a : α) : Checked α := ⟨a, []⟩

/-- Goes on with a value. Its problems come first. -/
protected def bind (c : Checked α) (f : α → Checked β) : Checked β :=
  let d := f c.value
  ⟨d.value, c.problems ++ d.problems⟩

instance : Monad Checked where
  pure := Checked.pure
  bind := Checked.bind

@[simp] theorem value_pure (a : α) : (pure a : Checked α).value = a := rfl

@[simp] theorem problems_pure (a : α) : (pure a : Checked α).problems = [] := rfl

@[simp] theorem value_bind (c : Checked α) (f : α → Checked β) :
    (c >>= f).value = (f c.value).value := rfl

@[simp] theorem problems_bind (c : Checked α) (f : α → Checked β) :
    (c >>= f).problems = c.problems ++ (f c.value).problems := rfl

@[simp] theorem value_map (f : α → β) (c : Checked α) : (f <$> c).value = f c.value := rfl

@[simp] theorem problems_map (f : α → β) (c : Checked α) : (f <$> c).problems = c.problems :=
  List.append_nil _

@[ext] theorem ext {c d : Checked α} (hv : c.value = d.value) (hp : c.problems = d.problems) :
    c = d := by
  cases c
  cases d
  simp_all

instance : LawfulMonad Checked := LawfulMonad.mk' Checked
  (fun _ => ext rfl (problems_map _ _))
  (fun _ _ => ext rfl rfl)
  (fun _ _ _ => ext rfl (List.append_assoc ..))

/-! ### Problems -/

/-- Reports problems. -/
def reportAll (ps : List Problem) : Checked Unit := ⟨(), ps⟩

/-- Reports a problem. -/
def report (fault : Fault) (pos : Position) : Checked Unit := reportAll [⟨fault, pos⟩]

/-- Reports a problem in place of a value. -/
def refuse (fault : Fault) (pos : Position) : Checked (Option α) := ⟨none, [⟨fault, pos⟩]⟩

@[simp] theorem problems_reportAll (ps : List Problem) : (reportAll ps).problems = ps := rfl

@[simp] theorem problems_report (f : Fault) (pos : Position) :
    (report f pos).problems = [⟨f, pos⟩] := rfl

@[simp] theorem value_refuse (f : Fault) (pos : Position) :
    (refuse f pos : Checked (Option α)).value = none := rfl

@[simp] theorem problems_refuse (f : Fault) (pos : Position) :
    (refuse f pos : Checked (Option α)).problems = [⟨f, pos⟩] := rfl

/-! ### Absent values -/

/-- Goes on with a value that could be made. What could not be made stays absent. -/
def andThen (c : Checked (Option α)) (k : α → Checked (Option β)) : Checked (Option β) :=
  match c.value with
  | none => ⟨none, c.problems⟩
  | some a => ⟨(k a).value, c.problems ++ (k a).problems⟩

theorem andThen_of_none {c : Checked (Option α)} (h : c.value = none)
    (k : α → Checked (Option β)) : c.andThen k = ⟨none, c.problems⟩ := by
  rw [andThen, h]

theorem andThen_of_some {c : Checked (Option α)} {a : α} (h : c.value = some a)
    (k : α → Checked (Option β)) :
    c.andThen k = ⟨(k a).value, c.problems ++ (k a).problems⟩ := by
  rw [andThen, h]

/-! ### Parts -/

/-- Gathers the values that are present, in order, and the problems of all parts. -/
def collect (cs : List (Checked (Option α))) : Checked (List α) :=
  ⟨cs.filterMap value, cs.flatMap problems⟩

@[simp] theorem value_collect (cs : List (Checked (Option α))) :
    (collect cs).value = cs.filterMap value := rfl

@[simp] theorem problems_collect (cs : List (Checked (Option α))) :
    (collect cs).problems = cs.flatMap problems := rfl

end Checked

end WorkflowTree
