import WorkflowTree.Keyed
import WorkflowTree.Position

/-!
# Permissions

What a run may do. Permissions are either one grant that covers every scope, or grants for
single scopes, where a scope without a grant gets nothing.

* `Permissions.access_all` and `Permissions.access_perScope` say what a scope gets.
-/

namespace WorkflowTree

/-- How much a run may do. -/
inductive Access
  | none
  | read
  | write
  deriving DecidableEq, Repr, Inhabited

namespace Access

/-- The word for an access. -/
def word : Access → String
  | none => "none"
  | read => "read"
  | write => "write"

/-- The access that a word grants to a scope. -/
def ofScopeWord? (s : String) : Option Access :=
  if s = "none" then some none
  else if s = "read" then some read
  else if s = "write" then some write
  else .none

/-- The access that a word grants to every scope. -/
def ofBlanketWord? (s : String) : Option Access :=
  if s = "read-all" then some read
  else if s = "write-all" then some write
  else .none

theorem ofScopeWord?_word (a : Access) : ofScopeWord? a.word = some a := by
  cases a <;> simp [word, ofScopeWord?]

theorem word_of_ofScopeWord? {s : String} {a : Access} (h : ofScopeWord? s = some a) :
    a.word = s := by
  unfold ofScopeWord? at h
  split at h
  · cases h; simp_all [word]
  · split at h
    · cases h; simp_all [word]
    · split at h
      · cases h; simp_all [word]
      · cases h

end Access

/-- An access that is granted. -/
structure Grant where
  /-- The scope that gets it, or none for every scope. -/
  name : Option Text
  access : Access
  pos : Position
  deriving DecidableEq, Repr

/-- The two forms of permissions, which exclude each other. -/
inductive Grants
  /-- One grant for every scope. -/
  | all (g : Grant)
  /-- Grants for single scopes, under the names of the scopes. -/
  | scopes (gs : Keyed Grant)
  deriving DecidableEq, Repr

/-- What a run may do. -/
structure Permissions where
  grants : Grants
  pos : Position
  deriving DecidableEq, Repr

namespace Permissions

/-- Permissions that give every scope the same access. -/
def all (access : Access) (pos : Position) : Permissions :=
  ⟨.all ⟨none, access, pos⟩, pos⟩

/-- Permissions that give single scopes their access. -/
def perScope (gs : Keyed Grant) (pos : Position) : Permissions := ⟨.scopes gs, pos⟩

/-- The grant for every scope, if the permissions have that form. -/
def blanket? (p : Permissions) : Option Grant :=
  match p.grants with
  | .all g => some g
  | .scopes _ => none

/-- The grants for single scopes, if the permissions have that form. -/
def scopes? (p : Permissions) : Option (Keyed Grant) :=
  match p.grants with
  | .all _ => none
  | .scopes gs => some gs

/-- The access that a scope gets. -/
def access (p : Permissions) (scope : String) : Access :=
  match p.grants with
  | .all g => g.access
  | .scopes gs => ((gs.find? scope).map Grant.access).getD .none

@[simp] theorem access_all (a : Access) (pos : Position) (scope : String) :
    (all a pos).access scope = a := rfl

@[simp] theorem access_perScope (gs : Keyed Grant) (pos : Position) (scope : String) :
    (perScope gs pos).access scope = ((gs.find? scope).map Grant.access).getD .none := rfl

end Permissions

end WorkflowTree
