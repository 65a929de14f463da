/-!
# Paths

A path is kept as it was written. It stands for its components, by which paths are compared:
repeated and trailing slashes and inner dots do not count.

* `Path.le_total` and `Path.le_trans` make the comparison by components an order;
* `Path.lt_trans` does so for the strict comparison, which holds of no two paths that agree.
-/

namespace WorkflowTree

/-- A path as it was written. -/
structure Path where
  text : String
  deriving DecidableEq, Repr, Inhabited

/-- A component of a path. -/
inductive PathComponent
  | root
  /-- A dot in front. -/
  | current
  | parent
  | name (text : String)
  deriving DecidableEq, Repr

namespace PathComponent

/-- The special components come before names. -/
def rank : PathComponent → Nat
  | root => 0
  | current => 1
  | parent => 2
  | name _ => 3

/-- The text of a name. -/
def text : PathComponent → String
  | name text => text
  | _ => ""

/-- The order of components; names are compared by their characters. -/
def le (a b : PathComponent) : Bool :=
  a.rank < b.rank || (a.rank == b.rank && decide (a.text ≤ b.text))

theorem le_iff {a b : PathComponent} :
    a.le b = true ↔ a.rank < b.rank ∨ a.rank = b.rank ∧ a.text ≤ b.text := by
  simp [le]

theorem le_total (a b : PathComponent) : a.le b = true ∨ b.le a = true := by
  rw [le_iff, le_iff]
  rcases String.le_total a.text b.text with h | h <;>
    rcases Nat.lt_trichotomy a.rank b.rank with hr | hr | hr <;> simp [h, hr]

theorem le_trans {a b c : PathComponent} (hab : a.le b = true) (hbc : b.le c = true) :
    a.le c = true := by
  rw [le_iff] at *
  rcases hab with hab | ⟨hab, hab'⟩
  · left; omega
  · rcases hbc with hbc | ⟨hbc, hbc'⟩
    · left; omega
    · exact .inr ⟨by omega, String.le_trans hab' hbc'⟩

theorem le_antisymm {a b : PathComponent} (hab : a.le b = true) (hba : b.le a = true) :
    a = b := by
  rw [le_iff] at *
  have hr : a.rank = b.rank := by omega
  have ht : a.text = b.text := by
    refine String.le_antisymm ?_ ?_
    · rcases hab with h | h
      · omega
      · exact h.2
    · rcases hba with h | h
      · omega
      · exact h.2
  cases a <;> cases b <;> simp_all [rank, text]

end PathComponent

namespace Path

/-- The pieces between the slashes of a path. -/
def pieces (p : Path) : List String := (p.text.toList.splitOn '/').map String.ofList

/-- The components of a path. -/
def components (p : Path) : List PathComponent :=
  match p.pieces with
  | [] => []
  | first :: rest =>
    let start :=
      if first = "" then if p.text.toList.head? = some '/' then [.root] else []
      else if first = "." then [.current]
      else [piece first]
    start ++ (rest.filter fun s => s != "" && s != ".").map piece
where
  /-- The component of a piece that is not empty and not a dot. -/
  piece (s : String) : PathComponent := if s = ".." then .parent else .name s

/-- Two paths have the same components. -/
def agrees (p q : Path) : Bool := p.components == q.components

/-- The order of lists of components: by the first component in which they differ. -/
def leComponents : List PathComponent → List PathComponent → Bool
  | [], _ => true
  | _ :: _, [] => false
  | a :: as, b :: bs => if a = b then leComponents as bs else a.le b

/-- The order of paths. -/
def le (p q : Path) : Bool := leComponents p.components q.components

theorem leComponents_total : ∀ as bs : List PathComponent,
    leComponents as bs = true ∨ leComponents bs as = true
  | [], _ => .inl rfl
  | _ :: _, [] => .inr rfl
  | a :: as, b :: bs => by
    by_cases h : a = b
    · subst h
      simpa [leComponents] using leComponents_total as bs
    · simpa [leComponents, h, Ne.symm h] using a.le_total b

theorem leComponents_trans : ∀ {as bs cs : List PathComponent},
    leComponents as bs = true → leComponents bs cs = true → leComponents as cs = true
  | [], _, _, _, _ => rfl
  | _ :: _, [], _, h, _ => by simp [leComponents] at h
  | _ :: _, _ :: _, [], _, h => by simp [leComponents] at h
  | a :: as, b :: bs, c :: cs, hab, hbc => by
    by_cases h : a = b
    · subst h
      by_cases h' : a = c
      · subst h'
        simp only [leComponents, if_true] at *
        exact leComponents_trans hab hbc
      · simpa [leComponents, h'] using hbc
    · simp only [leComponents, if_neg h] at hab
      by_cases h' : b = c
      · subst h'
        simpa [leComponents, h] using hab
      · simp only [leComponents, if_neg h'] at hbc
        by_cases h'' : a = c
        · subst h''
          exact absurd (PathComponent.le_antisymm hab hbc) h
        · simpa [leComponents, h''] using PathComponent.le_trans hab hbc

theorem le_total (p q : Path) : (p.le q || q.le p) = true :=
  Bool.or_eq_true _ _ |>.mpr (leComponents_total p.components q.components)

theorem le_trans {p q r : Path} (hpq : p.le q = true) (hqr : q.le r = true) : p.le r = true :=
  leComponents_trans hpq hqr

theorem agrees_iff {p q : Path} : p.agrees q = true ↔ p.components = q.components := by
  simp [agrees]

theorem agrees_refl (p : Path) : p.agrees p = true := agrees_iff.2 rfl

theorem agrees_trans {p q r : Path} (hpq : p.agrees q = true) (hqr : q.agrees r = true) :
    p.agrees r = true := agrees_iff.2 ((agrees_iff.1 hpq).trans (agrees_iff.1 hqr))

theorem leComponents_antisymm : ∀ {as bs : List PathComponent},
    leComponents as bs = true → leComponents bs as = true → as = bs
  | [], [], _, _ => rfl
  | [], _ :: _, _, h => by simp [leComponents] at h
  | _ :: _, [], h, _ => by simp [leComponents] at h
  | a :: as, b :: bs, hab, hba => by
    by_cases h : a = b
    · subst h
      simp only [leComponents, if_true] at hab hba
      rw [leComponents_antisymm hab hba]
    · simp only [leComponents, if_neg h, if_neg (Ne.symm h)] at hab hba
      exact absurd (PathComponent.le_antisymm hab hba) h

/-- The path comes before another one and does not agree with it. -/
def lt (p q : Path) : Bool := p.le q && !p.agrees q

theorem lt_iff {p q : Path} : p.lt q = true ↔ p.le q = true ∧ p.agrees q = false := by
  simp [lt]

theorem lt_trans {p q r : Path} (hpq : p.lt q = true) (hqr : q.lt r = true) :
    p.lt r = true := by
  rw [lt_iff] at *
  refine ⟨le_trans hpq.1 hqr.1, ?_⟩
  -- if the ends agreed, the middle would lie between two paths with the same components
  refine Bool.eq_false_iff.2 fun h => ?_
  have hqp : q.le p = true := by
    have := hqr.1
    rwa [le, ← agrees_iff.1 h] at this
  have := agrees_iff.2 (leComponents_antisymm hpq.1 hqp)
  rw [hpq.2] at this
  cases this

/-- The path is a dot, perhaps followed by slashes and dots. -/
def isCurrent (p : Path) : Bool := p.components == [.current]

/-- The path of something in a directory. One slash parts the two. -/
def join (p : Path) (name : String) : Path :=
  if p.text = "" || p.text.toList.getLast? == some '/' then ⟨p.text ++ name⟩
  else ⟨p.text ++ "/" ++ name⟩

/-- The last component, if it is a name. -/
def name? (p : Path) : Option String :=
  match p.components.getLast? with
  | some (.name text) => some text
  | _ => none

/-- What stands behind the last dot of a name that has more than that dot before it. -/
def suffix? (name : String) : Option String :=
  match name.toList.reverse.span (· != '.') with
  | (suffix, _ :: _ :: _) => some (.ofList suffix.reverse)
  | _ => none

/-- The name is one of a workflow file. -/
def isWorkflow (p : Path) : Bool :=
  match p.name?.bind suffix? with
  | some suffix => suffix == "yml" || suffix == "yaml"
  | none => false

end Path

end WorkflowTree
