import WorkflowTree.Proofs.Simulation.Workflow
import Mathlib.Logic.Relation

/-!
# Replacing parts of a file

If single parts may be replaced, any number of them may be: the closure of a relation under all
contexts (`Node.Replaced`) is a simulation as soon as the relation itself takes one step of it
(`Simulation.replacing`).
-/

namespace WorkflowTree

open Relation

variable {P : Schema → Node → Node → Prop} {R : Schema → Node → Node → Prop} {s : Schema}

namespace Node

variable {n n' k k' v v' : Node} {always : Prop}

/-- One entry is replaced by another one.  Whether its value is read depends on the keys before. -/
theorem entriesSimilar_replace (hR : ∀ (s : Schema) (n : Node), R s n n) {earlier : List String}
    (before after : List (Node × Node)) (hk : R .any k k') (hv : ∀ t,
      s.read? (earlier ++ before.filterMap fun e => e.1.text?) k.text? = some t → R t v v') :
    EntriesSimilar R s earlier (before ++ (k, v) :: after) (before ++ (k', v') :: after) := by
  induction before generalizing earlier with
  | nil =>
    rw [List.filterMap_nil, List.append_nil] at hv
    exact .cons hk hv (entriesSimilar_refl hR _ after)
  | cons e before ih =>
    refine .cons (hR .any e.1) (fun t _ => hR t e.2) (ih ?_)
    have hkeys : (e :: before).filterMap (fun e => e.1.text?) =
        e.1.text?.toList ++ before.filterMap fun e => e.1.text? := by
      rcases h : e.1.text? with - | key <;> simp [h]
    rwa [hkeys, ← List.append_assoc] at hv

/-- A part of a node is replaced by replacing the node itself, or a part of one of its parts. -/
theorem Replaced.similar (h : n.Replaced P s n') :
    P s n n' ∨ n.Similar always (fun t => ReflGen (Replaced P t)) s n' := by
  have hrefl : ∀ (t : Schema) (m : Node), ReflGen (Replaced P t) m m := fun _ _ => .refl
  -- all parts but one stay as they are
  cases h with
  | here h => exact .inl h
  | item before after pos h =>
    refine .inr (.sequence pos (List.rel_append ?_ (.cons (.single h) ?_)))
    · exact List.forall₂_same.mpr fun i _ => hrefl _ i
    · exact List.forall₂_same.mpr fun i _ => hrefl _ i
  | key v before after pos h =>
    exact .inr (.mapping pos (entriesSimilar_replace hrefl before after (.single h)
      fun t _ => hrefl t v))
  | @value s t k v v' key before after pos hkey ht h =>
    refine .inr (.mapping pos (entriesSimilar_replace hrefl before after .refl fun t' hread => ?_))
    -- the value is read under its key, if it is read at all
    have ht' := Schema.value_of_read? hread
    rw [hkey, Option.bind_some, ht] at ht'
    obtain rfl := Option.some.inj ht'
    exact .single h

theorem step_of_reflGen
    (hP : P s n n' → s.LongForm n n' ∨ n.Similar always (fun t => ReflGen (Replaced P t)) s n')
    (h : ReflGen (Replaced P s) n n') :
    s.LongForm n n' ∨ n.Similar always (fun t => ReflGen (Replaced P t)) s n' := by
  cases h with
  | refl => exact .inr (similar_refl (fun _ _ => .refl) n)
  | single h => exact h.similar.elim hP .inr

end Node

/-- Replacing one part, or none, where replacing the part alone is a step. -/
def Simulation.replacing (policy : Policy)
    (hP : ∀ {s : Schema} {n n' : Node}, P s n n' →
      s.LongForm n n' ∨ n.Similar True (fun t => ReflGen (Node.Replaced P t)) s n') :
    Simulation True policy policy :=
  .ofRel policy (fun t => ReflGen (Node.Replaced P t)) fun h => Node.step_of_reflGen hP h

/-- If replacing one part is a step, replacing any number of them changes nothing. -/
theorem Workflow.parse_of_replaced {policy : Policy} {root root' : Node}
    (hP : ∀ {s : Schema} {n n' : Node}, P s n n' →
      s.LongForm n n' ∨ n.Similar True (fun t => ReflGen (Node.Replaced P t)) s n')
    (h : ReflTransGen (Node.Replaced P Workflow.schema) root root') :
    parse policy root' = parse policy root := by
  induction h with
  | refl => rfl
  | @tail n n' _ hstep ih =>
    rw [← ih]
    have hrel : (Simulation.replacing policy hP).Rel Workflow.schema n n' := .single hstep
    exact parse_of_transfers rfl (transfers_read hrel)

end WorkflowTree
