import WorkflowTree.Proofs.Simulation.Replaced

/-!
# Values that are not read

The value of an entry is not read in three cases (`Schema.Unread`): the key of the entry is no text,
the section may not have the key, or the key is repeated.  Only permissions are looked at even if
they are repeated, since their two forms exclude each other.

Whatever stands in place of such a value, the same is given for the file: the same workflow, or the
same problems at the same places and in the same order (`Workflow.parse_of_unread`).
-/

namespace WorkflowTree

open Relation

/-- The value of an entry with this key is not read behind these entries. -/
inductive Schema.Unread (s : Schema) (before : List (Node × Node)) (k : Node) : Prop
  /-- The key is no text. -/
  | keyless : k.text? = none → Unread s before k
  /-- The section may not have the key. -/
  | unknown {key : String} : k.text? = some key → s.value key = none → Unread s before k
  /-- The key is repeated, and it is not one that is looked at as often as it is there. -/
  | repeated {key : String} {e : Node × Node} : k.text? = some key → e ∈ before →
      e.1.text? = some key → s.rereads key = false → Unread s before k

theorem Schema.Unread.read?_eq_none {s : Schema} {before : List (Node × Node)} {k : Node}
    (h : s.Unread before k) : s.read? (before.filterMap fun e => e.1.text?) k.text? = none := by
  rw [Schema.read?_eq_none]
  cases h with
  | keyless hk => exact .inl hk
  | unknown hk hkey => exact .inr ⟨_, hk, .inl hkey⟩
  | repeated hk hmem hkey hrereads =>
    exact .inr ⟨_, hk, .inr ⟨List.mem_filterMap.mpr ⟨_, hmem, hkey⟩, hrereads⟩⟩

/-- A value of a mapping that is not read is replaced by any node. -/
inductive Node.UnreadReplaced (s : Schema) : Node → Node → Prop
  | intro {k v v' : Node} (before after : List (Node × Node)) (pos : Position) :
      s.Unread before k →
      UnreadReplaced s (.mapping (before ++ (k, v) :: after) pos)
        (.mapping (before ++ (k, v') :: after) pos)

/-- No entry is read otherwise, so the mapping is similar to what it was. -/
theorem Node.UnreadReplaced.similar {R : Schema → Node → Node → Prop} {s : Schema} {n n' : Node}
    (h : UnreadReplaced s n n') (hR : ∀ (t : Schema) (m : Node), R t m m) :
    n.Similar True R s n' := by
  obtain ⟨before, after, pos, hunread⟩ := h
  refine .mapping pos (entriesSimilar_replace hR before after (hR _ _) fun t hread => ?_)
  rw [List.nil_append, hunread.read?_eq_none] at hread
  cases hread

namespace Workflow

/-- **What is not read does not matter**: the result of parsing a file stays the same when any
values are replaced that are not read, anywhere in the file and one after the other, whatever is
put in their place. -/
theorem parse_of_unread (policy : Policy) {root root' : Node}
    (h : ReflTransGen (Node.Replaced Node.UnreadReplaced Workflow.schema) root root') :
    parse policy root' = parse policy root :=
  parse_of_replaced (fun h => .inr (h.similar fun _ _ => .refl)) h

/-- The triggers of a workflow and its jobs, of which there are none. -/
def pushed : List (Node × Node) := [
  (.scalar "on" true ⟨1, 1⟩, .scalar "push" true ⟨1, 5⟩),
  (.scalar "jobs" true ⟨2, 1⟩, .mapping [] ⟨2, 7⟩)]

/-- A workflow with a key that is no text, a key too many, and a repeated key. -/
def cluttered (first second third : Node) : Node :=
  .mapping (pushed ++ [(.sequence [] ⟨3, 1⟩, first), (.scalar "nmae" true ⟨4, 1⟩, second),
    (.scalar "on" true ⟨5, 1⟩, third)]) ⟨1, 1⟩

/-- The three keys are reported, and nothing is said of what stands under them. -/
theorem parse_cluttered :
    ((read {} (cluttered (.null ⟨3, 5⟩) (.null ⟨4, 7⟩) (.null ⟨5, 5⟩))).problems.map
      fun p => p.pos) = [⟨3, 1⟩, ⟨5, 1⟩, ⟨4, 1⟩] ∧
    parse {} (cluttered (.sequence [] ⟨3, 5⟩) (.mapping [] ⟨4, 7⟩) (.scalar "fork" true ⟨5, 5⟩)) =
      parse {} (cluttered (.null ⟨3, 5⟩) (.null ⟨4, 7⟩) (.null ⟨5, 5⟩)) := by
  refine ⟨rfl, parse_of_unread {} ?_⟩
  have hfirst : ∀ v v' second third, Node.UnreadReplaced Workflow.schema (cluttered v second third)
      (cluttered v' second third) :=
    fun v v' second third => .intro pushed _ ⟨1, 1⟩ (.keyless rfl)
  have hsecond : ∀ first v v' third, Node.UnreadReplaced Workflow.schema (cluttered first v third)
      (cluttered first v' third) :=
    fun first v v' third => .intro (pushed ++ [(.sequence [] ⟨3, 1⟩, first)]) _ ⟨1, 1⟩
      (.unknown rfl rfl)
  have hthird : ∀ first second v v', Node.UnreadReplaced Workflow.schema (cluttered first second v)
      (cluttered first second v') :=
    fun first second v v' => .intro (pushed ++ [(.sequence [] ⟨3, 1⟩, first),
      (.scalar "nmae" true ⟨4, 1⟩, second)]) [] ⟨1, 1⟩ (.repeated rfl (.head _) rfl rfl)
  exact ((ReflTransGen.single (.here (hfirst _ _ _ _))).tail (.here (hsecond _ _ _ _))).tail
    (.here (hthird _ _ _ _))

end Workflow

end WorkflowTree
