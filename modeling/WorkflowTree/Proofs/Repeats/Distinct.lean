import WorkflowTree.Proofs.Misfits.Finding
import Mathlib.Data.List.Induction

/-!
# Distinct entries

A mapping that is read as a section gives the first entry of each key, whatever its entries are.
Nothing that is left out goes unreported: each key that is no text is one problem, and behind these
each entry whose key was met before is one, which names the first entry with this key.

Both kinds of problems are said from the entries alone (`Entry.unnamed`, `Entry.duplicates`).  Which
entries are duplicates is said by their index: those that have the key of one that stands before
them.  Entries are read from the front, so what reading finds follows by adding one more entry at the
back (`Entry.duplicates_concat`, `Section.problems_distinct`).  The main statement is
`Section.distinct_of_read`.
-/

namespace WorkflowTree

open Checked

variable {n : Node} {what : String} {kvs : List (Node × Node)} {es : List Entry} {e : Entry}

/-! ### Problems of entries -/

namespace Entry

/-- The reports of the entries whose keys are no texts. -/
def unnamed (what : String) (kvs : List (Node × Node)) : List Problem :=
  (kvs.filter fun kv => kv.1.text?.isNone).map fun kv =>
    ⟨.shape s!"key in {what}" "a string" kv.1.describe, kv.1.pos⟩

/-- The report of an entry whose key is that of an entry before it, with the place that the key has
in the first such entry. -/
def duplicate? (what : String) (before : List Entry) (e : Entry) : Option Problem :=
  (before.find? fun e' => e'.key.value == e.key.value).map fun first =>
    ⟨.duplicate what e.key.value first.key.pos, e.key.pos⟩

/-- The reports of the entries whose keys are repeated, each of them by those that stand before it. -/
def duplicates (what : String) (es : List Entry) : List Problem :=
  es.zipIdx.filterMap fun x => duplicate? what (es.take x.2) x.1

/-- For the entries before it, an entry at the end makes no difference. -/
theorem duplicates_concat (what : String) (es : List Entry) (e : Entry) :
    duplicates what (es ++ [e]) = duplicates what es ++ (duplicate? what es e).toList := by
  rw [duplicates, List.zipIdx_append, List.filterMap_append]
  congr 1
  · refine List.filterMap_congr fun x hx => ?_
    have hlt : x.2 < 0 + es.length := (List.mem_zipIdx hx).2.1
    rw [List.take_append_of_le_length (by omega)]
  · rw [List.zipIdx_singleton, List.filterMap_cons, List.filterMap_nil, Nat.zero_add,
      List.take_left]
    rcases duplicate? what es e with - | p <;> rfl

theorem problems_read (what : String) (kv : Node × Node) :
    (read what kv).problems = unnamed what [kv] := by
  rcases kv with ⟨_ | _ | _ | _, v⟩ <;> rfl

theorem unnamed_cons (what : String) (kv : Node × Node) (kvs : List (Node × Node)) :
    unnamed what (kv :: kvs) = unnamed what [kv] ++ unnamed what kvs := by
  rw [unnamed, unnamed, unnamed, ← List.map_append, ← List.filter_append, List.singleton_append]

theorem problems_readAll (h : n.entries? = some kvs) :
    (readAll what n).problems = unnamed what kvs := by
  have hpairs : (readAll what n).problems = kvs.flatMap fun kv => (read what kv).problems := by
    simp only [readAll, h, problems_map, problems_collect, List.flatMap_map]
  rw [hpairs]
  clear h hpairs
  induction kvs with
  | nil => rfl
  | cons kv kvs ih => rw [List.flatMap_cons, ih, problems_read, ← unnamed_cons]

/-- An entry of a mapping has a text as its key, or else it is reported. -/
theorem length_unnamed (what : String) (kvs : List (Node × Node)) :
    kvs.length = (kvs.filterMap ofPair?).length + (unnamed what kvs).length := by
  induction kvs with
  | nil => rfl
  | cons kv kvs ih =>
    rw [unnamed_cons, List.length_append, List.length_cons]
    rcases h : ofPair? kv with - | e
    · have hnone : kv.1.text? = none := ofPair?_eq_none.mp h
      have hone : (unnamed what [kv]).length = 1 := by simp [unnamed, hnone]
      rw [List.filterMap_cons_none h, hone]
      omega
    · have hsome : kv.1.text? = some e.key.value := (ofPair?_eq_some h).1
      have hzero : (unnamed what [kv]).length = 0 := by simp [unnamed, hsome]
      rw [List.filterMap_cons_some h, List.length_cons, hzero]
      omega

end Entry

namespace Section

/-! ### Distinct keys -/

/-- One more entry is kept or reported, in view of those that were kept before it. -/
theorem problems_distinct_concat (what : String) (es : List Entry) (e : Entry) :
    (distinct what [] (es ++ [e])).problems = (distinct what [] es).problems ++
      (extend what [] (distinct what [] es).value e).problems := by
  rw [distinct, List.foldlM_append, problems_bind, List.foldlM_cons, problems_bind]
  simp [distinct]

/-- The duplicates are reported, and nothing else is. -/
theorem problems_distinct (what : String) (es : List Entry) :
    (distinct what [] es).problems = Entry.duplicates what es := by
  induction es using List.reverseRecOn with
  | nil => rfl
  | append_singleton es e ih =>
    rw [problems_distinct_concat, ih, Entry.duplicates_concat]
    congr 1
    rcases h : es.find? fun e' => e'.key.value == e.key.value with - | first
    · rw [Entry.duplicate?, h, extend_of_none ((find?_distinct what [] es _).trans h)]
      rfl
    · rw [Entry.duplicate?, h, extend_of_some ((find?_distinct what [] es _).trans h)]
      rfl

/-! ### Mappings -/

/-- **A mapping gives its distinct entries.**  Read as a section, a mapping gives the first entry of
each key, in order, and the problems are one for each key that is no text, in order, and behind
them one for each entry whose key was met, in order.  So each entry is given or reported, and not
both.  What is given under a key is what looking the key up in the mapping finds.  Any other node
gives nothing and is one problem. -/
theorem distinct_of_read (what : String) (n : Node) :
    match n.entries? with
    | none => read what n = ⟨none, [⟨.shape what "a mapping" n.describe, n.pos⟩]⟩
    | some kvs => ∃ s, (read what n).value = some s ∧ s.entries = n.firstEntries ∧
        (read what n).problems =
          Entry.unnamed what kvs ++ Entry.duplicates what n.textEntries ∧
        kvs.length = s.entries.length + (read what n).problems.length ∧
        ∀ key, s.get? key = n.get? key := by
  rcases hn : n.entries? with - | kvs
  · have hall : Entry.readAll what n = ⟨none, [⟨.shape what "a mapping" n.describe, n.pos⟩]⟩ := by
      rw [Entry.readAll, hn]
      rfl
    rw [read, hall]
    rfl
  · have hvalue : (Entry.readAll what n).value = some n.textEntries := by
      rw [Entry.value_readAll, Node.textEntries, hn]
      rfl
    have hproblems : (read what n).problems =
        Entry.unnamed what kvs ++ Entry.duplicates what n.textEntries := by
      rw [read, andThen_of_some hvalue, problems_map, problems_distinct,
        Entry.problems_readAll hn]
    have hread : (read what n).value = some (distinct what [] n.textEntries).value := by
      rw [read, andThen_of_some hvalue]
      rfl
    refine ⟨_, hread, (holdsFirsts_distinct hvalue).entries, hproblems, ?_,
      (holdsFirsts_distinct hvalue).get?⟩
    have htexts : n.textEntries.length = (distinct what [] n.textEntries).value.entries.length +
        (Entry.duplicates what n.textEntries).length := by
      rw [← problems_distinct]
      exact length_distinct what n.textEntries
    have hpairs : kvs.length = n.textEntries.length + (Entry.unnamed what kvs).length := by
      rw [Node.textEntries, hn]
      exact Entry.length_unnamed what kvs
    rw [hproblems, List.length_append]
    omega

example : (read "env" (.mapping [
      (.scalar "A" true ⟨1, 1⟩, .scalar "1" true ⟨1, 4⟩),
      (.null ⟨2, 1⟩, .null ⟨2, 3⟩),
      (.scalar "A" true ⟨3, 1⟩, .scalar "2" true ⟨3, 4⟩)] ⟨1, 1⟩)).problems =
    [⟨.shape "key in env" "a string" "null", ⟨2, 1⟩⟩,
      ⟨.duplicate "env" "A" ⟨1, 1⟩, ⟨3, 1⟩⟩] := rfl

end Section

end WorkflowTree
