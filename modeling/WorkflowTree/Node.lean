import WorkflowTree.Position

/-!
# Nodes

A node is a part of a decoded document. Entries of mappings keep their order, and
repeated keys are kept, so that whoever reads a mapping can report them.

* `Node.get?_eq_some` says what looking up a key finds: the first entry with that key;
* `Node.beq_eq` makes `==` the equality of nodes, places included.
-/

namespace WorkflowTree

/-- A part of a decoded document, with its place. -/
inductive Node
  /-- No value. -/
  | null (pos : Position)
  /-- A text. Only a text that was written plainly, without quotes, may be read as a
  number or a truth value. -/
  | scalar (text : String) (plain : Bool) (pos : Position)
  | sequence (items : List Node) (pos : Position)
  | mapping (entries : List (Node × Node)) (pos : Position)
  deriving Repr, Inhabited

namespace Node

/-- Where the node stands. -/
def pos : Node → Position
  | null pos | scalar _ _ pos | sequence _ pos | mapping _ pos => pos

/-! ### Views -/

/-- The node has no value. -/
def isNull : Node → Bool
  | null _ => true
  | _ => false

/-- The text of a scalar. -/
def text? : Node → Option String
  | scalar text _ _ => some text
  | _ => none

/-- The text of a scalar that was written without quotes. -/
def plain? : Node → Option String
  | scalar text true _ => some text
  | _ => none

/-- The text of a scalar and the place of the scalar. -/
def leaf? : Node → Option Text
  | scalar text _ pos => some ⟨text, pos⟩
  | _ => none

/-- The items of a sequence. -/
def items? : Node → Option (List Node)
  | sequence items _ => some items
  | _ => none

/-- The entries of a mapping. -/
def entries? : Node → Option (List (Node × Node))
  | mapping entries _ => some entries
  | _ => none

/-- The value of the first entry whose key is a scalar with this text. -/
def get? (n : Node) (key : String) : Option Node :=
  (n.entries?.bind (List.find? fun e => e.1.text? == some key)).map Prod.snd

/-- What the node is, in words. -/
def describe : Node → String
  | null _ => "null"
  | scalar text true _ => s!"scalar \"{text}\""
  | scalar text false _ => s!"quoted scalar \"{text}\""
  | sequence _ _ => "a sequence"
  | mapping _ _ => "a mapping"

theorem text?_eq_leaf? (n : Node) : n.text? = n.leaf?.map Located.value := by
  cases n <;> rfl

theorem text?_of_leaf? {n : Node} {t : Text} (h : n.leaf? = some t) : n.text? = some t.value := by
  rw [text?_eq_leaf?, h, Option.map_some]

theorem leaf?_pos {n : Node} {t : Text} (h : n.leaf? = some t) : t.pos = n.pos := by
  cases n <;> simp_all [leaf?, pos]
  exact h ▸ rfl

theorem text?_of_plain? {n : Node} {s : String} (h : n.plain? = some s) : n.text? = some s := by
  rcases n with _ | ⟨t, _ | _, p⟩ | _ | _ <;> simp_all [plain?, text?]

theorem get?_eq_some {n : Node} {key : String} {v : Node} (h : n.get? key = some v) :
    ∃ k entries pos, n = mapping entries pos ∧ (k, v) ∈ entries ∧ k.text? = some key := by
  rcases n with _ | _ | _ | ⟨entries, pos⟩ <;> simp [get?, entries?] at h
  obtain ⟨k, hk⟩ := h
  exact ⟨k, entries, pos, rfl, List.mem_of_find?_eq_some hk,
    by simpa using List.find?_some hk⟩

/-! ### Size -/

mutual

/-- The number of nodes that the node is made of, itself included. -/
def count : Node → Nat
  | null _ | scalar _ _ _ => 1
  | sequence items _ => 1 + countItems items
  | mapping entries _ => 1 + countEntries entries

/-- The number of nodes in a list of items. -/
def countItems : List Node → Nat
  | [] => 0
  | n :: rest => n.count + countItems rest

/-- The number of nodes in a list of entries. -/
def countEntries : List (Node × Node) → Nat
  | [] => 0
  | (k, v) :: rest => k.count + v.count + countEntries rest

end

@[simp] theorem countItems_append (xs ys : List Node) :
    countItems (xs ++ ys) = countItems xs + countItems ys := by
  induction xs with
  | nil => simp [countItems]
  | cons x xs ih => simp [countItems, ih, Nat.add_assoc]

@[simp] theorem countEntries_append (xs ys : List (Node × Node)) :
    countEntries (xs ++ ys) = countEntries xs + countEntries ys := by
  induction xs with
  | nil => simp [countEntries]
  | cons x xs ih =>
    rcases x with ⟨k, v⟩
    simp [countEntries, ih, Nat.add_assoc]

theorem count_pos (n : Node) : 0 < n.count := by
  cases n <;> simp only [count] <;> omega

/-! ### Equality -/

mutual

/-- Two nodes are equal in kind, text, parts and places. -/
def beq : Node → Node → Bool
  | null p, null q => p == q
  | scalar s plain p, scalar t plain' q => s == t && plain == plain' && p == q
  | sequence xs p, sequence ys q => beqItems xs ys && p == q
  | mapping xs p, mapping ys q => beqEntries xs ys && p == q
  | _, _ => false

/-- Two lists of items are equal one by one. -/
def beqItems : List Node → List Node → Bool
  | [], [] => true
  | x :: xs, y :: ys => x.beq y && beqItems xs ys
  | _, _ => false

/-- Two lists of entries are equal one by one. -/
def beqEntries : List (Node × Node) → List (Node × Node) → Bool
  | [], [] => true
  | (k, v) :: xs, (k', v') :: ys => k.beq k' && v.beq v' && beqEntries xs ys
  | _, _ => false

end

mutual

/-- The Boolean comparison decides equality. -/
theorem beq_eq : ∀ m n : Node, m.beq n = true ↔ m = n
  | null _, n => by cases n <;> simp [beq]
  | scalar _ _ _, n => by cases n <;> simp [beq, and_assoc]
  | sequence xs p, n => by
    cases n with
    | sequence ys q => simp [beq, beqItems_eq xs ys]
    | _ => simp [beq]
  | mapping xs p, n => by
    cases n with
    | mapping ys q => simp [beq, beqEntries_eq xs ys]
    | _ => simp [beq]

theorem beqItems_eq : ∀ xs ys : List Node, beqItems xs ys = true ↔ xs = ys
  | [], ys => by cases ys <;> simp [beqItems]
  | x :: xs, ys => by
    cases ys with
    | nil => simp [beqItems]
    | cons y ys => simp [beqItems, beq_eq x y, beqItems_eq xs ys]

theorem beqEntries_eq : ∀ xs ys : List (Node × Node), beqEntries xs ys = true ↔ xs = ys
  | [], ys => by cases ys <;> simp [beqEntries]
  | (k, v) :: xs, ys => by
    cases ys with
    | nil => simp [beqEntries]
    | cons y ys =>
      rcases y with ⟨k', v'⟩
      simp [beqEntries, beq_eq k k', beq_eq v v', beqEntries_eq xs ys]

end

instance : DecidableEq Node := fun m n => decidable_of_iff _ (beq_eq m n)

end Node

end WorkflowTree
