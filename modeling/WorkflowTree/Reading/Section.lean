import WorkflowTree.Keyed
import WorkflowTree.Node
import WorkflowTree.Policy
import WorkflowTree.Reading.Checked

/-!
# Sections

A section is a mapping whose keys are texts, each of them once. Reading a mapping as a section
reports the keys that are no texts and the repeated ones, and keeps the first entry of each
key.

What the entries of a section mean is said in one of two ways. A form (`Form`) lists the keys
that a section may have, and reads them one by one; `Section.fill` then reports, in the order
of the entries, the problems of known keys and the keys that the form does not list. Sections
whose keys are free are gathered by `Section.collect`.
-/

namespace WorkflowTree

/-! ### Entries -/

/-- An entry of a mapping whose key is a text. -/
structure Entry where
  key : Text
  value : Node
  deriving DecidableEq

/-- Reports that a node has another shape than is expected of it. -/
def mismatch {α : Type} (n : Node) (what expected : String) : Checked (Option α) :=
  .refuse (.shape what expected n.describe) n.pos

namespace Entry

/-- Reads an entry of a mapping. -/
def read (what : String) (kv : Node × Node) : Checked (Option Entry) :=
  match kv.1.leaf? with
  | some key => pure (some ⟨key, kv.2⟩)
  | none => mismatch kv.1 s!"key in {what}" "a string"

/-- The entries of a mapping, in order, repeated keys included. -/
def readAll (what : String) (n : Node) : Checked (Option (List Entry)) :=
  match n.entries? with
  | some kvs => some <$> Checked.collect (kvs.map (read what))
  | none => mismatch n what "a mapping"

end Entry

/-- Entries with distinct keys. -/
structure Section where
  entries : List Entry
  nodup : (entries.map fun e => e.key.value).Nodup

namespace Section

/-- The section without entries. -/
def empty : Section := ⟨[], List.nodup_nil⟩

/-- The entry with this key. -/
def find? (s : Section) (key : String) : Option Entry :=
  s.entries.find? fun e => e.key.value == key

/-- The value under a key. -/
def get? (s : Section) (key : String) : Option Node := (s.find? key).map Entry.value

/-- The key has an entry. -/
def has (s : Section) (key : String) : Bool := (s.find? key).isSome

theorem find?_eq_none {s : Section} {key : String} :
    s.find? key = none ↔ key ∉ s.entries.map fun e => e.key.value := by
  simp [find?]

/-- Adds an entry whose key is new. -/
def add (s : Section) (e : Entry) (h : s.find? e.key.value = none) : Section where
  entries := s.entries ++ [e]
  nodup := by
    rw [List.map_append, List.nodup_append]
    refine ⟨s.nodup, List.nodup_cons.2 ⟨List.not_mem_nil, List.nodup_nil⟩, ?_⟩
    rintro k hk k' hk' rfl
    rw [List.map_singleton, List.mem_singleton] at hk'
    exact find?_eq_none.1 h (hk' ▸ hk)

/-- Adds an entry, or reports that its key is repeated. Repeated keys that are listed as quiet
are left out without a report. -/
def extend (what : String) (quiet : List String) (s : Section) (e : Entry) : Checked Section :=
  match h : s.find? e.key.value with
  | none => pure (s.add e h)
  | some first => do
    if !quiet.contains e.key.value then
      Checked.report (.duplicate what e.key.value first.key.pos) e.key.pos
    return s

/-- The first entries of all keys. -/
def distinct (what : String) (quiet : List String) (es : List Entry) : Checked Section :=
  es.foldlM (extend what quiet) empty

/-- Reads a mapping as a section. -/
def read (what : String) (n : Node) : Checked (Option Section) :=
  (Entry.readAll what n).andThen fun es => some <$> distinct what [] es

/-- Reads a mapping as a section and goes on with it. -/
def within {α : Type} (what : String) (n : Node) (k : Section → Checked (Option α)) :
    Checked (Option α) :=
  (read what n).andThen k

/-! ### Repeated permissions -/

/-- The key of permissions. -/
def permissionsKey : String := "permissions"

/-- The problem of entries that repeat the key of permissions with both of its forms. -/
def formConflict? (what : String) (es : List Entry) : Option Problem := do
  let candidates := es.filter fun e => e.key.value == permissionsKey
  let blanket ← candidates.find? fun e => e.value.text?.isSome
  let perScope ← candidates.find? fun e => e.value.entries?.isSome
  let word ← blanket.value.text?
  return ⟨.exclusive what s!"blanket permissions \"{word}\"" "per-scope permissions",
    blanket.key.pos.later perScope.key.pos⟩

/-- Reads the mapping of a workflow or a job. When permissions are repeated in both of their
forms, they exclude each other and are not reported as repeated. -/
def readWithPermissions (what : String) (n : Node) : Checked (Option Section) :=
  (Entry.readAll what n).andThen fun es =>
    match formConflict? what es with
    | none => some <$> distinct what [] es
    | some p => do
      Checked.reportAll [p]
      some <$> distinct what [permissionsKey] es

/-- Reads the mapping of a workflow or a job and goes on with it. -/
def withinOwner {α : Type} (what : String) (n : Node) (k : Section → Checked (Option α)) :
    Checked (Option α) :=
  (readWithPermissions what n).andThen k

/-! ### Free keys -/

/-- What was read of an entry, under the entry's key. -/
def keyed {α : Type} (cs : List (String × Checked (Option α))) : List (String × α) :=
  cs.filterMap fun c => c.2.value.map (c.1, ·)

theorem keyed_sublist {α : Type} (cs : List (String × Checked (Option α))) :
    ((keyed cs).map Prod.fst).Sublist (cs.map Prod.fst) := by
  induction cs with
  | nil => exact List.Sublist.slnil
  | cons c cs ih =>
    rcases h : c.2.value with - | a
    · simpa [keyed, h] using ih.cons c.1
    · simpa [keyed, h] using ih.cons_cons c.1

/-- Reads each entry and keeps what could be read, under the keys of the entries. -/
def collect {α : Type} (s : Section) (read : Entry → Checked (Option α)) : Checked (Keyed α) :=
  let cs := s.entries.map fun e => (e.key.value, read e)
  { value :=
      { entries := keyed cs
        nodup := (keyed_sublist cs).nodup (by simpa [cs, Function.comp_def] using s.nodup) }
    problems := cs.flatMap fun c => c.2.problems }

end Section

/-! ### Forms -/

/-- What was read of the known keys of a section: a value, and for each known key the problems
of its entry. -/
structure Form (α : Type) where
  value : α
  fields : List (String × List Problem)

namespace Form

variable {α β : Type}

instance : Monad Form where
  pure a := ⟨a, []⟩
  bind f k := ⟨(k f.value).value, f.fields ++ (k f.value).fields⟩

@[simp] theorem value_pure (a : α) : (pure a : Form α).value = a := rfl

@[simp] theorem fields_pure (a : α) : (pure a : Form α).fields = [] := rfl

@[simp] theorem value_bind (f : Form α) (k : α → Form β) :
    (f >>= k).value = (k f.value).value := rfl

@[simp] theorem fields_bind (f : Form α) (k : α → Form β) :
    (f >>= k).fields = f.fields ++ (k f.value).fields := rfl

/-- The known keys, in the order in which they are listed. -/
def keys (f : Form α) : List String := f.fields.map Prod.fst

end Form

/-- Keys as they are listed in a message. -/
def quotedKeys (keys : List String) : String := ", ".intercalate (keys.map fun k => s!"\"{k}\"")

namespace Section

variable {α : Type}

/-- Reads the value under a key that the section may have, together with the key. -/
def fieldWithKey (s : Section) (key : String) (read : Node → Checked (Option α)) :
    Form (Option (Text × α)) :=
  match s.find? key with
  | none => ⟨none, [(key, [])]⟩
  | some e =>
    let c := read e.value
    ⟨c.value.map (e.key, ·), [(key, c.problems)]⟩

/-- Reads the value under a key that the section may have. -/
def field (s : Section) (key : String) (read : Node → Checked (Option α)) : Form (Option α) :=
  match s.get? key with
  | none => ⟨none, [(key, [])]⟩
  | some n =>
    let c := read n
    ⟨c.value, [(key, c.problems)]⟩

/-- The problems of one entry: those of its value if the key is known, and else that it is
not. -/
def entryProblems (policy : Policy) (what : String) (form : Form α) (e : Entry) : List Problem :=
  match form.fields.lookup e.key.value with
  | some ps => ps
  | none =>
    if policy.allowUnknownKeys then []
    else [⟨.unexpected what e.key.value (quotedKeys form.keys), e.key.pos⟩]

/-- Fills a form with a section. Problems are listed in the order of the entries. -/
def fill (s : Section) (policy : Policy) (what : String) (form : Form α) : Checked α :=
  ⟨form.value, s.entries.flatMap (entryProblems policy what form)⟩

@[simp] theorem value_fill (s : Section) (policy : Policy) (what : String) (form : Form α) :
    (s.fill policy what form).value = form.value := rfl

/-- Reports a required key that has no entry. If it has one, its problems are reported
already. -/
def require (s : Section) (value : Option α) (key what : String) (pos : Position) :
    Checked (Option α) :=
  ⟨value, if value.isNone && !s.has key then [⟨.missing what key, pos⟩] else []⟩

end Section

end WorkflowTree
