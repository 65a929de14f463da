import WorkflowTree.Proofs.Meaning.Source
import WorkflowTree.Reading.Workflow

/-!
# Keys that do not fit together

Two kinds of problems speak of the keys of a mapping as a whole: a required key is missing, or two
keys exclude each other.  They are the *misfits* of a file.

A *site* is a place of a file where keys have to fit together: a workflow, a job, a step, a
concurrency group, an environment, a container, the account of a registry, or one time of a
schedule, each of them written as a mapping.  `Site.missing` and `Site.exclusions` say what does
not fit at a site, from the mapping alone, and `Workflow.sites` lists the sites of a file.

No definition here looks at a reader or at its problems.
-/

namespace WorkflowTree

/-! ### Parts of mappings -/

namespace Node

/-- The node is a mapping. -/
def isMapping (n : Node) : Bool := n.entries?.isSome

/-- The node has an entry whose key is a scalar with this text. -/
def hasKey (n : Node) (key : String) : Bool := (n.get? key).isSome

/-- The entries of a mapping whose keys are texts, in order, repeated keys included. -/
def textEntries (n : Node) : List Entry := (n.entries?.getD []).filterMap Entry.ofPair?

/-- The entries of a mapping whose keys are texts, in order, of each key the first one. -/
def firstEntries (n : Node) : List Entry :=
  n.textEntries.eraseDupsBy fun e e' => e.key.value == e'.key.value

/-- Only mappings have entries. -/
theorem textEntries_of_not_isMapping {n : Node} (h : n.isMapping = false) : n.textEntries = [] := by
  have hnone : n.entries? = none := Option.isNone_iff_eq_none.mp (by simpa [isMapping] using h)
  rw [textEntries, hnone]
  rfl

theorem firstEntries_of_not_isMapping {n : Node} (h : n.isMapping = false) :
    n.firstEntries = [] := by
  rw [firstEntries, textEntries_of_not_isMapping h]
  rfl

/-- The key of the first entry with this key. -/
def keyAt? (n : Node) (key : String) : Option Text := (n.entryAt? key).map Entry.key

/-- The key of the first entry with this key, if a text stands under it. -/
def textKeyAt? (n : Node) (key : String) : Option Text :=
  ((n.entryAt? key).filter fun e => e.value.text?.isSome).map Entry.key

/-- The key of the first entry with this key and the text that stands under it. -/
def textAt? (n : Node) (key : String) : Option (Text × Text) :=
  (n.entryAt? key).bind fun e => e.value.leaf?.map (e.key, ·)

/-- The key of a text is found with the text. -/
theorem textKeyAt?_eq_map (n : Node) (key : String) :
    n.textKeyAt? key = (n.textAt? key).map Prod.fst := by
  unfold textKeyAt? textAt?
  rcases n.entryAt? key with - | e
  · rfl
  · rw [Option.bind_some, Option.map_map, Option.filter_some, text?_eq_leaf?]
    rcases e.value.leaf? with - | t <;> rfl

theorem keyAt?_of_textKeyAt? {n : Node} {key : String} {k : Text}
    (h : n.textKeyAt? key = some k) : n.keyAt? key = some k := by
  obtain ⟨e, he, rfl⟩ := Option.map_eq_some_iff.mp h
  rw [keyAt?, (Option.filter_eq_some_iff.mp he).1, Option.map_some]

theorem hasKey_of_keyAt? {n : Node} {key : String} {k : Text} (h : n.keyAt? key = some k) :
    n.hasKey key = true := by
  obtain ⟨e, he, -⟩ := Option.map_eq_some_iff.mp h
  rw [hasKey, ← map_value_entryAt?, he]
  rfl

end Node

/-! ### Sites -/

/-- A place of a file where keys have to fit together: what is read there, as messages call it, and
the mapping. -/
inductive Site
  | workflow (n : Node)
  | job (id : Text) (n : Node)
  | step (what : String) (n : Node)
  | concurrency (owner : String) (n : Node)
  | environment (what : String) (n : Node)
  | container (what : String) (n : Node)
  | credentials (what : String) (n : Node)
  | time (n : Node)
  /-- A schedule that is named without any times.  There is no mapping that could have keys. -/
  | bareSchedule (pos : Position)

namespace Site

/-- The required keys that a mapping does not have. -/
def lacking (n : Node) (required : List String) (what : String) (pos : Position) : List Problem :=
  required.flatMap fun key => if n.hasKey key then [] else [⟨.missing what key, pos⟩]

/-- Two required keys are missed one by one. -/
theorem lacking_pair (n : Node) (key key' what : String) (pos : Position) :
    lacking n [key, key'] what pos = lacking n [key] what pos ++ lacking n [key'] what pos := by
  simp only [lacking, List.flatMap_cons, List.flatMap_nil, List.append_nil]

/-- What is missing at a site.  The keys that a job lacks are missed at its id, all others at the
mapping. -/
def missing : Site → List Problem
  | workflow n => lacking n ["on", "jobs"] "workflow" n.pos
  | job id n => lacking n ["runs-on", "steps"] s!"job \"{id.value}\"" id.pos
  | step what n =>
    if n.hasKey "run" || n.hasKey "uses" then [] else [⟨.missing what "run or uses", n.pos⟩]
  | concurrency owner n => lacking n ["group"] s!"\"concurrency\" in {owner}" n.pos
  | environment what n => lacking n ["name"] what n.pos
  | container what n => lacking n ["image"] what n.pos
  | credentials what n => lacking n ["username", "password"] what n.pos
  | time n => lacking n ["cron"] "\"schedule\" event" n.pos
  | bareSchedule pos => [⟨.missing "\"schedule\" event" "cron", pos⟩]

/-- The keys of a step that exclude each other: the one that says what the step does, and those that
do not go with it.  Of the two keys that say what a step does the later one is in the way. -/
def stepExclusions (what : String) (n : Node) : List Problem :=
  match n.textKeyAt? "run", n.textKeyAt? "uses" with
  | some run, some uses =>
    [if run.pos.before uses.pos then Step.exclusive what run uses
      else Step.exclusive what uses run]
  | some run, none => (n.keyAt? "with").toList.map (Step.exclusive what run)
  | none, some uses =>
    ((n.textKeyAt? "shell").toList ++ (n.textKeyAt? "working-directory").toList).map
      (Step.exclusive what uses)
  | none, none => []

/-- The keys that exclude each other at a site. -/
def exclusions : Site → List Problem
  | workflow n => (Section.formConflict? "workflow" n.textEntries).toList
  | job id n => (Section.formConflict? s!"job \"{id.value}\"" n.textEntries).toList
  | step what n => stepExclusions what n
  | _ => []

/-- What does not fit together at a site. -/
def misfits (s : Site) : List Problem := s.exclusions ++ s.missing

/-- The mapping of a site. -/
def node? : Site → Option Node
  | workflow n | job _ n | step _ n | concurrency _ n | environment _ n | container _ n
  | credentials _ n | time n => some n
  | bareSchedule _ => none

end Site

/-! ### Places of exclusions -/

/-- A problem says that two keys of a mapping exclude each other, and it stands at one of them. -/
inductive Node.Excludes (n : Node) : Problem → Prop
  /-- Of the two forms of permissions the later one is in the way. -/
  | permissions (what word : String) {blanket perScope : Entry} :
      blanket ∈ n.textEntries → blanket.key.value = Section.permissionsKey →
      blanket.value.text? = some word →
      perScope ∈ n.textEntries → perScope.key.value = Section.permissionsKey →
      perScope.value.isMapping = true →
      n.Excludes ⟨.exclusive what s!"blanket permissions \"{word}\"" "per-scope permissions",
        blanket.key.pos.later perScope.key.pos⟩
  /-- Of the two keys that say what a step does the later one is in the way. -/
  | exec (what : String) {first second : Text} :
      n.keyAt? "run" = some first ∧ n.keyAt? "uses" = some second ∨
        n.keyAt? "uses" = some first ∧ n.keyAt? "run" = some second →
      first.pos.le second.pos = true → n.Excludes (Step.exclusive what first second)
  /-- Beside a script inputs are in the way, even if they are written before it. -/
  | script (what : String) {run inputs : Text} : n.keyAt? "run" = some run →
      n.keyAt? "with" = some inputs → n.Excludes (Step.exclusive what run inputs)
  /-- Beside an action the settings of a script are in the way, even if they are written before
  it. -/
  | action (what : String) {uses setting : Text} : n.keyAt? "uses" = some uses →
      n.keyAt? "shell" = some setting ∨ n.keyAt? "working-directory" = some setting →
      n.Excludes (Step.exclusive what uses setting)

theorem Node.excludes_of_formConflict? {n : Node} {what : String} {p : Problem}
    (h : Section.formConflict? what n.textEntries = some p) : n.Excludes p := by
  simp only [Section.formConflict?, Option.bind_eq_bind, Option.bind_eq_some_iff] at h
  obtain ⟨blanket, hblanket, perScope, hscope, word, hword, hp⟩ := h
  obtain rfl := Option.some.inj hp
  obtain ⟨hbmem, hbkey⟩ := List.mem_filter.mp (List.mem_of_find?_eq_some hblanket)
  obtain ⟨hsmem, hskey⟩ := List.mem_filter.mp (List.mem_of_find?_eq_some hscope)
  have hmapping := List.find?_some hscope
  exact .permissions what word hbmem (beq_iff_eq.mp hbkey) hword hsmem (beq_iff_eq.mp hskey)
    hmapping

theorem Node.excludes_of_stepExclusions {n : Node} {what : String} {p : Problem}
    (h : p ∈ Site.stepExclusions what n) : n.Excludes p := by
  unfold Site.stepExclusions at h
  split at h
  · next run uses hrun huses =>
    have hrun := keyAt?_of_textKeyAt? hrun
    have huses := keyAt?_of_textKeyAt? huses
    obtain rfl := List.mem_singleton.mp h
    split
    · next hbefore =>
      refine .exec what (.inl ⟨hrun, huses⟩) ?_
      rw [Position.before_iff] at hbefore
      rw [Position.le_iff]
      omega
    · next hbefore =>
      refine .exec what (.inr ⟨huses, hrun⟩) ?_
      rwa [Position.before_eq_not_le, Bool.not_eq_true', Bool.not_eq_false] at hbefore
  · next run hrun _ =>
    obtain ⟨inputs, hinputs, rfl⟩ := List.mem_map.mp h
    exact .script what (keyAt?_of_textKeyAt? hrun) (Option.mem_toList.mp hinputs)
  · next uses _ huses =>
    obtain ⟨setting, hsetting, rfl⟩ := List.mem_map.mp h
    refine .action what (keyAt?_of_textKeyAt? huses) ?_
    rcases List.mem_append.mp hsetting with hshell | hdir
    · exact .inl (keyAt?_of_textKeyAt? (Option.mem_toList.mp hshell))
    · exact .inr (keyAt?_of_textKeyAt? (Option.mem_toList.mp hdir))
  · cases h

/-- What excludes each other at a site are keys of its mapping. -/
theorem Site.excludes_of_mem_exclusions {site : Site} {p : Problem} (h : p ∈ site.exclusions) :
    ∃ n, site.node? = some n ∧ n.Excludes p := by
  cases site with
  | workflow n => exact ⟨n, rfl, Node.excludes_of_formConflict? (Option.mem_toList.mp h)⟩
  | job id n => exact ⟨n, rfl, Node.excludes_of_formConflict? (Option.mem_toList.mp h)⟩
  | step what n => exact ⟨n, rfl, Node.excludes_of_stepExclusions h⟩
  | _ => cases h

/-! ### The sites of a file -/

/-- The sites of what stands under a key. -/
def Node.under (n : Node) (key : String) (sites : Node → List Site) : List Site :=
  (n.get? key).elim [] sites

/-- The site of a mapping, with the sites inside of it. -/
def Node.ifMapping (n : Node) (sites : List Site) : List Site := if n.isMapping then sites else []

/-- The sites of a concurrency group. -/
def Concurrency.sites (owner : String) (n : Node) : List Site :=
  n.ifMapping [.concurrency owner n]

/-- The sites of an environment. -/
def Environment.sites (what : String) (n : Node) : List Site := n.ifMapping [.environment what n]

/-- The sites of the account of a registry. -/
def Credentials.sites (what : String) (n : Node) : List Site := n.ifMapping [.credentials what n]

/-- The sites of a container. -/
def Container.sites (what : String) (n : Node) : List Site :=
  n.ifMapping (.container what n ::
    n.under "credentials" (Credentials.sites s!"\"credentials\" in {what}"))

/-- The sites of the containers beside a job. -/
def servicesSites (n : Node) : List Site :=
  n.firstEntries.flatMap fun e => Container.sites s!"service \"{e.key.value}\"" e.value

/-- The sites of a step. -/
def Step.sites (what : String) (n : Node) : List Site := n.ifMapping [.step what n]

/-- The sites of the steps of a job. -/
def Step.listSites (owner : String) (n : Node) : List Site :=
  (n.items?.getD []).zipIdx.flatMap fun (item, i) => sites s!"step {i + 1} of {owner}" item

/-- The sites inside of a job. -/
def Job.innerSites (what : String) (n : Node) : List Site :=
  n.under "environment" (Environment.sites s!"\"environment\" in {what}") ++
    (n.under "concurrency" (Concurrency.sites what) ++
      (n.under "steps" (Step.listSites what) ++
        (n.under "container" (Container.sites s!"\"container\" in {what}") ++
          n.under "services" servicesSites)))

/-- The sites of a job. -/
def Job.sites (id : Text) (n : Node) : List Site :=
  n.ifMapping (.job id n :: innerSites s!"job \"{id.value}\"" n)

/-- The sites of the jobs of a workflow. -/
def Job.allSites (n : Node) : List Site := n.firstEntries.flatMap fun e => sites e.key e.value

/-- The sites of one time of a schedule. -/
def ScheduleTrigger.timeSites (n : Node) : List Site := n.ifMapping [.time n]

/-- The sites of a trigger.  Of all triggers only a schedule has any. -/
def Trigger.sites (hook : Text) (body : Option Node) : List Site :=
  if hook.value = "schedule" then
    body.elim [.bareSchedule hook.pos] fun n =>
      (n.items?.getD []).flatMap ScheduleTrigger.timeSites
  else []

/-- The sites of the triggers of a workflow. -/
def Trigger.listSites : Node → List Site
  | .scalar text _ pos => sites ⟨text, pos⟩ none
  | .sequence items _ => items.flatMap fun i => i.leaf?.elim [] (sites · none)
  | n => n.firstEntries.flatMap fun e => sites e.key (some e.value)

/-- The sites inside of a workflow. -/
def Workflow.innerSites (n : Node) : List Site :=
  n.under "on" Trigger.listSites ++
    (n.under "concurrency" (Concurrency.sites "workflow") ++ n.under "jobs" Job.allSites)

/-- The sites of a file, from the root down. -/
def Workflow.sites (root : Node) : List Site :=
  root.ifMapping (.workflow root :: innerSites root)

end WorkflowTree
