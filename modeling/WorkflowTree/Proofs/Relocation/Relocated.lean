import WorkflowTree.Proofs.Reading.Section
import WorkflowTree.Proofs.Relocation.Place

/-!
# Reading relocated nodes

Two checked values are *relocated* (`Checked.Relocated`) if their values are related in some way and
the problems of the second are those of the first at other places, in the same order.  Where the
second value is the first one at other places, the checked value has *moved* (`Checked.Moved`).

There is one rule for each way in which readers are put together.  A reader that moves what it
reads whenever its node is relocated does not depend on where the node stands.
-/

namespace WorkflowTree

variable {α β γ δ : Type} {f : Relocation}

/-! ### Checked values -/

namespace Checked

/-- The values are related, and the problems are the same at other places. -/
structure Relocated (f : Relocation) (R : α → β → Prop) (c : Checked α) (d : Checked β) : Prop where
  value : R c.value d.value
  problems : d.problems = relocate f c.problems

/-- The value and the problems are the same at other places. -/
def Moved [Placed α] (f : Relocation) (c d : Checked α) : Prop :=
  c.Relocated f (fun a b => b = relocate f a) d

variable {R : α → β → Prop} {S : γ → δ → Prop} {c : Checked α} {d : Checked β}

theorem relocate_append [Placed α] (f : Relocation) (as bs : List α) :
    relocate f (as ++ bs) = relocate f as ++ relocate f bs := List.map_append

theorem Relocated.pure {a : α} {b : β} (h : R a b) : (pure a : Checked α).Relocated f R (pure b) :=
  ⟨h, rfl⟩

theorem Relocated.bind {k : α → Checked γ} {l : β → Checked δ} (h : c.Relocated f R d)
    (hkl : ∀ a b, R a b → (k a).Relocated f S (l b)) : (c >>= k).Relocated f S (d >>= l) := by
  have hrest := hkl c.value d.value h.value
  refine ⟨hrest.value, ?_⟩
  rw [problems_bind, problems_bind, h.problems, hrest.problems, relocate_append]

theorem relocated_reportAll (ps : List Problem) :
    (reportAll ps).Relocated f (fun _ _ => True) (reportAll (relocate f ps)) := ⟨trivial, rfl⟩

section Moved

variable [Placed α] [Placed β] {c d : Checked α}

theorem moved_pure (a : α) : (pure a : Checked α).Moved f (pure (relocate f a)) := ⟨rfl, rfl⟩

/-- Going on with a value, and with the same one at other places. -/
theorem Moved.bind {k : α → Checked γ} {l : α → Checked δ} (h : c.Moved f d)
    (hkl : ∀ a, (k a).Relocated f S (l (relocate f a))) : (c >>= k).Relocated f S (d >>= l) := by
  refine Relocated.bind h ?_
  rintro a _ rfl
  exact hkl a

theorem Moved.map {g g' : α → β} (h : c.Moved f d)
    (hg : ∀ a, g' (relocate f a) = relocate f (g a)) : (g <$> c).Moved f (g' <$> d) := by
  refine ⟨?_, ?_⟩
  · rw [value_map, value_map, h.value, hg]
  · rw [problems_map, problems_map, h.problems]

/-- What is there is made into something else. -/
theorem Moved.optionMap {c d : Checked (Option α)} {g g' : α → β} (h : c.Moved f d)
    (hg : ∀ a, g' (relocate f a) = relocate f (g a)) :
    (Option.map g <$> c).Moved f (Option.map g' <$> d) := by
  refine h.map fun o => ?_
  rcases o with - | a
  · rfl
  · exact congrArg some (hg a)

theorem Moved.some (h : c.Moved f d) : (Option.some <$> c).Moved f (Option.some <$> d) :=
  h.map fun _ => rfl

theorem Moved.andThen {c d : Checked (Option α)} {k l : α → Checked (Option β)} (h : c.Moved f d)
    (hkl : ∀ a, (k a).Moved f (l (relocate f a))) : (c.andThen k).Moved f (d.andThen l) := by
  have hvalue := h.value
  rcases hc : c.value with - | a
  · rw [hc] at hvalue
    rw [andThen_of_none hc, andThen_of_none hvalue]
    exact ⟨rfl, h.problems⟩
  · rw [hc] at hvalue
    have hrest := hkl a
    rw [andThen_of_some hc, andThen_of_some hvalue]
    refine ⟨hrest.value, ?_⟩
    rw [h.problems, hrest.problems, relocate_append]

theorem moved_refuse (f : Relocation) (fault : Fault) (pos : Position) :
    (refuse fault pos : Checked (Option α)).Moved f (refuse (relocate f fault) (f pos)) :=
  ⟨rfl, rfl⟩

/-- Parts are read one by one. -/
theorem moved_collect {read : γ → Checked (Option α)} {read' : δ → Checked (Option α)}
    {g : γ → δ} (h : ∀ c, (read c).Moved f (read' (g c))) (cs : List γ) :
    (collect (cs.map read)).Moved f (collect ((cs.map g).map read')) := by
  induction cs with
  | nil => exact ⟨rfl, rfl⟩
  | cons c cs ih =>
    have hvalue : (read' (g c)).value = relocate f (read c).value := (h c).value
    have hproblems : (read' (g c)).problems = relocate f (read c).problems := (h c).problems
    have hvalues : ((cs.map g).map read').filterMap Checked.value =
        relocate f ((cs.map read).filterMap Checked.value) := ih.value
    have hrest : ((cs.map g).map read').flatMap Checked.problems =
        relocate f ((cs.map read).flatMap Checked.problems) := ih.problems
    refine ⟨?_, ?_⟩
    · simp only [value_collect, List.map_cons]
      rcases e : (read c).value with - | a
      · rw [e] at hvalue
        rw [List.filterMap_cons_none hvalue, List.filterMap_cons_none e, hvalues]
      · rw [e] at hvalue
        rw [List.filterMap_cons_some hvalue, List.filterMap_cons_some e, hvalues]
        rfl
    · simp only [problems_collect, List.map_cons, List.flatMap_cons]
      rw [hproblems, hrest, relocate_append]

end Moved

end Checked

open Checked

theorem moved_mismatch [Placed α] (f : Relocation) (n : Node) (what expected : String) :
    (mismatch n what expected : Checked (Option α)).Moved f
      (mismatch (n.relocate f) what expected) := by
  unfold mismatch
  rw [Node.describe_relocate, Node.pos_relocate]
  exact moved_refuse f _ _

/-! ### Entries -/

instance : Placed Entry := ⟨fun f ⟨key, value⟩ => ⟨relocate f key, relocate f value⟩⟩

namespace Entry

@[simp] theorem value_relocate (f : Relocation) (e : Entry) :
    (relocate f e).value = e.value.relocate f := rfl

theorem moved_read (f : Relocation) (what : String) (kv : Node × Node) :
    (read what kv).Moved f (read what (relocate f kv)) := by
  have hkey : (relocate f kv).1.leaf? = relocate f kv.1.leaf? := Node.leaf?_relocate f kv.1
  unfold read
  rw [hkey]
  rcases kv.1.leaf? with - | key
  · exact moved_mismatch f kv.1 _ _
  · exact moved_pure _

theorem moved_readAll (f : Relocation) (what : String) (n : Node) :
    (readAll what n).Moved f (readAll what (n.relocate f)) := by
  unfold readAll
  rw [Node.entries?_relocate]
  rcases n.entries? with - | kvs
  · exact moved_mismatch f n _ _
  · exact (moved_collect (moved_read f what) kvs).some

end Entry

/-! ### Sections -/

namespace Section

variable {what : String}

theorem eq_of_entries {s s' : Section} (h : s.entries = s'.entries) : s = s' := by
  cases s
  cases s'
  cases h
  rfl

instance : Placed Section where
  relocate f s :=
    { entries := relocate f s.entries
      nodup := by
        have hkeys : (relocate f s.entries).map (fun e => e.key.value) =
            s.entries.map fun e => e.key.value := List.map_map ..
        rw [hkeys]
        exact s.nodup }

@[simp] theorem entries_relocate (f : Relocation) (s : Section) :
    (relocate f s).entries = relocate f s.entries := rfl

@[simp] theorem find?_relocate (f : Relocation) (s : Section) (key : String) :
    (relocate f s).find? key = relocate f (s.find? key) := by
  unfold find?
  rw [entries_relocate]
  exact List.find?_map ..

@[simp] theorem get?_relocate (f : Relocation) (s : Section) (key : String) :
    (relocate f s).get? key = relocate f (s.get? key) := by
  unfold get?
  rw [find?_relocate]
  rcases s.find? key with - | e <;> rfl

@[simp] theorem has_relocate (f : Relocation) (s : Section) (key : String) :
    (relocate f s).has key = s.has key := by
  unfold has
  rw [find?_relocate]
  rcases s.find? key with - | e <;> rfl

/-- A repeated key is reported with the place where it was first. -/
theorem moved_extend (f : Relocation) (what : String) (quiet : List String) (s : Section)
    (e : Entry) : (extend what quiet s e).Moved f
      (extend what quiet (relocate f s) (relocate f e)) := by
  have hkey : (relocate f e).key.value = e.key.value := rfl
  have hfind : (relocate f s).find? (relocate f e).key.value = relocate f (s.find? e.key.value) :=
    find?_relocate f s e.key.value
  rcases h : s.find? e.key.value with - | first
  · rw [h] at hfind
    rw [extend_of_none h, extend_of_none hfind]
    refine .pure (eq_of_entries ?_)
    exact (relocate_append f s.entries [e]).symm
  · -- the place where the key was first is the only one inside of a fault
    rw [h] at hfind
    rw [extend_of_some h, extend_of_some hfind]
    refine ⟨rfl, ?_⟩
    dsimp only
    rw [hkey]
    split <;> rfl

theorem moved_foldlM_extend (f : Relocation) (what : String) (quiet : List String)
    (es : List Entry) (s : Section) : (es.foldlM (extend what quiet) s).Moved f
      ((relocate f es).foldlM (extend what quiet) (relocate f s)) := by
  induction es generalizing s with
  | nil => exact moved_pure s
  | cons e es ih =>
    have hcons : relocate f (e :: es) = relocate f e :: relocate f es := rfl
    rw [hcons, List.foldlM_cons, List.foldlM_cons]
    exact (moved_extend f what quiet s e).bind ih

theorem moved_distinct (f : Relocation) (what : String) (quiet : List String) (es : List Entry) :
    (distinct what quiet es).Moved f (distinct what quiet (relocate f es)) :=
  moved_foldlM_extend f what quiet es empty

theorem moved_read (f : Relocation) (what : String) (n : Node) :
    (Section.read what n).Moved f (Section.read what (n.relocate f)) :=
  (Entry.moved_readAll f what n).andThen fun es => (moved_distinct f what [] es).some

theorem moved_within [Placed α] {n : Node} {k l : Section → Checked (Option α)}
    (h : ∀ s, (k s).Moved f (l (relocate f s))) :
    (within what n k).Moved f (within what (n.relocate f) l) :=
  (moved_read f what n).andThen h

/-! ### Repeated permissions -/

theorem find?_relocate_of (f : Relocation) {p : Entry → Bool} (h : ∀ e, p (relocate f e) = p e)
    (es : List Entry) : (relocate f es).find? p = relocate f (es.find? p) := by
  have hp : p ∘ relocate f = p := funext h
  have hmap : (es.map (relocate f)).find? p = (es.find? (p ∘ relocate f)).map (relocate f) :=
    List.find?_map ..
  rw [hp] at hmap
  exact hmap

theorem relocate_bind [Placed α] [Placed β] {o : Option α} {k l : α → Option β}
    (h : ∀ a, l (relocate f a) = relocate f (k a)) :
    (relocate f o >>= l) = relocate f (o >>= k) := by
  rcases o with - | a
  · rfl
  · exact h a

/-- The two forms of permissions are the same entries, and the later one stays the later one. -/
theorem formConflict?_relocate (f : Relocation) (what : String) (es : List Entry) :
    formConflict? what (relocate f es) = relocate f (formConflict? what es) := by
  have hcandidates : (relocate f es).filter (fun e => e.key.value == permissionsKey) =
      relocate f (es.filter fun e => e.key.value == permissionsKey) := List.filter_map ..
  simp only [formConflict?, hcandidates]
  generalize es.filter (fun e => e.key.value == permissionsKey) = candidates
  rw [find?_relocate_of f (fun e => by rw [Entry.value_relocate, Node.text?_relocate]),
    find?_relocate_of f (fun e => by
      rw [Entry.value_relocate, Node.entries?_relocate]
      exact Option.isSome_map ..)]
  refine relocate_bind fun blanket => relocate_bind fun perScope => ?_
  rw [Entry.value_relocate, Node.text?_relocate]
  rcases blanket.value.text? with - | word
  · rfl
  · have hlater : (f blanket.key.pos).later (f perScope.key.pos) =
        f (blanket.key.pos.later perScope.key.pos) := f.later_eq _ _
    refine congrArg some ?_
    show Problem.mk _ ((f blanket.key.pos).later (f perScope.key.pos)) = _
    rw [hlater]
    rfl

theorem moved_readWithPermissions (f : Relocation) (what : String) (n : Node) :
    (readWithPermissions what n).Moved f (readWithPermissions what (n.relocate f)) := by
  refine (Entry.moved_readAll f what n).andThen fun es => ?_
  rw [formConflict?_relocate]
  rcases formConflict? what es with - | p
  · exact (moved_distinct f what [] es).some
  · exact (relocated_reportAll [p]).bind fun _ _ _ => (moved_distinct f what _ es).some

theorem moved_withinOwner [Placed α] {n : Node} {k l : Section → Checked (Option α)}
    (h : ∀ s, (k s).Moved f (l (relocate f s))) :
    (withinOwner what n k).Moved f (withinOwner what (n.relocate f) l) :=
  (moved_readWithPermissions f what n).andThen h

/-! ### Free keys -/

theorem moved_sectionCollect [Placed α] {read : Entry → Checked (Option α)}
    (h : ∀ e, (read e).Moved f (read (relocate f e))) (s : Section) :
    (s.collect read).Moved f ((relocate f s).collect read) where
  value := by
    apply Keyed.eq_of_entries
    rw [Keyed.entries_relocate]
    simp only [collect, keyed, entries_relocate, List.filterMap_map, List.map_filterMap]
    show (s.entries.map (relocate f)).filterMap _ = _
    rw [List.filterMap_map]
    congr 1
    funext e
    simp only [Function.comp_apply, (h e).value]
    rcases (read e).value with - | a <;> rfl
  problems := by
    simp only [collect, entries_relocate, List.flatMap_map]
    show (s.entries.map (relocate f)).flatMap _ = (s.entries.flatMap _).map _
    rw [List.flatMap_map, List.map_flatMap]
    congr 1
    funext e
    exact (h e).problems

theorem moved_free [Placed α] {n : Node} {read : Entry → Checked (Option α)}
    (h : ∀ e, (read e).Moved f (read (relocate f e))) :
    (within what n fun s => some <$> s.collect read).Moved f
      (within what (n.relocate f) fun s => some <$> s.collect read) :=
  moved_within fun s => (moved_sectionCollect h s).some

end Section

end WorkflowTree
