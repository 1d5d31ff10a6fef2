/-
# Trees of files only grow

No operation removes an entry or replaces a directory, and what an operation adds is a
directory or a regular file.  So a path that leads somewhere leads to the same place in every
later tree.  A tree that can come about from another one in this way is said to have grown
from it, and this is all that most arguments need to know about an operation.  Of making
directories more is shown, that nothing but directories comes of it.
-/
import Concolic.FileTree.Operation
import Mathlib.Tactic.Common

namespace Concolic.FileTree

/-! ## Putting a node at a place -/

variable {t t' t'' : FileTree} {place q : Location} {node : Node} {p : Path}

lemma lookup_putEntry (entries : List (Location × Node)) :
    (putEntry place node entries).lookup q = if q = place then some node else entries.lookup q := by
  induction entries with
  | nil =>
    by_cases hq : q = place
    · simp [putEntry, hq]
    · simp [putEntry, hq, List.lookup_cons, beq_eq_false_iff_ne.mpr hq]
  | cons entry entries ih =>
    obtain ⟨key, old⟩ := entry
    by_cases hkey : key = place
    · by_cases hq : q = place
      · simp [putEntry, hkey, hq]
      · simp [putEntry, hkey, hq, List.lookup_cons, beq_eq_false_iff_ne.mpr hq]
    · rw [putEntry, if_neg hkey, List.lookup_cons, List.lookup_cons, ih]
      by_cases hq : q = key
      · simp [hq, hkey]
      · simp [beq_eq_false_iff_ne.mpr hq]

lemma node?_put_self (h : place ≠ []) : (t.put place node).node? place = some node := by
  rw [node?, if_neg h, put, lookup_putEntry, if_pos rfl]

lemma node?_put_of_ne (h : q ≠ place) : (t.put place node).node? q = t.node? q := by
  unfold node? put
  rw [lookup_putEntry, if_neg h]

@[simp] lemma node?_nil : t.node? [] = some .directory := rfl

/-- There is no device in a tree if no entry is one. -/
lemma node?_ne_device (h : ∀ entry ∈ t.entries, entry.2 ≠ .device) (place : Location) :
    t.node? place ≠ some .device := by
  unfold node?
  split
  · simp
  · intro hlookup
    obtain ⟨before, after, hsplit, -⟩ := List.lookup_eq_some_iff.mp hlookup
    exact h (place, .device) (by rw [hsplit]; simp) rfl

/-! ## Growth -/

/-- The second tree can have come about from the first one by operations. -/
structure Grows (t t' : FileTree) : Prop where
  /-- Relative paths start at the same place. -/
  current : t'.current = t.current
  /-- Directories stay. -/
  directory : ∀ {q}, t.node? q = some .directory → t'.node? q = some .directory
  /-- Nothing disappears. -/
  present : ∀ {q}, t.node? q ≠ none → t'.node? q ≠ none
  /-- Devices are not made. -/
  device : ∀ {q}, t'.node? q = some .device → t.node? q = some .device

lemma Grows.refl (t : FileTree) : Grows t t := ⟨rfl, id, id, id⟩

lemma Grows.trans (h : Grows t t') (h' : Grows t' t'') : Grows t t'' where
  current := h'.current.trans h.current
  directory hq := h'.directory (h.directory hq)
  present hq := h'.present (h.present hq)
  device hq := h.device (h'.device hq)

/-- A tree grows when a directory or a file is put where no directory stands. -/
lemma grows_put (hplace : t.node? place ≠ some .directory) (hnode : node ≠ .device) :
    Grows t (t.put place node) := by
  have hne : place ≠ [] := by
    rintro rfl
    exact hplace rfl
  have hcases : ∀ q, q = place ∧ (t.put place node).node? q = some node ∨
      (t.put place node).node? q = t.node? q := by
    intro q
    by_cases hq : q = place
    · rw [hq]
      exact .inl ⟨rfl, node?_put_self hne⟩
    · exact .inr (node?_put_of_ne hq)
  refine ⟨rfl, ?_, ?_, ?_⟩
  · intro q hq
    rcases hcases q with ⟨rfl, -⟩ | hsame
    · exact absurd hq hplace
    · rw [hsame, hq]
  · intro q hq
    rcases hcases q with ⟨-, hnew⟩ | hsame
    · rw [hnew]
      exact Option.some_ne_none node
    · rwa [hsame]
  · intro q hq
    rcases hcases q with ⟨-, hnew⟩ | hsame
    · rw [hnew] at hq
      exact absurd (Option.some.inj hq) hnode
    · rwa [hsame] at hq

/-- A path is followed in a grown tree as it was before. -/
lemma Grows.follow (hg : Grows t t') {pieces : List Bytes} (h : t.follow place pieces = .ok q) :
    t'.follow place pieces = .ok q := by
  induction pieces generalizing place with
  | nil => exact h
  | cons piece rest ih =>
    rw [FileTree.follow] at h ⊢
    split at h
    · exact absurd h (by simp)
    rename_i hdir
    rw [if_neg (fun hne => hne (hg.directory (not_not.mp hdir)))]
    split at h
    · rename_i hstay
      rw [if_pos hstay]
      exact ih h
    rename_i hstay
    rw [if_neg hstay]
    split at h
    · rename_i hup
      rw [if_pos hup]
      exact ih h
    rename_i hup
    rw [if_neg hup]
    split at h
    · exact absurd h (by simp)
    rename_i hlen
    rw [if_neg hlen]
    split at h
    · exact absurd h (by simp)
    · -- another node may stand there now, but something does
      rename_i node hnode
      have hthere : t'.node? (place ++ [piece]) ≠ none := hg.present (by rw [hnode]; simp)
      obtain ⟨node', hnode'⟩ := Option.ne_none_iff_exists'.mp hthere
      rw [hnode']
      exact ih h

lemma Grows.start (hg : Grows t t') : t'.start p = t.start p := by
  unfold FileTree.start
  rw [hg.current]

lemma Grows.locate (hg : Grows t t') (h : t.locate p = .ok q) : t'.locate p = .ok q := by
  unfold FileTree.locate at h ⊢
  rw [hg.start]
  split at h
  · exact absurd h (by simp)
  · exact hg.follow h

/-! ## Operations -/

lemma grows_of_makeDirectory_eq_ok (h : t.makeDirectory p = .ok t') : Grows t t' := by
  unfold makeDirectory at h
  split at h
  · exact absurd h (by simp)
  · exact absurd h (by simp)
  · split at h
    · exact absurd h (by simp)
    · rename_i hnone
      obtain rfl := Except.ok.inj h
      exact grows_put (by rw [hnone]; simp) (by simp)

lemma grows_makeDirectoriesUnder (t : FileTree) (p : Path) (above : List Path) :
    Grows t (t.makeDirectoriesUnder p above).2 := by
  induction above generalizing t p with
  | nil =>
    rw [makeDirectoriesUnder]
    split
    · exact grows_of_makeDirectory_eq_ok ‹_›
    · exact Grows.refl t
    · exact Grows.refl t
  | cons parent above ih =>
    rw [makeDirectoriesUnder]
    split
    · exact grows_of_makeDirectory_eq_ok ‹_›
    · -- the directories above are made first, and then the directory itself
      have habove := ih t parent
      split
      · rename_i hfail
        rwa [hfail] at habove
      · rename_i hdone
        rw [hdone] at habove
        split
        · exact habove.trans (grows_of_makeDirectory_eq_ok ‹_›)
        · exact habove
    · exact Grows.refl t

lemma grows_of_create_eq_ok (h : t.create p = .ok (place, t')) : Grows t t' := by
  unfold create at h
  split at h
  · exact absurd h (by simp)
  · exact absurd h (by simp)
  split at h
  · exact absurd h (by simp)
  split at h
  · exact absurd h (by simp)
  · obtain ⟨-, rfl⟩ := Prod.mk.inj (Except.ok.inj h)
    exact Grows.refl t
  all_goals
    rename_i hnode
    obtain ⟨-, rfl⟩ := Prod.mk.inj (Except.ok.inj h)
    exact grows_put (by rw [hnode]; simp) (by simp)

lemma exists_create_eq_ok (h : (t.create p).map Prod.snd = .ok t') :
    ∃ place, t.create p = .ok (place, t') := by
  rcases hcreate : t.create p with e | ⟨place, made⟩
  · rw [hcreate] at h
    exact absurd h (by simp [Except.map])
  · rw [hcreate] at h
    obtain rfl : made = t' := Except.ok.inj h
    exact ⟨place, rfl⟩

lemma grows_fill (t : FileTree) (place : Location) (content : Bytes) :
    Grows t (t.fill place content) := by
  unfold fill
  split
  · rename_i hnode
    exact grows_put (by rw [hnode]; simp) (by simp)
  · exact Grows.refl t

lemma grows_of_write_eq_ok {content : Bytes} (h : t.write p content = .ok t') : Grows t t' := by
  unfold write at h
  split at h
  · exact absurd h (by simp)
  split at h
  · exact absurd h (by simp)
  · obtain rfl := Except.ok.inj h
    exact grows_fill t _ content
  · exact absurd h (by simp)

lemma grows_of_copy_eq_ok {source target : Path} (h : t.copy source target = .ok t') :
    Grows t t' := by
  unfold copy at h
  split at h
  · exact absurd h (by simp)
  split at h
  · split at h
    · exact absurd h (by simp)
    · rename_i hcreate
      have hmade := grows_of_create_eq_ok hcreate
      split at h
      · obtain rfl := Except.ok.inj h
        exact hmade.trans (grows_fill _ _ _)
      · obtain rfl := Except.ok.inj h
        exact hmade
  · exact absurd h (by simp)

lemma grows_changed {r : Except SystemFault FileTree} (h : ∀ t', r = .ok t' → Grows t t') :
    Grows t (FileOperation.changed t r).2 := by
  cases r with
  | error e => exact Grows.refl t
  | ok t' => exact h t' rfl

/-- **Every operation lets a tree grow.** -/
lemma grows_run (t : FileTree) (op : FileOperation) : Grows t (op.run t).2 := by
  cases op with
  | isFile | isDirectory | read | list => exact Grows.refl t
  | makeDirectories path => exact grows_makeDirectoriesUnder t path path.ancestors
  | create path =>
    refine grows_changed fun t' h => ?_
    obtain ⟨place, hcreate⟩ := exists_create_eq_ok h
    exact grows_of_create_eq_ok hcreate
  | write path content => exact grows_changed fun t' h => grows_of_write_eq_ok h
  | copy source target => exact grows_changed fun t' h => grows_of_copy_eq_ok h

/-! ## Directories that are made -/

/-- The second tree is the first one with more directories. -/
def GainsDirectories (t t' : FileTree) : Prop :=
  ∀ place, t'.node? place = t.node? place ∨
    t.node? place = none ∧ t'.node? place = some .directory

lemma GainsDirectories.trans (h : GainsDirectories t t') (h' : GainsDirectories t' t'') :
    GainsDirectories t t'' := by
  intro place
  rcases h' place with hsame | ⟨hnone, hmade⟩
  · rcases h place with hbefore | ⟨hnone, hmade⟩
    · exact .inl (hsame.trans hbefore)
    · exact .inr ⟨hnone, hsame.trans hmade⟩
  · rcases h place with hbefore | ⟨-, hmade'⟩
    · exact .inr ⟨hbefore.symm.trans hnone, hmade⟩
    · rw [hmade'] at hnone
      exact nomatch hnone

end Concolic.FileTree
