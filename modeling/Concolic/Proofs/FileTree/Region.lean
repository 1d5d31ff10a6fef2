/-
# Trees that grow below a directory

Several workers may write below one directory, each within an entry of its own.  A path that
does not lead below that directory leads to the same place in every tree that comes about then,
and the same node stands there, so it does not matter what has been written before it is
followed.  A path can also lead nowhere: then following it breaks off at some place, and it
goes on breaking off there unless that place lies below the directory.
-/
import Concolic.Proofs.FileTree.Placement

namespace Concolic.FileTree

variable {t t' t'' : FileTree} {base place q r : Location} {name name' : Bytes} {p : Path}
  {pieces : List Bytes}

/-! ## Regions of a tree -/

/-- The place lies below the directory at `base`. -/
def Below (base q : Location) : Prop := ∃ name rest, q = base ++ name :: rest

/-- The place is that of the entry `name` in the directory at `base`, or lies below it. -/
def Within (base : Location) (name : Bytes) (q : Location) : Prop :=
  ∃ rest, q = base ++ name :: rest

lemma below_iff : Below base q ↔ base <+: q ∧ base.length < q.length := by
  constructor
  · rintro ⟨name, rest, rfl⟩
    exact ⟨List.prefix_append _ _, by simp⟩
  · rintro ⟨⟨rest, rfl⟩, hlen⟩
    obtain ⟨name, rest, rfl⟩ := List.exists_cons_of_ne_nil
      (show rest ≠ [] by rintro rfl; simp at hlen)
    exact ⟨name, rest, rfl⟩

instance : Decidable (Below base q) := decidable_of_iff' _ below_iff

lemma within_self : Within base name (base ++ [name]) := ⟨[], rfl⟩

lemma Within.below (h : Within base name q) : Below base q := ⟨name, h⟩

lemma Within.append (h : Within base name q) (rest : Location) : Within base name (q ++ rest) := by
  obtain ⟨first, rfl⟩ := h
  exact ⟨first ++ rest, by simp⟩

lemma Within.ne_nil (h : Within base name q) : q ≠ [] := by
  obtain ⟨rest, rfl⟩ := h
  simp

/-- No place lies within two entries. -/
lemma Within.name_eq (h : Within base name q) (h' : Within base name' q) : name = name' := by
  obtain ⟨rest, rfl⟩ := h
  obtain ⟨rest', heq⟩ := h'
  exact (List.cons.inj (List.append_cancel_left heq)).1

/-- The second tree has grown from the first one, and only below the directory at `base`. -/
structure GrowsBelow (base : Location) (t t' : FileTree) : Prop extends Grows t t' where
  same : ∀ {q}, ¬ Below base q → t'.node? q = t.node? q

/-- The same stands in both trees within an entry. -/
def SameWithin (base : Location) (name : Bytes) (t t' : FileTree) : Prop :=
  ∀ q, Within base name q → t'.node? q = t.node? q

lemma GrowsBelow.refl (base : Location) (t : FileTree) : GrowsBelow base t t :=
  ⟨Grows.refl t, fun _ => rfl⟩

/-- A tree that goes on growing within an entry goes on growing below the directory. -/
lemma GrowsBelow.trans_within (h : GrowsBelow base t t') (hg : Grows t' t'')
    (hframe : ∀ q, ¬ Within base name q → t''.node? q = t'.node? q) : GrowsBelow base t t'' where
  toGrows := h.toGrows.trans hg
  same hq := (hframe _ fun hw => hq hw.below).trans (h.same hq)

lemma SameWithin.put (h : SameWithin base name t t') (hplace : Within base name place)
    (node : Node) : SameWithin base name (t.put place node) (t'.put place node) := by
  intro q hq
  by_cases heq : q = place
  · rw [heq, node?_put_self hplace.ne_nil, node?_put_self hplace.ne_nil]
  · rw [node?_put_of_ne heq, node?_put_of_ne heq, h q hq]

/-! ## Where a path leads or breaks off -/

/-- How the first piece is followed: it stands for the directory itself, for the one above, or
for an entry. -/
lemma follow_cons_cases {piece : Bytes} {rest : List Bytes}
    (h : t.follow place (piece :: rest) = .ok q) :
    t.node? place = some .directory ∧
      ((piece = [] ∨ piece = Path.here) ∧ t.follow place rest = .ok q ∨
        piece = Path.up ∧ t.follow place.dropLast rest = .ok q ∨
        ¬ (piece = [] ∨ piece = Path.here) ∧ piece ≠ Path.up ∧ piece.length ≤ nameLimit ∧
          t.node? (place ++ [piece]) ≠ none ∧ t.follow (place ++ [piece]) rest = .ok q) := by
  rw [follow] at h
  split at h
  · exact absurd h (by simp)
  rename_i hdir
  refine ⟨not_not.mp hdir, ?_⟩
  split at h
  · rename_i hstay
    exact .inl ⟨by simpa using hstay, h⟩
  rename_i hstay
  split at h
  · exact .inr (.inl ⟨‹_›, h⟩)
  rename_i hup
  split at h
  · exact absurd h (by simp)
  rename_i hlen
  rcases hnode : t.node? (place ++ [piece]) with _ | node
  · rw [hnode] at h
    exact absurd h (by simp)
  · rw [hnode] at h
    exact .inr (.inr ⟨by simpa using hstay, hup, by omega, by simp, h⟩)

/-- The place where following the pieces ends or breaks off. -/
def reachFrom (t : FileTree) (place : Location) : List Bytes → Location
  | [] => place
  | piece :: rest =>
    if t.node? place ≠ some .directory then place
    else if piece = [] || piece = Path.here then t.reachFrom place rest
    else if piece = Path.up then t.reachFrom place.dropLast rest
    else if nameLimit < piece.length then place
    else match t.node? (place ++ [piece]) with
      | none => place ++ [piece]
      | some _ => t.reachFrom (place ++ [piece]) rest

/-- The directory where a path starts. -/
def origin (t : FileTree) (p : Path) : Location := if p.isAbsolute then [] else t.current

/-- The place where following the path ends or breaks off. -/
def reach (t : FileTree) (p : Path) : Location := t.reachFrom (t.origin p) p.pieces

/-- The path neither leads below the directory at `base` nor breaks off there. -/
def Clear (t : FileTree) (base : Location) (p : Path) : Prop := ¬ Below base (t.reach p)

instance : Decidable (t.Clear base p) := inferInstanceAs (Decidable (¬ Below base (t.reach p)))

lemma start_eq_ok (h : t.start p = .ok place) : place = t.origin p := by
  unfold start at h
  split at h
  · exact absurd h (by simp)
  split at h
  · exact absurd h (by simp)
  split at h
  · exact absurd h (by simp)
  · exact (Except.ok.inj h).symm

lemma follow_of_locate (h : t.locate p = .ok q) : t.follow (t.origin p) p.pieces = .ok q := by
  unfold locate at h
  split at h
  · exact absurd h (by simp)
  · rename_i hstart
    rwa [start_eq_ok hstart] at h

lemma Grows.origin (hg : Grows t t') : t'.origin p = t.origin p := by
  unfold FileTree.origin
  rw [hg.current]

lemma reachFrom_of_follow (h : t.follow place pieces = .ok q) : t.reachFrom place pieces = q := by
  induction pieces generalizing place with
  | nil => exact Except.ok.inj h
  | cons piece rest ih =>
    rw [reachFrom]
    obtain ⟨hdir, ⟨hstay, h⟩ | ⟨hup, h⟩ | ⟨hstay, hup, hlen, hthere, h⟩⟩ := follow_cons_cases h
    · rw [if_neg (not_not.mpr hdir), if_pos (by simpa using hstay)]
      exact ih h
    · rw [if_neg (not_not.mpr hdir), if_neg (by simp [hup, Path.up, Path.here]), if_pos hup]
      exact ih h
    · rw [if_neg (not_not.mpr hdir), if_neg (by simpa using hstay), if_neg hup,
        if_neg (by omega)]
      obtain ⟨node, hnode⟩ := Option.ne_none_iff_exists'.mp hthere
      rw [hnode]
      exact ih h

/-- Pieces that do not lead below the directory, or break off there, are followed as before. -/
lemma GrowsBelow.follow_eq (hg : GrowsBelow base t t')
    (hclear : ¬ Below base (t.reachFrom place pieces)) :
    t'.follow place pieces = t.follow place pieces := by
  induction pieces generalizing place with
  | nil => rfl
  | cons piece rest ih =>
    rw [reachFrom] at hclear
    rw [follow, follow]
    by_cases hdir : t.node? place = some .directory
    · have hgo : ¬ t.node? place ≠ some .directory := not_not.mpr hdir
      have hgo' : ¬ t'.node? place ≠ some .directory := not_not.mpr (hg.directory hdir)
      rw [if_neg hgo', if_neg hgo]
      rw [if_neg hgo] at hclear
      split at hclear
      · rename_i hstay
        rw [if_pos hstay, if_pos hstay]
        exact ih hclear
      rename_i hstay
      rw [if_neg hstay, if_neg hstay]
      split at hclear
      · rename_i hup
        rw [if_pos hup, if_pos hup]
        exact ih hclear
      rename_i hup
      rw [if_neg hup, if_neg hup]
      split at hclear
      · rename_i hlen
        rw [if_pos hlen, if_pos hlen]
      rename_i hlen
      rw [if_neg hlen, if_neg hlen]
      rcases hnode : t.node? (place ++ [piece]) with _ | node
      · -- the name is missing, and it does not appear later
        rw [hnode] at hclear
        rw [hg.same hclear, hnode]
      · rw [hnode] at hclear
        have hthere : t'.node? (place ++ [piece]) ≠ none := hg.present (by rw [hnode]; simp)
        obtain ⟨node', hnode'⟩ := Option.ne_none_iff_exists'.mp hthere
        rw [hnode']
        exact ih hclear
    · rw [if_pos hdir] at hclear
      rw [hg.same hclear, if_pos hdir, if_pos hdir]

lemma GrowsBelow.locate_eq (hg : GrowsBelow base t t') (hclear : t.Clear base p) :
    t'.locate p = t.locate p := by
  unfold locate
  rw [hg.toGrows.start]
  split
  · rfl
  · rename_i hstart
    rw [start_eq_ok hstart]
    exact hg.follow_eq hclear

/-- What stands where such a path leads does not change. -/
lemma GrowsBelow.node?_of_locate (hg : GrowsBelow base t t') (hclear : t.Clear base p)
    (h : t.locate p = .ok q) : ¬ Below base q ∧ t'.node? q = t.node? q := by
  have hq : ¬ Below base q := reachFrom_of_follow (follow_of_locate h) ▸ hclear
  exact ⟨hq, hg.same hq⟩

lemma GrowsBelow.at?_eq (hg : GrowsBelow base t t') (hclear : t.Clear base p) :
    t'.at? p = t.at? p := by
  unfold at?
  rw [hg.locate_eq hclear]
  rcases h : t.locate p with e | q
  · rfl
  · exact (hg.node?_of_locate hclear h).2

lemma GrowsBelow.isFile_eq (hg : GrowsBelow base t t') (hclear : t.Clear base p) :
    t'.isFile p = t.isFile p := by
  unfold isFile
  rw [hg.at?_eq hclear]

lemma GrowsBelow.read_eq (hg : GrowsBelow base t t') (hclear : t.Clear base p) :
    t'.read p = t.read p := by
  unfold read
  rw [hg.locate_eq hclear]
  rcases h : t.locate p with e | q
  · rfl
  · simp only [(hg.node?_of_locate hclear h).2]

end Concolic.FileTree
