/-
# Where files are made

A path whose last piece is a name leads to an entry of that name.  When a file is made there,
the path leads to it afterwards, in this tree and in every later one, and no other place is
touched; the same holds when the file is filled.  So a file that has been made, filled and not
touched again is read as it was written.
-/
import Concolic.Proofs.FileTree.Growth
import Concolic.Proofs.Path

namespace Concolic.FileTree

variable {t t' t'' : FileTree} {place q r : Location} {p : Path} {name : Bytes}
  {before pieces : List Bytes} {paths : List Path}

/-! ## Following names -/

/-- A piece that leads on to an entry. -/
structure LeadsOn (name : Bytes) : Prop where
  /-- It is a name. -/
  isName : Path.IsName name
  /-- It does not stand for the directory itself. -/
  ne_here : name ≠ Path.here
  /-- It does not stand for the directory above. -/
  ne_up : name ≠ Path.up

instance : DecidablePred LeadsOn := fun name =>
  decidable_of_iff ((name ≠ [] ∧ Path.slash ∉ name) ∧ name ≠ Path.here ∧ name ≠ Path.up)
    ⟨fun ⟨⟨hne, hslash⟩, hhere, hup⟩ => ⟨⟨hne, hslash⟩, hhere, hup⟩,
      fun ⟨⟨hne, hslash⟩, hhere, hup⟩ => ⟨⟨hne, hslash⟩, hhere, hup⟩⟩

lemma follow_append (t : FileTree) (place : Location) (xs ys : List Bytes) :
    t.follow place (xs ++ ys) = (t.follow place xs).bind fun q => t.follow q ys := by
  induction xs generalizing place with
  | nil => rfl
  | cons piece xs ih =>
    rw [List.cons_append, follow, follow]
    split
    · rfl
    split
    · exact ih place
    split
    · exact ih place.dropLast
    split
    · rfl
    split
    · rfl
    · exact ih (place ++ [piece])

lemma follow_append_eq_ok_iff {xs ys : List Bytes} :
    t.follow place (xs ++ ys) = .ok r ↔ ∃ q, t.follow place xs = .ok q ∧ t.follow q ys = .ok r := by
  rw [follow_append]
  rcases t.follow place xs with e | q <;> simp [Except.bind]

/-- Behind a path, an empty piece asks for a directory. -/
lemma follow_nil_piece_eq_ok_iff :
    t.follow q [[]] = .ok r ↔ t.node? q = some .directory ∧ r = q := by
  rw [follow]
  split
  · rename_i hdir
    simp [hdir]
  · rename_i hdir
    simp [not_not.mp hdir, follow, eq_comm]

/-- A directory is not left by following pieces that stand for nothing. -/
lemma follow_cons_of_stays {piece : Bytes} {rest : List Bytes}
    (hdir : t.node? place = some .directory) (hstay : piece = [] ∨ piece = Path.here) :
    t.follow place (piece :: rest) = t.follow place rest := by
  rw [follow, if_neg (not_not.mpr hdir), if_pos (by simpa using hstay)]

lemma follow_replicate (hdir : t.node? place = some .directory) (count : Nat) :
    t.follow place (List.replicate count []) = .ok place := by
  induction count with
  | zero => rfl
  | succ count ih => rw [List.replicate_succ, follow_cons_of_stays hdir (.inl rfl), ih]

/-- A name that leads on leads to the entry of that name. -/
lemma follow_name_eq_ok_iff (hn : LeadsOn name) {rest : List Bytes} :
    t.follow q (name :: rest) = .ok r ↔
      t.node? q = some .directory ∧ name.length ≤ nameLimit ∧ t.node? (q ++ [name]) ≠ none ∧
        t.follow (q ++ [name]) rest = .ok r := by
  have hstay : ¬ (name = [] || name = Path.here) = true := by
    simp [hn.isName.ne_nil, hn.ne_here]
  rw [follow, if_neg hstay, if_neg hn.ne_up]
  by_cases hdir : t.node? q = some .directory
  · by_cases hlen : nameLimit < name.length
    · have hle : ¬ name.length ≤ nameLimit := by omega
      simp [hdir, hlen, hle]
    · have hle : name.length ≤ nameLimit := by omega
      rcases hnode : t.node? (q ++ [name]) with _ | node
      · simp [hdir, hlen]
      · simp [hdir, hle, hlen]
  · simp [hdir]

/-- A path that goes on behind another one starts where that one does. -/
lemma start_of_start_join {q : Path} {s : Location} (hp : p.EndsInName)
    (hq : q.isAbsolute = false) (h : t.start (p.join q) = .ok s) : t.start p = .ok s := by
  rw [Path.join_of_endsInName hp hq] at h
  obtain ⟨b, hb, -⟩ := hp
  have hne : p.bytes ≠ [] := by
    intro hnil
    simp [hnil] at hb
  have habs : (Path.mk (p.bytes ++ Path.slash :: q.bytes)).isAbsolute = p.isAbsolute := by
    obtain ⟨x, xs, hbytes⟩ := List.exists_cons_of_ne_nil hne
    simp [Path.isAbsolute, hbytes]
  unfold start at h ⊢
  rw [habs] at h
  split at h
  · exact absurd h (by simp)
  rename_i hnul
  split at h
  · exact absurd h (by simp)
  split at h
  · exact absurd h (by simp)
  rename_i hlong
  -- what is wrong with the beginning of a path is wrong with the path
  have hnul' : ¬ p.bytes.contains 0 = true := by
    intro hmem
    exact hnul (by simpa using .inl (by simpa using hmem))
  have hempty : ¬ p.bytes.isEmpty = true := by simpa using hne
  have hshort : ¬ pathLimit ≤ p.bytes.length := by
    intro hle
    exact hlong (by simp only [List.length_append]; omega)
  rw [if_neg hnul', if_neg hempty, if_neg hshort, h]

/-- A path that goes on behind another one leads to a place that is reached from the place of
that one. -/
lemma locate_join_eq_ok {q : Path} (hp : p.EndsInName) (hq : q.isAbsolute = false)
    (h : t.locate (p.join q) = .ok r) :
    ∃ place, t.locate p = .ok place ∧ t.follow place q.pieces = .ok r := by
  unfold locate at h
  split at h
  · exact absurd h (by simp)
  rename_i s hstart
  rw [Path.pieces_join hp hq, follow_append_eq_ok_iff] at h
  obtain ⟨place, hplace, hrest⟩ := h
  refine ⟨place, ?_, hrest⟩
  rw [locate, start_of_start_join hp hq hstart]
  exact hplace

/-- A name behind a path leads to an entry of the directory to which the path leads. -/
lemma locate_child_eq_ok (hp : p.EndsInName) (hn : LeadsOn name)
    (h : t.locate (p.child name) = .ok r) :
    ∃ parent, t.locate p = .ok parent ∧ r = parent ++ [name] := by
  obtain ⟨parent, hparent, hlast⟩ := locate_join_eq_ok hp hn.isName.isAbsolute h
  rw [hn.isName.pieces, follow_name_eq_ok_iff hn] at hlast
  obtain ⟨-, -, -, hlast⟩ := hlast
  exact ⟨parent, hparent, (Except.ok.inj hlast).symm⟩

/-! ## Slots -/

/-- Behind the last piece that is not empty there are only empty ones. -/
lemma exists_pieces_eq (pieces : List Bytes) :
    ∃ count, pieces = (pieces.reverse.dropWhile List.isEmpty).reverse
      ++ List.replicate count [] := by
  have hempty : ∀ piece ∈ pieces.reverse.takeWhile List.isEmpty, piece = [] := by
    intro piece hpiece
    simpa using List.all_eq_true.mp List.all_takeWhile piece hpiece
  refine ⟨(pieces.reverse.takeWhile List.isEmpty).length, ?_⟩
  have hsplit := congrArg List.reverse
    (List.takeWhile_append_dropWhile (p := List.isEmpty) (l := pieces.reverse))
  rw [List.reverse_append, List.reverse_reverse, List.eq_replicate_of_mem hempty,
    List.reverse_replicate] at hsplit
  exact hsplit.symm

/-- The slot of a path is the place of its last piece that is not empty, which is a name, in the
directory to which the pieces before it lead. -/
lemma exists_of_slot_eq_place {slashed : Bool} (h : t.slot p = .ok (.place place slashed)) :
    ∃ start before name count parent, t.start p = .ok start ∧
      p.pieces = before ++ name :: List.replicate count [] ∧ LeadsOn name ∧
      name.length ≤ nameLimit ∧ t.follow start before = .ok parent ∧
      t.node? parent = some .directory ∧ place = parent ++ [name] := by
  obtain ⟨count, hpieces⟩ := exists_pieces_eq p.pieces
  unfold slot at h
  split at h
  · exact absurd h (by simp)
  rename_i start hstart
  rcases List.eq_nil_or_concat (p.pieces.reverse.dropWhile List.isEmpty).reverse
    with hkept | ⟨before, name, hkept⟩
  · rw [hkept] at h
    exact absurd h (by simp)
  rw [List.concat_eq_append] at hkept
  simp only [hkept, List.getLast?_concat, List.dropLast_concat] at h
  split at h
  · exact absurd h (by simp)
  rename_i parent hparent
  split at h
  · exact absurd h (by simp)
  rename_i hspecial
  split at h
  · exact absurd h (by simp)
  rename_i hlen
  obtain ⟨rfl, -⟩ := Slot.place.inj (Except.ok.inj h)
  obtain ⟨middle, hmiddle, hdir⟩ := follow_append_eq_ok_iff.mp hparent
  obtain ⟨hdir, rfl⟩ := follow_nil_piece_eq_ok_iff.mp hdir
  rw [hkept] at hpieces
  have hmem : name ∈ p.pieces := by
    rw [hpieces]
    simp
  have hne : name ≠ [] := by
    have hhead := List.head?_dropWhile_not List.isEmpty p.pieces.reverse
    rw [← List.reverse_reverse (p.pieces.reverse.dropWhile List.isEmpty), hkept] at hhead
    simpa using hhead
  have hname : LeadsOn name := ⟨⟨hne, Bytes.not_mem_of_mem_splitOn hmem⟩,
    fun heq => hspecial (by simp [heq]), fun heq => hspecial (by simp [heq])⟩
  exact ⟨start, before, name, count, parent, hstart, by simpa using hpieces, hname, by omega,
    hmiddle, hdir, rfl⟩

/-- The slot of a path that ends in a name is the place of that name in the directory before
it. -/
lemma slot_eq_place (hp : p.pieces = before ++ [name]) (hn : Path.IsName name) {slashed : Bool}
    (h : t.slot p = .ok (.place place slashed)) :
    LeadsOn name ∧ name.length ≤ nameLimit ∧ ∃ start parent, t.start p = .ok start ∧
      t.follow start before = .ok parent ∧ t.node? parent = some .directory ∧
      place = parent ++ [name] := by
  obtain ⟨start, before', name', count, parent, hstart, hpieces, hname, hlen, hparent, hdir,
    rfl⟩ := exists_of_slot_eq_place h
  rw [hp] at hpieces
  -- the last piece is a name, so no empty pieces are behind it
  obtain rfl : count = 0 := by
    rcases count with _ | count
    · rfl
    · have hlast := congrArg List.getLast? hpieces
      rw [List.replicate_succ', ← List.cons_append, ← List.append_assoc, List.getLast?_concat,
        List.getLast?_concat] at hlast
      exact absurd (Option.some.inj hlast) hn.ne_nil
  obtain ⟨rfl, hlast⟩ := List.append_inj' hpieces rfl
  obtain ⟨rfl, -⟩ := List.cons.inj hlast
  exact ⟨hname, hlen, start, parent, hstart, hparent, hdir, rfl⟩

/-! ## What stands where a path leads -/

lemma at?_eq_some_iff {node : Node} : t.at? p = some node ↔
    ∃ place, t.locate p = .ok place ∧ t.node? place = some node := by
  rw [at?]
  rcases t.locate p with e | place <;> simp

/-- What a path leads to is the same in a grown tree if it has not changed where it stands. -/
lemma Grows.at?_eq (hg : Grows t t') (hthere : t.at? p ≠ none)
    (hkept : ∀ place, t.locate p = .ok place → t.node? place ≠ none →
      t'.node? place = t.node? place) : t'.at? p = t.at? p := by
  obtain ⟨node, hnode⟩ := Option.ne_none_iff_exists'.mp hthere
  obtain ⟨place, hplace, hnode'⟩ := at?_eq_some_iff.mp hnode
  rw [hnode, at?_eq_some_iff]
  exact ⟨place, hg.locate hplace, (hkept place hplace (by simp [hnode'])).trans hnode'⟩

/-! ## Making directories -/

lemma isDirectory_iff : t.isDirectory p = true ↔
    ∃ place, t.locate p = .ok place ∧ t.node? place = some .directory := by
  rw [isDirectory, at?]
  rcases t.locate p with e | place <;> simp

/-- A directory that has been made is new and stands where its path leads; nothing else has
changed. -/
lemma makeDirectory_eq_ok (h : t.makeDirectory p = .ok t') :
    ∃ place, t.node? place = none ∧ t'.locate p = .ok place ∧
      t'.node? place = some .directory ∧ ∀ q, q ≠ place → t'.node? q = t.node? q := by
  have hg := grows_of_makeDirectory_eq_ok h
  unfold makeDirectory at h
  split at h
  · exact absurd h (by simp)
  · exact absurd h (by simp)
  rename_i place slashed hslot
  split at h
  · exact absurd h (by simp)
  rename_i hnone
  obtain rfl := Except.ok.inj h
  obtain ⟨start, before, name, count, parent, hstart, hpieces, hname, hlen, hparent, hdir, rfl⟩ :=
    exists_of_slot_eq_place hslot
  have hmade : (t.put (parent ++ [name]) .directory).node? (parent ++ [name])
      = some .directory := node?_put_self (by simp)
  refine ⟨parent ++ [name], hnone, ?_, hmade, fun _ hq => node?_put_of_ne hq⟩
  rw [locate, hg.start, hstart]
  simp only [hpieces]
  exact follow_append_eq_ok_iff.mpr ⟨parent, hg.follow hparent,
    (follow_name_eq_ok_iff hname).mpr ⟨hg.directory hdir, hlen, by simp [hmade],
      follow_replicate hmade count⟩⟩

/-- A directory that has been made is there. -/
lemma isDirectory_of_makeDirectory (h : t.makeDirectory p = .ok t') :
    t'.isDirectory p = true := by
  obtain ⟨place, -, hlocate, hmade, -⟩ := makeDirectory_eq_ok h
  exact isDirectory_iff.mpr ⟨place, hlocate, hmade⟩

/-! ### What making directories changes -/

/-- A directory stands at the place where nothing stood. -/
structure IsMade (t t' : FileTree) (q : Location) : Prop where
  missing : t.node? q = none
  made : t'.node? q = some .directory

/-- What is different in the second tree is new there, a directory to which one of the paths
leads. -/
structure GainsAt (paths : List Path) (t t' : FileTree) : Prop extends Grows t t' where
  gain : ∀ q, t'.node? q = t.node? q ∨ IsMade t t' q ∧ ∃ path ∈ paths, t'.locate path = .ok q

namespace GainsAt

lemma refl (paths : List Path) (t : FileTree) : GainsAt paths t t :=
  ⟨Grows.refl t, fun _ => .inl rfl⟩

lemma trans (h : GainsAt paths t t') (h' : GainsAt paths t' t'') : GainsAt paths t t'' where
  toGrows := h.toGrows.trans h'.toGrows
  gain q := by
    rcases h'.gain q with hsame | ⟨hnew, hpath⟩
    · rcases h.gain q with hbefore | ⟨hnew, path, hpath, hplace⟩
      · exact .inl (hsame.trans hbefore)
      · exact .inr ⟨⟨hnew.missing, hsame.trans hnew.made⟩, path, hpath, h'.toGrows.locate hplace⟩
    · rcases h.gain q with hbefore | ⟨hnew', -⟩
      · exact .inr ⟨⟨hbefore.symm.trans hnew.missing, hnew.made⟩, hpath⟩
      · exact nomatch hnew'.made.symm.trans hnew.missing

lemma of_makeDirectory (hp : p ∈ paths) (h : t.makeDirectory p = .ok t') :
    GainsAt paths t t' where
  toGrows := grows_of_makeDirectory_eq_ok h
  gain q := by
    obtain ⟨place, hnone, hplace, hmade, hframe⟩ := makeDirectory_eq_ok h
    by_cases hq : q = place
    · exact .inr ⟨⟨hq ▸ hnone, hq ▸ hmade⟩, p, hp, hq ▸ hplace⟩
    · exact .inl (hframe q hq)

/-- What was there is still the same. -/
lemma at?_eq (h : GainsAt paths t t') (hthere : t.at? p ≠ none) : t'.at? p = t.at? p := by
  refine h.toGrows.at?_eq hthere fun place _ hnode => ?_
  rcases h.gain place with hsame | ⟨hnew, -⟩
  · exact hsame
  · exact absurd hnew.missing hnode

end GainsAt

/-- Whether or not all of them can be made, the directories that are made are those of the paths. -/
lemma gainsAt_makeDirectoriesUnder (t : FileTree) (p : Path) {above : List Path} (hp : p ∈ paths)
    (habove : above ⊆ paths) :
    GainsAt paths t (t.makeDirectoriesUnder p above).2 := by
  induction above generalizing t p with
  | nil =>
    rw [makeDirectoriesUnder]
    split
    · exact .of_makeDirectory hp ‹_›
    · exact .refl paths t
    · exact .refl paths t
  | cons parent above ih =>
    obtain ⟨hparent, habove⟩ := List.cons_subset.mp habove
    rw [makeDirectoriesUnder]
    split
    · exact .of_makeDirectory hp ‹_›
    · -- those above come first
      have hfirst := ih t parent hparent habove
      split
      · rename_i hfail
        rwa [hfail] at hfirst
      · rename_i hdone
        rw [hdone] at hfirst
        split
        · exact hfirst.trans (.of_makeDirectory hp ‹_›)
        · exact hfirst
    · exact .refl paths t

lemma gainsAt_makeDirectories (t : FileTree) (p : Path) :
    GainsAt (p :: p.ancestors) t (t.makeDirectories p).2 :=
  gainsAt_makeDirectoriesUnder t p List.mem_cons_self (List.subset_cons_self _ _)

lemma gainsAt_of_makeDirectories {r : Except SystemFault Unit}
    (h : t.makeDirectories p = (r, t')) : GainsAt (p :: p.ancestors) t t' := by
  have hgains := gainsAt_makeDirectories t p
  rwa [h] at hgains

lemma gainsDirectories_of_makeDirectories {r : Except SystemFault Unit}
    (h : t.makeDirectories p = (r, t')) : GainsDirectories t t' := fun place =>
  ((gainsAt_of_makeDirectories h).gain place).imp_right fun ⟨hnew, _⟩ => ⟨hnew.missing, hnew.made⟩

/-- A directory that is made with those above it is there, unless the path is empty. -/
lemma isDirectory_of_makeDirectoriesUnder {above : List Path} (hne : p.bytes ≠ [])
    (h : t.makeDirectoriesUnder p above = (.ok (), t')) : t'.isDirectory p = true := by
  -- it has been made, or it was there already
  have hthere : ∀ {s : FileTree} {e : SystemFault},
      ((if s.isDirectory p then .ok () else .error e, s) : Except SystemFault Unit × FileTree)
        = (.ok (), t') → t'.isDirectory p = true := by
    intro s e heq
    obtain ⟨hok, rfl⟩ := Prod.mk.inj heq
    by_contra hnot
    rw [if_neg hnot] at hok
    exact absurd hok (by simp)
  cases above with
  | nil =>
    rw [makeDirectoriesUnder] at h
    split at h
    · obtain ⟨-, rfl⟩ := Prod.mk.inj h
      exact isDirectory_of_makeDirectory ‹_›
    · rw [if_neg (by simpa using hne)] at h
      exact absurd (Prod.mk.inj h).1 (by simp)
    · exact hthere h
  | cons parent above =>
    rw [makeDirectoriesUnder] at h
    split at h
    · obtain ⟨-, rfl⟩ := Prod.mk.inj h
      exact isDirectory_of_makeDirectory ‹_›
    · split at h
      · exact absurd (Prod.mk.inj h).1 (by simp)
      · split at h
        · obtain ⟨-, rfl⟩ := Prod.mk.inj h
          exact isDirectory_of_makeDirectory ‹_›
        · exact hthere h
    · exact hthere h

/-! ## Making a file -/

/-- After a file has been made, its path leads to its place, where an empty file stands unless
there is a device; nothing else has changed. -/
lemma create_eq_ok (hp : p.pieces = before ++ [name]) (hn : Path.IsName name)
    (h : t.create p = .ok (place, t')) :
    t'.locate p = .ok place ∧ (∀ q, q ≠ place → t'.node? q = t.node? q) ∧
      (t'.node? place = some (.file []) ∨ t'.node? place = some .device) := by
  have hg := grows_of_create_eq_ok h
  unfold create at h
  split at h
  · exact absurd h (by simp)
  · exact absurd h (by simp)
  rename_i made slashed hslot
  split at h
  · exact absurd h (by simp)
  obtain ⟨hlead, hlen, start, parent, hstart, hparent, hdir, rfl⟩ := slot_eq_place hp hn hslot
  have hnil : parent ++ [name] ≠ [] := by simp
  -- whatever stood there, the place is the one that has been looked up
  have hplace : place = parent ++ [name] ∧ (∀ q, q ≠ parent ++ [name] → t'.node? q = t.node? q) ∧
      (t'.node? (parent ++ [name]) = some (.file []) ∨
        t'.node? (parent ++ [name]) = some .device) := by
    split at h
    · exact absurd h (by simp)
    · rename_i hnode
      obtain ⟨rfl, rfl⟩ := Prod.mk.inj (Except.ok.inj h)
      exact ⟨rfl, fun _ _ => rfl, .inr hnode⟩
    all_goals
      obtain ⟨rfl, rfl⟩ := Prod.mk.inj (Except.ok.inj h)
      exact ⟨rfl, fun _ hq => node?_put_of_ne hq, .inl (node?_put_self hnil)⟩
  obtain ⟨rfl, hframe, hnode⟩ := hplace
  refine ⟨?_, hframe, hnode⟩
  have hthere : t'.node? (parent ++ [name]) ≠ none := by
    rcases hnode with hnode | hnode <;> simp [hnode]
  rw [locate, hg.start, hstart]
  simp only [hp]
  exact follow_append_eq_ok_iff.mpr ⟨parent, hg.follow hparent,
    (follow_name_eq_ok_iff hlead).mpr ⟨hg.directory hdir, hlen, hthere, rfl⟩⟩

lemma node?_fill_of_ne {content : Bytes} (h : q ≠ place) :
    (t.fill place content).node? q = t.node? q := by
  unfold fill
  split
  · exact node?_put_of_ne h
  · rfl

/-- A file that has been filled holds the content; a device stays as it is. -/
lemma node?_fill_self {content : Bytes} (h : (∃ old, t.node? place = some (.file old)) ∨
      t.node? place = some .device) :
    (t.fill place content).node? place = some (.file content) ∨
      (t.fill place content).node? place = some .device := by
  unfold fill
  rcases h with ⟨old, hold⟩ | hdevice
  · have hnil : place ≠ [] := by
      rintro rfl
      exact absurd hold (by simp)
    rw [hold]
    exact .inl (node?_put_self hnil)
  · rw [hdevice]
    exact .inr hdevice

/-- After a file has been filled, it holds the content unless there is a device; nothing else
has changed. -/
lemma write_eq_ok {content : Bytes} (hplace : t.locate p = .ok place)
    (h : t.write p content = .ok t') :
    (∀ q, q ≠ place → t'.node? q = t.node? q) ∧
      (t'.node? place = some (.file content) ∨ t'.node? place = some .device) := by
  rw [write, hplace] at h
  simp only at h
  split at h
  · exact absurd h (by simp)
  · rename_i node hdir hnode
    obtain rfl := Except.ok.inj h
    refine ⟨fun _ hq => node?_fill_of_ne hq, node?_fill_self ?_⟩
    rcases node with _ | old | _
    · exact absurd rfl hdir
    · exact .inl ⟨old, hnode⟩
    · exact .inr hnode
  · exact absurd h (by simp)

/-- A file that has been opened for writing can be filled. -/
lemma exists_write_of_create (hp : p.pieces = before ++ [name]) (hn : Path.IsName name)
    (h : t.create p = .ok (place, t')) (content : Bytes) : ∃ t'', t'.write p content = .ok t'' := by
  obtain ⟨hplace, -, hnode⟩ := create_eq_ok hp hn h
  rw [write, hplace]
  rcases hnode with hnode | hnode <;> simp [hnode]

/-- After a file has been copied, nothing has changed but what stands at the place of the copy. -/
lemma copy_eq_ok {source : Path} (hp : p.pieces = before ++ [name]) (hn : Path.IsName name)
    (h : t.copy source p = .ok t') :
    ∃ place, t'.locate p = .ok place ∧ ∀ q, q ≠ place → t'.node? q = t.node? q := by
  unfold copy at h
  split at h
  · exact absurd h (by simp)
  split at h
  · split at h
    · exact absurd h (by simp)
    · rename_i made _ hcreate
      obtain ⟨hlocate, hframe, -⟩ := create_eq_ok hp hn hcreate
      refine ⟨made, ?_⟩
      split at h
      · obtain rfl := Except.ok.inj h
        refine ⟨(grows_fill _ _ _).locate hlocate, fun q hq => ?_⟩
        rw [node?_fill_of_ne hq, hframe q hq]
      · obtain rfl := Except.ok.inj h
        exact ⟨hlocate, hframe⟩
  · exact absurd h (by simp)

/-- What has been copied is the content of the source, which stands elsewhere, unless there is a
device where the copy goes. -/
lemma node?_copy {source : Path} {content : Bytes} (hp : p.pieces = before ++ [name])
    (hn : Path.IsName name) (hsource : t.locate source = .ok q)
    (hcontent : t.node? q = some (.file content)) (hplace : t'.locate p = .ok place)
    (hne : q ≠ place) (h : t.copy source p = .ok t') :
    t'.node? place = some (.file content) ∨ t'.node? place = some .device := by
  rw [copy, hsource] at h
  simp only [hcontent] at h
  split at h
  · exact absurd h (by simp)
  rename_i made opened hcreate
  obtain ⟨hlocate, hframe, hopened⟩ := create_eq_ok hp hn hcreate
  have hgrown : Grows opened t' := by
    split at h <;> obtain rfl := Except.ok.inj h
    · exact grows_fill _ _ _
    · exact Grows.refl _
  obtain rfl : made = place := Except.ok.inj ((hgrown.locate hlocate).symm.trans hplace)
  -- opening the copy leaves the source as it is
  rw [hframe q hne, hcontent] at h
  obtain rfl := Except.ok.inj h
  exact node?_fill_self (hopened.imp_left fun hempty => ⟨[], hempty⟩)

lemma changed_eq_ok_iff {r : Except SystemFault FileTree} :
    FileOperation.changed t r = (.ok (), t') ↔ r = .ok t' := by
  rcases r with e | made
  · simp [FileOperation.changed]
  · simp [FileOperation.changed]

lemma run_create_eq_ok (h : (FileOperation.create p).run t = (.ok (), t')) :
    ∃ place, t.create p = .ok (place, t') :=
  exists_create_eq_ok (changed_eq_ok_iff.mp h)

lemma read_of_locate {content : Bytes} (hplace : t.locate p = .ok place)
    (hnode : t.node? place = some (.file content)) : t.read p = .ok content := by
  rw [read, hplace]
  simp only [hnode]

lemma read_of_at? {content : Bytes} (h : t.at? p = some (.file content)) :
    t.read p = .ok content := by
  obtain ⟨place, hplace, hnode⟩ := at?_eq_some_iff.mp h
  exact read_of_locate hplace hnode

end Concolic.FileTree
