/-
# Operations that keep to one entry

Looking at a path that is clear of the common directory, and making, filling and copying to
paths that lead through one entry of it, are steps that stay within this entry.

An operation that changes a tree first looks at it, and then it fails or puts one node
somewhere (`Edit`).  So what has to be shown for it is that it finds the same in trees that
differ only outside the entry, and that it aims at a place within.  Making several directories
and copying are put together from such operations.
-/
import Concolic.Proofs.FileTree.Footprint

namespace Concolic.FileTree

variable {α : Type} {t₀ t t' : FileTree} {base place q : Location} {name x : Bytes}
  {p source : Path} {rest : List Bytes}

/-! ## Edits -/

/-- What an operation makes of a tree: a fault, or an answer and perhaps a node to be put at a
place. -/
abbrev Edit (α : Type) := Except SystemFault (α × Option (Location × Node))

/-- Carries an edit out; a fault leaves the tree as it is. -/
def edited (t : FileTree) : Edit α → Except SystemFault α × FileTree
  | .error e => (.error e, t)
  | .ok (a, none) => (.ok a, t)
  | .ok (a, some (place, node)) => (.ok a, t.put place node)

/-- An edit that is found by looking within the entry, and that aims there, stays there. -/
lemma stays_edited {edit : FileTree → Edit α}
    (hcongr : ∀ {t t'}, GrowsBelow base t₀ t → GrowsBelow base t₀ t' →
      SameWithin base name t t' → edit t' = edit t)
    (haim : ∀ {t a q node}, GrowsBelow base t₀ t → edit t = .ok (a, some (q, node)) →
      Within base name q ∧ t.node? q ≠ some .directory ∧ node ≠ .device) :
    Stays t₀ base name fun t => edited t (edit t) where
  grows {t} ht := by
    rcases he : edit t with e | ⟨a, _ | ⟨q, node⟩⟩
    · exact Grows.refl t
    · exact Grows.refl t
    · obtain ⟨-, hdir, hnode⟩ := haim ht he
      exact grows_put hdir hnode
  frame {t} ht r hr := by
    rcases he : edit t with e | ⟨a, _ | ⟨q, node⟩⟩
    · rfl
    · rfl
    · obtain ⟨hq, -⟩ := haim ht he
      exact node?_put_of_ne fun heq => hr (heq ▸ hq)
  congr {t t'} ht ht' hsame := by
    rw [hcongr ht ht' hsame]
    rcases he : edit t with e | ⟨a, _ | ⟨q, node⟩⟩
    · exact ⟨rfl, hsame⟩
    · exact ⟨rfl, hsame⟩
    · obtain ⟨hq, -⟩ := haim ht he
      exact ⟨rfl, hsame.put hq node⟩

/-! ## Looking -/

lemma stays_isFile (hclear : t₀.Clear base p) :
    Stays t₀ base name (FileOperation.isFile p).run :=
  .of_query fun ht ht' _ => (ht'.isFile_eq hclear).trans (ht.isFile_eq hclear).symm

lemma stays_read (hclear : t₀.Clear base p) : Stays t₀ base name (FileOperation.read p).run :=
  .of_query fun ht ht' _ => (ht'.read_eq hclear).trans (ht.read_eq hclear).symm

lemma Leads.isDirectory_congr (h : t₀.Leads base p (name :: rest)) (ht : GrowsBelow base t₀ t)
    (ht' : GrowsBelow base t₀ t') (hsame : SameWithin base name t t') :
    t'.isDirectory p = t.isDirectory p := by
  unfold isDirectory at?
  rw [h.locate_congr ht ht' hsame]
  rcases hlocate : t.locate p with e | q
  · rfl
  · simp only [hsame q (h.within_of_locate ht hlocate)]

/-! ## Making directories -/

/-- What making one directory comes to. -/
def makeEdit (p : Path) (t : FileTree) : Edit Unit :=
  match t.slot p with
  | .error e => .error e
  | .ok .taken => .error .alreadyExists
  | .ok (.place q _) =>
    match t.node? q with
    | some _ => .error .alreadyExists
    | none => .ok ((), some (q, .directory))

/-- Makes one directory. -/
def make (p : Path) (t : FileTree) : Except SystemFault Unit × FileTree := edited t (makeEdit p t)

lemma changed_makeDirectory (p : Path) (t : FileTree) :
    FileOperation.changed t (t.makeDirectory p) = make p t := by
  rw [makeDirectory, make, makeEdit]
  rcases t.slot p with e | _ | ⟨q, slashed⟩
  · rfl
  · rfl
  · simp only
    rcases t.node? q with _ | node <;> rfl

lemma stays_make (h : t₀.Leads base p (name :: rest)) : Stays t₀ base name (make p) := by
  refine stays_edited ?_ ?_
  · intro t t' ht ht' hsame
    rw [makeEdit, makeEdit, h.slot_congr ht ht' hsame]
    split
    · rfl
    · rfl
    · rename_i hslot
      rw [hsame _ (h.within_of_slot ht hslot)]
  · intro t a q node ht he
    rw [makeEdit] at he
    split at he
    · exact absurd he (by simp)
    · exact absurd he (by simp)
    rename_i hslot
    split at he
    · exact absurd he (by simp)
    rename_i hnone
    obtain ⟨-, haim⟩ := Prod.mk.inj (Except.ok.inj he)
    obtain ⟨rfl, rfl⟩ := Prod.mk.inj (Option.some.inj haim)
    exact ⟨h.within_of_slot ht hslot, by simp [hnone], by simp⟩

/-- What making a directory comes to if it does not matter whether it was there before. -/
def settled (p : Path) (r : Except SystemFault Unit) (t : FileTree) : Except SystemFault Unit :=
  match r with
  | .ok _ => .ok ()
  | .error e => if t.isDirectory p then .ok () else .error e

/-- Makes one directory, unless it is there. -/
def ensure (p : Path) (t : FileTree) : Except SystemFault Unit × FileTree :=
  (settled p (make p t).1 (make p t).2, (make p t).2)

lemma stays_settled (h : t₀.Leads base p (name :: rest)) (r : Except SystemFault Unit) :
    Stays t₀ base name fun t => (settled p r t, t) := by
  refine .of_query fun ht ht' hsame => ?_
  unfold settled
  rw [h.isDirectory_congr ht ht' hsame]

lemma stays_ensure (h : t₀.Leads base p (name :: rest)) : Stays t₀ base name (ensure p) :=
  (stays_make h).bind (g := fun r t => (settled p r t, t)) fun _ => stays_settled h _

lemma Leads.start_ne_notFound (h : t.Leads base p (name :: rest)) :
    t.start p ≠ .error .notFound := by
  -- only the empty path fails like this, and it has no name
  have hne : ¬ p.bytes.isEmpty = true := by
    intro hempty
    obtain ⟨stem, hpieces, -⟩ := h.stem
    have hmem : name ∈ p.pieces := by simp [hpieces]
    rw [Path.pieces, List.isEmpty_iff.mp hempty, Bytes.splitOn, List.mem_singleton] at hmem
    exact (h.leadsOn name List.mem_cons_self).isName.ne_nil hmem
  unfold start
  split
  · simp
  · split <;> simp

/-- The directory that the entry is can be made without making one above it. -/
lemma Leads.makeDirectory_ne_notFound (h : t.Leads base p [name]) :
    t.makeDirectory p ≠ .error .notFound := by
  have hslot := Leads.slot_eq (show t.Leads base p ([] ++ [name]) from h)
  rw [List.nil_append, follow_nil_piece_eq_ok_iff.mpr ⟨h.directory, rfl⟩] at hslot
  have hne := h.start_ne_notFound
  rw [makeDirectory, hslot]
  rcases hstart : t.start p with e | start
  · rw [hstart] at hne
    simpa using hne
  · by_cases hlen : nameLimit < name.length
    · simp [hlen]
    · simp only [hlen, if_false]
      rcases t.node? (base ++ [name]) with _ | node <;> simp

/-- If a directory can be made without one above it, those above it are not touched. -/
lemma makeDirectoriesUnder_eq_ensure (h : t.makeDirectory p ≠ .error .notFound)
    (above : List Path) : t.makeDirectoriesUnder p above = ensure p t := by
  rw [ensure, ← changed_makeDirectory]
  cases above with
  | nil =>
    rw [makeDirectoriesUnder]
    split
    · rename_i hmake
      rw [hmake]
      rfl
    · exact absurd ‹_› h
    · rename_i hmake
      rw [hmake]
      rfl
  | cons parent above =>
    rw [makeDirectoriesUnder]
    split
    · rename_i hmake
      rw [hmake]
      rfl
    · exact absurd ‹_› h
    · rename_i hmake
      rw [hmake]
      rfl

/-- What making two directories, one in the other, comes to after a first attempt. -/
def makeBoth (parent p : Path) (r : Except SystemFault Unit) (t : FileTree) :
    Except SystemFault Unit × FileTree :=
  match r with
  | .error .notFound =>
    match (ensure parent t).1 with
    | .error e => (.error e, (ensure parent t).2)
    | .ok _ => ensure p (ensure parent t).2
  | r => (settled p r t, t)

lemma makeDirectoriesUnder_cons_eq {parent : Path}
    (h : t.makeDirectory parent ≠ .error .notFound) (above : List Path) :
    t.makeDirectoriesUnder p (parent :: above) = makeBoth parent p (make p t).1 (make p t).2 := by
  rw [makeDirectoriesUnder, ← changed_makeDirectory, makeDirectoriesUnder_eq_ensure h]
  split
  · rename_i hmake
    rw [hmake]
    rfl
  · rename_i hmake
    rw [hmake, FileOperation.changed, makeBoth]
    rcases hparent : ensure parent t with ⟨e | _, t'⟩
    · rfl
    · simp only
      rw [ensure, ← changed_makeDirectory]
      split
      · rename_i hagain
        rw [hagain]
        rfl
      · rename_i hagain
        rw [hagain]
        rfl
  · rename_i hne hmake
    rw [hmake, FileOperation.changed, makeBoth]
    · rfl
    · simpa using hne

/-- The directory of an entry and one in it are made within the entry. -/
lemma stays_makeDirectories (h : t₀.Leads base p [name, x]) :
    Stays t₀ base name (FileOperation.makeDirectories p).run := by
  have hnames : t₀.Leads base p ([name] ++ [x]) := h
  obtain ⟨parent, above, habove, hparent⟩ := hnames.parent (by simp)
  have hboth : ∀ r, Stays t₀ base name (makeBoth parent p r) := by
    intro r
    unfold makeBoth
    split
    · refine (stays_ensure hparent).bind (g := fun r t => match r with
        | .error e => (.error e, t)
        | .ok _ => ensure p t) fun _ => ?_
      split
      · exact .answer _
      · exact stays_ensure h
    · exact stays_settled h _
  refine ((stays_make h).bind (g := makeBoth parent p) fun _ => hboth _).of_eq fun {t} ht => ?_
  show t.makeDirectories p = _
  rw [makeDirectories, habove]
  exact makeDirectoriesUnder_cons_eq (hparent.of_grows ht.toGrows).makeDirectory_ne_notFound above

/-! ## Making and filling files -/

/-- What making or emptying a file comes to. -/
def createEdit (p : Path) (t : FileTree) : Edit Location :=
  match t.slot p with
  | .error e => .error e
  | .ok .taken => .error .isADirectory
  | .ok (.place q slashed) =>
    if slashed then .error .isADirectory
    else match t.node? q with
      | some .directory => .error .isADirectory
      | some .device => .ok (q, none)
      | some (.file _) => .ok (q, some (q, .file []))
      | none => .ok (q, some (q, .file []))

/-- A made file, whose place is known, in the tree after it. -/
def made (t : FileTree) : Except SystemFault (Location × FileTree) →
    Except SystemFault Location × FileTree
  | .ok (q, t') => (.ok q, t')
  | .error e => (.error e, t)

lemma made_create (p : Path) (t : FileTree) :
    made t (t.create p) = edited t (createEdit p t) := by
  rw [create, createEdit]
  rcases t.slot p with e | _ | ⟨q, slashed⟩
  · rfl
  · rfl
  · cases slashed
    · rcases hnode : t.node? q with _ | _ | _ | _ <;> simp [hnode, made, edited]
    · rfl

lemma createEdit_eq_ok (h : t₀.Leads base p (name :: rest)) (ht : GrowsBelow base t₀ t)
    {aim : Option (Location × Node)} (he : createEdit p t = .ok (q, aim)) :
    Within base name q ∧ ∀ r node, aim = some (r, node) →
      r = q ∧ t.node? r ≠ some .directory ∧ node ≠ .device := by
  rw [createEdit] at he
  split at he
  · exact absurd he (by simp)
  · exact absurd he (by simp)
  rename_i hslot
  split at he
  · exact absurd he (by simp)
  split at he
  · exact absurd he (by simp)
  all_goals
    rename_i hnode
    obtain ⟨rfl, rfl⟩ := Prod.mk.inj (Except.ok.inj he)
    refine ⟨h.within_of_slot ht hslot, ?_⟩
    rintro r node haim
  · exact absurd haim (by simp)
  all_goals
    obtain ⟨rfl, rfl⟩ := Prod.mk.inj (Option.some.inj haim)
    exact ⟨rfl, by simp [hnode], by simp⟩

lemma stays_made (h : t₀.Leads base p (name :: rest)) :
    Stays t₀ base name fun t => made t (t.create p) := by
  have hedit : Stays t₀ base name fun t => edited t (createEdit p t) := by
    refine stays_edited ?_ ?_
    · intro t t' ht ht' hsame
      rw [createEdit, createEdit, h.slot_congr ht ht' hsame]
      split
      · rfl
      · rfl
      · rename_i hslot
        rw [hsame _ (h.within_of_slot ht hslot)]
    · intro t a q node ht he
      obtain ⟨hwithin, haim⟩ := createEdit_eq_ok h ht he
      obtain ⟨rfl, hdir, hnode⟩ := haim q node rfl
      exact ⟨hwithin, hdir, hnode⟩
  exact hedit.of_eq fun _ => made_create p _

lemma stays_create (h : t₀.Leads base p (name :: rest)) :
    Stays t₀ base name (FileOperation.create p).run := by
  refine ((stays_made h).map fun r => r.map fun _ => ()).of_eq fun {t} _ => ?_
  show FileOperation.changed t ((t.create p).map Prod.snd) = _
  rcases t.create p with e | ⟨q, t'⟩ <;> rfl

/-- What filling a file that has been opened comes to. -/
def fillEdit (q : Location) (content : Bytes) (t : FileTree) : Edit Unit :=
  match t.node? q with
  | some (.file _) => .ok ((), some (q, .file content))
  | _ => .ok ((), none)

lemma filled_eq (q : Location) (content : Bytes) (t : FileTree) :
    ((.ok (), t.fill q content) : Except SystemFault Unit × FileTree)
      = edited t (fillEdit q content t) := by
  rw [fill, fillEdit]
  rcases t.node? q with _ | _ | _ | _ <;> rfl

lemma stays_fill (hq : Within base name q) (content : Bytes) :
    Stays t₀ base name fun t => ((.ok (), t.fill q content) : Except SystemFault Unit × _) := by
  have hedit : Stays t₀ base name fun t => edited t (fillEdit q content t) := by
    refine stays_edited ?_ ?_
    · intro t t' _ _ hsame
      rw [fillEdit, fillEdit, hsame q hq]
    · intro t a r node _ he
      rw [fillEdit] at he
      split at he
      · rename_i hnode
        obtain ⟨-, haim⟩ := Prod.mk.inj (Except.ok.inj he)
        obtain ⟨rfl, rfl⟩ := Prod.mk.inj (Option.some.inj haim)
        exact ⟨hq, by simp [hnode], by simp⟩
      · exact absurd he (by simp)
  exact hedit.of_eq fun _ => filled_eq q content _

/-- What filling the file to which a path leads comes to. -/
def writeEdit (p : Path) (content : Bytes) (t : FileTree) : Edit Unit :=
  match t.locate p with
  | .error e => .error e
  | .ok q =>
    match t.node? q with
    | some .directory => .error .isADirectory
    | some .device => .ok ((), none)
    | some (.file _) => .ok ((), some (q, .file content))
    | none => .error .notFound

lemma changed_write (p : Path) (content : Bytes) (t : FileTree) :
    FileOperation.changed t (t.write p content) = edited t (writeEdit p content t) := by
  rw [write, writeEdit]
  rcases t.locate p with e | q
  · rfl
  · simp only [fill]
    rcases t.node? q with _ | _ | _ | _ <;> rfl

lemma stays_write (h : t₀.Leads base p (name :: rest)) (content : Bytes) :
    Stays t₀ base name (FileOperation.write p content).run := by
  have hedit : Stays t₀ base name fun t => edited t (writeEdit p content t) := by
    refine stays_edited ?_ ?_
    · intro t t' ht ht' hsame
      rw [writeEdit, writeEdit, h.locate_congr ht ht' hsame]
      split
      · rfl
      · rename_i hlocate
        rw [hsame _ (h.within_of_locate ht hlocate)]
    · intro t a q node ht he
      rw [writeEdit] at he
      split at he
      · exact absurd he (by simp)
      rename_i hlocate
      split at he
      · exact absurd he (by simp)
      · exact absurd he (by simp)
      · rename_i hnode
        obtain ⟨-, haim⟩ := Prod.mk.inj (Except.ok.inj he)
        obtain ⟨rfl, rfl⟩ := Prod.mk.inj (Option.some.inj haim)
        exact ⟨h.within_of_locate ht hlocate, by simp [hnode], by simp⟩
      · exact absurd he (by simp)
  exact hedit.of_eq fun _ => changed_write p content _

/-! ## Copying -/

/-- What copying comes to when the target has been opened and the content is known. -/
def pour (content : Bytes) (r : Except SystemFault Location) (t : FileTree) :
    Except SystemFault Unit × FileTree :=
  match r with
  | .error e => (.error e, t)
  | .ok q => (.ok (), t.fill q content)

/-- A source that is clear of the common directory holds the same content while the target is
opened, so copying it is filling the target with that content. -/
lemma changed_copy_eq (h : t₀.Leads base p (name :: rest)) (ht : GrowsBelow base t₀ t)
    (hplace : ¬ Below base place) {content : Bytes}
    (hnode : t₀.node? place = some (.file content)) (hlocate : t.locate source = .ok place) :
    FileOperation.changed t (t.copy source p)
      = pour content (made t (t.create p)).1 (made t (t.create p)).2 := by
  have hthere : t.node? place = some (.file content) := (ht.same hplace).trans hnode
  rw [copy, hlocate]
  simp only [hthere]
  have hstay := (stays_made h).frame ht place fun hwithin => hplace hwithin.below
  rcases hcreate : t.create p with e | ⟨q, t'⟩
  · rfl
  · rw [hcreate] at hstay
    have hthere' : t'.node? place = some (.file content) := hstay.trans hthere
    simp only [hthere']
    rfl

lemma stays_copy (hclear : t₀.Clear base source) (h : t₀.Leads base p (name :: rest)) :
    Stays t₀ base name (FileOperation.copy source p).run := by
  rcases hsource : t₀.locate source with e | place
  · -- the source is never found
    refine (Stays.answer (.error e)).of_eq fun {t} ht => ?_
    show FileOperation.changed t (t.copy source p) = _
    rw [copy, ht.locate_eq hclear, hsource]
    rfl
  obtain ⟨hplace, -⟩ := (GrowsBelow.refl base t₀).node?_of_locate hclear hsource
  rcases hnode : t₀.node? place with _ | _ | content | _
  case some.file =>
    refine ((stays_made h).bind (g := pour content) ?_).of_eq fun {t} ht =>
      changed_copy_eq h ht hplace hnode ((ht.locate_eq hclear).trans hsource)
    intro t ht
    rw [made_create]
    rcases he : createEdit p t with e | ⟨q, aim⟩
    · exact .answer _
    · obtain ⟨hwithin, -⟩ := createEdit_eq_ok h ht he
      have hanswer : (edited t (createEdit p t)).1 = .ok q := by
        rw [he]
        rcases aim with _ | ⟨r, node⟩ <;> rfl
      rw [he] at hanswer
      rw [hanswer]
      exact stays_fill hwithin content
  all_goals
    -- what stands at the source is no regular file
    refine (Stays.answer (.error .notRegular)).of_eq fun {t} ht => ?_
    show FileOperation.changed t (t.copy source p) = _
    rw [copy, ht.locate_eq hclear, hsource]
    simp only [(ht.same hplace).trans hnode]
    rfl

end Concolic.FileTree
