/-
# Steps that keep to one entry

A worker whose paths lead through an entry of a common directory keeps to this entry: it changes
nothing outside, and what it does depends on nothing that others write.  `Stays` says so for a
step on trees, and steps of this kind can be put together.

The paths for which it holds are of two kinds.  A path of the first kind is clear of the common
directory, and the step only reads there.  A path of the second kind leads first to the common
directory and from there on by names, the first of which is the entry (`Leads`).
-/
import Concolic.Proofs.FileTree.Region

namespace Concolic.FileTree

variable {α β : Type} {t₀ t t' : FileTree} {base place q r : Location} {name x : Bytes} {p : Path}
  {names rest before pieces : List Bytes}

/-! ## Steps on trees -/

/-- Started on trees that have grown below the directory at `base`, the step changes only what
stands within the entry, and it does not depend on anything else below the directory. -/
structure Stays (t₀ : FileTree) (base : Location) (name : Bytes) (f : FileTree → α × FileTree) :
    Prop where
  grows : ∀ {t}, GrowsBelow base t₀ t → Grows t (f t).2
  frame : ∀ {t}, GrowsBelow base t₀ t → ∀ q, ¬ Within base name q → (f t).2.node? q = t.node? q
  congr : ∀ {t t'}, GrowsBelow base t₀ t → GrowsBelow base t₀ t' → SameWithin base name t t' →
    (f t').1 = (f t).1 ∧ SameWithin base name (f t).2 (f t').2

namespace Stays

lemma growsBelow {f : FileTree → α × FileTree} (hf : Stays t₀ base name f)
    (ht : GrowsBelow base t₀ t) : GrowsBelow base t₀ (f t).2 :=
  ht.trans_within (hf.grows ht) (hf.frame ht)

/-- A step that only looks at the tree. -/
lemma of_query {f : FileTree → α} (hf : ∀ {t t'}, GrowsBelow base t₀ t → GrowsBelow base t₀ t' →
    SameWithin base name t t' → f t' = f t) : Stays t₀ base name fun t => (f t, t) where
  grows _ := Grows.refl _
  frame _ _ _ := rfl
  congr ht ht' hsame := ⟨hf ht ht' hsame, hsame⟩

/-- The second step has to keep to the entry only after answers that the first one can give. -/
lemma bind {f : FileTree → α × FileTree} {g : α → FileTree → β × FileTree}
    (hf : Stays t₀ base name f)
    (hg : ∀ {t}, GrowsBelow base t₀ t → Stays t₀ base name (g (f t).1)) :
    Stays t₀ base name fun t => g (f t).1 (f t).2 where
  grows ht := (hf.grows ht).trans ((hg ht).grows (hf.growsBelow ht))
  frame ht q hq := ((hg ht).frame (hf.growsBelow ht) q hq).trans (hf.frame ht q hq)
  congr {t t'} ht ht' hsame := by
    obtain ⟨hanswer, hsame'⟩ := hf.congr ht ht' hsame
    rw [hanswer]
    exact (hg ht).congr (hf.growsBelow ht) (hf.growsBelow ht') hsame'

lemma answer (a : α) : Stays t₀ base name fun t => (a, t) := of_query fun _ _ _ => rfl

/-- The answer of a step may be put differently. -/
lemma map {f : FileTree → α × FileTree} (hf : Stays t₀ base name f) (g : α → β) :
    Stays t₀ base name fun t => (g (f t).1, (f t).2) :=
  hf.bind (g := fun a t => (g a, t)) fun _ => answer _

/-- A step is as good as another one that does the same on all trees that count. -/
lemma of_eq {f g : FileTree → α × FileTree} (hf : Stays t₀ base name f)
    (heq : ∀ {t}, GrowsBelow base t₀ t → g t = f t) : Stays t₀ base name g where
  grows ht := heq ht ▸ hf.grows ht
  frame ht := heq ht ▸ hf.frame ht
  congr ht ht' := heq ht ▸ heq ht' ▸ hf.congr ht ht'

end Stays

/-! ## Following names through the entry -/

/-- The path leads to the directory at `base`, and from there on by names. -/
structure Leads (t : FileTree) (base : Location) (p : Path) (names : List Bytes) : Prop where
  stem : ∃ stem, p.pieces = stem ++ names ∧ t.follow (t.origin p) stem = .ok base
  directory : t.node? base = some .directory
  leadsOn : ∀ n ∈ names, LeadsOn n

lemma Leads.of_grows (h : t.Leads base p names) (hg : Grows t t') : t'.Leads base p names where
  stem := by
    obtain ⟨stem, hpieces, hstem⟩ := h.stem
    exact ⟨stem, hpieces, by rw [hg.origin]; exact hg.follow hstem⟩
  directory := hg.directory h.directory
  leadsOn := h.leadsOn

/-- Names that follow such a path are those that lead on. -/
lemma Leads.join {q : Path} (h : t.Leads base p names) (hq : q.isAbsolute = false)
    (hnames : ∀ n ∈ q.pieces, LeadsOn n) : t.Leads base (p.join q) (names ++ q.pieces) := by
  obtain ⟨stem, hpieces, hstem⟩ := h.stem
  obtain ⟨front, hjoin, hfront⟩ := Path.exists_pieces_join p hq
  obtain ⟨stem', rfl, hstem'⟩ : ∃ stem', front = stem' ++ names ∧
      t.follow (t.origin p) stem' = .ok base := by
    rcases hfront with heq | heq
    · exact ⟨stem, heq ▸ hpieces, hstem⟩
    rw [heq] at hpieces
    rcases List.eq_nil_or_concat names with rfl | ⟨others, n, rfl⟩
    · rw [List.append_nil] at hpieces
      rw [← hpieces, follow_append_eq_ok_iff] at hstem
      obtain ⟨place, hplace, hlast⟩ := hstem
      obtain ⟨-, rfl⟩ := follow_nil_piece_eq_ok_iff.mp hlast
      exact ⟨front, by simp, hplace⟩
    · -- a name is no empty piece
      rw [List.concat_eq_append, ← List.append_assoc] at hpieces
      have hn : [] = n := by simpa using congrArg List.getLast? hpieces
      exact absurd hn.symm (h.leadsOn n (by simp)).isName.ne_nil
  refine ⟨⟨stem', by rw [hjoin, List.append_assoc], ?_⟩, h.directory, ?_⟩
  · rw [origin, Path.isAbsolute_join hq]
    exact hstem'
  · intro n hn
    rcases List.mem_append.mp hn with hn | hn
    · exact h.leadsOn n hn
    · exact hnames n hn

lemma Leads.locate_eq (h : t.Leads base p names) : t.locate p = match t.start p with
    | .error e => .error e
    | .ok _ => t.follow base names := by
  obtain ⟨stem, hpieces, hstem⟩ := h.stem
  rw [locate]
  rcases hstart : t.start p with e | place
  · rfl
  · simp only
    rw [start_eq_ok hstart, hpieces, follow_append, hstem]
    rfl

/-- The slot of such a path is its last name, in the directory to which the names before it
lead. -/
lemma Leads.slot_eq (h : t.Leads base p (before ++ [x])) : t.slot p = match t.start p with
    | .error e => .error e
    | .ok _ => match t.follow base (before ++ [[]]) with
      | .error e => .error e
      | .ok parent => if nameLimit < x.length then .error .nameTooLong
        else .ok (.place (parent ++ [x]) (p.bytes.getLast? == some Path.slash)) := by
  obtain ⟨stem, hpieces, hstem⟩ := h.stem
  have hx := h.leadsOn x (by simp)
  have hlast : (p.pieces.reverse.dropWhile List.isEmpty).reverse = (stem ++ before) ++ [x] := by
    have hne : x.isEmpty = false := by simpa using hx.isName.ne_nil
    rw [hpieces, ← List.append_assoc, List.reverse_append, List.reverse_singleton,
      List.singleton_append, List.dropWhile_cons_of_neg (by simp [hne]), List.reverse_cons,
      List.reverse_reverse]
  rw [slot]
  rcases hstart : t.start p with e | place
  · rfl
  · rw [start_eq_ok hstart]
    simp only [hlast, List.getLast?_concat, List.dropLast_concat]
    rw [List.append_assoc, follow_append, hstem]
    simp only [Except.bind]
    have hstay : ¬ (x = Path.here || x = Path.up) = true := by simp [hx.ne_here, hx.ne_up]
    rcases t.follow base (before ++ [[]]) with e | parent
    · rfl
    · exact if_neg hstay

/-- Without going up, pieces do not lead out of an entry. -/
lemma within_of_follow (hq : Within base name q) (hup : ∀ piece ∈ pieces, piece ≠ Path.up)
    (h : t.follow q pieces = .ok r) : Within base name r := by
  induction pieces generalizing q with
  | nil => exact Except.ok.inj h ▸ hq
  | cons piece rest ih =>
    obtain ⟨hpiece, hrest⟩ := List.forall_mem_cons.mp hup
    obtain ⟨-, ⟨-, h⟩ | ⟨heq, -⟩ | ⟨-, -, -, -, h⟩⟩ := follow_cons_cases h
    · exact ih hq hrest h
    · exact absurd heq hpiece
    · exact ih (hq.append [piece]) hrest h

lemma SameWithin.follow_eq (hsame : SameWithin base name t t') (hq : Within base name q)
    (hup : ∀ piece ∈ pieces, piece ≠ Path.up) : t'.follow q pieces = t.follow q pieces := by
  induction pieces generalizing q with
  | nil => rfl
  | cons piece rest ih =>
    obtain ⟨hpiece, hrest⟩ := List.forall_mem_cons.mp hup
    rw [follow, follow, hsame q hq, hsame _ (hq.append [piece]), ih hq hrest,
      ih (hq.append [piece]) hrest, if_neg hpiece, if_neg hpiece]

/-- From the common directory, names are followed through the entry that the first one is. -/
lemma follow_cons_eq (hn : LeadsOn name) (hdir : t.node? base = some .directory)
    (hdir' : t'.node? base = some .directory) (hsame : SameWithin base name t t')
    (hup : ∀ piece ∈ rest, piece ≠ Path.up) :
    t'.follow base (name :: rest) = t.follow base (name :: rest) := by
  have hstay : ¬ (name = [] || name = Path.here) = true := by simp [hn.isName.ne_nil, hn.ne_here]
  rw [follow, follow, hdir, hdir', hsame _ within_self, hsame.follow_eq within_self hup,
    if_neg hstay, if_neg hstay, if_neg hn.ne_up, if_neg hn.ne_up]

lemma within_of_follow_cons (hn : LeadsOn name) (hup : ∀ piece ∈ rest, piece ≠ Path.up)
    (h : t.follow base (name :: rest) = .ok r) : Within base name r := by
  obtain ⟨-, -, -, h⟩ := (follow_name_eq_ok_iff hn).mp h
  exact within_of_follow within_self hup h

section Entry

variable (h : t₀.Leads base p (name :: rest)) (ht : GrowsBelow base t₀ t)
  (ht' : GrowsBelow base t₀ t') (hsame : SameWithin base name t t')

include h

lemma Leads.forall_ne_up : ∀ piece ∈ rest, piece ≠ Path.up :=
  fun piece hpiece => (h.leadsOn piece (List.mem_cons_of_mem _ hpiece)).ne_up

include ht in
lemma Leads.within_of_locate (hlocate : t.locate p = .ok q) : Within base name q := by
  rw [(h.of_grows ht.toGrows).locate_eq] at hlocate
  split at hlocate
  · exact absurd hlocate (by simp)
  · exact within_of_follow_cons (h.leadsOn name List.mem_cons_self) h.forall_ne_up hlocate

include ht ht' hsame in
lemma Leads.locate_congr : t'.locate p = t.locate p := by
  rw [(h.of_grows ht.toGrows).locate_eq, (h.of_grows ht'.toGrows).locate_eq, ht.toGrows.start,
    ht'.toGrows.start, follow_cons_eq (h.leadsOn name List.mem_cons_self)
      (ht.directory h.directory) (ht'.directory h.directory) hsame h.forall_ne_up]

/-- The directory in which the last name stands is the common one or lies within the entry. -/
lemma Leads.parent_cases : ∃ before x, name :: rest = before ++ [x] ∧
    (before = [] ∧ x = name ∨ ∃ others, before = name :: others ∧
      ∀ piece ∈ others ++ [[]], piece ≠ Path.up) := by
  rcases List.eq_nil_or_concat rest with rfl | ⟨others, x, rfl⟩
  · exact ⟨[], name, rfl, .inl ⟨rfl, rfl⟩⟩
  · refine ⟨name :: others, x, by simp, .inr ⟨others, rfl, ?_⟩⟩
    intro piece hpiece
    rcases List.mem_append.mp hpiece with hpiece | hpiece
    · exact h.forall_ne_up piece (by simp [hpiece])
    · obtain rfl := List.mem_singleton.mp hpiece
      decide

include ht ht' hsame in
lemma Leads.slot_congr : t'.slot p = t.slot p := by
  obtain ⟨before, x, hnames, hparent⟩ := h.parent_cases
  have hfollow : t'.follow base (before ++ [[]]) = t.follow base (before ++ [[]]) := by
    rcases hparent with ⟨rfl, -⟩ | ⟨others, rfl, hup⟩
    · have hbase : ∀ {s : FileTree}, GrowsBelow base t₀ s → s.follow base [[]] = .ok base :=
        fun hs => follow_nil_piece_eq_ok_iff.mpr ⟨hs.directory h.directory, rfl⟩
      exact (hbase ht').trans (hbase ht).symm
    · exact follow_cons_eq (h.leadsOn name List.mem_cons_self) (ht.directory h.directory)
        (ht'.directory h.directory) hsame hup
  rw [hnames] at h
  rw [(h.of_grows ht.toGrows).slot_eq, (h.of_grows ht'.toGrows).slot_eq, ht.toGrows.start,
    ht'.toGrows.start, hfollow]

include ht in
lemma Leads.within_of_slot {slashed : Bool} (hslot : t.slot p = .ok (.place q slashed)) :
    Within base name q := by
  obtain ⟨before, x, hnames, hparent⟩ := h.parent_cases
  have hname := h.leadsOn name List.mem_cons_self
  rw [hnames] at h
  rw [(h.of_grows ht.toGrows).slot_eq] at hslot
  split at hslot
  · exact absurd hslot (by simp)
  split at hslot
  · exact absurd hslot (by simp)
  rename_i parent hfollow
  split at hslot
  · exact absurd hslot (by simp)
  obtain ⟨rfl, -⟩ := Slot.place.inj (Except.ok.inj hslot)
  rcases hparent with ⟨rfl, rfl⟩ | ⟨others, rfl, hup⟩
  · obtain ⟨-, rfl⟩ := follow_nil_piece_eq_ok_iff.mp hfollow
    exact within_self
  · exact (within_of_follow_cons hname hup hfollow).append [x]

end Entry

/-! ## The directory above -/

/-- Pieces that stand for nothing need not be followed. -/
lemma follow_filter (h : t.follow place pieces = .ok q) :
    t.follow place (pieces.filter fun x => x ≠ [] && x ≠ Path.here) = .ok q := by
  induction pieces generalizing place with
  | nil => exact h
  | cons piece rest ih =>
    obtain ⟨hdir, ⟨hstay, h⟩ | ⟨hup, h⟩ | ⟨hstay, hup, hlen, hthere, h⟩⟩ := follow_cons_cases h
    · rw [List.filter_cons_of_neg (by simpa [imp_iff_not_or] using hstay)]
      exact ih h
    · have hstands : ¬ (piece = [] || piece = Path.here) = true := by
        simp [hup, Path.up, Path.here]
      rw [List.filter_cons_of_pos (by simpa using hstands), follow, if_neg (not_not.mpr hdir),
        if_neg hstands, if_pos hup]
      exact ih h
    · rw [List.filter_cons_of_pos (by simpa using hstay), follow, if_neg (not_not.mpr hdir),
        if_neg (by simpa using hstay), if_neg hup, if_neg (by omega)]
      obtain ⟨node, hnode⟩ := Option.ne_none_iff_exists'.mp hthere
      rw [hnode]
      exact ih h

/-- The components of such a path lead to the same directory, and on by the same names. -/
lemma Leads.components_eq (h : t.Leads base p names) (hne : names ≠ []) :
    ∃ lead, p.components = lead ++ names ∧ (∀ n ∈ lead, Path.IsName n) ∧
      t.follow (t.origin p) ((if p.isAbsolute then [[]] else []) ++ lead) = .ok base := by
  obtain ⟨stem, hpieces, hstem⟩ := h.stem
  have hkept := follow_filter hstem
  set kept := stem.filter fun x => x ≠ [] && x ≠ Path.here
  have hall : names.filter (fun x => x ≠ [] && x ≠ Path.here) = names := by
    refine List.filter_eq_self.mpr fun n hn => ?_
    simp [(h.leadsOn n hn).isName.ne_nil, (h.leadsOn n hn).ne_here]
  have hnames : p.names = kept ++ names := by
    rw [Path.names, hpieces, List.filter_append, hall]
  have hname : ∀ n ∈ kept, Path.IsName n := fun n hn =>
    Path.isName_of_mem_names (p := p) (by simp [hnames, hn])
  rw [Path.components, hnames]
  split
  · -- the leading `.` is the first piece, so the path starts in a directory
    rename_i hdot
    obtain ⟨hrelative, hhead⟩ : p.isAbsolute = false ∧ p.pieces.head? = some Path.here := by
      simpa using hdot
    have hdir : t.node? (t.origin p) = some .directory := by
      rcases stem with _ | ⟨piece, stem⟩
      · obtain ⟨n, others, rfl⟩ := List.exists_cons_of_ne_nil hne
        rw [hpieces] at hhead
        exact absurd (Option.some.inj hhead) (h.leadsOn n List.mem_cons_self).ne_here
      · exact (follow_cons_cases hstem).1
    refine ⟨Path.here :: kept, rfl, List.forall_mem_cons.mpr ⟨⟨by decide, by decide⟩, hname⟩, ?_⟩
    rw [hrelative]
    exact (follow_cons_of_stays hdir (.inr rfl)).trans hkept
  · refine ⟨kept, rfl, hname, ?_⟩
    cases habs : p.isAbsolute with
    | false => exact hkept
    | true =>
      have hdir : t.node? (t.origin p) = some .directory := by simp [origin, habs]
      exact (follow_cons_of_stays hdir (.inl rfl)).trans hkept

/-- The nearest path above such a path leads to the same directory, and on by one name less. -/
lemma Leads.parent (h : t.Leads base p (before ++ [x])) (hne : before ≠ []) :
    ∃ parent above, p.ancestors = parent :: above ∧ t.Leads base parent before := by
  obtain ⟨lead, hcomponents, hlead, hstem⟩ := h.components_eq (by simp)
  have hbefore : ∀ n ∈ before, LeadsOn n := fun n hn => h.leadsOn n (List.mem_append_left _ hn)
  have hnames : ∀ n ∈ lead ++ before, Path.IsName n := by
    intro n hn
    rcases List.mem_append.mp hn with hn | hn
    · exact hlead n hn
    · exact (hbefore n hn).isName
  have hsome : lead ++ before ≠ [] := by simp [hne]
  rw [← List.append_assoc] at hcomponents
  have habove : ∃ above, p.ancestors
      = .ofComponents p.isAbsolute (lead ++ before) :: above := by
    rw [Path.ancestors, hcomponents, List.length_append, List.length_singleton, List.range_succ,
      List.reverse_append, List.reverse_singleton, List.singleton_append, List.map_cons,
      List.take_left]
    exact ⟨_, rfl⟩
  obtain ⟨above, habove⟩ := habove
  refine ⟨_, above, habove, ⟨(if p.isAbsolute then [[]] else []) ++ lead, ?_, ?_⟩, h.directory,
    hbefore⟩
  · rw [Path.pieces_ofComponents hsome hnames, List.append_assoc]
  · rw [origin, Path.isAbsolute_ofComponents hsome hnames]
    exact hstem

end Concolic.FileTree
