/-
# Paths down from a directory

All output of a run is written to paths that go down from the path of the run directory by
names.  That path can be written in many ways, with slashes behind it or pieces `.` and `..` in
it, and it can be empty; and the directories above an output path, which are made before it, are
named by its components, in a form of their own (`Path.normal`).

* A path down by names leads to the entry of these names in the directory to which the path
  above leads (`FileTree.exists_of_follow_descend`).
* What stands above such a path is the path itself with fewer names, or stands above the path
  that it goes down from (`Path.ancestors_descend_cases`), and the form in which it is named
  leads to the same directory (`FileTree.leads_of_normal`).
-/
import Concolic.Proofs.FileTree.Footprint
import Mathlib.Data.List.Induction

namespace Concolic

open FileTree (LeadsOn)

variable {root p q : Path} {name : Bytes} {names pieces components : List Bytes}

/-! ## The form of components -/

namespace Path

/-- The path that is made up of the components of another one. -/
def normal (p : Path) : Path := ofComponents p.isAbsolute p.components

lemma filter_names (p : Path) : p.names.filter (fun x => x ≠ [] && x ≠ here) = p.names :=
  List.filter_eq_self.mpr fun _ hx => (List.mem_filter.mp hx).2

/-- Without those that stand for nothing, the components are the names. -/
lemma filter_components (p : Path) :
    p.components.filter (fun x => x ≠ [] && x ≠ here) = p.names := by
  rw [components]
  split
  · rw [List.filter_cons_of_neg (by decide), filter_names]
  · exact filter_names p

lemma isName_of_mem_components (h : name ∈ p.components) : IsName name := by
  rw [components] at h
  split at h
  · rcases List.mem_cons.mp h with rfl | h
    · exact ⟨by decide, by decide⟩
    · exact isName_of_mem_names h
  · exact isName_of_mem_names h

/-- A path that is made up of components starts where it is said to start. -/
lemma isAbsolute_of_components (h : ∀ x ∈ components, IsName x) (absolute : Bool) :
    (ofComponents absolute components).isAbsolute = absolute := by
  rcases components with _ | ⟨first, rest⟩
  · cases absolute <;> rfl
  · exact isAbsolute_ofComponents (by simp) h absolute

/-- A path that is made up of components has those names that stand for something. -/
lemma names_ofComponents (h : ∀ x ∈ components, IsName x) (absolute : Bool) :
    (ofComponents absolute components).names
      = components.filter fun x => x ≠ [] && x ≠ here := by
  rcases components with _ | ⟨first, rest⟩
  · cases absolute <;> rfl
  · rw [names, pieces_ofComponents (by simp) h]
    cases absolute <;> simp

lemma isAbsolute_normal (p : Path) : p.normal.isAbsolute = p.isAbsolute :=
  isAbsolute_of_components (fun _ => isName_of_mem_components) _

lemma names_normal (p : Path) : p.normal.names = p.names := by
  rw [normal, names_ofComponents fun _ => isName_of_mem_components, filter_components]

lemma mem_ancestors_iff : q ∈ p.ancestors ↔
    ∃ n < p.components.length, q = ofComponents p.isAbsolute (p.components.take n) := by
  simp [ancestors, eq_comm]

/-! ## Going down -/

/-- The path that goes down from another one by names. -/
def descend (p : Path) (names : List Bytes) : Path := names.foldl child p

@[simp] lemma descend_nil (p : Path) : p.descend [] = p := rfl

lemma descend_append_singleton (p : Path) (names : List Bytes) (name : Bytes) :
    p.descend (names ++ [name]) = (p.descend names).child name := by
  simp [descend]

lemma isAbsolute_descend (h : ∀ x ∈ names, IsName x) :
    (p.descend names).isAbsolute = p.isAbsolute := by
  induction names using List.reverseRecOn with
  | nil => rfl
  | append_singleton names name ih =>
    rw [List.forall_mem_append] at h
    rw [descend_append_singleton, child, isAbsolute_join (h.2 name (by simp)).isAbsolute, ih h.1]

lemma endsInName_descend (h : ∀ x ∈ names, IsName x) (hne : names ≠ []) :
    (p.descend names).EndsInName := by
  obtain ⟨front, name, rfl⟩ := (List.eq_nil_or_concat names).resolve_left hne
  rw [List.concat_eq_append] at h ⊢
  rw [descend_append_singleton]
  exact endsInName_join (h name (by simp)).endsInName

/-- The names come last among the pieces, behind those of the path that goes down, without the
empty piece in which it may end. -/
lemma exists_pieces_descend (h : ∀ x ∈ names, IsName x) (hne : names ≠ []) :
    ∃ front, (p.descend names).pieces = front ++ names ∧
      (p.pieces = front ∨ p.pieces = front ++ [[]]) := by
  induction names using List.reverseRecOn with
  | nil => exact absurd rfl hne
  | append_singleton names name ih =>
    obtain ⟨hnames, hname⟩ := List.forall_mem_append.mp h
    have hname : IsName name := hname name (by simp)
    rw [descend_append_singleton, child]
    rcases eq_or_ne names [] with rfl | hsome
    · obtain ⟨front, hpieces, hfront⟩ := exists_pieces_join p hname.isAbsolute
      exact ⟨front, by rw [descend_nil, hpieces, hname.pieces]; rfl, hfront⟩
    · obtain ⟨front, hpieces, hfront⟩ := ih hnames hsome
      refine ⟨front, ?_, hfront⟩
      rw [pieces_join (endsInName_descend hnames hsome) hname.isAbsolute, hpieces, hname.pieces,
        List.append_assoc]

/-- Names that lead on are further components. -/
lemma components_descend (h : ∀ x ∈ names, LeadsOn x) :
    (p.descend names).components = p.components ++ names := by
  rcases eq_or_ne names [] with rfl | hne
  · simp
  have hnames : ∀ x ∈ names, IsName x := fun x hx => (h x hx).isName
  obtain ⟨front, hpieces, hfront⟩ := exists_pieces_descend (p := p) hnames hne
  have hall : names.filter (fun x => x ≠ [] && x ≠ here) = names :=
    List.filter_eq_self.mpr fun x hx => by simp [(h x hx).isName.ne_nil, (h x hx).ne_here]
  have hkept : (p.descend names).names = p.names ++ names := by
    rw [Path.names, Path.names, hpieces, List.filter_append, hall]
    rcases hfront with hfront | hfront <;> simp [hfront]
  -- a path of no pieces in front is an empty one, so neither of the two begins with `.`
  have hhead : (p.descend names).pieces.head? = some here ↔ p.pieces.head? = some here := by
    rcases front with _ | ⟨first, rest⟩
    · obtain ⟨name, others, rfl⟩ := List.exists_cons_of_ne_nil hne
      have hfirst : name ≠ here := (h name List.mem_cons_self).ne_here
      have hnil : ([] : Bytes) ≠ here := by decide
      rcases hfront with hfront | hfront <;> simp [hpieces, hfront, hfirst, hnil]
    · rcases hfront with hfront | hfront <;> simp [hpieces, hfront]
  rw [components, components, hkept, isAbsolute_descend hnames]
  by_cases hdot : p.pieces.head? = some here
  · simp only [hhead.mpr hdot, hdot]
    split <;> simp
  · have hdot' : ¬ (p.descend names).pieces.head? = some here := fun heq => hdot (hhead.mp heq)
    simp [hdot, hdot']

/-- Above a path that goes down by names is the path itself with fewer names, in the form of its
components, or a path above the one that it goes down from. -/
lemma ancestors_descend_cases (h : ∀ x ∈ names, LeadsOn x) (hq : q ∈ (p.descend names).ancestors) :
    q ∈ p.ancestors ∨ ∃ front, front <+: names ∧ q = (p.descend front).normal := by
  have habs : ∀ front, front <+: names → (p.descend front).isAbsolute = p.isAbsolute :=
    fun front hfront => isAbsolute_descend fun x hx => (h x (hfront.subset hx)).isName
  obtain ⟨n, hn, rfl⟩ := mem_ancestors_iff.mp hq
  rw [components_descend h, habs names List.prefix_rfl]
  by_cases hlt : n < p.components.length
  · rw [List.take_append_of_le_length (Nat.le_of_lt hlt)]
    exact .inl (mem_ancestors_iff.mpr ⟨n, hlt, rfl⟩)
  · have hfront : names.take (n - p.components.length) <+: names := List.take_prefix _ _
    refine .inr ⟨_, hfront, ?_⟩
    rw [normal, habs _ hfront, components_descend fun x hx => h x (hfront.subset hx),
      List.take_append, List.take_of_length_le (Nat.le_of_not_lt hlt)]

end Path

/-! ## Where such paths lead -/

namespace FileTree

variable {t t' : FileTree} {base base' place : Location}

/-- What leads to a directory starts in one. -/
lemma directory_of_follow (h : t.follow place pieces = .ok base)
    (hdir : t.node? base = some .directory) : t.node? place = some .directory := by
  cases pieces with
  | nil => exact Except.ok.inj h ▸ hdir
  | cons piece rest => exact (follow_cons_cases h).1

/-- Pieces that stand for nothing may be put between those that lead to a directory. -/
lemma follow_of_filter (hdir : t.node? base = some .directory)
    (h : t.follow place (pieces.filter fun x => x ≠ [] && x ≠ Path.here) = .ok base) :
    t.follow place pieces = .ok base := by
  have hplace := directory_of_follow h hdir
  induction pieces generalizing place with
  | nil => exact h
  | cons piece rest ih =>
    by_cases hstay : piece = [] ∨ piece = Path.here
    · rw [List.filter_cons_of_neg (by simpa [imp_iff_not_or] using hstay)] at h
      rw [follow_cons_of_stays hplace hstay]
      exact ih h hplace
    · rw [List.filter_cons_of_pos (by simpa using hstay)] at h
      rw [follow, if_neg (not_not.mpr hplace), if_neg (by simpa using hstay)]
      obtain ⟨-, ⟨hstay', -⟩ | ⟨hup, h⟩ | ⟨-, hup, hlen, hthere, h⟩⟩ := follow_cons_cases h
      · exact absurd hstay' hstay
      · rw [if_pos hup]
        exact ih h (directory_of_follow h hdir)
      · rw [if_neg hup, if_neg (by omega)]
        obtain ⟨node, hnode⟩ := Option.ne_none_iff_exists'.mp hthere
        rw [hnode]
        exact ih h (directory_of_follow h hdir)

lemma Leads.unique (h : t.Leads base p []) (h' : t.Leads base' p []) : base = base' := by
  obtain ⟨stem, hpieces, hstem⟩ := h.stem
  obtain ⟨stem', hpieces', hstem'⟩ := h'.stem
  obtain rfl : stem = stem' := by simpa using hpieces.symm.trans hpieces'
  exact Except.ok.inj (hstem.symm.trans hstem')

lemma Leads.follow_eq (h : t.Leads base p []) : t.follow (t.origin p) p.pieces = .ok base := by
  obtain ⟨stem, hpieces, hstem⟩ := h.stem
  rwa [hpieces, List.append_nil]

lemma leads_of_follow (h : t.follow (t.origin p) p.pieces = .ok base)
    (hdir : t.node? base = some .directory) : t.Leads base p [] :=
  ⟨⟨p.pieces, by simp, h⟩, hdir, by simp⟩

lemma leads_of_locate (h : t.locate p = .ok base) (hdir : t.node? base = some .directory) :
    t.Leads base p [] := leads_of_follow (follow_of_locate h) hdir

/-- A path leads to the directory to which its components lead. -/
lemma leads_of_normal (h : t.locate p.normal = .ok base) (hdir : t.node? base = some .directory) :
    t.Leads base p [] := by
  have hnames : t.follow (t.origin p.normal) p.normal.names = .ok base :=
    follow_filter (follow_of_locate h)
  rw [Path.names_normal, origin, Path.isAbsolute_normal] at hnames
  exact leads_of_follow (follow_of_filter hdir hnames) hdir

lemma eq_append_of_follow (hnames : ∀ x ∈ names, LeadsOn x)
    (h : t.follow base names = .ok place) : place = base ++ names := by
  induction names generalizing base with
  | nil => simpa using (Except.ok.inj h).symm
  | cons name rest ih =>
    obtain ⟨hname, hrest⟩ := List.forall_mem_cons.mp hnames
    obtain ⟨-, -, -, h⟩ := (follow_name_eq_ok_iff hname).mp h
    rw [ih hrest h, List.append_assoc, List.singleton_append]

/-- A path that goes down by names leads to the entry of these names in the directory to which
the path above leads. -/
lemma exists_of_follow_descend (hnames : ∀ x ∈ names, LeadsOn x) (hne : names ≠ [])
    (h : t.follow (t.origin (root.descend names)) (root.descend names).pieces = .ok place) :
    ∃ base, t.Leads base root [] ∧ place = base ++ names := by
  have hisName : ∀ x ∈ names, Path.IsName x := fun x hx => (hnames x hx).isName
  obtain ⟨front, hpieces, hfront⟩ := Path.exists_pieces_descend (p := root) hisName hne
  rw [hpieces, origin, Path.isAbsolute_descend hisName, follow_append_eq_ok_iff] at h
  obtain ⟨base, hbase, hdown⟩ := h
  have hdir : t.node? base = some .directory := by
    obtain ⟨name, others, rfl⟩ := List.exists_cons_of_ne_nil hne
    exact ((follow_name_eq_ok_iff (hnames name List.mem_cons_self)).mp hdown).1
  refine ⟨base, leads_of_follow ?_ hdir, eq_append_of_follow hnames hdown⟩
  rcases hfront with heq | heq
  · rwa [heq]
  · rw [heq]
    exact follow_append_eq_ok_iff.mpr ⟨base, hbase, follow_nil_piece_eq_ok_iff.mpr ⟨hdir, rfl⟩⟩

lemma exists_of_locate_descend (hnames : ∀ x ∈ names, LeadsOn x) (hne : names ≠ [])
    (h : t.locate (root.descend names) = .ok place) :
    ∃ base, t.Leads base root [] ∧ place = base ++ names :=
  exists_of_follow_descend hnames hne (follow_of_locate h)

/-- Where a path leads to a directory, the paths above it lead to directories. -/
lemma Leads.exists_of_mem_ancestors (h : t.Leads base p []) (hq : q ∈ p.ancestors) :
    ∃ place, t.follow (t.origin q) q.names = .ok place ∧ t.node? place = some .directory := by
  obtain ⟨n, -, rfl⟩ := Path.mem_ancestors_iff.mp hq
  have hisName : ∀ x ∈ p.components.take n, Path.IsName x :=
    fun _ hx => Path.isName_of_mem_components (List.mem_of_mem_take hx)
  have hnames : t.follow (t.origin p) p.names = .ok base := follow_filter h.follow_eq
  rw [← Path.filter_components, ← List.take_append_drop n p.components, List.filter_append,
    follow_append_eq_ok_iff] at hnames
  obtain ⟨place, hplace, hrest⟩ := hnames
  refine ⟨place, ?_, directory_of_follow hrest h.directory⟩
  rwa [origin, Path.isAbsolute_of_components hisName, Path.names_ofComponents hisName]

end FileTree

end Concolic
