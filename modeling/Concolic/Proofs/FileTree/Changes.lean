/-
# Changes below a directory

What is written to paths down from a run directory changes the entries to which they go down, in
the directory to which the path of the run directory leads; and if that directory is not there,
it is made first, with the directories above it.  `ChangesOnly` says so for two trees: what is
different in the second one is a directory that has been made for the path of the run directory
or at one of the given entries, or stands at an entry of which this is known.

Trees that differ in this way can be put in a row (`ChangesOnly.trans`), and an operation on a
path down from the run directory changes the entry of its names (`changesOnly_create`,
`changesOnly_write`, `changesOnly_copy`), or makes directories at the entries on the way to it
(`changesOnly_makeDirectories`).  None of this depends on whether the operation succeeds.
-/
import Concolic.Proofs.FileTree.Descent
import Mathlib.Data.Set.Insert

namespace Concolic.FileTree

variable {t t' t'' : FileTree} {root p : Path} {base place q : Location} {names : List Bytes}
  {directories directories' files files' : Set Location} {content : Bytes}

/-! ## Two trees -/

/-- The place is that of the directory to which the path leads, or to which one above it does. -/
def OnWay (t : FileTree) (root : Path) (q : Location) : Prop :=
  ∃ path ∈ root :: root.ancestors, t.Leads q path []

/-- The place is that of one of the entries, seen from the directory to which the path leads. -/
def IsEntry (t : FileTree) (root : Path) (entries : Set Location) (q : Location) : Prop :=
  ∃ base, t.Leads base root [] ∧ ∃ names ∈ entries, q = base ++ names

/-- The second tree has grown from the first one: directories have been made on the way to `root`
or at the one kind of entries, and at the other kind anything may have changed. -/
structure ChangesOnly (root : Path) (directories files : Set Location) (t t' : FileTree) : Prop
    extends Grows t t' where
  change : ∀ q, t'.node? q = t.node? q ∨
    IsMade t t' q ∧ (t'.OnWay root q ∨ t'.IsEntry root directories q) ∨ t'.IsEntry root files q

/-- Wherever the two paths lead, the second one does not lead below the directory of the first
one. -/
def LiesOutside (t : FileTree) (root p : Path) : Prop :=
  ∀ base place, t.Leads base root [] → t.locate p = .ok place → ¬ Below base place

lemma OnWay.of_grows (h : t.OnWay root q) (hg : Grows t t') : t'.OnWay root q :=
  let ⟨path, hpath, hleads⟩ := h
  ⟨path, hpath, hleads.of_grows hg⟩

lemma IsEntry.of_grows (h : t.IsEntry root files q) (hg : Grows t t') :
    t'.IsEntry root files q :=
  let ⟨base, hbase, hentry⟩ := h
  ⟨base, hbase.of_grows hg, hentry⟩

lemma IsEntry.mono (h : t.IsEntry root files q) (hsub : files ⊆ files') :
    t.IsEntry root files' q :=
  let ⟨base, hbase, names, hmem, hq⟩ := h
  ⟨base, hbase, names, hsub hmem, hq⟩

lemma isEntry_append_iff (hbase : t.Leads base root []) :
    t.IsEntry root files (base ++ names) ↔ names ∈ files := by
  constructor
  · rintro ⟨base', hbase', names', hmem, heq⟩
    rw [hbase'.unique hbase] at heq
    rwa [List.append_cancel_left heq]
  · exact fun hmem => ⟨base, hbase, names, hmem, rfl⟩

lemma LiesOutside.of_grows (h : t'.LiesOutside root p) (hg : Grows t t') : t.LiesOutside root p :=
  fun base place hbase hplace => h base place (hbase.of_grows hg) (hg.locate hplace)

/-- If the path leads to a directory, nothing has to be made on the way to it. -/
lemma not_onWay_of_isMade (h : t.Leads base root []) (hg : Grows t t') (hmade : IsMade t t' q) :
    ¬ t'.OnWay root q := by
  rintro ⟨path, hpath, hleads⟩
  have hmissing := hmade.missing
  rcases List.mem_cons.mp hpath with rfl | hpath
  · rw [← (h.of_grows hg).unique hleads, h.directory] at hmissing
    exact nomatch hmissing
  · obtain ⟨place, hplace, hdir⟩ := h.exists_of_mem_ancestors hpath
    have hthere := hg.follow hplace
    rw [← hg.origin, Path.names, follow_filter hleads.follow_eq] at hthere
    obtain rfl := Except.ok.inj hthere
    rw [hdir] at hmissing
    exact nomatch hmissing

namespace ChangesOnly

lemma refl (root : Path) (directories files : Set Location) (t : FileTree) :
    ChangesOnly root directories files t t := ⟨Grows.refl t, fun _ => .inl rfl⟩

lemma trans (h : ChangesOnly root directories files t t')
    (h' : ChangesOnly root directories files t' t'') :
    ChangesOnly root directories files t t'' where
  toGrows := h.toGrows.trans h'.toGrows
  change q := by
    have hg := h'.toGrows
    rcases h'.change q with hsame | ⟨hnew, hwhere⟩ | hentry
    · rcases h.change q with hbefore | ⟨hnew, hwhere⟩ | hentry
      · exact .inl (hsame.trans hbefore)
      · exact .inr (.inl ⟨⟨hnew.missing, hsame.trans hnew.made⟩,
          hwhere.imp (·.of_grows hg) (·.of_grows hg)⟩)
      · exact .inr (.inr (hentry.of_grows hg))
    · rcases h.change q with hbefore | ⟨hnew', -⟩ | hentry
      · exact .inr (.inl ⟨⟨hbefore.symm.trans hnew.missing, hnew.made⟩, hwhere⟩)
      · exact nomatch hnew'.made.symm.trans hnew.missing
      · exact .inr (.inr (hentry.of_grows hg))
    · exact .inr (.inr hentry)

lemma mono (h : ChangesOnly root directories files t t') (hdirs : directories ⊆ directories')
    (hfiles : files ⊆ files') : ChangesOnly root directories' files' t t' where
  toGrows := h.toGrows
  change q := (h.change q).imp_right <| Or.imp
    (fun ⟨hnew, hwhere⟩ => ⟨hnew, hwhere.imp_right (·.mono hdirs)⟩) (·.mono hfiles)

/-- At any other entry nothing has changed, unless it is on the way to `root`. -/
lemma node?_entry (h : ChangesOnly root directories files t t') (hbase : t'.Leads base root [])
    (hdirs : names ∉ directories) (hfiles : names ∉ files) :
    t'.node? (base ++ names) = t.node? (base ++ names) ∨
      IsMade t t' (base ++ names) ∧ t'.OnWay root (base ++ names) := by
  rcases h.change (base ++ names) with hsame | ⟨hnew, hway | hentry⟩ | hentry
  · exact .inl hsame
  · exact .inr ⟨hnew, hway⟩
  · exact absurd ((isEntry_append_iff hbase).mp hentry) hdirs
  · exact absurd ((isEntry_append_iff hbase).mp hentry) hfiles

/-- What stands elsewhere is still there. -/
lemma node?_eq_of_present (h : ChangesOnly root directories files t t')
    (hthere : t.node? q ≠ none) (hq : ¬ t'.IsEntry root files q) : t'.node? q = t.node? q := by
  rcases h.change q with hsame | ⟨hnew, -⟩ | hentry
  · exact hsame
  · exact absurd hnew.missing hthere
  · exact absurd hentry hq

/-- A file outside the directory is still the same. -/
lemma at?_eq_of_liesOutside (h : ChangesOnly root directories files t t') (hnil : [] ∉ files)
    (hout : t'.LiesOutside root p) (hthere : t.at? p ≠ none) : t'.at? p = t.at? p := by
  refine h.toGrows.at?_eq hthere fun place hplace hnode => h.node?_eq_of_present hnode ?_
  rintro ⟨base, hbase, names, hmem, heq⟩
  obtain ⟨name, rest, rfl⟩ := List.exists_cons_of_ne_nil fun hnames => hnil (hnames ▸ hmem)
  exact hout base place hbase (h.toGrows.locate hplace) ⟨name, rest, heq⟩

/-- A change of one place, to which the path down leads. -/
lemma of_locate (hg : Grows t t') (hnames : ∀ x ∈ names, LeadsOn x) (hne : names ≠ [])
    (hplace : t'.locate (root.descend names) = .ok place)
    (hframe : ∀ q, q ≠ place → t'.node? q = t.node? q) : ChangesOnly root ∅ {names} t t' where
  toGrows := hg
  change q := by
    by_cases hq : q = place
    · obtain ⟨base, hbase, heq⟩ := exists_of_locate_descend hnames hne hplace
      exact .inr (.inr ⟨base, hbase, names, rfl, hq.trans heq⟩)
    · exact .inl (hframe q hq)

end ChangesOnly

/-! ## Files -/

/-- A path that goes down by names ends in a name. -/
lemma exists_pieces_eq_append (root : Path) (hnames : ∀ x ∈ names, LeadsOn x)
    (hne : names ≠ []) :
    ∃ before name, (root.descend names).pieces = before ++ [name] ∧ Path.IsName name := by
  obtain ⟨front, hpieces, -⟩ := Path.exists_pieces_descend (p := root)
    (fun x hx => (hnames x hx).isName) hne
  obtain ⟨others, name, rfl⟩ := (List.eq_nil_or_concat names).resolve_left hne
  refine ⟨front ++ others, name, ?_, (hnames name (by simp)).isName⟩
  rw [hpieces, List.concat_eq_append, List.append_assoc]

lemma changesOnly_changed {r : Except SystemFault FileTree}
    (h : ∀ t', r = .ok t' → ChangesOnly root directories files t t') :
    ChangesOnly root directories files t (FileOperation.changed t r).2 := by
  cases r with
  | error e => exact ChangesOnly.refl root directories files t
  | ok t' => exact h t' rfl

section

variable (hnames : ∀ x ∈ names, LeadsOn x) (hne : names ≠ []) (t)

include hnames hne

lemma changesOnly_create :
    ChangesOnly root ∅ {names} t ((FileOperation.create (root.descend names)).run t).2 := by
  refine changesOnly_changed fun t' h => ?_
  obtain ⟨place, hcreate⟩ := exists_create_eq_ok h
  obtain ⟨before, name, hpieces, hname⟩ := exists_pieces_eq_append root hnames hne
  obtain ⟨hplace, hframe, -⟩ := create_eq_ok hpieces hname hcreate
  exact .of_locate (grows_of_create_eq_ok hcreate) hnames hne hplace hframe

lemma changesOnly_write :
    ChangesOnly root ∅ {names} t ((FileOperation.write (root.descend names) content).run t).2 := by
  refine changesOnly_changed fun t' h => ?_
  have hg := grows_of_write_eq_ok h
  rcases hplace : t.locate (root.descend names) with e | place
  · rw [write, hplace] at h
    exact absurd h (by simp)
  · exact .of_locate hg hnames hne (hg.locate hplace) (write_eq_ok hplace h).1

lemma changesOnly_copy {source : Path} :
    ChangesOnly root ∅ {names} t
      ((FileOperation.copy source (root.descend names)).run t).2 := by
  refine changesOnly_changed fun t' h => ?_
  obtain ⟨before, name, hpieces, hname⟩ := exists_pieces_eq_append root hnames hne
  obtain ⟨place, hplace, hframe⟩ := copy_eq_ok hpieces hname h
  exact .of_locate (grows_of_copy_eq_ok h) hnames hne hplace hframe

end

/-! ## Directories -/

/-- Making the directories of a path down from `root` makes them on the way to `root` and at the
entries on the way to the last one. -/
lemma changesOnly_makeDirectories (hnames : ∀ x ∈ names, LeadsOn x) (t : FileTree) :
    ChangesOnly root {front | front ≠ [] ∧ front <+: names} ∅ t
      ((FileOperation.makeDirectories (root.descend names)).run t).2 := by
  have hgains : GainsAt (root.descend names :: (root.descend names).ancestors) t
      (t.makeDirectories (root.descend names)).2 := gainsAt_makeDirectories t _
  -- what stands at the end of no names is the directory of `root` itself
  have hentry : ∀ {front q}, front <+: names →
      (t.makeDirectories (root.descend names)).2.Leads q (root.descend front) [] →
      (t.makeDirectories (root.descend names)).2.OnWay root q ∨
        (t.makeDirectories (root.descend names)).2.IsEntry root
          {front | front ≠ [] ∧ front <+: names} q := by
    intro front q hfront hleads
    rcases eq_or_ne front [] with rfl | hsome
    · exact .inl ⟨root, List.mem_cons_self, hleads⟩
    · obtain ⟨base, hbase, heq⟩ := exists_of_follow_descend
        (fun x hx => hnames x (hfront.subset hx)) hsome hleads.follow_eq
      exact .inr ⟨base, hbase, front, ⟨hsome, hfront⟩, heq⟩
  refine ⟨hgains.toGrows, fun q => ?_⟩
  rcases hgains.gain q with hsame | ⟨hnew, path, hpath, hplace⟩
  · exact .inl hsame
  refine .inr (.inl ⟨hnew, ?_⟩)
  rcases List.mem_cons.mp hpath with rfl | hpath
  · exact hentry List.prefix_rfl (leads_of_locate hplace hnew.made)
  rcases Path.ancestors_descend_cases hnames hpath with habove | ⟨front, hfront, rfl⟩
  · exact .inl ⟨path, List.mem_cons_of_mem _ habove, leads_of_locate hplace hnew.made⟩
  · exact hentry hfront (leads_of_normal hplace hnew.made)

end Concolic.FileTree
