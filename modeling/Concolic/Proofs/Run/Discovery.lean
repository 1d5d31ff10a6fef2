/-
# The documents that are found

A directory is searched by listing it; of the names in it, those of regular files with the
extension of documents are kept, and they are sorted out by whether they have a companion.  So
the documents that are found are some of the entries of the directory, in the order of their
names, and no two of them have the same name.
-/
import Concolic.Proofs.FileTree.Footprint
import Concolic.Proofs.Run.Carrying
import Concolic.Run.Batch
import Mathlib.Data.List.Nodup

namespace Concolic

variable {P S σ : Type} {m : Machine P S σ} {h h' : Host P S σ}

/-! ## Listings -/

namespace FileTree

variable {t : FileTree} {place : Location} {p : Path} {name : Bytes}

/-- The tree is one that a system can show: a place is listed once, and its names lead on. -/
structure Proper (t : FileTree) : Prop where
  /-- A place is listed once. -/
  nodup : (t.entries.map Prod.fst).Nodup
  /-- The names on the way to a place lead on. -/
  leadsOn : ∀ entry ∈ t.entries, ∀ name ∈ entry.1, LeadsOn name

/-- The name under which a place is listed in a directory. -/
def nameIn? (place key : Location) : Option Bytes :=
  match key.getLast? with
  | some name => if key.dropLast = place then some name else none
  | none => none

lemma names_eq (t : FileTree) (place : Location) :
    t.names place = (t.entries.map Prod.fst).filterMap (nameIn? place) := by
  rw [names, List.filterMap_map]
  rfl

lemma nameIn?_eq_some_iff {key : Location} :
    nameIn? place key = some name ↔ key = place ++ [name] := by
  unfold nameIn?
  constructor
  · intro h
    split at h
    · rename_i last hlast
      split at h
      · rename_i hplace
        rw [← Option.some.inj h, ← hplace]
        exact (List.dropLast_append_getLast? last hlast).symm
      · exact absurd h (by simp)
    · exact absurd h (by simp)
  · rintro rfl
    simp

lemma Proper.nodup_names (ht : t.Proper) (place : Location) : (t.names place).Nodup := by
  rw [names_eq]
  refine ht.nodup.filterMap fun key key' name hkey hkey' => ?_
  rw [nameIn?_eq_some_iff.mp hkey, nameIn?_eq_some_iff.mp hkey']

lemma Proper.leadsOn_of_mem_names (ht : t.Proper) (hmem : name ∈ t.names place) :
    LeadsOn name := by
  rw [names_eq] at hmem
  obtain ⟨key, hkey, hname⟩ := List.mem_filterMap.mp hmem
  obtain ⟨entry, hentry, rfl⟩ := List.mem_map.mp hkey
  exact ht.leadsOn entry hentry name (by simp [nameIn?_eq_some_iff.mp hname])

/-- What is listed are the different names in a directory. -/
lemma Proper.of_list_eq_ok (ht : t.Proper) {listed : List Bytes} (h : t.list p = .ok listed) :
    listed.Nodup ∧ ∀ name ∈ listed, LeadsOn name := by
  unfold list at h
  split at h
  · exact absurd h (by simp)
  split at h
  · rw [← Except.ok.inj h]
    exact ⟨ht.nodup_names _, fun name hname => ht.leadsOn_of_mem_names hname⟩
  · exact absurd h (by simp)

end FileTree

/-- The base name of an entry of a directory is the name of the entry. -/
lemma Path.fileName?_child {directory : Path} {name : Bytes} (hn : FileTree.LeadsOn name) :
    (directory.child name).fileName? = some name := by
  obtain ⟨front, hpieces, -⟩ := Path.exists_pieces_join directory hn.isName.isAbsolute
  have hstands : (name ≠ [] && name ≠ Path.here) = true := by simp [hn.isName.ne_nil, hn.ne_here]
  rw [Path.fileName?, Path.names, Path.child, hpieces, hn.isName.pieces, List.filter_append,
    List.filter_singleton, hstands]
  simp [hn.ne_up]

/-! ## The order of names -/

namespace Bytes

variable {a b c : Bytes}

lemma le_trans (hab : a.le b = true) (hbc : b.le c = true) : a.le c = true := by
  induction a generalizing b c with
  | nil => rfl
  | cons x a ih =>
    cases b with
    | nil => exact absurd hab (by simp [le])
    | cons y b =>
      cases c with
      | nil => exact absurd hbc (by simp [le])
      | cons z c =>
        simp only [le, Bool.or_eq_true, Bool.and_eq_true, decide_eq_true_eq, beq_iff_eq] at *
        rcases hab with hlt | ⟨rfl, hle⟩
        · rcases hbc with hlt' | ⟨rfl, -⟩
          · exact .inl (UInt8.lt_trans hlt hlt')
          · exact .inl hlt
        · rcases hbc with hlt' | ⟨rfl, hle'⟩
          · exact .inl hlt'
          · exact .inr ⟨rfl, ih hle hle'⟩

lemma le_total (a b : Bytes) : (a.le b || b.le a) = true := by
  induction a generalizing b with
  | nil => rfl
  | cons x a ih =>
    cases b with
    | nil => rfl
    | cons y b =>
      simp only [le, Bool.or_eq_true, Bool.and_eq_true, decide_eq_true_eq, beq_iff_eq] at *
      by_cases heq : x = y
      · subst heq
        exact (ih b).imp (fun hle => .inr ⟨rfl, hle⟩) fun hle => .inr ⟨rfl, hle⟩
      · exact (UInt8.lt_or_lt_of_ne heq).imp .inl .inl

/-- Names that are sorted stand in their order. -/
lemma pairwise_mergeSort (names : List Bytes) :
    (names.mergeSort le).Pairwise fun a b => a.le b = true :=
  @List.pairwise_mergeSort _ le (fun _ _ _ => le_trans) le_total names

end Bytes

/-! ## Searching a directory -/

namespace FileTree

/-- Of the names that are listed in a directory, the paths of the regular files that are called
like documents, in the order of their names. -/
def documentsAmong (t : FileTree) (directory : Path) (names : List Bytes) : List Path :=
  (((names.mergeSort Bytes.le).map directory.child).filter isDocumentName).filter t.isFile

/-- The path is that of a regular file of the directory that is called like a document. -/
structure HasDocument (t : FileTree) (directory path : Path) : Prop where
  /-- It is listed in the directory. -/
  listed : ∃ names, t.list directory = .ok names ∧ ∃ name ∈ names, path = directory.child name
  /-- It is called like a document. -/
  named : isDocumentName path = true
  /-- It is a regular file. -/
  regular : t.isFile path = true

variable {t : FileTree} {directory path : Path} {names : List Bytes}

lemma mem_documentsAmong_iff (hlist : t.list directory = .ok names) :
    path ∈ t.documentsAmong directory names ↔ t.HasDocument directory path := by
  rw [documentsAmong, List.mem_filter, List.mem_filter, List.mem_map]
  constructor
  · rintro ⟨⟨⟨name, hname, rfl⟩, hnamed⟩, hregular⟩
    exact ⟨⟨names, hlist, name, List.mem_mergeSort.mp hname, rfl⟩, hnamed, hregular⟩
  · rintro ⟨⟨names', hlist', name, hname, rfl⟩, hnamed, hregular⟩
    obtain rfl := Except.ok.inj (hlist.symm.trans hlist')
    exact ⟨⟨⟨name, List.mem_mergeSort.mpr hname, rfl⟩, hnamed⟩, hregular⟩

/-- The names of the documents are some of the names that are listed, in their order. -/
lemma fileName?_documentsAmong (ht : t.Proper) (hlist : t.list directory = .ok names) :
    ((t.documentsAmong directory names).map Path.fileName?).Sublist
      ((names.mergeSort Bytes.le).map some) := by
  obtain ⟨-, hleads⟩ := ht.of_list_eq_ok hlist
  have hnames : ((names.mergeSort Bytes.le).map directory.child).map Path.fileName?
      = (names.mergeSort Bytes.le).map some := by
    rw [List.map_map]
    refine List.map_congr_left fun name hname => ?_
    exact Path.fileName?_child (hleads name (List.mem_mergeSort.mp hname))
  rw [← hnames]
  exact (List.filter_sublist.trans List.filter_sublist).map _

end FileTree

lemma regularFiles_runOn (paths : List Path) :
    (regularFiles paths).runOn m h = (.ok (paths.filter h.files.isFile), h) := by
  induction paths with
  | nil => rfl
  | cons path paths ih =>
    have hisFile : (Work.isFile path).runOn m h = (.ok (h.files.isFile path), h) := rfl
    rw [regularFiles, Work.runOn_bind, hisFile]
    simp only
    rw [Work.runOn_bind, ih]
    cases hfile : h.files.isFile path with
    | true =>
      rw [List.filter_cons_of_pos hfile]
      rfl
    | false =>
      rw [List.filter_cons_of_neg (by simp [hfile])]
      rfl

/-- The document has a companion. -/
def FileTree.hasCompanion (t : FileTree) (document : Path) : Bool := t.isFile (companion document)

/-- That a document is skipped is told. -/
def skipEvent (document : Path) : Log.Event :=
  batchEvent .warn s!"{noCompanion document}, skipping"

/-- How many documents have been found is told. -/
def foundEvent (directory : Path) (d : Discovery) : Log.Event :=
  let found := d.documents.length
  let without := d.skipped.length
  batchEvent .info s!"Found {found} document(s) in {directory.display}, {without} skipped"

lemma sortOut_runOn (documents : List Path) :
    (sortOut documents).runOn m h = (.ok ⟨documents.filter h.files.hasCompanion,
        documents.filter fun document => !h.files.hasCompanion document⟩,
      { h with events := h.events
        ++ (documents.filter fun document => !h.files.hasCompanion document).map skipEvent }) := by
  induction documents generalizing h with
  | nil => simp [sortOut]
  | cons document documents ih =>
    have hisFile : (Work.isFile (companion document)).runOn m h
        = (.ok (h.files.hasCompanion document), h) := rfl
    rw [sortOut, Work.runOn_bind, hisFile]
    simp only
    cases hfile : h.files.hasCompanion document with
    | true =>
      rw [if_pos rfl, Work.runOn_bind, ih, List.filter_cons_of_pos hfile,
        List.filter_cons_of_neg (by simp [hfile])]
      rfl
    | false =>
      rw [if_neg (by simp), Work.runOn_bind, Work.runOn_tell]
      simp only
      rw [Work.runOn_bind, ih, List.filter_cons_of_neg (by simp [hfile]),
        List.filter_cons_of_pos (by simp [hfile]), List.map_cons,
        List.append_cons h.events (skipEvent document)]
      rfl

/-- The documents of a directory with these names, sorted out by whether they have a companion. -/
def FileTree.discoveryAmong (t : FileTree) (directory : Path) (names : List Bytes) : Discovery where
  documents := (t.documentsAmong directory names).filter t.hasCompanion
  skipped := (t.documentsAmong directory names).filter fun document => !t.hasCompanion document

/-- In a directory that can be listed the documents are found; which ones are skipped, and how
many there are, is told. -/
lemma discover_runOn {directory : Path} {names : List Bytes}
    (there : h.files.isDirectory directory = true) (listed : h.files.list directory = .ok names) :
    (discover directory).runOn m h = (.ok (h.files.discoveryAmong directory names),
      { h with events := h.events
        ++ (h.files.discoveryAmong directory names).skipped.map skipEvent
        ++ [foundEvent directory (h.files.discoveryAmong directory names)] }) := by
  have hthere : (Work.isDirectory directory).runOn m h = (.ok true, h) := by
    rw [← there]
    rfl
  have hlisted : (Work.listDirectory directory).runOn m h = (.ok (.ok names), h) := by
    rw [← listed]
    rfl
  rw [discover, Work.runOn_bind, hthere]
  simp only [if_true]
  rw [Work.runOn_bind, hlisted]
  simp only
  rw [Work.orFailAt, Work.runOn_bind, Work.runOn_orFail]
  simp only [Except.mapError]
  rw [Work.runOn_bind, regularFiles_runOn]
  simp only
  rw [Work.runOn_bind, sortOut_runOn]
  simp only
  rw [Work.runOn_bind, Work.runOn_tell]
  rfl

/-- Documents are found only in a directory that can be listed, and then events are all that is
new. -/
lemma discover_runOn_eq_ok {directory : Path} {d : Discovery}
    (found : (discover directory).runOn m h = (.ok d, h')) :
    ∃ names, h.files.list directory = .ok names ∧
      d = h.files.discoveryAmong directory names ∧ h' = { h with events := h'.events } := by
  obtain ⟨isDirectory, h₁, hisDirectory, hr⟩ := Work.runOn_bind_eq_ok_iff.mp found
  obtain ⟨hthere, rfl⟩ := Prod.mk.inj hisDirectory
  cases isDirectory with
  | false => exact absurd (congrArg Prod.fst hr) (by simp [Work.runOn_orFail, Except.mapError])
  | true =>
    obtain ⟨listed, h₂, hlisted, hr₁⟩ := Work.runOn_bind_eq_ok_iff.mp hr
    obtain ⟨hlist, rfl⟩ := Prod.mk.inj hlisted
    obtain ⟨names, h₃, hnames, -⟩ := Work.runOn_bind_eq_ok_iff.mp hr₁
    obtain ⟨rfl, -⟩ := Work.runOn_orFail_eq_ok_iff.mp hnames
    have hlist : h.files.list directory = .ok names := Except.ok.inj hlist
    rw [discover_runOn (Except.ok.inj hthere) hlist] at found
    obtain ⟨hd, hh⟩ := Prod.mk.inj found
    exact ⟨names, hlist, (Except.ok.inj hd).symm, by rw [← hh]⟩

/-- **The documents that are found have names, and these are different.** -/
lemma distinct_of_discover {directory : Path} {d : Discovery} (proper : h.files.Proper)
    (found : (discover directory).runOn m h = (.ok d, h')) :
    (∀ document ∈ d.documents, document.fileName? ≠ none) ∧
      (d.documents.map Path.fileName?).Nodup := by
  obtain ⟨names, hlist, rfl, -⟩ := discover_runOn_eq_ok found
  have hsub := (List.filter_sublist (p := h.files.hasCompanion)).map Path.fileName? |>.trans
    (FileTree.fileName?_documentsAmong proper hlist)
  constructor
  · intro document hmem
    obtain ⟨name, -, heq⟩ := List.mem_map.mp (hsub.subset (List.mem_map_of_mem hmem))
    simp [← heq]
  · obtain ⟨hnodup, -⟩ := proper.of_list_eq_ok hlist
    refine List.Nodup.sublist hsub ?_
    exact ((List.mergeSort_perm names Bytes.le).nodup_iff.mpr hnodup).map
      fun _ _ => Option.some.inj

end Concolic
