/-
# Where output goes

The output of a document goes to one entry of the run directory, which is named like the
document, or `target` if the document has no base name; a base name is one piece of a path and
neither `.` nor `..`, so it does not lead out of the run directory.  Everything that is made for
the document is made at an entry down from there, and if the run directory is missing, it is
made with the directories above it.

* The places are those of `Layout.directoriesOf` and `Layout.filesOf`, seen from the run directory.
* Every operation that changes files changes only these (`prepare_changes`,
  `writeTestCases_changes`), whether or not it succeeds, and so does a whole run
  (`process_changes`).
-/
import Concolic.Proofs.FileTree.Changes
import Concolic.Proofs.Run.Holdings
import Concolic.Proofs.Run.Separation

namespace Concolic

open FileTree (ChangesOnly IsMade LeadsOn Below Within)

variable {P S σ α : Type} {m : Machine P S σ} {h h' : Host P S σ} {r : RunDirectory}
  {document : Path} {root : Path} {directories files directories' files' : Set Location}

/-! ## The entries of a document -/

/-- The name of the directory of a document. -/
def Layout.directoryName (document : Path) : Bytes :=
  document.fileName?.getD (Utf8.encode "target")

namespace Layout

/-- The entry of the copied companion. -/
def companionEntry (name : Bytes) : Location :=
  [name, Utf8.encode "guest-data", Utf8.encode "crete-guest-config.serialized"]

/-- The entry of the test case with a number. -/
def testCaseEntry (name : Bytes) (number : Nat) : Location :=
  [name, Utf8.encode "test-case-parsed", testCaseName number]

/-- The entries at which directories are made. -/
def directoriesOf (name : Bytes) : Set Location :=
  {[name], [name, Utf8.encode "guest-data"], [name, Utf8.encode "test-case-parsed"]}

/-- The entries at which files are written. -/
def filesOf (name : Bytes) : Set Location :=
  {entry | entry = companionEntry name ∨ ∃ number, entry = testCaseEntry name number}

/-- The name of the directory of a document leads to an entry of the run directory. -/
lemma leadsOn_directoryName (document : Path) : LeadsOn (directoryName document) := by
  rw [directoryName]
  rcases hname : document.fileName? with _ | name
  · show LeadsOn (Utf8.encode "target")
    decide +kernel
  · exact leadsOn_of_fileName? hname

variable {name : Bytes}

lemma leadsOn_companionEntry (hname : LeadsOn name) : ∀ x ∈ companionEntry name, LeadsOn x := by
  simpa [companionEntry] using ⟨hname, leadsOn_guestData, leadsOn_companionCopy⟩

lemma leadsOn_testCaseEntry (hname : LeadsOn name) (number : Nat) :
    ∀ x ∈ testCaseEntry name number, LeadsOn x := by
  simpa [testCaseEntry] using
    ⟨hname, leadsOn_testCaseDirectory, leadsOn_testCaseName number⟩

/-- On the way to one of the two directories are its own entry and that of the document. -/
lemma front_mem_directoriesOf {kind : Bytes} {front : Location}
    (hkind : [name, kind] ∈ directoriesOf name) (hne : front ≠ [])
    (hfront : front <+: [name, kind]) :
    front ∈ directoriesOf name := by
  obtain ⟨first, rest, rfl⟩ := List.exists_cons_of_ne_nil hne
  obtain ⟨rfl, hrest⟩ := List.cons_prefix_cons.mp hfront
  rcases rest with _ | ⟨second, others⟩
  · exact .inl rfl
  · obtain ⟨rfl, hothers⟩ := List.cons_prefix_cons.mp hrest
    rwa [List.prefix_nil.mp hothers]

/-- The files lie right in one of the two directories. -/
lemma exists_of_mem_filesOf {entry : Location} (h : entry ∈ filesOf name) :
    ∃ kind own, entry = [name, kind, own] := by
  rcases h with rfl | ⟨number, rfl⟩
  · exact ⟨_, _, rfl⟩
  · exact ⟨_, _, rfl⟩

lemma companionEntry_ne_testCaseEntry (name : Bytes) (number : Nat) :
    companionEntry name ≠ testCaseEntry name number := by
  intro heq
  have hkind := (List.cons.inj (List.cons.inj heq).2).1
  exact absurd hkind (by decide +kernel)

/-- Entries of the directory of a document are this directory itself or lie below it. -/
lemma eq_or_below_of_mem_directoriesOf {base entry : Location} (h : entry ∈ directoriesOf name) :
    base ++ entry = base ++ [name] ∨ Below (base ++ [name]) (base ++ entry) := by
  rcases h with rfl | rfl | rfl
  · exact .inl rfl
  · exact .inr ⟨Utf8.encode "guest-data", [], by simp⟩
  · exact .inr ⟨Utf8.encode "test-case-parsed", [], by simp⟩

lemma below_of_mem_filesOf {base entry : Location} (h : entry ∈ filesOf name) :
    Below (base ++ [name]) (base ++ entry) := by
  obtain ⟨kind, own, rfl⟩ := exists_of_mem_filesOf h
  exact ⟨kind, [own], by simp⟩

end Layout

namespace RunDirectory

lemma targetDirectory_eq (r : RunDirectory) (document : Path) :
    r.targetDirectory document = r.root.descend [Layout.directoryName document] := by
  rw [targetDirectory, Layout.directoryName]
  rcases document.fileName? with _ | name <;> rfl

lemma guestData_eq (r : RunDirectory) (document : Path) :
    Layout.guestData (r.targetDirectory document)
      = r.root.descend [Layout.directoryName document, Utf8.encode "guest-data"] := by
  rw [targetDirectory_eq]
  rfl

lemma companionCopy_eq (r : RunDirectory) (document : Path) :
    Layout.companionCopy (r.targetDirectory document)
      = r.root.descend (Layout.companionEntry (Layout.directoryName document)) := by
  rw [targetDirectory_eq]
  rfl

lemma testCaseDirectory_eq (r : RunDirectory) (document : Path) :
    Layout.testCaseDirectory (r.targetDirectory document)
      = r.root.descend [Layout.directoryName document, Utf8.encode "test-case-parsed"] := by
  rw [targetDirectory_eq]
  rfl

lemma testCasePath_eq {l : Layout}
    (hl : l.testCases = Layout.testCaseDirectory (r.targetDirectory document)) (number : Nat) :
    l.testCasePath number
      = r.root.descend (Layout.testCaseEntry (Layout.directoryName document) number) := by
  rw [Layout.testCasePath, hl, testCaseDirectory_eq]
  rfl

end RunDirectory

/-! ## Operations -/

/-- Whatever files there are, the operation changes only these entries. -/
def Operation.Changes (root : Path) (directories files : Set Location) : Operation P S → Prop
  | .file op => ∀ t, ChangesOnly root directories files t (op.run t).2
  | _ => True

namespace Operation.Changes

variable {op : Operation P S}

lemma mono (hop : op.Changes root directories files) (hdirs : directories ⊆ directories')
    (hfiles : files ⊆ files') : op.Changes root directories' files' := by
  cases op with
  | file op => exact fun t => (hop t).mono hdirs hfiles
  | launch | ask | close | tell | print | stamp => trivial

lemma perform (hop : op.Changes root directories files) :
    ChangesOnly root directories files h.files (h.perform m op).2.files := by
  cases op with
  | file op => exact hop h.files
  | launch command =>
    rw [Host.files_perform_launch]
    exact .refl root directories files h.files
  | ask call =>
    rw [Host.files_perform_ask]
    exact .refl root directories files h.files
  | close =>
    rw [Host.files_perform_close]
    exact .refl root directories files h.files
  | tell | print | stamp => exact .refl root directories files h.files

end Operation.Changes

/-- Talking to the engine changes nothing. -/
lemma Operation.IsTalk.changes {op : Operation P S} (hop : op.IsTalk) :
    op.Changes root directories files := by
  cases op with
  | ask | tell => trivial
  | file | launch | close | print | stamp => exact hop.elim

lemma Action.Uses.changesOnly {x : Action P S α}
    (hx : x.Uses (Operation.Changes root directories files)) :
    ChangesOnly root directories files h.files (x.run m h).2.files := by
  induction x generalizing h with
  | done a => exact .refl root directories files h.files
  | step op next ih => exact hx.1.perform.trans (ih _ (hx.2 _))

/-- Work whose operations change only these entries changes only these, whatever it comes to. -/
lemma Work.Uses.changesOnly {w : Work P S α}
    (hw : w.Uses (Operation.Changes root directories files)) {result : Except RunError α}
    (hr : w.runOn m h = (result, h')) :
    ChangesOnly root directories files h.files h'.files := by
  have hchanges := Action.Uses.changesOnly (m := m) (h := h) hw
  rwa [show (ExceptT.run w).run m h = (result, h') from hr] at hchanges

/-! ## Output -/

/-- Making one of the two directories of a document. -/
lemma makeDirectories_changes {path : Path} {kind : Bytes} (hkind : LeadsOn kind)
    (hmem : [Layout.directoryName document, kind]
      ∈ Layout.directoriesOf (Layout.directoryName document))
    (hpath : path = root.descend [Layout.directoryName document, kind]) :
    (Operation.file (P := P) (S := S) (.makeDirectories path)).Changes root
      (Layout.directoriesOf (Layout.directoryName document)) files := by
  intro t
  have hnames : ∀ x ∈ [Layout.directoryName document, kind], LeadsOn x := by
    simpa using ⟨Layout.leadsOn_directoryName document, hkind⟩
  rw [hpath]
  exact (FileTree.changesOnly_makeDirectories hnames t).mono
    (fun _ hfront => Layout.front_mem_directoriesOf hmem hfront.1 hfront.2)
    (Set.empty_subset _)

/-- Preparing the output makes the directories and writes the copy of the companion, and what
comes after it writes test cases to the right directory. -/
lemma prepare_bind_changes {f : Layout → Work P S α}
    (hcopy : Layout.companionEntry (Layout.directoryName document) ∈ files)
    (hf : ∀ l : Layout, l.testCases = Layout.testCaseDirectory (r.targetDirectory document) →
      (f l).Uses (Operation.Changes r.root
        (Layout.directoriesOf (Layout.directoryName document)) files)) :
    (Layout.prepare r document >>= f).Uses (Operation.Changes r.root
      (Layout.directoriesOf (Layout.directoryName document)) files) := by
  have hcopied : (Operation.file (P := P) (S := S) (.copy (companion document)
      (Layout.companionCopy (r.targetDirectory document)))).Changes r.root
        (Layout.directoriesOf (Layout.directoryName document)) files := by
    intro t
    rw [r.companionCopy_eq]
    exact (FileTree.changesOnly_copy t (Layout.leadsOn_companionEntry
      (Layout.leadsOn_directoryName document)) (List.cons_ne_nil _ _)).mono
      (Set.empty_subset _) (Set.singleton_subset_iff.mpr hcopy)
  unfold Layout.prepare
  simp only [bind_assoc]
  refine (Work.uses_file (makeDirectories_changes Layout.leadsOn_guestData (.inr (.inl rfl))
      (r.guestData_eq document))).bind fun _ => (Work.uses_orFail _ _).bind fun _ =>
    (Work.uses_file (makeDirectories_changes Layout.leadsOn_testCaseDirectory (.inr (.inr rfl))
      (r.testCaseDirectory_eq document))).bind fun _ => (Work.uses_orFail _ _).bind fun _ =>
    (Work.uses_file fun t => .refl _ _ _ t).bind fun there => ?_
  split
  · simp only [bind_assoc, pure_bind]
    exact (Work.uses_file hcopied).bind fun _ => (Work.uses_orFail _ _).bind fun _ => hf _ rfl
  · simp only [bind_assoc, pure_bind]
    exact (Work.uses_tell trivial).bind fun _ => hf _ rfl

lemma prepare_changes (r : RunDirectory) (document : Path) :
    (Layout.prepare r document : Work P S Layout).Uses (Operation.Changes r.root
      (Layout.directoriesOf (Layout.directoryName document))
      {Layout.companionEntry (Layout.directoryName document)}) := by
  have hprepare := prepare_bind_changes (P := P) (S := S) (f := pure) (r := r)
    (Set.mem_singleton (Layout.companionEntry (Layout.directoryName document)))
    fun _ _ => Work.uses_pure _
  rwa [bind_pure] at hprepare

/-- Writing a test case changes the entry of its path. -/
lemma writeTestCase_changes (root : Path) {names : List Bytes} (hnames : ∀ x ∈ names, LeadsOn x)
    (hne : names ≠ []) (o : Outcome) :
    (writeTestCase (root.descend names) o : Work P S Nat).Uses
      (Operation.Changes root ∅ {names}) :=
  (Work.uses_file fun t => FileTree.changesOnly_create t hnames hne).bind fun _ =>
    (Work.uses_orFail _ _).bind fun _ =>
    (Work.uses_file fun t => FileTree.changesOnly_write t hnames hne).bind fun _ =>
    (Work.uses_orFail _ _).bind fun _ => (Work.uses_orFail _ _).bind fun _ =>
    (Work.uses_tell trivial).bind fun _ => Work.uses_pure _

/-- Writing test cases changes the entries of their numbers. -/
lemma writeTestCases_changes {l : Layout}
    (hl : l.testCases = Layout.testCaseDirectory (r.targetDirectory document)) (n : Nat)
    (os : List Outcome) :
    (writeTestCases l n os : Work P S (List Path)).Uses (Operation.Changes r.root ∅
      {entry | ∃ i < os.length,
        entry = Layout.testCaseEntry (Layout.directoryName document) (n + i)}) := by
  induction os generalizing n with
  | nil => exact Work.uses_pure _
  | cons o os ih =>
    have hone := writeTestCase_changes (P := P) (S := S) r.root
      (Layout.leadsOn_testCaseEntry (Layout.leadsOn_directoryName document) n)
      (List.cons_ne_nil _ _) o
    rw [← RunDirectory.testCasePath_eq hl] at hone
    refine (hone.mono fun op hop => hop.mono subset_rfl ?_).bind fun _ =>
      ((ih (n + 1)).mono fun op hop => hop.mono subset_rfl ?_).bind fun _ => Work.uses_pure _
    · rintro entry rfl
      exact ⟨0, by simp, rfl⟩
    · rintro entry ⟨i, hi, rfl⟩
      exact ⟨i + 1, by simpa using hi, by rw [Nat.add_right_comm, Nat.add_assoc]⟩

/-- A run changes only the entries of its document. -/
lemma process_changes (policy : Policy) (r : RunDirectory) (document : Path) (c : Configuration) :
    (process policy r document c : Work P S TargetReport).Uses (Operation.Changes r.root
      (Layout.directoriesOf (Layout.directoryName document))
      (Layout.filesOf (Layout.directoryName document))) := by
  refine ((uses_isTalk_harvest policy c).mono fun _ => Operation.IsTalk.changes).bind fun v =>
    prepare_bind_changes (.inl rfl) fun l hl => ?_
  refine ((writeTestCases_changes hl 1 v.outcomes).mono fun _ hop =>
    hop.mono (Set.empty_subset _) ?_).bind fun _ => (Work.uses_tell trivial).bind fun _ =>
      Work.uses_pure _
  rintro entry ⟨i, -, hentry⟩
  exact .inr ⟨1 + i, hentry⟩

/-! ## The copy of the companion -/

/-- What stands where the copy of the companion goes is a file of this content, or a device. -/
def RunDirectory.HoldsCopy (r : RunDirectory) (document : Path) (content : Bytes) (t : FileTree) :
    Prop :=
  ∃ place, t.locate (Layout.companionCopy (r.targetDirectory document)) = .ok place ∧
    (t.node? place = some (.file content) ∨ t.node? place = some .device)

/-- If there is a companion, and not below the run directory, then preparing the output copies
it. -/
lemma prepare_copies_companion {l : Layout} {content : Bytes}
    (hw : (Layout.prepare r document).runOn m h = (.ok l, h'))
    (hcompanion : h.files.at? (companion document) = some (.file content))
    (hout : h'.files.LiesOutside r.root (companion document)) :
    l.companionCopied = true ∧ r.HoldsCopy document content h'.files := by
  obtain ⟨-, -, t, t', hguest, hmake, hcopied⟩ := prepare_runOn_eq_ok hw
  -- making directories leaves the companion as it is
  have hfirst : t.at? (companion document) = some (.file content) :=
    ((FileTree.gainsAt_of_makeDirectories hguest).at?_eq (by simp [hcompanion])).trans hcompanion
  have hkept : t'.at? (companion document) = some (.file content) :=
    ((FileTree.gainsAt_of_makeDirectories hmake).at?_eq (by simp [hfirst])).trans hfirst
  rcases hcopied with ⟨-, hnone, -⟩ | ⟨hflag, -, hcopy⟩
  · rw [FileTree.isFile, hkept] at hnone
    exact absurd hnone (by simp)
  obtain ⟨q, hq, hcontent⟩ := FileTree.at?_eq_some_iff.mp hkept
  refine ⟨hflag, ?_⟩
  obtain ⟨place, hplace, -⟩ := FileTree.copy_eq_ok (Layout.pieces_companionCopy _)
    Layout.leadsOn_companionCopy.isName hcopy
  have hne : q ≠ place := by
    rintro rfl
    rw [r.companionCopy_eq] at hplace
    obtain ⟨base, hbase, heq⟩ := FileTree.exists_of_locate_descend
      (Layout.leadsOn_companionEntry (Layout.leadsOn_directoryName document))
      (List.cons_ne_nil _ _) hplace
    exact hout base q hbase ((FileTree.grows_of_copy_eq_ok hcopy).locate hq) ⟨_, _, heq⟩
  exact ⟨place, hplace, FileTree.node?_copy (Layout.pieces_companionCopy _)
    Layout.leadsOn_companionCopy.isName hq hcontent hplace hne hcopy⟩

namespace RunDirectory.HoldsCopy

variable {t t' : FileTree} {content : Bytes}

/-- A copy stays as it is where other entries are changed. -/
lemma of_changesOnly (hcopy : r.HoldsCopy document content t)
    (hc : ChangesOnly r.root directories files t t')
    (hfiles : Layout.companionEntry (Layout.directoryName document) ∉ files) :
    r.HoldsCopy document content t' := by
  obtain ⟨place, hplace, hnode⟩ := hcopy
  have hsame : t'.node? place = t.node? place := by
    refine hc.node?_eq_of_present (by rcases hnode with hnode | hnode <;> simp [hnode]) ?_
    rw [r.companionCopy_eq] at hplace
    obtain ⟨base, hbase, rfl⟩ := FileTree.exists_of_locate_descend
      (Layout.leadsOn_companionEntry (Layout.leadsOn_directoryName document))
      (List.cons_ne_nil _ _) hplace
    rwa [FileTree.isEntry_append_iff (hbase.of_grows hc.toGrows)]
  exact ⟨place, hc.toGrows.locate hplace, hsame.symm ▸ hnode⟩

/-- If no device has been there before, the copy is read as the content. -/
lemma read (hcopy : r.HoldsCopy document content t') (hg : FileTree.Grows t t')
    (plain : t.PlainUnder t' (r.targetDirectory document)) :
    t'.read (Layout.companionCopy (r.targetDirectory document)) = .ok content := by
  obtain ⟨place, hplace, hnode⟩ := hcopy
  obtain ⟨parent, hparent, rfl⟩ := Layout.exists_place_of_locate_companionCopy
    (r.endsInName_targetDirectory document) hplace
  exact FileTree.read_of_plainUnder hg plain hparent hplace hnode

end RunDirectory.HoldsCopy

/-! ## A whole run -/

/-- **Output stays in its place.**  Whatever the run directory, the document, the configuration
and the engine are, and whether or not the run succeeds: the directory of the document is an entry
of the run directory, by a name that leads neither to the run directory itself nor above it, and
all that changes is that directories are made on the way to the run directory, that the directory
of the document is made, and what lies below it.  If the run directory is there already, nothing
changes outside the directory of the document.  So a document with another base name, to which
another entry belongs, has its output to itself. -/
theorem process_stays_in_place {policy : Policy} {c : Configuration}
    {result : Except RunError TargetReport}
    (ran : (process policy r document c).runOn m h = (result, h')) :
    LeadsOn (Layout.directoryName document) ∧
      r.targetDirectory document = r.root.child (Layout.directoryName document) ∧
      h'.files.current = h.files.current ∧
      (∀ q, h'.files.node? q = h.files.node? q ∨
        IsMade h.files h'.files q ∧ h'.files.OnWay r.root q ∨
        ∃ base, h'.files.Leads base r.root [] ∧
          (IsMade h.files h'.files q ∧ q = base ++ [Layout.directoryName document] ∨
            Below (base ++ [Layout.directoryName document]) q)) ∧
      (∀ base, h.files.Leads base r.root [] →
        ∀ q, ¬ Within base (Layout.directoryName document) q →
          h'.files.node? q = h.files.node? q) ∧
      ∀ other, Layout.directoryName other ≠ Layout.directoryName document →
        ∀ base, h'.files.Leads base r.root [] →
          ∀ q, Within base (Layout.directoryName other) q →
            ¬ Within base (Layout.directoryName document) q ∧
            (h'.files.node? q = h.files.node? q ∨
              IsMade h.files h'.files q ∧ h'.files.OnWay r.root q) := by
  have hchanges := (process_changes policy r document c).changesOnly ran
  have hwithin : ∀ {base q}, q = base ++ [Layout.directoryName document] ∨
      Below (base ++ [Layout.directoryName document]) q →
      Within base (Layout.directoryName document) q := by
    rintro base q (rfl | ⟨name, rest, rfl⟩)
    · exact FileTree.within_self
    · exact FileTree.within_self.append (name :: rest)
  have hplaces : ∀ q, h'.files.node? q = h.files.node? q ∨
      IsMade h.files h'.files q ∧ h'.files.OnWay r.root q ∨
      ∃ base, h'.files.Leads base r.root [] ∧
        (IsMade h.files h'.files q ∧ q = base ++ [Layout.directoryName document] ∨
          Below (base ++ [Layout.directoryName document]) q) := by
    intro q
    rcases hchanges.change q with hsame | ⟨hnew, hway | ⟨base, hbase, entry, hentry, rfl⟩⟩ |
      ⟨base, hbase, entry, hentry, rfl⟩
    · exact .inl hsame
    · exact .inr (.inl ⟨hnew, hway⟩)
    · exact .inr (.inr ⟨base, hbase, (Layout.eq_or_below_of_mem_directoriesOf hentry).imp_left
        fun heq => ⟨hnew, heq⟩⟩)
    · exact .inr (.inr ⟨base, hbase, .inr (Layout.below_of_mem_filesOf hentry)⟩)
  refine ⟨Layout.leadsOn_directoryName document, r.targetDirectory_eq document,
    hchanges.current, hplaces, ?_, ?_⟩
  · intro base hbase q hq
    rcases hplaces q with hsame | ⟨hnew, hway⟩ | ⟨base', hbase', hplace⟩
    · exact hsame
    · exact absurd hway (FileTree.not_onWay_of_isMade hbase hchanges.toGrows hnew)
    · obtain rfl := hbase'.unique (hbase.of_grows hchanges.toGrows)
      exact absurd (hwithin (hplace.imp_left And.right)) hq
  · intro other hother base hbase q hq
    have hapart : ¬ Within base (Layout.directoryName document) q :=
      fun hq' => hother (hq.name_eq hq')
    refine ⟨hapart, ?_⟩
    rcases hplaces q with hsame | hnew | ⟨base', hbase', hplace⟩
    · exact .inl hsame
    · exact .inr hnew
    · obtain rfl := hbase'.unique hbase
      exact absurd (hwithin (hplace.imp_left And.right)) hapart

/-- A run for a document without a base name, in a run directory that is written in a roundabout
way. -/
def namelessRun : Except RunError TargetReport × Host Path Nat Script :=
  (process .singleFork ⟨.ofString "/out/doc.xml/../."⟩ (.ofString "/in/..")
    sampleConfiguration).runOn scriptMachine
      { Host.new sampleTree "" with session := some (.new [sampleState] [] none) }

/-- The output of such a run goes to `target`, and the test case of another document is left
alone. -/
theorem process_stays_in_place_sample :
    namelessRun.2.files.node? (Path.ofString "out/target/test-case-parsed/1.bin").pieces ≠ none ∧
      (∀ q, ¬ Within (Path.ofString "out").pieces (Utf8.encode "target") q →
        namelessRun.2.files.node? q = sampleTree.node? q) ∧
      namelessRun.2.files.node? (Path.ofString "out/doc.xml/test-case-parsed/1.bin").pieces
        = some (.file [9, 9, 9]) := by
  have ran : namelessRun = (namelessRun.1, namelessRun.2) := rfl
  obtain ⟨-, -, -, -, hframe, -⟩ := process_stays_in_place ran
  have hbase : sampleTree.Leads (Path.ofString "out").pieces (.ofString "/out/doc.xml/../.") [] :=
    FileTree.leads_of_locate (by decide +kernel) (by decide +kernel)
  have hname : Layout.directoryName (.ofString "/in/..") = Utf8.encode "target" := by
    decide +kernel
  have hother : Within (Path.ofString "out").pieces (Utf8.encode "doc.xml")
      (Path.ofString "out/doc.xml/test-case-parsed/1.bin").pieces :=
    ⟨[Utf8.encode "test-case-parsed", Utf8.encode "1.bin"], by decide +kernel⟩
  refine ⟨by decide +kernel, fun q hq => hframe _ hbase q (by rwa [hname]), ?_⟩
  rw [hframe _ hbase _ fun hin => absurd (hin.name_eq hother) (by decide +kernel)]
  decide +kernel

end Concolic
