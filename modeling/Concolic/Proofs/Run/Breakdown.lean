/-
# Writing that breaks off

Once the outcomes are collected, their test cases are written one after the other, and each of
them can fail: its file cannot be made, or its record would be longer than the lengths in it can
say.  Then the run ends, and what has been written before stays.

* The failure has struck one test case when those before it had been written
  (`writeTestCases_runOn_eq_error`).  A file that has been made can always be filled, so there is
  no third cause (`writeTestCase_runOn_eq_error`).
* What has been written by then is the copy of the companion (`prepare_copies_companion`) and the
  test cases before this one; the write that fails changes the entry of its own number only.
-/
import Concolic.Proofs.Record.Embedding
import Concolic.Proofs.Run.Enclosure

namespace Concolic

open FileTree (ChangesOnly IsMade)

variable {P S σ : Type} {m : Machine P S σ} {h h' : Host P S σ} {r : RunDirectory}
  {document : Path} {e : RunError}

/-! ## Records that are too long -/

namespace Record.Writer

variable {w w' : Writer} {cause : Error}

/-- On a growing medium, only a pair that is too long is refused. -/
lemma overflow_of_element_error {name value : Bytes} (hm : w.medium.isFixed = false)
    (h : w.element name value = (.error cause, w')) :
    ∃ field length, cause = .overflow field length := by
  by_cases hlong : limit < name.length ∨ limit < value.length ∨ limit < w.count + 1
  · obtain ⟨field, length, hrefused⟩ := element_of_too_long hlong
    exact ⟨field, length, Except.error.inj (Prod.mk.inj (h.symm.trans hrefused)).1⟩
  · rw [element_of_fits hm (by omega) (by omega) (by omega)] at h
    exact nomatch (Prod.mk.inj h).1

lemma overflow_of_elements_error {es : List Element} (hm : w.medium.isFixed = false)
    (h : w.elements es = (.error cause, w')) : ∃ field length, cause = .overflow field length := by
  induction es generalizing w with
  | nil => exact nomatch (Prod.mk.inj h).1
  | cons e es ih =>
    rw [elements] at h
    split at h
    · rename_i next hnext
      obtain ⟨hfits, hcount, hle⟩ := fits_of_element_ok hnext
      rw [element_of_fits hm hfits.name hfits.value (by omega)] at hnext
      obtain rfl := (Prod.mk.inj hnext).2
      exact ih (Medium.grown_isFixed _ _) h
    · rename_i next hnext
      obtain ⟨heq, -⟩ := Prod.mk.inj h
      obtain rfl := Except.error.inj heq
      exact overflow_of_element_error hm hnext

end Record.Writer

/-- A test case has no record only if something in it is too long. -/
lemma TestCase.overflow_of_encode_error {t : TestCase} {cause : Record.Error}
    (h : t.encode = .error cause) : ∃ field length, cause = .overflow field length := by
  have hfits : ¬ t.Fits := fun ht => nomatch (encode_eq_ok_iff.mpr ⟨ht, rfl⟩).symm.trans h
  unfold encode at h
  split at h
  · exact nomatch h
  rename_i _ e medium hwrite
  obtain rfl := Except.error.inj h
  rw [writeTo, Record.Writer.begin_of_growing rfl] at hwrite
  simp only at hwrite
  split at hwrite
  · rename_i _ e w helements
    obtain ⟨heq, -⟩ := Prod.mk.inj hwrite
    obtain rfl := Except.error.inj heq
    exact Record.Writer.overflow_of_elements_error (Medium.grown_isFixed _ _) helements
  · -- elements that have been written fit, so it is not the count that is refused
    rename_i _ w helements
    obtain ⟨hall, hcount⟩ := Record.Writer.fits_of_elements_ok (Nat.zero_le _) helements
    exact absurd ⟨(Nat.zero_add _).symm.trans_le hcount, hall⟩ hfits

/-! ## One test case -/

/-- A test case is not written because its file cannot be made, which changes nothing, or because
it has no record. -/
lemma writeTestCase_runOn_eq_error {path : Path} {o : Outcome} {before : List Bytes}
    {name : Bytes} (hp : path.pieces = before ++ [name]) (hn : Path.IsName name)
    (hw : (writeTestCase path o).runOn m h = (.error e, h')) :
    (∃ fault, e = .file path fault ∧ h'.files.create path = .error fault) ∨
      ∃ cause, e = .record cause ∧ o.testCase.encode = .error cause := by
  obtain ⟨_, -, hmade⟩ | ⟨made, h₁, hmade, hw₁⟩ := Work.runOn_bind_cases hw
  · exact absurd (Prod.mk.inj hmade).1 (by simp)
  obtain ⟨hcreate, -⟩ := Work.runOn_file_eq_ok_iff.mp hmade
  rcases hslot : h.files.create path with fault | ⟨place, t⟩
  · -- nothing has been made
    have hrun : (FileOperation.create path).run h.files = (.error fault, h.files) := by
      rw [FileOperation.run, hslot]
      rfl
    obtain ⟨rfl, hfiles⟩ := Prod.mk.inj (hrun.symm.trans hcreate)
    obtain ⟨_, heq, hopen⟩ | ⟨_, _, hopen, -⟩ := Work.runOn_bind_cases hw₁
    · obtain ⟨hfault, rfl⟩ := Prod.mk.inj hopen
      refine .inl ⟨fault, ?_, hfiles ▸ hslot⟩
      rw [Except.error.inj heq, ← Except.error.inj hfault]
    · exact absurd (Prod.mk.inj hopen).1 (by simp [Except.mapError])
  · have hrun : (FileOperation.create path).run h.files = (.ok (), t) := by
      rw [FileOperation.run, hslot]
      rfl
    obtain ⟨rfl, rfl⟩ := Prod.mk.inj (hrun.symm.trans hcreate)
    have hw₂ := Work.runOn_of_bind hw₁ (Work.runOn_orFail_eq_ok_iff.mpr ⟨rfl, rfl⟩)
    rcases hrec : o.testCase.writeTo .empty with ⟨result, medium⟩
    rw [hrec] at hw₂
    obtain ⟨t, hwrite⟩ := FileTree.exists_write_of_create hp hn hslot medium.content
    have hfilled : (FileOperation.write path medium.content).run h₁.files = (.ok (), t) := by
      rw [FileOperation.run, hwrite]
      rfl
    have hw₃ := Work.runOn_of_bind hw₂ (Work.runOn_file _)
    rw [hfilled] at hw₃
    have hw₄ := Work.runOn_of_bind hw₃ (Work.runOn_orFail_eq_ok_iff.mpr ⟨rfl, rfl⟩)
    rcases result with cause | _
    · refine .inr ⟨cause, (Except.error.inj (Prod.mk.inj hw₄).1).symm, ?_⟩
      rw [TestCase.encode, hrec]
    · exact absurd (Prod.mk.inj hw₄).1 (by simp)

/-! ## All test cases -/

/-- A failure has struck one of the test cases, when those before it had been written. -/
lemma writeTestCases_runOn_eq_error {l : Layout} {n : Nat} {os : List Outcome}
    (hw : (writeTestCases l n os).runOn m h = (.error e, h')) :
    ∃ i o paths h₁, os[i]? = some o ∧
      (writeTestCases l n (os.take i)).runOn m h = (.ok paths, h₁) ∧
      (writeTestCase (l.testCasePath (n + i)) o).runOn m h₁ = (.error e, h') := by
  induction os generalizing n h with
  | nil => exact nomatch (Prod.mk.inj hw).1
  | cons o os ih =>
    obtain ⟨_, heq, hone⟩ | ⟨size, h₁, hone, hw₁⟩ := Work.runOn_bind_cases hw
    · obtain rfl := Except.error.inj heq
      exact ⟨0, o, [], h, rfl, rfl, hone⟩
    obtain ⟨_, heq, hrest⟩ | ⟨rest, h₂, -, hend⟩ := Work.runOn_bind_cases hw₁
    · obtain rfl := Except.error.inj heq
      obtain ⟨i, o', paths, h₂, ho, hbefore, hfail⟩ := ih hrest
      refine ⟨i + 1, o', l.testCasePath n :: paths, h₂, ho, ?_, ?_⟩
      · rw [List.take_succ_cons]
        exact Work.runOn_bind_eq_ok_iff.mpr ⟨size, h₁, hone,
          Work.runOn_bind_eq_ok_iff.mpr ⟨paths, h₂, hbefore, rfl⟩⟩
      · rwa [Nat.add_right_comm, Nat.add_assoc] at hfail
    · exact nomatch (Prod.mk.inj hend).1

/-- Why the test case of an outcome has not been written at a path, as the files are now. -/
inductive Unwritten (t : FileTree) (path : Path) (o : Outcome) : RunError → Prop where
  /-- Its file cannot be made. -/
  | notMade (fault : SystemFault) (refused : t.create path = .error fault) :
      Unwritten t path o (.file path fault)
  /-- Something in its record is too long. -/
  | tooLong (field : Record.Field) (length : Nat)
      (overflow : o.testCase.encode = .error (.overflow field length)) :
      Unwritten t path o (.record (.overflow field length))

/-- When writing breaks off, the test cases before the one that is not written stand at their
entries, and only the entries up to this one have changed. -/
lemma writeTestCases_break_off {l : Layout} {n : Nat} {os : List Outcome} {directory : Location}
    (hl : l.testCases = Layout.testCaseDirectory (r.targetDirectory document))
    (hdirectory : h.files.locate l.testCases = .ok directory)
    (hw : (writeTestCases l n os).runOn m h = (.error e, h')) :
    ∃ i o, os[i]? = some o ∧ Unwritten h'.files (l.testCasePath (n + i)) o e ∧
      (∀ j < i, ∀ o', os[j]? = some o' → l.HoldsTestCase h'.files directory (n + j) o') ∧
      ChangesOnly r.root ∅
        {entry | ∃ j ≤ i, entry = Layout.testCaseEntry (Layout.directoryName document) (n + j)}
        h.files h'.files := by
  have hends : l.testCases.EndsInName := by
    rw [hl]
    exact Layout.endsInName_testCaseDirectory _
  obtain ⟨i, o, paths, h₁, ho, hbefore, hfail⟩ := writeTestCases_runOn_eq_error hw
  obtain ⟨hrecords, -, -⟩ := writeTestCases_in_directory hends hdirectory hbefore
  have hlast : ChangesOnly r.root ∅
      {Layout.testCaseEntry (Layout.directoryName document) (n + i)} h₁.files h'.files := by
    rw [RunDirectory.testCasePath_eq hl] at hfail
    exact (writeTestCase_changes r.root (Layout.leadsOn_testCaseEntry
      (Layout.leadsOn_directoryName document) _) (List.cons_ne_nil _ _) o).changesOnly hfail
  refine ⟨i, o, ho, ?_, ?_, ?_⟩
  · rcases writeTestCase_runOn_eq_error (Layout.pieces_testCasePath hends _)
      (Layout.leadsOn_testCaseName _).isName hfail with ⟨fault, rfl, hcreate⟩ | ⟨cause, rfl, hcause⟩
    · exact .notMade fault hcreate
    · obtain ⟨field, length, rfl⟩ := TestCase.overflow_of_encode_error hcause
      exact .tooLong field length hcause
  · intro j hj o' ho'
    obtain ⟨record, hrecord, hlocate, hnode⟩ := hrecords j o' (by rwa [List.getElem?_take_of_lt hj])
    -- the last write goes to the entry of another number
    have hkept : h'.files.node? (directory ++ [Layout.testCaseName (n + j)])
        = h₁.files.node? (directory ++ [Layout.testCaseName (n + j)]) := by
      refine hlast.node?_eq_of_present (by rcases hnode with hnode | hnode <;> simp [hnode]) ?_
      rintro ⟨base, -, names, rfl, heq⟩
      have hname := congrArg List.getLast? heq
      simp only [Layout.testCaseEntry, List.getLast?_append, List.getLast?_singleton] at hname
      have hnumber := Layout.testCaseName_injective (Option.some.inj hname)
      omega
    exact ⟨record, hrecord, hlast.toGrows.locate hlocate, hkept ▸ hnode⟩
  · refine ChangesOnly.trans (((writeTestCases_changes hl n (os.take i)).changesOnly hbefore).mono
      subset_rfl ?_) (hlast.mono subset_rfl ?_)
    · rintro entry ⟨j, hj, rfl⟩
      rw [List.length_take] at hj
      exact ⟨j, by omega, rfl⟩
    · rintro entry rfl
      exact ⟨i, le_rfl, rfl⟩

/-! ## A whole run -/

/-- The entries at which files have been written when the writing comes to a number. -/
def Layout.filesUpTo (name : Bytes) (number : Nat) : Set Location :=
  {entry | entry = companionEntry name ∨ ∃ j ≤ number, entry = testCaseEntry name (1 + j)}

namespace Layout

variable {name : Bytes} {number : Nat}

lemma nil_notMem_filesUpTo : [] ∉ filesUpTo name number := by
  simp [filesUpTo, companionEntry, testCaseEntry]

/-- In the directory of the test cases, only their numbers are among these entries. -/
lemma notMem_filesUpTo {own : Bytes} {rest : Location}
    (hown : ∀ j ≤ number, own ≠ testCaseName (j + 1)) :
    name :: Utf8.encode "test-case-parsed" :: own :: rest ∉ filesUpTo name number := by
  rintro (heq | ⟨j, hj, heq⟩)
  · have hkind := (List.cons.inj (List.cons.inj heq).2).1
    exact absurd hkind (by decide +kernel)
  · have hnumber := (List.cons.inj (List.cons.inj (List.cons.inj heq).2).2).1
    exact hown j hj (by rw [hnumber, Nat.add_comm])

end Layout

/-- A run that has collected its outcomes and prepared its output fails only while it writes. -/
lemma writeTestCases_of_process_error {policy : Policy} {c : Configuration} {v : Harvest}
    {l : Layout} {h₁ h₂ : Host P S σ}
    (ran : (process policy r document c).runOn m h = (.error e, h'))
    (collected : (harvest policy c).runOn m h = (.ok v, h₁))
    (prepared : (Layout.prepare r document).runOn m h₁ = (.ok l, h₂)) :
    (writeTestCases l 1 v.outcomes).runOn m h₂ = (.error e, h') := by
  have hw₁ := Work.runOn_of_bind ran collected
  have hw₂ := Work.runOn_of_bind hw₁ prepared
  obtain ⟨_, heq, hwrite⟩ | ⟨paths, h₃, -, htell⟩ := Work.runOn_bind_cases hw₂
  · exact Except.error.inj heq ▸ hwrite
  · exact absurd (Prod.mk.inj htell).1 (by simp)

/-- In the directory of the test cases, all entries but those that are written are left. -/
lemma node?_testCases {t t' : FileTree} {files : Set Location} {directory : Location}
    {name : Bytes} {rest : Location}
    (hc : ChangesOnly r.root (Layout.directoriesOf (Layout.directoryName document)) files t t')
    (hdirectory : t'.locate (Layout.testCaseDirectory (r.targetDirectory document))
      = .ok directory)
    (hfiles : Layout.directoryName document :: Utf8.encode "test-case-parsed" :: name :: rest
      ∉ files) :
    t'.node? (directory ++ name :: rest) = t.node? (directory ++ name :: rest) ∨
      IsMade t t' (directory ++ name :: rest) ∧ t'.OnWay r.root (directory ++ name :: rest) := by
  have hnames : ∀ x ∈ [Layout.directoryName document, Utf8.encode "test-case-parsed"],
      FileTree.LeadsOn x := by
    simpa using ⟨Layout.leadsOn_directoryName document, Layout.leadsOn_testCaseDirectory⟩
  rw [r.testCaseDirectory_eq] at hdirectory
  obtain ⟨base, hbase, rfl⟩ :=
    FileTree.exists_of_locate_descend hnames (List.cons_ne_nil _ _) hdirectory
  rw [List.append_assoc]
  exact hc.node?_entry hbase (by rintro (heq | heq | heq) <;> exact nomatch heq) hfiles

/-- **A failure while writing damages only the test case that is being written.**  Suppose that
the run has collected its outcomes and prepared its output, and fails then, and that no device
stands in the directory of the document.  Then one of the outcomes could not be written, because
its file cannot be made or its record would be too long; the test cases before it are read as the
complete records of their outcomes, of what has been found in them for each input; every other
entry of the directory, and what lies below it, is as it was before the run, unless it is a
directory made on the way to a run directory that was not there; and if the document has a
companion, not below the run directory, then this is as before and the copy holds the same. -/
theorem process_breaks_off {policy : Policy} {c : Configuration} {v : Harvest} {l : Layout}
    {h₁ h₂ : Host P S σ}
    (ran : (process policy r document c).runOn m h = (.error e, h'))
    (collected : (harvest policy c).runOn m h = (.ok v, h₁))
    (prepared : (Layout.prepare r document).runOn m h₁ = (.ok l, h₂))
    (plain : h.files.PlainUnder h'.files (r.targetDirectory document)) :
    ∃ (i : Nat) (o : Outcome) (directory : Location), v.outcomes[i]? = some o ∧
      Unwritten h'.files (r.testCasePath document (i + 1)) o e ∧
      h'.files.locate (Layout.testCaseDirectory (r.targetDirectory document)) = .ok directory ∧
      h'.files.node? directory = some .directory ∧
      (∀ j < i, ∀ o', v.outcomes[j]? = some o' → ∃ record,
        o'.HasRecord c.concolicInputs record ∧
        h'.files.locate (r.testCasePath document (j + 1))
          = .ok (directory ++ [Layout.testCaseName (j + 1)]) ∧
        h'.files.read (r.testCasePath document (j + 1)) = .ok record) ∧
      (∀ name rest, (∀ j ≤ i, name ≠ Layout.testCaseName (j + 1)) →
        (h'.files.node? (directory ++ name :: rest) = h.files.node? (directory ++ name :: rest) ∨
          IsMade h.files h'.files (directory ++ name :: rest) ∧
            h'.files.OnWay r.root (directory ++ name :: rest)) ∧
        ∀ base, h.files.Leads base r.root [] →
          h'.files.node? (directory ++ name :: rest)
            = h.files.node? (directory ++ name :: rest)) ∧
      ∀ content, h.files.at? (companion document) = some (.file content) →
        h'.files.LiesOutside r.root (companion document) →
          h'.files.read (companion document) = .ok content ∧
          h'.files.read (Layout.companionCopy (r.targetDirectory document)) = .ok content := by
  have hkept : h₁.files = h.files := (keeps_files_harvest policy c).of_runOn collected
  have hwrite := writeTestCases_of_process_error ran collected prepared
  obtain ⟨directory, hdirectory, hnode, -⟩ := prepare_keeps_testCaseDirectory prepared
  obtain ⟨-, htestCases, -⟩ := prepare_runOn_eq_ok prepared
  obtain ⟨i, o, ho, hcause, hrecords, hlast⟩ :=
    writeTestCases_break_off htestCases hdirectory hwrite
  have hpath : ∀ j, l.testCasePath (1 + j) = r.testCasePath document (j + 1) := by
    intro j
    rw [Layout.testCasePath, htestCases, Nat.add_comm]
    rfl
  rw [htestCases] at hdirectory
  -- all that has changed since the run began
  have hchanges : ChangesOnly r.root (Layout.directoriesOf (Layout.directoryName document))
      (Layout.filesUpTo (Layout.directoryName document) i) h.files h'.files := by
    rw [← hkept]
    exact (((prepare_changes r document).changesOnly prepared).mono subset_rfl
      fun _ hentry => .inl hentry).trans
      (hlast.mono (Set.empty_subset _) fun _ hentry => .inr hentry)
  have hg := hchanges.toGrows
  have hthere := hlast.toGrows.locate hdirectory
  refine ⟨i, o, directory, ho, hpath i ▸ hcause, hthere, hlast.toGrows.directory hnode, ?_, ?_, ?_⟩
  · intro j hj o' ho'
    obtain ⟨record, hrecord, hlocate, hfile⟩ := hrecords j hj o' ho'
    rw [hpath, Nat.add_comm 1 j] at hlocate
    rw [Nat.add_comm 1 j] at hfile
    exact ⟨record, Outcome.hasRecord_of_harvest collected (List.mem_of_getElem? ho') hrecord,
      hlocate, FileTree.read_testCasePath hg plain hlocate hfile⟩
  · intro name rest hname
    have hother : Layout.directoryName document :: Utf8.encode "test-case-parsed" :: name :: rest
        ∉ Layout.filesUpTo (Layout.directoryName document) i := Layout.notMem_filesUpTo hname
    have hframe := node?_testCases hchanges hthere hother
    refine ⟨hframe, fun base hbase => hframe.resolve_right ?_⟩
    rintro ⟨hnew, hway⟩
    exact FileTree.not_onWay_of_isMade hbase hg hnew hway
  · intro content hcontent hout
    have hkeep := hchanges.at?_eq_of_liesOutside Layout.nil_notMem_filesUpTo hout
      (by simp [hcontent])
    -- the copy is made before the test cases are written, and these go elsewhere
    obtain ⟨-, hcopy⟩ := prepare_copies_companion prepared (hkept ▸ hcontent)
      (hout.of_grows hlast.toGrows)
    have hcopy' := hcopy.of_changesOnly hlast
      (by rintro ⟨j, -, heq⟩; exact Layout.companionEntry_ne_testCaseEntry _ _ heq)
    exact ⟨FileTree.read_of_at? (hkeep.trans hcontent), hcopy'.read hg plain⟩

/-! ### A directory in the way -/

/-- A tree in which a directory stands where the second test case goes; a document has a
companion. -/
def blockedTree : FileTree where
  entries := [((Path.ofString "in").pieces, .directory),
    ((Path.ofString "in/doc.xml.serialized").pieces, .file [7, 7]),
    ((Path.ofString "out").pieces, .directory),
    ((Path.ofString "out/doc.xml").pieces, .directory),
    ((Path.ofString "out/doc.xml/test-case-parsed").pieces, .directory),
    ((Path.ofString "out/doc.xml/test-case-parsed/2.bin").pieces, .directory),
    ((Path.ofString "out/doc.xml/test-case-parsed/3.bin").pieces, .file [9])]
  current := []

/-- A host with this tree, and an engine that finds two states. -/
def blockedHost : Host Path Nat Script :=
  { Host.new blockedTree "" with session := some (.new [sampleState] [sampleState] none) }

/-- What is collected about them. -/
def blockedHarvest : Harvest where
  outcomes := List.replicate 2 ⟨[⟨.argument, "argv_1", 4, [1, 2, 3, 4, 5]⟩,
    ⟨.file, "data.txt", 3, [10, 11, 12, 13]⟩, ⟨.standardInput, "crete-stdin", 2, [7]⟩]⟩
  skipped := 0

/-- A run that fails when it writes the second test case. -/
def blockedRun : Except RunError TargetReport × Host Path Nat Script :=
  (process .singleFork ⟨.ofString "/out"⟩ (.ofString "/in/doc.xml") sampleConfiguration).runOn
    scriptMachine blockedHost

/-- The first test case is complete, the third one of an earlier run is still there, and the copy
of the companion holds what the companion does. -/
theorem process_breaks_off_sample :
    blockedRun.1 = .error (.file (.ofString "/out/doc.xml/test-case-parsed/2.bin") .isADirectory) ∧
      (∃ record, blockedHarvest.outcomes[0].HasRecord sampleConfiguration.concolicInputs record ∧
        blockedRun.2.files.read (.ofString "/out/doc.xml/test-case-parsed/1.bin") = .ok record) ∧
      blockedRun.2.files.node? (Path.ofString "out/doc.xml/test-case-parsed/3.bin").pieces
        = some (.file [9]) ∧
      blockedRun.2.files.read (.ofString "/out/doc.xml/guest-data/crete-guest-config.serialized")
        = .ok [7, 7] := by
  have ran : blockedRun.1
      = .error (.file (.ofString "/out/doc.xml/test-case-parsed/2.bin") .isADirectory) := by
    decide +kernel
  have hrun : blockedRun = (.error _, blockedRun.2) := Prod.ext ran rfl
  have collected : ((harvest .singleFork sampleConfiguration).runOn scriptMachine blockedHost).1
      = .ok blockedHarvest := by decide +kernel
  have prepared : ((Layout.prepare ⟨.ofString "/out"⟩ (.ofString "/in/doc.xml")).runOn
      scriptMachine ((harvest .singleFork sampleConfiguration).runOn scriptMachine
        blockedHost).2).1 = .ok ⟨.ofString "/out/doc.xml",
          .ofString "/out/doc.xml/test-case-parsed", true⟩ := by decide +kernel
  have plain : blockedTree.PlainUnder blockedRun.2.files
      (RunDirectory.targetDirectory ⟨.ofString "/out"⟩ (.ofString "/in/doc.xml")) :=
    fun place _ rest => FileTree.node?_ne_device (by simp [blockedTree]) (place ++ rest)
  obtain ⟨i, o, directory, ho, hcause, hdirectory, -, hrecords, hframe, hcopy⟩ :=
    process_breaks_off hrun (Prod.ext collected rfl) (Prod.ext prepared rfl) plain
  have hlast : i = 1 := by
    have hi : i < 2 := (List.getElem?_eq_some_iff.mp ho).1
    generalize herror : RunError.file (.ofString "/out/doc.xml/test-case-parsed/2.bin")
      .isADirectory = e at hcause
    cases hcause with
    | notMade fault refused =>
      have hpath := (RunError.file.inj herror).1
      rcases i with _ | i
      · exact absurd hpath (by decide +kernel)
      · omega
    | tooLong => exact nomatch herror
  subst hlast
  have hwhere : blockedRun.2.files.locate (Layout.testCaseDirectory
      (RunDirectory.targetDirectory ⟨.ofString "/out"⟩ (.ofString "/in/doc.xml")))
      = .ok (Path.ofString "out/doc.xml/test-case-parsed").pieces := by decide +kernel
  obtain rfl := Except.ok.inj (hdirectory.symm.trans hwhere)
  have hfirst : RunDirectory.testCasePath ⟨.ofString "/out"⟩ (.ofString "/in/doc.xml") (0 + 1)
      = .ofString "/out/doc.xml/test-case-parsed/1.bin" := by decide +kernel
  obtain ⟨record, hrecord, -, hread⟩ := hrecords 0 (by omega) _ rfl
  rw [hfirst] at hread
  have hroot : blockedTree.Leads (Path.ofString "out").pieces (.ofString "/out") [] :=
    FileTree.leads_of_locate (by decide +kernel) (by decide +kernel)
  have hthird : ∀ j ≤ 1, Layout.testCaseName 3 ≠ Layout.testCaseName (j + 1) := by
    intro j hj heq
    have hnumber := Layout.testCaseName_injective heq
    omega
  have hout : blockedRun.2.files.LiesOutside (.ofString "/out")
      (companion (.ofString "/in/doc.xml")) := by
    intro base place hbase hplace
    obtain rfl := hbase.unique (hroot.of_grows (Work.grows_of_runOn hrun))
    have hwhere : blockedRun.2.files.locate (companion (.ofString "/in/doc.xml"))
        = .ok (Path.ofString "in/doc.xml.serialized").pieces := by decide +kernel
    obtain rfl := Except.ok.inj (hplace.symm.trans hwhere)
    decide +kernel
  refine ⟨ran, ⟨record, hrecord, hread⟩, ?_, ?_⟩
  · exact ((hframe _ [] hthird).2 _ hroot).trans (by decide +kernel)
  · exact (hcopy [7, 7] (by decide +kernel) hout).2

end Concolic
