/-
# What a directory of test cases holds

The output of a document goes to a directory that may be there already, from an earlier run into
the same run directory.  Making a directory that is there does nothing, and no step of a run takes
a file away.  So a run that succeeds writes its test cases under the first numbers and leaves what
else is there: the files of an earlier run that had more test cases stay beside those of this one.

* Preparing the output changes the directory of the test cases in nothing but further directories
  (`prepare_keeps_testCaseDirectory`); the copy of the companion goes elsewhere.
* Writing the test cases changes their own places only (`writeTestCases_runOn_eq_ok`).
-/
import Mathlib.Data.Set.Basic
import Concolic.Proofs.Run.Operations
import Concolic.Proofs.Run.Pipeline

namespace Concolic

variable {P S σ : Type} {m : Machine P S σ} {h h' : Host P S σ}

/-! ## Files in a directory -/

/-- The places right in a directory where files stand, or devices, but no directories. -/
def FileTree.filesIn (t : FileTree) (directory : Location) : Set Location :=
  {place | (∃ name, place = directory ++ [name]) ∧
    ∃ node, t.node? place = some node ∧ node ≠ .directory}

/-- The places to which paths lead. -/
def FileTree.placesOf (t : FileTree) (paths : List Path) : Set Location :=
  {place | ∃ path ∈ paths, t.locate path = .ok place}

/-- At and below a place, the second tree is the first one with more directories. -/
def FileTree.GainsDirectoriesAt (t t' : FileTree) (place : Location) : Prop :=
  ∀ rest, t'.node? (place ++ rest) = t.node? (place ++ rest) ∨
    t.node? (place ++ rest) = none ∧ t'.node? (place ++ rest) = some .directory

/-- If files are written in a directory, and elsewhere in it nothing but directories is made, then
it holds these files and those that it held before. -/
lemma FileTree.filesIn_eq_union {t t' : FileTree} {directory : Location} {written : Set Location}
    (hwritten : written ⊆ t'.filesIn directory)
    (hframe : ∀ name, directory ++ [name] ∉ written →
      t'.node? (directory ++ [name]) = t.node? (directory ++ [name]) ∨
        t.node? (directory ++ [name]) = none ∧
          t'.node? (directory ++ [name]) = some .directory) :
    t'.filesIn directory = t.filesIn directory ∪ written := by
  ext place
  constructor
  · rintro ⟨⟨name, rfl⟩, node, hnode, hfile⟩
    by_cases hmem : directory ++ [name] ∈ written
    · exact .inr hmem
    rcases hframe name hmem with hsame | ⟨-, hmade⟩
    · exact .inl ⟨⟨name, rfl⟩, node, hsame.symm.trans hnode, hfile⟩
    · exact absurd (Option.some.inj (hnode.symm.trans hmade)) hfile
  · rintro (⟨⟨name, rfl⟩, node, hnode, hfile⟩ | hmem)
    · by_cases hmem : directory ++ [name] ∈ written
      · exact hwritten hmem
      rcases hframe name hmem with hsame | ⟨hnone, -⟩
      · exact ⟨⟨name, rfl⟩, node, hsame.trans hnode, hfile⟩
      · exact absurd (hnode.symm.trans hnone) (Option.some_ne_none node)
    · exact hwritten hmem

/-! ## Preparing the output -/

lemma Path.EndsInName.ne_nil {p : Path} (hp : p.EndsInName) : p.bytes ≠ [] := by
  obtain ⟨b, hb, -⟩ := hp
  intro hnil
  rw [hnil] at hb
  exact nomatch hb

lemma Layout.leadsOn_guestData : FileTree.LeadsOn (Utf8.encode "guest-data") := by decide +kernel

lemma Layout.endsInName_guestData (directory : Path) : (guestData directory).EndsInName :=
  Path.endsInName_join leadsOn_guestData.isName.endsInName

lemma Layout.leadsOn_companionCopy :
    FileTree.LeadsOn (Utf8.encode "crete-guest-config.serialized") := by decide +kernel

lemma Layout.pieces_companionCopy (directory : Path) :
    (companionCopy directory).pieces
      = (guestData directory).pieces ++ [Utf8.encode "crete-guest-config.serialized"] := by
  have hn := leadsOn_companionCopy.isName
  show ((guestData directory).child _).pieces = _
  rw [Path.child, Path.pieces_join (endsInName_guestData directory) hn.isAbsolute, hn.pieces]

/-- The place of the copy of the companion, seen from that of the directory of the document. -/
lemma Layout.exists_place_of_locate_companionCopy {t : FileTree} {directory : Path}
    {copy : Location} (hd : directory.EndsInName)
    (hcopy : t.locate (companionCopy directory) = .ok copy) :
    ∃ top, t.locate directory = .ok top ∧
      copy = top ++ [Utf8.encode "guest-data", Utf8.encode "crete-guest-config.serialized"] := by
  obtain ⟨parent, hparent, rfl⟩ :=
    FileTree.locate_child_eq_ok (endsInName_guestData directory) leadsOn_companionCopy hcopy
  obtain ⟨top, htop, rfl⟩ := FileTree.locate_child_eq_ok hd leadsOn_guestData hparent
  exact ⟨top, htop, by rw [List.append_assoc, List.singleton_append]⟩

/-- The copy of the companion does not lie in the directory of the test cases. -/
lemma Layout.companionCopy_apart {t : FileTree} {directory : Path} {copy place : Location}
    (hd : directory.EndsInName) (hcopy : t.locate (companionCopy directory) = .ok copy)
    (hplace : t.locate (testCaseDirectory directory) = .ok place) (rest : Location) :
    place ++ rest ≠ copy := by
  obtain ⟨top, htop, rfl⟩ := exists_place_of_locate_companionCopy hd hcopy
  obtain ⟨top', htop', rfl⟩ := FileTree.locate_child_eq_ok hd leadsOn_testCaseDirectory hplace
  obtain rfl : top = top' := Except.ok.inj (htop.symm.trans htop')
  intro heq
  simp only [List.append_assoc, List.singleton_append] at heq
  have hnames := (List.cons.inj (List.append_cancel_left heq)).1
  exact absurd hnames (by decide +kernel)

/-- When the output has been prepared, the directory of the test cases is there, and at and below
it nothing but directories has been made. -/
lemma prepare_keeps_testCaseDirectory {r : RunDirectory} {document : Path} {l : Layout}
    (hw : (Layout.prepare r document).runOn m h = (.ok l, h')) :
    ∃ place, h'.files.locate l.testCases = .ok place ∧ h'.files.node? place = some .directory ∧
      h.files.GainsDirectoriesAt h'.files place := by
  obtain ⟨-, htestCases, t, t', hguest, hmake, hcopied⟩ := prepare_runOn_eq_ok hw
  have hgains : h.files.GainsDirectories t' :=
    (FileTree.gainsDirectories_of_makeDirectories hguest).trans
      (FileTree.gainsDirectories_of_makeDirectories hmake)
  have hends := Layout.endsInName_testCaseDirectory (r.targetDirectory document)
  obtain ⟨place, hplace, hdirectory⟩ := FileTree.isDirectory_iff.mp
    (FileTree.isDirectory_of_makeDirectoriesUnder hends.ne_nil hmake)
  rw [htestCases]
  rcases hcopied with ⟨-, -, hfiles⟩ | ⟨-, -, hcopy⟩
  · rw [hfiles]
    exact ⟨place, hplace, hdirectory, fun rest => hgains (place ++ rest)⟩
  · -- the copy of the companion changes its own place only, which lies elsewhere
    have hplace' := (FileTree.grows_of_copy_eq_ok hcopy).locate hplace
    obtain ⟨copy, hlocate, hframe⟩ := FileTree.copy_eq_ok (Layout.pieces_companionCopy _)
      Layout.leadsOn_companionCopy.isName hcopy
    have hkept : ∀ rest, h'.files.node? (place ++ rest) = t'.node? (place ++ rest) :=
      fun rest => hframe _ (Layout.companionCopy_apart
        (r.endsInName_targetDirectory document) hlocate hplace' rest)
    refine ⟨place, hplace', (FileTree.grows_of_copy_eq_ok hcopy).directory hdirectory, ?_⟩
    intro rest
    rw [hkept rest]
    exact hgains (place ++ rest)

/-! ## Writing the test cases -/

/-- The entry with the number in the directory of the test cases holds the one of the outcome,
unless a device stands there. -/
def Layout.HoldsTestCase (l : Layout) (t : FileTree) (directory : Location) (n : Nat)
    (o : Outcome) : Prop :=
  ∃ record, o.testCase.encode = .ok record ∧
    t.locate (l.testCasePath n) = .ok (directory ++ [testCaseName n]) ∧
    (t.node? (directory ++ [testCaseName n]) = some (.file record) ∨
      t.node? (directory ++ [testCaseName n]) = some .device)

/-- The test cases are written to entries of their directory, and the other entries are left. -/
lemma writeTestCases_in_directory {l : Layout} {n : Nat} {os : List Outcome} {paths : List Path}
    {directory : Location} (hl : l.testCases.EndsInName)
    (hdirectory : h.files.locate l.testCases = .ok directory)
    (hw : (writeTestCases l n os).runOn m h = (.ok paths, h')) :
    (∀ i o, os[i]? = some o → l.HoldsTestCase h'.files directory (n + i) o) ∧
    (∀ place, place ∉ h'.files.placesOf paths → h'.files.node? place = h.files.node? place) ∧
    h'.files.placesOf paths ⊆ h'.files.filesIn directory := by
  obtain ⟨hpaths, hframe, hrecords⟩ := writeTestCases_runOn_eq_ok hl hw
  have hthere := (Work.grows_of_runOn hw).locate hdirectory
  have hwritten : ∀ i o, os[i]? = some o → l.HoldsTestCase h'.files directory (n + i) o := by
    intro i o ho
    obtain ⟨place, record, hrecord, hlocate, hnode⟩ := hrecords i o ho
    obtain ⟨parent, hparent, rfl⟩ := Layout.place_of_locate_testCasePath hl hlocate
    obtain rfl : parent = directory := Except.ok.inj (hparent.symm.trans hthere)
    exact ⟨record, hrecord, hlocate, hnode⟩
  refine ⟨hwritten, ?_, ?_⟩
  · intro place hplace
    refine hframe place fun i hi hlocate => hplace ⟨_, ?_, hlocate⟩
    rw [hpaths]
    exact List.mem_map_of_mem (List.mem_range.mpr hi)
  · rintro place ⟨path, hpath, hlocate⟩
    rw [hpaths] at hpath
    obtain ⟨i, hi, rfl⟩ := List.mem_map.mp hpath
    obtain ⟨record, -, hlocate', hnode⟩ :=
      hwritten i _ (List.getElem?_eq_getElem (List.mem_range.mp hi))
    obtain rfl := Except.ok.inj (hlocate.symm.trans hlocate')
    rcases hnode with hnode | hnode
    · exact ⟨⟨_, rfl⟩, _, hnode, nofun⟩
    · exact ⟨⟨_, rfl⟩, _, hnode, nofun⟩

/-! ## A whole run -/

/-- **A run adds its test cases to a directory and leaves everything else in it.**  Whatever the
files are before, if the run succeeds, then the path of every reported test case leads to an entry
of the directory of the test cases, which holds the record of the outcome with that number, of what
has been found in it for each input, unless there has been a device; every other file in the
directory is as before.  So the directory holds the files that it held and those of the test cases,
and it holds only those of the test cases exactly if every file in it before had one of their
names. -/
theorem process_adds_to_directory {policy : Policy} {r : RunDirectory} {document : Path}
    {c : Configuration} {report : TargetReport}
    (ran : (process policy r document c).runOn m h = (.ok report, h')) :
    ∃ (v : Harvest) (h₁ : Host P S σ) (directory : Location),
      (harvest policy c).runOn m h = (.ok v, h₁) ∧
      report.outputDirectory = r.targetDirectory document ∧
      h'.files.locate (Layout.testCaseDirectory report.outputDirectory) = .ok directory ∧
      h'.files.node? directory = some .directory ∧
      report.testCases
        = (List.range v.outcomes.length).map (fun i => r.testCasePath document (i + 1)) ∧
      (∀ i o, v.outcomes[i]? = some o → ∃ record, o.HasRecord c.concolicInputs record ∧
        h'.files.locate (r.testCasePath document (i + 1))
          = .ok (directory ++ [Layout.testCaseName (i + 1)]) ∧
        (h'.files.node? (directory ++ [Layout.testCaseName (i + 1)]) = some (.file record) ∨
          h.files.node? (directory ++ [Layout.testCaseName (i + 1)]) = some .device)) ∧
      (∀ place ∈ h.files.filesIn directory, place ∉ h'.files.placesOf report.testCases →
        h'.files.node? place = h.files.node? place) ∧
      h'.files.filesIn directory = h.files.filesIn directory ∪ h'.files.placesOf report.testCases ∧
      (h'.files.filesIn directory = h'.files.placesOf report.testCases ↔
        h.files.filesIn directory ⊆ h'.files.placesOf report.testCases) := by
  obtain ⟨v, h₁, hharvest, hw₁⟩ := Work.runOn_bind_eq_ok_iff.mp ran
  obtain ⟨l, h₂, hprepare, hw₂⟩ := Work.runOn_bind_eq_ok_iff.mp hw₁
  obtain ⟨paths, h₃, hwrite, hw₃⟩ := Work.runOn_bind_eq_ok_iff.mp hw₂
  obtain ⟨_, h₄, htell, hw₄⟩ := Work.runOn_bind_eq_ok_iff.mp hw₃
  obtain ⟨hreport, rfl⟩ := Prod.mk.inj hw₄
  obtain rfl := Except.ok.inj hreport
  obtain ⟨directory, hdirectory, hnode, hgains⟩ := prepare_keeps_testCaseDirectory hprepare
  obtain ⟨houtput, htestCases, -⟩ := prepare_runOn_eq_ok hprepare
  have hends : l.testCases.EndsInName := by
    rw [htestCases]
    exact Layout.endsInName_testCaseDirectory _
  obtain ⟨hpaths, -⟩ := writeTestCases_runOn_eq_ok hends hwrite
  obtain ⟨hrecords, hframe, hwritten⟩ := writeTestCases_in_directory hends hdirectory hwrite
  have hgrown := Work.grows_of_runOn hwrite
  have hkept : h₁.files = h.files := (keeps_files_harvest policy c).of_runOn hharvest
  have htold : h₄.files = h₃.files := (Work.keeps_files_tell _).of_runOn htell
  rw [hkept] at hgains
  have hpath : ∀ i, l.testCasePath (1 + i) = r.testCasePath document (i + 1) := by
    intro i
    rw [Layout.testCasePath, htestCases, Nat.add_comm]
    rfl
  have hunion := FileTree.filesIn_eq_union hwritten fun name hname =>
    hframe _ hname ▸ hgains [name]
  rw [htold]
  refine ⟨v, h₁, directory, hharvest, houtput, ?_, hgrown.directory hnode, ?_, ?_, ?_, hunion, ?_⟩
  · show h₃.files.locate (Layout.testCaseDirectory l.directory) = _
    rw [houtput, ← htestCases]
    exact hgrown.locate hdirectory
  · exact hpaths.trans (List.map_congr_left fun i _ => hpath i)
  · intro i o ho
    obtain ⟨record, hrecord, hlocate, hnode⟩ := hrecords i o ho
    rw [hpath, Nat.add_comm 1 i] at hlocate
    rw [Nat.add_comm 1 i] at hnode
    refine ⟨record, Outcome.hasRecord_of_harvest hharvest (List.mem_of_getElem? ho) hrecord,
      hlocate, hnode.imp_right fun hdevice => ?_⟩
    rw [← htold] at hdevice
    exact (Work.grows_of_runOn ran).device hdevice
  · rintro _ ⟨⟨name, rfl⟩, node, hfile, -⟩ hother
    rw [hframe _ hother]
    rcases hgains [name] with hsame | ⟨hnone, -⟩
    · exact hsame
    · exact absurd (hfile.symm.trans hnone) (Option.some_ne_none node)
  · rw [hunion]
    exact Set.union_eq_right

/-! ### Two runs into one directory -/

/-- A place where something stands is the root or is listed. -/
lemma FileTree.mem_entries_of_node? {t : FileTree} {place : Location} {node : FileTree.Node}
    (hnode : t.node? place = some node) (hne : place ≠ []) : (place, node) ∈ t.entries := by
  rw [FileTree.node?, if_neg hne] at hnode
  obtain ⟨before, after, hsplit, -⟩ := List.lookup_eq_some_iff.mp hnode
  rw [hsplit]
  exact List.mem_append_right _ List.mem_cons_self

/-- The one file that is there before the sample run has the name of one of its test cases, so
afterwards the directory holds the test cases of the run and nothing else. -/
theorem process_adds_to_directory_sample :
    sampleRun.1 = .ok sampleReport ∧
      ∃ directory, sampleRun.2.files.locate
          (Layout.testCaseDirectory sampleReport.outputDirectory) = .ok directory ∧
        sampleRun.2.files.filesIn directory
          = sampleRun.2.files.placesOf sampleReport.testCases := by
  have ran : sampleRun.1 = .ok sampleReport := by decide +kernel
  have hrun : sampleRun = (.ok sampleReport, sampleRun.2) := Prod.ext ran rfl
  obtain ⟨v, h₁, directory, -, -, hdirectory, -, -, -, -, -, hexactly⟩ :=
    process_adds_to_directory hrun
  refine ⟨ran, directory, hdirectory, hexactly.mpr ?_⟩
  have hwhere : sampleRun.2.files.locate (Layout.testCaseDirectory sampleReport.outputDirectory)
      = .ok (Path.ofString "out/doc.xml/test-case-parsed").pieces := by decide +kernel
  obtain rfl := Except.ok.inj (hdirectory.symm.trans hwhere)
  rintro _ ⟨⟨name, rfl⟩, node, hnode, hfile⟩
  have hname : ∀ entry ∈ sampleTree.entries, entry.2 ≠ .directory →
      entry.1 = (Path.ofString "out/doc.xml/test-case-parsed/1.bin").pieces := by decide +kernel
  have hplace : (Path.ofString "out/doc.xml/test-case-parsed").pieces ++ [name]
      = (Path.ofString "out/doc.xml/test-case-parsed/1.bin").pieces :=
    hname _ (FileTree.mem_entries_of_node? hnode (by simp)) hfile
  refine ⟨.ofString "/out/doc.xml/test-case-parsed/1.bin", by decide +kernel, ?_⟩
  rw [hplace]
  decide +kernel

/-- A later run of the same program into the same directory; it ends in one state. -/
def laterRun : Except RunError TargetReport × Host Path Nat Script :=
  (process .singleFork ⟨.ofString "/out"⟩ (.ofString "/in/doc.xml") sampleConfiguration).runOn
    scriptMachine
    { Host.new sampleRun.2.files "" with session := some (.new [sampleState] [] none) }

/-- What is reported of it. -/
def laterReport : TargetReport :=
  { sampleReport with testCases := [.ofString "/out/doc.xml/test-case-parsed/1.bin"], skipped := 0 }

/-- The later run succeeds with one test case, and the second test case of the earlier run is still
there beside it. -/
theorem later_run_keeps_test_case :
    laterRun.1 = .ok laterReport ∧
      laterRun.2.files.list (Layout.testCaseDirectory laterReport.outputDirectory)
        = .ok [Layout.testCaseName 1, Layout.testCaseName 2] ∧
      ∃ directory, laterRun.2.files.locate
          (Layout.testCaseDirectory laterReport.outputDirectory) = .ok directory ∧
        directory ++ [Layout.testCaseName 2] ∈ laterRun.2.files.filesIn directory ∧
        laterRun.2.files.node? (directory ++ [Layout.testCaseName 2])
          = sampleRun.2.files.node? (directory ++ [Layout.testCaseName 2]) ∧
        laterRun.2.files.filesIn directory
          ≠ laterRun.2.files.placesOf laterReport.testCases := by
  have hleft : (Path.ofString "out/doc.xml/test-case-parsed").pieces ++ [Layout.testCaseName 2] ∈
      laterRun.2.files.filesIn (Path.ofString "out/doc.xml/test-case-parsed").pieces := by
    have hthere : laterRun.2.files.node?
        ((Path.ofString "out/doc.xml/test-case-parsed").pieces ++ [Layout.testCaseName 2])
          ≠ none := by decide +kernel
    obtain ⟨node, hnode⟩ := Option.ne_none_iff_exists'.mp hthere
    refine ⟨⟨_, rfl⟩, node, hnode, ?_⟩
    rintro rfl
    exact absurd hnode (by decide +kernel)
  refine ⟨by decide +kernel, by decide +kernel, _, by decide +kernel, hleft, by decide +kernel, ?_⟩
  intro heq
  rw [heq] at hleft
  obtain ⟨path, hpath, hlocate⟩ := hleft
  obtain rfl := List.mem_singleton.mp hpath
  exact absurd hlocate (by decide +kernel)

end Concolic
