/-
# From states to records

A run that succeeds has written one test case for every state about which all questions were
answered, in the order of the states, and nothing is lost on the way: what is read at the path
of a test case is decoded to one element for every input to be found, and each element holds
the answer that the engine gave for that very input.

The argument goes through the parts of a run one after the other:

* the harvest has conducted one interview about every state (`harvest_runOn_eq_ok`), and its
  outcomes are those of the interviews to which all questions were answered;
* the record of such an outcome holds the answers (`records_zipWith`);
* the records stand in files with the numbers from one on (`writeTestCases_runOn_eq_ok`).
-/
import Concolic.Proofs.Record.RoundTrip
import Concolic.Proofs.Run.Collection
import Concolic.Proofs.Run.Harvest
import Concolic.Proofs.Run.Writing

namespace Concolic

variable {P S σ : Type} {m : Machine P S σ} {h h' : Host P S σ}

/-! ## What is recorded -/

/-- The value is the content at a width: the byte at each place is that of the content, and zero
if the content has ended before. -/
structure IsContentAt (width : Nat) (content value : Bytes) : Prop where
  length : value.length = width
  byte : ∀ k < width, value[k]? = some (content[k]?.getD 0)

/-- The element records an answer for an input: the answer to the question about an argument
is recorded as it is; a content is cut or filled up to the declared width, and it is recorded
under the base name of the path. -/
def Input.RecordedAs (answer : Bytes) (e : Element) : Input → Prop
  | .argument a => e.name = s!"argv_{a.index}" ∧ e.value = answer
  | .file f => Utf8.encode e.name = (Path.ofString f.path).fileName?.getD (Utf8.encode f.path) ∧
      IsContentAt f.size answer e.value
  | .standardInput size => e.name = "crete-stdin" ∧ IsContentAt size answer e.value

/-- The test case has one element for every input, in the order of the inputs, and each of them
records the answer for its input. -/
structure TestCase.Records (t : TestCase) (inputs : List Input) (answers : List Bytes) : Prop where
  /-- There is an answer for every input. -/
  complete : answers.length = inputs.length
  /-- There is an element for every input. -/
  size : t.elements.length = inputs.length
  /-- Each element records the answer for its input. -/
  element : ∀ (j : Nat) (i : Input), inputs[j]? = some i →
    ∃ answer e, answers[j]? = some answer ∧ t.elements[j]? = some e ∧ i.RecordedAs answer e

/-- The bytes are the record of an outcome: its test case is encoded to them, and they are decoded
to a test case that records what has been found for each of the inputs. -/
structure Outcome.HasRecord (o : Outcome) (inputs : List Input) (record : Bytes) : Prop where
  encoded : o.testCase.encode = .ok record
  decoded : ∃ t, TestCase.decode record = .ok t ∧ t.Records inputs (o.values.map FoundValue.value)

/-- A content has one value at a width. -/
lemma isContentAt_iff {width : Nat} {content value : Bytes} :
    IsContentAt width content value ↔ value = content.toWidth width := by
  constructor
  · rintro ⟨hlength, hbyte⟩
    apply List.ext_getElem?
    intro k
    by_cases hk : k < width
    · rw [hbyte k hk, Bytes.getElem?_toWidth content hk]
    · rw [List.getElem?_eq_none (by omega), List.getElem?_eq_none (by simpa using hk)]
  · rintro rfl
    exact ⟨Bytes.length_toWidth content width, fun k hk => Bytes.getElem?_toWidth content hk⟩

/-- The name of a file in a test case is the base name of its path, if it has one. -/
lemma InputFile.encode_elementName (f : InputFile) :
    Utf8.encode f.elementName = (Path.ofString f.path).fileName?.getD (Utf8.encode f.path) := by
  unfold elementName
  rcases hname : (Path.ofString f.path).fileName? with _ | name
  · rfl
  · obtain ⟨s, rfl⟩ := Path.exists_encode_eq_of_fileName? hname
    simp

lemma Input.recordedAs_ofInput (i : Input) (answer : Bytes) :
    i.RecordedAs answer ⟨i.elementName, (FoundValue.ofInput i answer).recorded⟩ := by
  cases i with
  | argument a => exact ⟨rfl, rfl⟩
  | file f => exact ⟨f.encode_elementName, isContentAt_iff.mpr rfl⟩
  | standardInput size => exact ⟨rfl, isContentAt_iff.mpr rfl⟩

/-- The test case of an outcome records the answers that the outcome was made from. -/
lemma records_zipWith {inputs : List Input} {answers : List Bytes}
    (hlen : answers.length = inputs.length) :
    (Outcome.mk (List.zipWith FoundValue.ofInput inputs answers)).testCase.Records
      inputs answers := by
  refine ⟨hlen, by simp [Outcome.testCase, hlen], ?_⟩
  intro j i hi
  have hj : j < answers.length := by
    rw [hlen]
    exact (List.getElem?_eq_some_iff.mp hi).1
  refine ⟨answers[j], _, List.getElem?_eq_getElem hj, ?_, i.recordedAs_ofInput answers[j]⟩
  rw [Outcome.testCase, List.getElem?_map, List.getElem?_zipWith, hi,
    List.getElem?_eq_getElem hj]
  rfl

lemma map_value_zipWith {inputs : List Input} {answers : List Bytes}
    (hlen : answers.length = inputs.length) :
    (List.zipWith FoundValue.ofInput inputs answers).map FoundValue.value = answers := by
  have hvalues : (List.zipWith FoundValue.ofInput inputs answers).map FoundValue.value
      = (inputs.zip answers).map Prod.snd := by
    rw [List.zip, List.map_zipWith, List.map_zipWith]
    rfl
  rw [hvalues, List.map_snd_zip (Nat.le_of_eq hlen)]

/-- The outcomes of a harvest have records of what has been found for each of the inputs. -/
lemma Outcome.hasRecord_of_harvest {policy : Policy} {c : Configuration} {v : Harvest}
    {o : Outcome} {record : Bytes} (hw : (harvest policy c).runOn m h = (.ok v, h'))
    (ho : o ∈ v.outcomes) (hrecord : o.testCase.encode = .ok record) :
    o.HasRecord c.concolicInputs record := by
  obtain ⟨b, project, entry, found, xs, -, hxs, -⟩ := harvest_runOn_eq_ok hw
  rw [hxs.harvest_eq.1] at ho
  obtain ⟨answers, hanswers, rfl⟩ := List.mem_map.mp ho
  have hlen := hxs.length_eq_of_complete hanswers
  refine ⟨hrecord, _, TestCase.decode_eq_ok_iff.mpr (TestCase.encode_eq_ok_iff.mp hrecord), ?_⟩
  rw [map_value_zipWith hlen]
  exact records_zipWith hlen

/-! ## Where it is recorded -/

/-- The path of the test case with a number, for a document of a run. -/
def RunDirectory.testCasePath (r : RunDirectory) (document : Path) (number : Nat) : Path :=
  ((r.targetDirectory document).join (.ofString "test-case-parsed")).join
    (.ofString s!"{number}.bin")

/-- Wherever the path leads later, nothing but directories and regular files has stood there
and below. -/
def FileTree.PlainUnder (t later : FileTree) (p : Path) : Prop :=
  ∀ place, later.locate p = .ok place → ∀ rest, t.node? (place ++ rest) ≠ some .device

/-- The place of a test case lies below that of the directory of its document. -/
lemma FileTree.exists_place_of_locate_testCasePath {t : FileTree} {r : RunDirectory}
    {document : Path} {n : Nat} {place : Location}
    (hplace : t.locate (r.testCasePath document n) = .ok place) :
    ∃ parent rest, t.locate (r.targetDirectory document) = .ok parent ∧
      place = parent ++ rest := by
  obtain ⟨middle, hmiddle, rfl⟩ := FileTree.locate_child_eq_ok
    (Layout.endsInName_testCaseDirectory _) (Layout.leadsOn_testCaseName n) hplace
  obtain ⟨parent, hparent, rfl⟩ := FileTree.locate_child_eq_ok
    (r.endsInName_targetDirectory document) Layout.leadsOn_testCaseDirectory hmiddle
  exact ⟨parent, _, hparent, List.append_assoc _ _ _⟩

/-- If no device has been there before, what has been written below a directory is what is read. -/
lemma FileTree.read_of_plainUnder {t t' : FileTree} {directory p : Path}
    {parent rest : Location} {bytes : Bytes} (hg : Grows t t')
    (plain : t.PlainUnder t' directory) (hparent : t'.locate directory = .ok parent)
    (hplace : t'.locate p = .ok (parent ++ rest))
    (hnode : t'.node? (parent ++ rest) = some (.file bytes) ∨
      t'.node? (parent ++ rest) = some .device) : t'.read p = .ok bytes := by
  rcases hnode with hfile | hdevice
  · exact FileTree.read_of_locate hplace hfile
  · exact absurd (hg.device hdevice) (plain parent hparent rest)

/-- So what has been written for a test case is what is read at its path. -/
lemma FileTree.read_testCasePath {t t' : FileTree} {r : RunDirectory} {document : Path} {n : Nat}
    {place : Location} {bytes : Bytes} (hg : Grows t t')
    (plain : t.PlainUnder t' (r.targetDirectory document))
    (hplace : t'.locate (r.testCasePath document n) = .ok place)
    (hnode : t'.node? place = some (.file bytes) ∨ t'.node? place = some .device) :
    t'.read (r.testCasePath document n) = .ok bytes := by
  obtain ⟨parent, rest, hparent, rfl⟩ := exists_place_of_locate_testCasePath hplace
  exact read_of_plainUnder hg plain hparent hplace hnode

/-! ## The whole run -/

/-- **A run that succeeds records every state about which all questions are answered.**  The
program is loaded and explored, and there is one interview about every state found, those that
have come to an end first.  The answers of the interviews to which all questions are answered
are what the test cases record, numbered from one in the order of the states; the other states
are counted. -/
theorem process_records_answered_states {policy : Policy} {r : RunDirectory} {document : Path}
    {c : Configuration} {report : TargetReport} (hc : c.IsLoaded ∨ c.IsBuilt)
    (plain : h.files.PlainUnder h'.files report.outputDirectory)
    (ran : (process policy r document c).runOn m h = (.ok report, h')) :
    ∃ (b : BoundInputs) (project : P) (entry : S) (found : Exploration S)
      (interviews : List (Interview P S)),
      c.bind.result = .ok b ∧
      h'.exchanges = h.exchanges ++ ([⟨.load c.executable, .ok project⟩,
        ⟨.entryState project b.arguments b.fileTable, .ok entry⟩,
        ⟨.explore entry policy, .ok found⟩] ++ interviews.flatMap Interview.exchanges) ∧
      interviews.map Interview.state = found.terminated ++ found.runnable ∧
      (∀ x ∈ interviews, x.Covers c.concolicInputs) ∧
      c.symbolicArguments.Pairwise (·.index < ·.index) ∧
      report.testCases = (List.range (Interview.complete interviews).length).map
        (fun i => r.testCasePath document (i + 1)) ∧
      (Interview.complete interviews).length + report.skipped
        = (found.terminated ++ found.runnable).length ∧
      ∀ (i : Nat) (answers : List Bytes),
        (Interview.complete interviews)[i]? = some answers →
        ∃ bytes record, h'.files.read (r.testCasePath document (i + 1)) = .ok bytes ∧
          TestCase.decode bytes = .ok record ∧ record.elements.length = c.concolicCount ∧
          record.Records c.concolicInputs answers := by
  have hbuilt : c.IsBuilt := hc.elim Configuration.IsLoaded.isBuilt id
  obtain ⟨v, h₁, hharvest, hw₁⟩ := Work.runOn_bind_eq_ok_iff.mp ran
  obtain ⟨l, h₂, hprepare, hw₂⟩ := Work.runOn_bind_eq_ok_iff.mp hw₁
  obtain ⟨paths, h₃, hwrite, hw₃⟩ := Work.runOn_bind_eq_ok_iff.mp hw₂
  obtain ⟨_, h₄, htell, hw₄⟩ := Work.runOn_bind_eq_ok_iff.mp hw₃
  obtain ⟨hreport, rfl⟩ := Prod.mk.inj hw₄
  obtain rfl := Except.ok.inj hreport
  obtain ⟨b, project, entry, found, xs, hb, hxs, hex⟩ := harvest_runOn_eq_ok hharvest
  obtain ⟨hdirectory, htestCases, -⟩ := prepare_runOn_eq_ok hprepare
  rw [hdirectory] at plain
  have hends : l.testCases.EndsInName := by
    rw [htestCases]
    exact Layout.endsInName_testCaseDirectory _
  obtain ⟨hpaths, -, hfiles⟩ := writeTestCases_runOn_eq_ok hends hwrite
  obtain ⟨houtcomes, hcount⟩ := hxs.harvest_eq
  have hstates := hxs.states_eq
  have hlength : v.outcomes.length = (Interview.complete xs).length := by
    rw [houtcomes, List.length_map]
  have hpath : ∀ n, l.testCasePath n = r.testCasePath document n := by
    intro n
    rw [Layout.testCasePath, htestCases]
    rfl
  have htold : h₄.files = h₃.files := (Work.keeps_files_tell _).of_runOn htell
  refine ⟨b, project, entry, found, xs, by rw [Configuration.bind_result, hb], ?_, hstates,
    hxs.covers, hbuilt.pairwise_index_lt.filter _, ?_, ?_, ?_⟩
  · -- nothing is asked after the harvest
    rw [(Work.keeps_exchanges_tell _).of_runOn htell,
      (keeps_exchanges_writeTestCases l 1 v.outcomes).of_runOn hwrite,
      (keeps_exchanges_prepare r document).of_runOn hprepare, hex]
  · show paths = _
    rw [hpaths, hlength]
    refine List.map_congr_left fun i _ => ?_
    rw [hpath, Nat.add_comm]
  · show _ + v.skipped = _
    rw [← hlength]
    exact hcount
  · intro i answers hi
    have hlen := hxs.length_eq_of_complete (List.mem_of_getElem? hi)
    have hout : v.outcomes[i]?
        = some ⟨List.zipWith FoundValue.ofInput c.concolicInputs answers⟩ := by
      rw [houtcomes, List.getElem?_map, hi]
      rfl
    obtain ⟨place, bytes, hbytes, hlocate, hnode⟩ := hfiles i _ hout
    rw [hpath, Nat.add_comm, ← htold] at hlocate
    rw [← htold] at hnode
    have hrecords := records_zipWith hlen
    refine ⟨bytes, _, FileTree.read_testCasePath (Work.grows_of_runOn ran) plain hlocate hnode,
      TestCase.decode_eq_ok_iff.mpr (TestCase.encode_eq_ok_iff.mp hbytes), ?_, hrecords⟩
    rw [hrecords.size, c.length_concolicInputs]

/-! ### A run with a state that is skipped -/

/-- A tree in which a test case of another run is left. -/
def sampleTree : FileTree where
  entries := [((Path.ofString "out").pieces, .directory),
    ((Path.ofString "out/doc.xml").pieces, .directory),
    ((Path.ofString "out/doc.xml/test-case-parsed").pieces, .directory),
    ((Path.ofString "out/doc.xml/test-case-parsed/1.bin").pieces, .file [9, 9, 9])]
  current := []

/-- The run of a program with one input of each kind that ends in three states; nothing is known
about the second one. -/
def sampleRun : Except RunError TargetReport × Host Path Nat Script :=
  (process .singleFork ⟨.ofString "/out"⟩ (.ofString "/in/doc.xml") sampleConfiguration).runOn
    scriptMachine
    { Host.new sampleTree "" with
      session := some (.new [sampleState] [⟨[], [], []⟩, sampleState] none) }

/-- What is reported of it. -/
def sampleReport : TargetReport where
  document := .ofString "/in/doc.xml"
  outputDirectory := .ofString "/out/doc.xml"
  testCases := [.ofString "/out/doc.xml/test-case-parsed/1.bin",
    .ofString "/out/doc.xml/test-case-parsed/2.bin"]
  skipped := 1
  companionCopied := false

lemma sampleTree_node?_ne_device (place : Location) : sampleTree.node? place ≠ some .device :=
  FileTree.node?_ne_device (by simp [sampleTree]) place

/-- Two of the three states have a test case, and the file of the other run is replaced. -/
theorem process_records_answered_states_sample :
    sampleRun.1 = .ok sampleReport ∧
      ∃ bytes record,
        sampleRun.2.files.read (.ofString "/out/doc.xml/test-case-parsed/1.bin") = .ok bytes ∧
          TestCase.decode bytes = .ok record ∧ record.elements.length = 3 := by
  have ran : sampleRun.1 = .ok sampleReport := by decide +kernel
  have hrun : sampleRun = (.ok sampleReport, sampleRun.2) := Prod.ext ran rfl
  obtain ⟨b, project, entry, found, interviews, -, -, -, -, -, hpaths, -, hfiles⟩ :=
    process_records_answered_states (.inr ⟨_, _, rfl⟩)
      (fun place _ rest => sampleTree_node?_ne_device (place ++ rest)) hrun
  have hlen : (Interview.complete interviews).length = 2 := by
    simpa [sampleReport] using (congrArg List.length hpaths).symm
  obtain ⟨answers, hanswers⟩ : ∃ answers, (Interview.complete interviews)[0]?
      = some answers := ⟨_, List.getElem?_eq_getElem (by omega)⟩
  obtain ⟨bytes, record, hread, hdecode, hsize, -⟩ := hfiles 0 answers hanswers
  have hpath : RunDirectory.testCasePath ⟨.ofString "/out"⟩ (.ofString "/in/doc.xml") (0 + 1)
      = .ofString "/out/doc.xml/test-case-parsed/1.bin" := by decide +kernel
  have hcount : sampleConfiguration.concolicCount = 3 := by decide +kernel
  rw [hpath] at hread
  exact ⟨ran, bytes, record, hread, hdecode, hsize.trans hcount⟩

end Concolic
