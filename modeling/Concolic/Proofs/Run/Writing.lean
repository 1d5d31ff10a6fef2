/-
# Writing test cases

The test cases of a document are written to files with numbered names.  Different numbers give
different names, so a file that has been written is not touched again when the next ones are;
and since trees of files only grow, its path leads to it until the end.  What is read at the
path of a test case after the run is therefore the record that was written there.
-/
import Concolic.Run.Harvest
import Concolic.Proofs.FileTree.Placement
import Concolic.Proofs.Run.Carrying

namespace Concolic

variable {P S σ α : Type} {m : Machine P S σ} {h h' : Host P S σ}

/-! ## Growth -/

lemma Host.grows_perform (m : Machine P S σ) (h : Host P S σ) (op : Operation P S) :
    FileTree.Grows h.files (h.perform m op).2.files := by
  cases op with
  | file op => exact FileTree.grows_run h.files op
  | launch command =>
    rcases hl : m.launch h.launches command with ⟨e | s, told⟩
    · simpa [perform, hl] using FileTree.Grows.refl h.files
    · simpa [perform, hl] using FileTree.Grows.refl h.files
  | ask call =>
    rcases hs : h.session with _ | s
    · simpa [perform, hs] using FileTree.Grows.refl h.files
    · simpa [perform, hs] using FileTree.Grows.refl h.files
  | close =>
    rcases hs : h.session with _ | s
    · simpa [perform, hs] using FileTree.Grows.refl h.files
    · simpa [perform, hs] using FileTree.Grows.refl h.files
  | tell | print | stamp => exact FileTree.Grows.refl h.files

lemma Action.grows_run (m : Machine P S σ) (h : Host P S σ) (x : Action P S α) :
    FileTree.Grows h.files (x.run m h).2.files := by
  induction x generalizing h with
  | done a => exact FileTree.Grows.refl h.files
  | step op next ih =>
    rw [Action.run]
    exact (h.grows_perform m op).trans (ih _ _)

/-- Whatever work is carried out, the tree of files has grown afterwards. -/
lemma Work.grows_of_runOn {w : Work P S α} {r : Except RunError α} (hw : w.runOn m h = (r, h')) :
    FileTree.Grows h.files h'.files := by
  have hg := Action.grows_run m h (ExceptT.run w)
  rwa [show (ExceptT.run w).run m h = (r, h') from hw] at hg

/-! ## The names of test cases -/

namespace Layout

variable {l : Layout} {n n' : Nat}

/-- The name of the file for the test case with a number. -/
def testCaseName (n : Nat) : Bytes := Utf8.encode s!"{n}.bin"

lemma testCaseName_eq (n : Nat) : testCaseName n = Utf8.encode n.repr ++ Utf8.encode ".bin" :=
  Utf8.encode_append n.repr ".bin"

lemma leadsOn_testCaseName (n : Nat) : FileTree.LeadsOn (testCaseName n) := by
  have hsuffix : Utf8.encode ".bin" = [46, 98, 105, 110] := by decide +kernel
  have hlen : 4 ≤ (testCaseName n).length := by
    rw [testCaseName_eq, hsuffix, List.length_append]
    exact Nat.le_add_left 4 _
  refine ⟨⟨?_, ?_⟩, ?_, ?_⟩
  · rintro hnil
    simp [hnil] at hlen
  · rw [testCaseName_eq, hsuffix, List.mem_append]
    rintro (hmem | hmem)
    · exact Utf8.slash_notMem_encode_repr n hmem
    · exact absurd hmem (by decide)
  · rintro hhere
    simp [hhere, Path.here] at hlen
  · rintro hup
    simp [hup, Path.up] at hlen

lemma testCaseName_injective : Function.Injective testCaseName := by
  intro n n' heq
  rw [testCaseName_eq, testCaseName_eq] at heq
  exact Nat.repr_injective (Utf8.encode_injective (List.append_cancel_right heq))

lemma pieces_testCasePath (hl : l.testCases.EndsInName) (n : Nat) :
    (l.testCasePath n).pieces = l.testCases.pieces ++ [testCaseName n] := by
  have hn := (leadsOn_testCaseName n).isName
  show (l.testCases.child (testCaseName n)).pieces = _
  rw [Path.child, Path.pieces_join hl hn.isAbsolute, hn.pieces]

lemma leadsOn_testCaseDirectory : FileTree.LeadsOn (Utf8.encode "test-case-parsed") :=
  ⟨⟨by decide +kernel, by decide +kernel⟩, by decide +kernel, by decide +kernel⟩

lemma endsInName_testCaseDirectory (directory : Path) :
    (testCaseDirectory directory).EndsInName :=
  Path.endsInName_join leadsOn_testCaseDirectory.isName.endsInName

end Layout

/-- The directory of a document ends in a name, even if the document has none. -/
lemma RunDirectory.endsInName_targetDirectory (r : RunDirectory) (document : Path) :
    (r.targetDirectory document).EndsInName := by
  unfold targetDirectory
  split
  · rename_i name hname
    exact Path.endsInName_join (Path.isName_of_fileName? hname).endsInName
  · have htarget : Path.IsName (Utf8.encode "target") := ⟨by decide +kernel, by decide +kernel⟩
    exact Path.endsInName_join htarget.endsInName

/-! ## One test case -/

/-- A test case that has been written stands at the place that its path leads to, unless there
is a device, and nothing else has changed. -/
lemma writeTestCase_runOn_eq_ok {path : Path} {o : Outcome} {size : Nat} {before : List Bytes}
    {name : Bytes} (hp : path.pieces = before ++ [name]) (hn : Path.IsName name)
    (hw : (writeTestCase path o).runOn m h = (.ok size, h')) :
    ∃ place record, o.testCase.encode = .ok record ∧ h'.files.locate path = .ok place ∧
      (∀ q, q ≠ place → h'.files.node? q = h.files.node? q) ∧
      (h'.files.node? place = some (.file record) ∨ h'.files.node? place = some .device) := by
  obtain ⟨made, h₁, hmade, hw₁⟩ := Work.runOn_bind_eq_ok_iff.mp hw
  obtain ⟨_, h₂, hopen, hw₂⟩ := Work.runOn_bind_eq_ok_iff.mp hw₁
  obtain ⟨rfl, rfl⟩ := Work.runOn_orFail_eq_ok_iff.mp hopen
  -- the file is filled before it is looked at whether the record could be written
  rcases hrec : o.testCase.writeTo .empty with ⟨result, medium⟩
  rw [hrec] at hw₂
  obtain ⟨filled, h₃, hfilled, hw₃⟩ := Work.runOn_bind_eq_ok_iff.mp hw₂
  obtain ⟨_, h₄, hstream, hw₄⟩ := Work.runOn_bind_eq_ok_iff.mp hw₃
  obtain ⟨rfl, rfl⟩ := Work.runOn_orFail_eq_ok_iff.mp hstream
  obtain ⟨_, h₅, hrecord, hw₅⟩ := Work.runOn_bind_eq_ok_iff.mp hw₄
  obtain ⟨rfl, rfl⟩ := Work.runOn_orFail_eq_ok_iff.mp hrecord
  obtain ⟨_, h₆, htold, hw₆⟩ := Work.runOn_bind_eq_ok_iff.mp hw₅
  have hfiles : h'.files = h₅.files := by
    rw [← (Prod.mk.inj hw₆).2, ← (Prod.mk.inj htold).2]
  obtain ⟨hcreate, -⟩ := Work.runOn_file_eq_ok_iff.mp hmade
  obtain ⟨place, hcreate⟩ := FileTree.run_create_eq_ok hcreate
  obtain ⟨hlocate, hframe, -⟩ := FileTree.create_eq_ok hp hn hcreate
  obtain ⟨hwrite, -⟩ := Work.runOn_file_eq_ok_iff.mp hfilled
  have hwrite := FileTree.changed_eq_ok_iff.mp hwrite
  obtain ⟨hframe', hnode⟩ := FileTree.write_eq_ok hlocate hwrite
  refine ⟨place, medium.content, by rw [TestCase.encode, hrec], ?_, ?_, ?_⟩
  · rw [hfiles]
    exact (FileTree.grows_of_write_eq_ok hwrite).locate hlocate
  · intro q hq
    rw [hfiles, hframe' q hq, hframe q hq]
  · rw [hfiles]
    exact hnode

/-! ## All test cases -/

/-- The path of a test case leads to an entry of its name in the directory of the test cases. -/
lemma Layout.place_of_locate_testCasePath {t : FileTree} {l : Layout} {n : Nat} {place : Location}
    (hl : l.testCases.EndsInName) (h : t.locate (l.testCasePath n) = .ok place) :
    ∃ parent, t.locate l.testCases = .ok parent ∧ place = parent ++ [testCaseName n] :=
  FileTree.locate_child_eq_ok hl (leadsOn_testCaseName n) h

/-- The test cases are written at the paths with the numbers from `n` on, each at a place of
its own; only these places have changed. -/
lemma writeTestCases_runOn_eq_ok {l : Layout} (hl : l.testCases.EndsInName) {n : Nat}
    {os : List Outcome} {paths : List Path}
    (hw : (writeTestCases l n os).runOn m h = (.ok paths, h')) :
    paths = (List.range os.length).map (fun i => l.testCasePath (n + i)) ∧
      (∀ q, (∀ i < os.length, h'.files.locate (l.testCasePath (n + i)) ≠ .ok q) →
        h'.files.node? q = h.files.node? q) ∧
      ∀ i o, os[i]? = some o → ∃ place record, o.testCase.encode = .ok record ∧
        h'.files.locate (l.testCasePath (n + i)) = .ok place ∧
        (h'.files.node? place = some (.file record) ∨ h'.files.node? place = some .device) := by
  induction os generalizing n h paths with
  | nil =>
    obtain ⟨hpaths, rfl⟩ := Prod.mk.inj hw
    obtain rfl := Except.ok.inj hpaths
    exact ⟨rfl, fun _ _ => rfl, by simp⟩
  | cons o os ih =>
    obtain ⟨size, h₁, hone, hw₁⟩ := Work.runOn_bind_eq_ok_iff.mp hw
    obtain ⟨rest, h₂, hrest, hw₂⟩ := Work.runOn_bind_eq_ok_iff.mp hw₁
    obtain ⟨hpaths, rfl⟩ := Prod.mk.inj hw₂
    obtain rfl := Except.ok.inj hpaths
    obtain ⟨place, record, hrecord, hlocate, hframe, hnode⟩ :=
      writeTestCase_runOn_eq_ok (Layout.pieces_testCasePath hl n)
        (Layout.leadsOn_testCaseName n).isName hone
    obtain ⟨hpaths, hframes, hnodes⟩ := ih hrest
    have hg := Work.grows_of_runOn hrest
    have hthere := hg.locate hlocate
    -- the later names differ from this one, so its place is not touched again
    have hkeep : h₂.files.node? place = h₁.files.node? place := by
      refine hframes place fun i _ hsame => ?_
      obtain ⟨parent, -, hparent⟩ := Layout.place_of_locate_testCasePath hl hthere
      obtain ⟨parent', -, hparent'⟩ := Layout.place_of_locate_testCasePath hl hsame
      have hname := (List.append_inj' (hparent.symm.trans hparent') rfl).2
      have hnumber := Layout.testCaseName_injective (List.cons.inj hname).1
      omega
    refine ⟨?_, ?_, ?_⟩
    · rw [hpaths, List.length_cons, List.range_succ_eq_map, List.map_cons, List.map_map]
      refine congrArg _ (List.map_congr_left fun i _ => ?_)
      show l.testCasePath (n + 1 + i) = l.testCasePath (n + (i + 1))
      rw [Nat.add_right_comm, Nat.add_assoc]
    · intro q hq
      rw [hframes q ?_, hframe q ?_]
      · rintro rfl
        exact hq 0 (by simp) hthere
      · intro i hi
        have hne := hq (i + 1) (by simpa using hi)
        rwa [Nat.add_comm i 1, ← Nat.add_assoc] at hne
    · intro i o' hi
      cases i with
      | zero =>
        obtain rfl : o = o' := by simpa using hi
        exact ⟨place, record, hrecord, hthere, hkeep ▸ hnode⟩
      | succ i =>
        have hlater := hnodes i o' (by simpa using hi)
        rwa [Nat.add_right_comm, Nat.add_assoc] at hlater

/-! ## The directories -/

/-- The two directories are made, one after the other, and then a companion is copied if there is
one, which is what the layout says. -/
lemma prepare_runOn_eq_ok {r : RunDirectory} {document : Path} {l : Layout}
    (hw : (Layout.prepare r document).runOn m h = (.ok l, h')) :
    l.directory = r.targetDirectory document ∧
      l.testCases = Layout.testCaseDirectory (r.targetDirectory document) ∧
      ∃ t t', h.files.makeDirectories (Layout.guestData (r.targetDirectory document))
          = (.ok (), t) ∧
        t.makeDirectories (Layout.testCaseDirectory (r.targetDirectory document)) = (.ok (), t') ∧
        (l.companionCopied = false ∧ t'.isFile (companion document) = false ∧ h'.files = t' ∨
          l.companionCopied = true ∧ t'.isFile (companion document) = true ∧
            t'.copy (companion document) (Layout.companionCopy (r.targetDirectory document))
              = .ok h'.files) := by
  obtain ⟨_, h₁, hguest, hw₁⟩ := Work.runOn_bind_eq_ok_iff.mp hw
  obtain ⟨_, h₂, hok, hw₂⟩ := Work.runOn_bind_eq_ok_iff.mp hw₁
  obtain ⟨rfl, rfl⟩ := Work.runOn_orFail_eq_ok_iff.mp hok
  obtain ⟨_, h₃, hmake, hw₃⟩ := Work.runOn_bind_eq_ok_iff.mp hw₂
  obtain ⟨_, h₄, hok, hw₄⟩ := Work.runOn_bind_eq_ok_iff.mp hw₃
  obtain ⟨rfl, rfl⟩ := Work.runOn_orFail_eq_ok_iff.mp hok
  obtain ⟨there, h₅, hthere, hw₅⟩ := Work.runOn_bind_eq_ok_iff.mp hw₄
  obtain ⟨hguest, -⟩ := Work.runOn_file_eq_ok_iff.mp hguest
  obtain ⟨hmake, -⟩ := Work.runOn_file_eq_ok_iff.mp hmake
  obtain ⟨hthere, -⟩ := Work.runOn_file_eq_ok_iff.mp hthere
  obtain ⟨rfl, hfiles⟩ : there = h₄.files.isFile (companion document) ∧ h₄.files = h₅.files :=
    ⟨(congrArg Prod.fst hthere).symm, congrArg Prod.snd hthere⟩
  split at hw₅
  · rename_i hthere
    obtain ⟨_, h₆, hcopy, hw₆⟩ := Work.runOn_bind_eq_ok_iff.mp hw₅
    obtain ⟨_, h₇, hok, hw₇⟩ := Work.runOn_bind_eq_ok_iff.mp hw₆
    obtain ⟨rfl, rfl⟩ := Work.runOn_orFail_eq_ok_iff.mp hok
    obtain ⟨hl, rfl⟩ := Prod.mk.inj hw₇
    obtain rfl := Except.ok.inj hl
    obtain ⟨hcopy, -⟩ := Work.runOn_file_eq_ok_iff.mp hcopy
    rw [← hfiles] at hcopy
    exact ⟨rfl, rfl, _, _, hguest, hmake,
      .inr ⟨rfl, hthere, FileTree.changed_eq_ok_iff.mp hcopy⟩⟩
  · rename_i hnone
    obtain ⟨_, h₆, htell, hw₆⟩ := Work.runOn_bind_eq_ok_iff.mp hw₅
    obtain ⟨hl, rfl⟩ := Prod.mk.inj hw₆
    obtain rfl := Except.ok.inj hl
    exact ⟨rfl, rfl, _, _, hguest, hmake, .inl ⟨rfl, Bool.eq_false_iff.mpr hnone,
      ((Work.keeps_files_tell _).of_runOn htell).trans hfiles.symm⟩⟩

/-! ## What is exchanged -/

lemma keeps_exchanges_prepare (r : RunDirectory) (document : Path) :
    (Layout.prepare r document : Work P S Layout).Keeps (σ := σ) Host.exchanges := by
  refine (Work.keeps_exchanges_file _).bind fun _ => (Work.keeps_orFail _ _).bind fun _ =>
    (Work.keeps_exchanges_file _).bind fun _ => (Work.keeps_orFail _ _).bind fun _ =>
    (Work.keeps_exchanges_file _).bind fun there => ?_
  split
  · exact (Work.keeps_exchanges_file _).bind fun _ => (Work.keeps_orFail _ _).bind fun _ =>
      Work.keeps_pure _
  · exact (Work.keeps_exchanges_tell _).bind fun _ => Work.keeps_pure _

lemma keeps_exchanges_writeTestCase (path : Path) (o : Outcome) :
    (writeTestCase path o : Work P S Nat).Keeps (σ := σ) Host.exchanges :=
  (Work.keeps_exchanges_file _).bind fun _ => (Work.keeps_orFail _ _).bind fun _ =>
    (Work.keeps_exchanges_file _).bind fun _ => (Work.keeps_orFail _ _).bind fun _ =>
    (Work.keeps_orFail _ _).bind fun _ => (Work.keeps_exchanges_tell _).bind fun _ =>
    Work.keeps_pure _

lemma keeps_exchanges_writeTestCases (l : Layout) (n : Nat) (os : List Outcome) :
    (writeTestCases l n os : Work P S (List Path)).Keeps (σ := σ) Host.exchanges := by
  induction os generalizing n with
  | nil => exact Work.keeps_pure _
  | cons o os ih =>
    exact (keeps_exchanges_writeTestCase _ o).bind fun _ => (ih (n + 1)).bind fun _ =>
      Work.keeps_pure _

end Concolic
