/-
# What the work on a document touches

The work on one document of a batch reads the document, asks for the executable that it
declares and copies its companion; everything that it makes is made in the directory of the
document, which is an entry of the run directory named like the document.

So if the document, its companion and its executable lie apart from the run directory, the work
keeps to that entry (`confined_processOne`).  The executable is known only when the document
has been read, but the document reads the same as long as the tree grows below the run
directory, so it is always the one that the document declares at the beginning.
-/
import Concolic.Proofs.Run.Confined
import Concolic.Proofs.Run.Writing
import Concolic.Run.Batch

namespace Concolic

open FileTree (GrowsBelow LeadsOn)

variable {P S σ α : Type} {m : Machine P S σ} {h h' : Host P S σ} {t t₀ : FileTree}
  {base : Location} {name : Bytes} {command : EngineCommand} {known : Bool} {r : RunDirectory}
  {document : Path}

/-! ## Where things lie -/

/-- The directory of the run stands at the place. -/
structure RunDirectory.StandsAt (r : RunDirectory) (t : FileTree) (base : Location) : Prop where
  /-- Its path leads there. -/
  follow : t.follow (t.origin r.root) r.root.pieces = .ok base
  /-- A directory is there. -/
  directory : t.node? base = some .directory

/-- The executable that a document of this content declares. -/
def declaredExecutable? (content : Bytes) : Option Path :=
  match loadConfiguration.textOf content with
  | .error _ => none
  | .ok text =>
    match Configuration.treeOf text with
    | .error _ => none
    | .ok root => (Configuration.executableOf root).toOption

/-- Nothing that is read for the document lies below the directory at `base`. -/
structure LiesApart (t : FileTree) (base : Location) (document : Path) : Prop where
  /-- The document does not. -/
  clear : t.Clear base document
  /-- Its companion does not. -/
  clear_companion : t.Clear base (companion document)
  /-- The executable that it declares does not. -/
  clear_executable : ∀ content program, t.read document = .ok content →
    declaredExecutable? content = some program → t.Clear base program

/-- It is enough to look at the executable that the document declares, if it declares one. -/
lemma LiesApart.of_read {content : Bytes} {declared : Option Path}
    (hread : t.read document = .ok content) (hdeclared : declaredExecutable? content = declared)
    (clear : t.Clear base document) (clear_companion : t.Clear base (companion document))
    (clear_declared : ∀ program ∈ declared, t.Clear base program) :
    LiesApart t base document where
  clear := clear
  clear_companion := clear_companion
  clear_executable := by
    intro content' program hread' hprogram
    obtain rfl := Except.ok.inj (hread.symm.trans hread')
    exact clear_declared program (hdeclared.symm.trans hprogram)

/-! ## The paths of a document -/

lemma leadsOn_of_fileName? (h : document.fileName? = some name) : LeadsOn name where
  isName := Path.isName_of_fileName? h
  ne_here := by
    rintro rfl
    obtain ⟨-, hstands⟩ := List.mem_filter.mp (Path.mem_names_of_fileName? h)
    exact absurd hstands (by decide)
  ne_up := by
    rintro rfl
    unfold Path.fileName? at h
    split at h
    · split at h
      · exact absurd h (by simp)
      · exact absurd (Option.some.inj h) ‹_›
    · exact absurd h (by simp)

/-- A name behind such a path is one more name. -/
lemma FileTree.Leads.child {p : Path} {names : List Bytes} (h : t.Leads base p names)
    (hn : LeadsOn name) : t.Leads base (p.child name) (names ++ [name]) := by
  have hpieces := hn.isName.pieces
  have hjoin := h.join hn.isName.isAbsolute fun n hmem => by
    rw [hpieces, List.mem_singleton] at hmem
    rwa [hmem]
  rwa [hpieces] at hjoin

namespace RunDirectory.StandsAt

variable (hr : r.StandsAt t base) (hname : document.fileName? = some name)

include hr hname

lemma leads_targetDirectory : t.Leads base (r.targetDirectory document) [name] := by
  have hroot : t.Leads base r.root [] :=
    ⟨⟨r.root.pieces, by simp, hr.follow⟩, hr.directory, by simp⟩
  rw [RunDirectory.targetDirectory, hname]
  exact hroot.child (leadsOn_of_fileName? hname)

lemma leads_guestData : t.Leads base (Layout.guestData (r.targetDirectory document))
    [name, Utf8.encode "guest-data"] :=
  (hr.leads_targetDirectory hname).child (by decide +kernel)

lemma leads_companionCopy : t.Leads base (Layout.companionCopy (r.targetDirectory document))
    [name, Utf8.encode "guest-data", Utf8.encode "crete-guest-config.serialized"] :=
  (hr.leads_guestData hname).child (by decide +kernel)

lemma leads_testCaseDirectory :
    t.Leads base (Layout.testCaseDirectory (r.targetDirectory document))
      [name, Utf8.encode "test-case-parsed"] :=
  (hr.leads_targetDirectory hname).child Layout.leadsOn_testCaseDirectory

lemma leads_testCasePath {l : Layout}
    (hl : l.testCases = Layout.testCaseDirectory (r.targetDirectory document)) (number : Nat) :
    t.Leads base (l.testCasePath number)
      [name, Utf8.encode "test-case-parsed", Layout.testCaseName number] := by
  rw [Layout.testCasePath, hl]
  exact (hr.leads_testCaseDirectory hname).child (Layout.leadsOn_testCaseName number)

end RunDirectory.StandsAt

/-! ## The work on a document -/

namespace LiesApart

/-- The executable that is asked for is the one that the document declares at the beginning. -/
lemma confined_loadConfiguration (h : LiesApart t₀ base document) :
    (loadConfiguration document : Work P S Configuration).Confined t₀ base name command known := by
  refine Work.confined_file_bind (FileTree.stays_isFile h.clear) fun t ht => ?_
  split
  · refine Work.confined_file_bind (FileTree.stays_read h.clear) fun t ht => ?_
    refine Work.confined_orFail_bind fun content hcontent => ?_
    have hread : t₀.read document = .ok content := (ht.read_eq h.clear).symm.trans hcontent
    refine Work.confined_orFail_bind fun text htext => ?_
    refine (Work.confined_tell _).bind fun _ => ?_
    refine Work.confined_orFail_bind fun root hroot => ?_
    refine Work.confined_orFail_bind fun program hprogram => ?_
    have hdeclared : declaredExecutable? content = some program := by
      rw [declaredExecutable?, htext]
      simp only [hroot, hprogram]
      rfl
    refine (Work.confined_file (FileTree.stays_isFile (h.clear_executable content program hread
      hdeclared))).bind fun _ => ?_
    exact Work.confined_traced _ _
  · exact Work.confined_orFail _ _

/-- The layout that is prepared is the one of the document. -/
lemma confined_prepare_bind {f : Layout → Work P S α} (h : LiesApart t₀ base document)
    (hr : r.StandsAt t₀ base) (hname : document.fileName? = some name)
    (hf : ∀ l : Layout, l.testCases = Layout.testCaseDirectory (r.targetDirectory document) →
      (f l).Confined t₀ base name command known) :
    (Layout.prepare r document >>= f).Confined t₀ base name command known := by
  unfold Layout.prepare
  simp only [bind_assoc]
  refine (Work.confined_file (FileTree.stays_makeDirectories (hr.leads_guestData hname))).bind
    fun _ => (Work.confined_orFail _ _).bind fun _ => ?_
  refine (Work.confined_file
    (FileTree.stays_makeDirectories (hr.leads_testCaseDirectory hname))).bind
    fun _ => (Work.confined_orFail _ _).bind fun _ => ?_
  refine (Work.confined_file (FileTree.stays_isFile h.clear_companion)).bind fun _ => ?_
  split
  · simp only [bind_assoc, pure_bind]
    exact (Work.confined_file
      (FileTree.stays_copy h.clear_companion (hr.leads_companionCopy hname))).bind
      fun _ => (Work.confined_orFail _ _).bind fun _ => hf _ rfl
  · simp only [bind_assoc, pure_bind]
    exact (Work.confined_tell _).bind fun _ => hf _ rfl

end LiesApart

lemma confined_writeTestCase {path : Path} {names : List Bytes} (o : Outcome)
    (h : t₀.Leads base path (name :: names)) :
    (writeTestCase path o : Work P S Nat).Confined t₀ base name command known := by
  refine (Work.confined_file (FileTree.stays_create h)).bind
    fun _ => (Work.confined_orFail _ _).bind fun _ => ?_
  rcases o.testCase.writeTo .empty with ⟨result, medium⟩
  refine (Work.confined_file (FileTree.stays_write h medium.content)).bind
    fun _ => (Work.confined_orFail _ _).bind fun _ => ?_
  refine (Work.confined_orFail _ _).bind fun _ => ?_
  exact (Work.confined_tell _).bind fun _ => Work.confined_pure _

lemma confined_writeTestCases {l : Layout} (hr : r.StandsAt t₀ base)
    (hname : document.fileName? = some name)
    (hl : l.testCases = Layout.testCaseDirectory (r.targetDirectory document))
    (number : Nat) (outcomes : List Outcome) :
    (writeTestCases l number outcomes : Work P S (List Path)).Confined t₀ base name command
      known := by
  induction outcomes generalizing number with
  | nil => exact Work.confined_pure _
  | cons o outcomes ih =>
    refine (confined_writeTestCase o (hr.leads_testCasePath hname hl number)).bind fun _ => ?_
    exact (ih (number + 1)).bind fun _ => Work.confined_pure _

/-- **The work on a document keeps to the directory of the document.** -/
lemma LiesApart.confined_processOne (h : LiesApart t₀ base document) (hr : r.StandsAt t₀ base)
    (hname : document.fileName? = some name) (policy : Policy) :
    (processOne command policy r document : Work P S TargetReport).Confined t₀ base name command
      false := by
  refine (Work.confined_tell _).bind fun _ => ?_
  refine h.confined_loadConfiguration.bind fun c => ?_
  refine Work.confined_withEngine ?_
  -- the harvest touches no files
  have hharvest : (harvest policy c : Work P S Harvest).Confined t₀ base name command true := by
    refine .of_uses (uses_isTalk_harvest policy c) fun op known' hop => ?_
    cases op with
    | ask call => simp [Operation.Keeps]
    | tell event => trivial
    | file | launch | close | print | stamp => exact hop.elim
  refine hharvest.bind fun v => ?_
  refine h.confined_prepare_bind hr hname fun l hl => ?_
  refine (confined_writeTestCases hr hname hl 1 v.outcomes).bind fun _ => ?_
  exact (Work.confined_tell _).bind fun _ => Work.confined_pure _

end Concolic
