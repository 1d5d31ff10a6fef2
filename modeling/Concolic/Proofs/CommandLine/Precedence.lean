/-
# Flags before the settings file

A setting has three sources: the command line, the settings file, and the default.  The first one
that has a value for it decides.  Two things are checked, and in this order: the settings of the
file by themselves, that is the defaults with what the file says, and then the settings that come
of all three sources.

So what the file says in a place that the command line overrides does not show in the settings of
a call, but it decides whether there are any: a file that is not valid by itself is refused, also
if the command line takes the place of what is wrong in it (`not_resolved_by_merged_settings`).
-/
import Concolic.Proofs.CommandLine.Leftovers
import Concolic.Proofs.Settings.Reading

namespace Concolic.CommandLine

open Settings (Written)

variable {P S σ : Type} {m : Machine P S σ} {h : Host P S σ} {settings : Option Path}
  {flags written : Overrides} {fault : InputFault}

/-- Settings that come of a base and the flags are checked and returned. -/
lemma runOn_validated (s : Settings) :
    ((do
      Work.orFail .input s.validate
      pure s : Work P S Settings).runOn m h).1 = (s.validate.map fun _ => s).mapError .input := by
  rw [Work.runOn_bind, Work.runOn_orFail]
  rcases s.validate with fault | _ <;> rfl

/-- If the settings of the file are valid by themselves, those of all sources decide. -/
lemma resolve_runOn_of_valid (hw : Written h.files settings written)
    (hown : (Settings.default.override written).validate = .ok ()) :
    ((resolve settings flags).runOn m h).1
      = ((Settings.default.override (flags.orElse written)).validate.map fun _ =>
          Settings.default.override (flags.orElse written)).mapError .input := by
  rw [← Settings.override_override]
  cases hw with
  | absent =>
    rw [resolve, Work.runOn_bind, Work.runOn_pure]
    exact runOn_validated _
  | @file path text fields w hread hparsed hgiven =>
    have hload : ((Settings.load path).runOn m h).1
        = .ok (Settings.default.override written) := by
      rw [Settings.load_runOn hread, Settings.ofText_of_says hparsed hgiven, hown]
      rfl
    rw [resolve, Work.runOn_bind]
    rcases hrun : (Settings.load path).runOn m h with ⟨r, h₁⟩
    obtain rfl : r = .ok (Settings.default.override written) := by
      rw [← hload, hrun]
    exact runOn_validated _

/-- There is no call with a file that is not valid by itself. -/
lemma resolve_runOn_of_invalid (hw : Written h.files settings written)
    (hown : (Settings.default.override written).validate = .error fault) :
    ∃ path, settings = some path ∧
      ((resolve settings flags).runOn m h).1 = .error (.input (.inFile path fault)) := by
  cases hw with
  | absent =>
    have hdefault : (Settings.default.override .none).validate = .ok () := rfl
    rw [hdefault] at hown
    exact nomatch hown
  | @file path text fields w hread hparsed hgiven =>
    refine ⟨path, rfl, ?_⟩
    have hload : ((Settings.load path).runOn m h).1 = .error (.input (.inFile path fault)) := by
      rw [Settings.load_runOn hread, Settings.ofText_of_says hparsed hgiven, hown]
      rfl
    rw [resolve, Work.runOn_bind]
    rcases hrun : (Settings.load path).runOn m h with ⟨r, h₁⟩
    obtain rfl : r = .error (.input (.inFile path fault)) := by
      rw [← hload, hrun]
    rfl

/-- **Flags go before the settings file, once the file is valid by itself.**  Let the settings file
be well-formed with known keys only, or let there be none, and let any flags be given.  The settings
of the file are the defaults with what it says; the merged settings have the value of the flag where
one is given, else that of the file, else the default.

* A call has settings exactly if those of the file and the merged ones are valid, and then it has
  the merged ones.
* If those of the file are not valid, the call fails with what is wrong with the file.
* If only the merged ones are not valid, the call fails with what is wrong with them.
* Between files whose settings are valid by themselves, what a file says in place of a flag makes no
  difference to the result. -/
theorem resolve_merges_valid_sources (hw : Written h.files settings written) :
    (∀ s, ((resolve settings flags).runOn m h).1 = .ok s ↔
      (Settings.default.override written).validate = .ok () ∧
        (Settings.default.override (flags.orElse written)).validate = .ok () ∧
        s = Settings.default.override (flags.orElse written)) ∧
    (∀ fault, (Settings.default.override written).validate = .error fault →
      ∃ path, settings = some path ∧
        ((resolve settings flags).runOn m h).1 = .error (.input (.inFile path fault))) ∧
    (∀ fault, (Settings.default.override written).validate = .ok () →
      (Settings.default.override (flags.orElse written)).validate = .error fault →
      ((resolve settings flags).runOn m h).1 = .error (.input fault)) ∧
    ∀ (h' : Host P S σ) (settings' : Option Path) (written' : Overrides),
      Written h'.files settings' written' → flags.orElse written' = flags.orElse written →
      (Settings.default.override written).validate = .ok () →
      (Settings.default.override written').validate = .ok () →
      ((resolve settings' flags).runOn m h').1 = ((resolve settings flags).runOn m h).1 := by
  refine ⟨fun s => ?_, fun fault hown => resolve_runOn_of_invalid hw hown,
    fun fault hown hmerged => ?_, fun h' settings' written' hw' hsame hown hown' => ?_⟩
  · rcases hown : (Settings.default.override written).validate with fault | _
    · -- neither side holds: the file is refused before the flags are looked at
      obtain ⟨path, -, hrun⟩ : ∃ path, settings = some path ∧
          ((resolve settings flags).runOn m h).1 = .error (.input (.inFile path fault)) :=
        resolve_runOn_of_invalid hw hown
      rw [hrun]
      simp
    · rw [resolve_runOn_of_valid hw hown]
      rcases (Settings.default.override (flags.orElse written)).validate with fault | _
      · simp [Except.map, Except.mapError]
      · simp [Except.map, Except.mapError, eq_comm]
  · rw [resolve_runOn_of_valid hw hown, hmerged]
    rfl
  · rw [resolve_runOn_of_valid hw hown, resolve_runOn_of_valid hw' hown', hsame]

/-! ### Files that say how many jobs there are -/

/-- The number of jobs, if the document says nothing else. -/
def onlyJobs? : Except String Toml.Fields → Option Nat
  | .ok [("jobs", .integer (.ofNat n))] => some n
  | _ => none

lemma eq_of_onlyJobs? {read : Except String Toml.Fields} {n : Nat}
    (hread : onlyJobs? read = some n) :
    read = .ok [("jobs", .integer n)] := by
  unfold onlyJobs? at hread
  split at hread
  · obtain rfl := Option.some.inj hread
    rfl
  · exact nomatch hread

/-- A tree with three such files. -/
def jobsTree : FileTree where
  entries := [((Path.ofString "three").pieces, .file (Utf8.encode "jobs = 3")),
    ((Path.ofString "four").pieces, .file (Utf8.encode "jobs = 4")),
    ((Path.ofString "zero").pieces, .file (Utf8.encode "jobs = 0"))]
  current := []

/-- This number of jobs. -/
def jobsOnly (n : Nat) : Overrides := { Overrides.none with jobs := some n }

/-- The settings of a call with this file and two jobs. -/
def jobsRun (file : String) : Except RunError Settings :=
  ((resolve (some (.ofString file)) (jobsOnly 2)).runOn idleMachine (Host.new jobsTree "noon")).1

lemma written_of_onlyJobs? {file text : String} {n : Nat}
    (hread : jobsTree.read (.ofString file) = .ok (Utf8.encode text))
    (hparsed : onlyJobs? (Toml.parse text) = some n) :
    Written jobsTree (some (.ofString file)) (jobsOnly n) := by
  refine .file hread (eq_of_onlyJobs? hparsed)
    ⟨⟨some (.integer n), none, none, none, none, none⟩, ⟨none, none, none, rfl, rfl, rfl, rfl⟩, ?_⟩
  exact ⟨rfl, rfl, rfl, rfl, rfl, rfl⟩

lemma written_three : Written jobsTree (some (.ofString "three")) (jobsOnly 3) :=
  @written_of_onlyJobs? _ "jobs = 3" 3 (by decide) (by decide +kernel)

lemma written_four : Written jobsTree (some (.ofString "four")) (jobsOnly 4) :=
  @written_of_onlyJobs? _ "jobs = 4" 4 (by decide) (by decide +kernel)

lemma written_zero : Written jobsTree (some (.ofString "zero")) (jobsOnly 0) :=
  @written_of_onlyJobs? _ "jobs = 0" 0 (by decide) (by decide +kernel)

/-- Whether the file says three or four, there are two jobs in the call; that the file has no job is
refused. -/
theorem resolve_merges_valid_sources_sample :
    jobsRun "three" = .ok { Settings.default with jobs := 2 } ∧
      jobsRun "four" = jobsRun "three" ∧
      jobsRun "zero" = .error (.input (.inFile (.ofString "zero") .noJobs)) := by
  let noon : Host Path Nat Script := Host.new jobsTree "noon"
  refine ⟨?_, ?_, ?_⟩
  · exact ((resolve_merges_valid_sources (h := noon) written_three).1 _).mpr ⟨rfl, rfl, rfl⟩
  · exact (resolve_merges_valid_sources (h := noon) written_three).2.2.2 noon _ _ written_four rfl
      rfl rfl
  · obtain ⟨path, hpath, hrun⟩ : ∃ path, some (Path.ofString "zero") = some path ∧
        jobsRun "zero" = .error (.input (.inFile path .noJobs)) :=
      (resolve_merges_valid_sources (h := noon) written_zero).2.1 .noJobs rfl
    obtain rfl := Option.some.inj hpath
    exact hrun

/-- The merged settings alone do not decide, and what the file says in place of a flag can make a
difference. -/
theorem not_resolved_by_merged_settings :
    (¬ ∀ (h : Host Path Nat Script) (settings : Option Path) (flags written : Overrides),
      Written h.files settings written →
        ((∃ s, ((resolve settings flags).runOn idleMachine h).1 = .ok s) ↔
          (Settings.default.override (flags.orElse written)).validate = .ok ())) ∧
    ¬ ∀ (h : Host Path Nat Script) (settings settings' : Option Path)
      (flags written written' : Overrides),
      Written h.files settings written → Written h.files settings' written' →
        flags.orElse written' = flags.orElse written →
        ((resolve settings' flags).runOn idleMachine h).1
          = ((resolve settings flags).runOn idleMachine h).1 := by
  have hrefused : jobsRun "zero" = .error (.input (.inFile (.ofString "zero") .noJobs)) := by
    decide +kernel
  constructor
  · intro h
    obtain ⟨s, hs⟩ := (h (Host.new jobsTree "noon") _ (jobsOnly 2) _ written_zero).mpr rfl
    exact nomatch hrefused.symm.trans hs
  · intro h
    have hsame := h (Host.new jobsTree "noon") _ _ (jobsOnly 2) _ _ written_three written_zero rfl
    have hthree : jobsRun "three" = .ok { Settings.default with jobs := 2 } := by decide +kernel
    exact nomatch (hrefused.symm.trans hsame).trans hthree

end Concolic.CommandLine
