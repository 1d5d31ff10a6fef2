/-
# What settings are given

A settings document gives some of the settings and leaves the others out; so does a command line.
Both are overrides then, and the command line goes before the document.

* `Settings.Says`: the values of the document are these.  Every key it has is known and its value
  is of the right kind, at the top as in the sections.
* `Settings.ofFields?_eq_some_iff`: a document is read exactly if it says something, and what is
  read are the defaults with what it says.
* `Settings.override_override`: what is given first and what is given behind it make up one.
-/
import Concolic.Proofs.Run.Carrying
import Concolic.Proofs.Text.Utf8
import Concolic.Settings.Document

namespace Concolic

/-- What is given, and behind it what else is given. -/
def Overrides.orElse (o w : Overrides) : Overrides where
  jobs := o.jobs <|> w.jobs
  engineProgram := o.engineProgram <|> w.engineProgram
  engineArguments := o.engineArguments <|> w.engineArguments
  policyKind := o.policyKind <|> w.policyKind
  timeoutSeconds := o.timeoutSeconds <|> w.timeoutSeconds
  outputParent := o.outputParent <|> w.outputParent

namespace Settings

/-- One override after another is one override. -/
lemma override_override (s : Settings) (o w : Overrides) :
    (s.override w).override o = s.override (o.orElse w) := by
  have hgetD : ∀ {α : Type} (a b : Option α) (d : α), a.getD (b.getD d) = (a <|> b).getD d := by
    intro α a b d
    cases a <;> rfl
  have hprogram : (o.engineProgram <|> w.engineProgram <|> s.engineProgram)
      = ((o.engineProgram <|> w.engineProgram) <|> s.engineProgram) := by
    cases o.engineProgram <;> rfl
  simp only [override, Overrides.orElse, hgetD, hprogram]

/-! ## The values of a document -/

/-- A value that is given is read to this, or none is given. -/
def Holds {α : Type} (read : Toml → Option α) (given : Option Toml) (written : Option α) : Prop :=
  given.map read = written.map some

/-- The values of a section by the names of its keys; without the section there are none. -/
def entriesOf? (names : List String) : Option Toml → Option (List (Option Toml))
  | none => some (names.map fun _ => none)
  | some value => sectionOf? names value

/-- The values of a document, as far as they are given. -/
structure Entries where
  jobs : Option Toml
  program : Option Toml
  arguments : Option Toml
  kind : Option Toml
  seconds : Option Toml
  parent : Option Toml

/-- The document has these values at the top and in its sections, and no others. -/
def Entries.IsOf (e : Entries) (fields : Toml.Fields) : Prop :=
  ∃ engine exploration output,
    sectionOf? ["jobs", "engine", "exploration", "output"] (.table .header fields)
      = some [e.jobs, engine, exploration, output] ∧
    entriesOf? ["command", "args"] engine = some [e.program, e.arguments] ∧
    entriesOf? ["policy", "timeout_secs"] exploration = some [e.kind, e.seconds] ∧
    entriesOf? ["parent"] output = some [e.parent]

/-- Each of the values is of its kind and is read to this. -/
structure Entries.Gives (e : Entries) (w : Overrides) : Prop where
  jobs : Holds Toml.natural? e.jobs w.jobs
  program : Holds Toml.string? e.program w.engineProgram
  arguments : Holds texts? e.arguments w.engineArguments
  kind : Holds policyKind? e.kind w.policyKind
  seconds : Holds Toml.natural? e.seconds w.timeoutSeconds
  parent : Holds (fun v => v.string?.map Path.ofString) e.parent w.outputParent

/-- The document says this and nothing else. -/
def Says (fields : Toml.Fields) (w : Overrides) : Prop :=
  ∃ e : Entries, e.IsOf fields ∧ e.Gives w

/-! ## Reading a document -/

variable {α β : Type} {read : Toml → Option α} {given : Option Toml} {a d : α} {s s' : Settings}
  {fields : Toml.Fields} {w : Overrides}

@[simp] lemma holds_none_iff {written : Option α} : Holds read none written ↔ written = none := by
  cases written <;> simp [Holds]

@[simp] lemma holds_some_iff {value : Toml} {written : Option α} :
    Holds read (some value) written ↔ ∃ a, read value = some a ∧ written = some a := by
  cases written <;> simp [Holds]

lemma readOr_eq_some_iff :
    readOr read d given = some a ↔ ∃ written, Holds read given written ∧ a = written.getD d := by
  rcases given with _ | value
  · simp [readOr, eq_comm]
  · simp [readOr]

lemma holds_map_iff {f : α → β} {written : Option β} :
    Holds (fun v => (read v).map f) given written ↔
      ∃ w, Holds read given w ∧ written = w.map f := by
  rcases given with _ | value
  · simp
  · simp only [holds_some_iff, Option.map_eq_some_iff]
    constructor
    · rintro ⟨_, ⟨a, ha, rfl⟩, rfl⟩
      exact ⟨some a, ⟨a, ha, rfl⟩, rfl⟩
    · rintro ⟨_, ⟨a, ha, rfl⟩, rfl⟩
      exact ⟨f a, ⟨a, ha, rfl⟩, rfl⟩

/-- A section that is left out is one without values, and leaves the settings as they are. -/
lemma readOr_section_eq_some_iff {names : List String} {g : List (Option Toml) → Option Settings}
    (hempty : g (names.map fun _ => none) = some s) :
    readOr (fun value => (sectionOf? names value).bind g) s given = some s' ↔
      ∃ values, entriesOf? names given = some values ∧ g values = some s' := by
  rcases given with _ | value
  · simp only [readOr, entriesOf?, Option.some.injEq, exists_eq_left', hempty]
  · exact Option.bind_eq_some_iff

/-- A section is read to the settings with what its values are read to. -/
lemma readOr_withEngine?_eq_some_iff : readOr s.withEngine? s given = some s' ↔
    ∃ program arguments, entriesOf? ["command", "args"] given = some [program, arguments] ∧
      ∃ p a, Holds Toml.string? program p ∧ Holds texts? arguments a ∧
        s' = s.override { Overrides.none with engineProgram := p, engineArguments := a } := by
  -- the program is the one setting that may be absent by default
  have hprogram : ∀ p : Option String, (p.map some).getD s.engineProgram
      = (p <|> s.engineProgram) := by
    intro p
    cases p <;> rfl
  refine (readOr_section_eq_some_iff rfl).trans ?_
  constructor
  · rintro ⟨values, hvalues, h⟩
    split at h
    · simp only [Option.bind_eq_bind, Option.bind_eq_some_iff, readOr_eq_some_iff,
        holds_map_iff] at h
      obtain ⟨_, ⟨_, ⟨p, hp, rfl⟩, rfl⟩, _, ⟨a, ha, rfl⟩, h⟩ := h
      refine ⟨_, _, hvalues, p, a, hp, ha, ?_⟩
      rw [← Option.some.inj h, hprogram]
      rfl
    · exact absurd h (by simp)
  · rintro ⟨program, arguments, hvalues, p, a, hp, ha, rfl⟩
    refine ⟨_, hvalues, ?_⟩
    simp only [Option.bind_eq_bind, Option.bind_eq_some_iff, readOr_eq_some_iff, holds_map_iff]
    refine ⟨_, ⟨_, ⟨p, hp, rfl⟩, rfl⟩, _, ⟨a, ha, rfl⟩, ?_⟩
    rw [hprogram]
    rfl

lemma readOr_withExploration?_eq_some_iff : readOr s.withExploration? s given = some s' ↔
    ∃ kind seconds, entriesOf? ["policy", "timeout_secs"] given = some [kind, seconds] ∧
      ∃ k n, Holds policyKind? kind k ∧ Holds Toml.natural? seconds n ∧
        s' = s.override { Overrides.none with policyKind := k, timeoutSeconds := n } := by
  refine (readOr_section_eq_some_iff rfl).trans ?_
  constructor
  · rintro ⟨values, hvalues, h⟩
    split at h
    · simp only [Option.bind_eq_bind, Option.bind_eq_some_iff, readOr_eq_some_iff] at h
      obtain ⟨_, ⟨k, hk, rfl⟩, _, ⟨n, hn, rfl⟩, h⟩ := h
      exact ⟨_, _, hvalues, k, n, hk, hn, (Option.some.inj h).symm⟩
    · exact absurd h (by simp)
  · rintro ⟨kind, seconds, hvalues, k, n, hk, hn, rfl⟩
    refine ⟨_, hvalues, ?_⟩
    simp only [Option.bind_eq_bind, Option.bind_eq_some_iff, readOr_eq_some_iff]
    exact ⟨_, ⟨k, hk, rfl⟩, _, ⟨n, hn, rfl⟩, rfl⟩

lemma readOr_withOutput?_eq_some_iff : readOr s.withOutput? s given = some s' ↔
    ∃ parent, entriesOf? ["parent"] given = some [parent] ∧
      ∃ p, Holds (fun v => v.string?.map Path.ofString) parent p ∧
        s' = s.override { Overrides.none with outputParent := p } := by
  refine (readOr_section_eq_some_iff rfl).trans ?_
  constructor
  · rintro ⟨values, hvalues, h⟩
    split at h
    · simp only [Option.bind_eq_bind, Option.bind_eq_some_iff, readOr_eq_some_iff] at h
      obtain ⟨_, ⟨p, hp, rfl⟩, h⟩ := h
      exact ⟨_, hvalues, p, hp, (Option.some.inj h).symm⟩
    · exact absurd h (by simp)
  · rintro ⟨parent, hvalues, p, hp, rfl⟩
    refine ⟨_, hvalues, ?_⟩
    simp only [Option.bind_eq_bind, Option.bind_eq_some_iff, readOr_eq_some_iff]
    exact ⟨_, ⟨p, hp, rfl⟩, rfl⟩

/-- A document is read exactly if it says something, to the defaults with what it says. -/
lemma ofFields?_eq_some_iff :
    ofFields? fields = some s ↔ ∃ w, Says fields w ∧ s = default.override w := by
  rw [ofFields?, Option.bind_eq_bind, Option.bind_eq_some_iff]
  constructor
  · rintro ⟨l, hl, h⟩
    split at h
    · rename_i jobs engine exploration output
      simp only [Option.bind_eq_bind, Option.bind_eq_some_iff] at h
      obtain ⟨_, h₀, s₁, h₁, s₂, h₂, h₃⟩ := h
      obtain ⟨j, hj, rfl⟩ := readOr_eq_some_iff.mp h₀
      obtain ⟨program, arguments, hengine, p, a, hp, ha, rfl⟩ :=
        readOr_withEngine?_eq_some_iff.mp h₁
      obtain ⟨kind, seconds, hexploration, k, n, hk, hn, rfl⟩ :=
        readOr_withExploration?_eq_some_iff.mp h₂
      obtain ⟨parent, houtput, o, ho, rfl⟩ := readOr_withOutput?_eq_some_iff.mp h₃
      refine ⟨⟨j, p, a, k, n, o⟩, ⟨⟨jobs, program, arguments, kind, seconds, parent⟩,
        ⟨engine, exploration, output, hl, hengine, hexploration, houtput⟩,
        ⟨hj, hp, ha, hk, hn, ho⟩⟩, ?_⟩
      rfl
    · exact absurd h (by simp)
  · rintro ⟨w, ⟨e, ⟨engine, exploration, output, hl, hengine, hexploration, houtput⟩, hw⟩, rfl⟩
    refine ⟨_, hl, ?_⟩
    simp only [Option.bind_eq_bind, Option.bind_eq_some_iff]
    exact ⟨_, readOr_eq_some_iff.mpr ⟨w.jobs, hw.jobs, rfl⟩,
      _, readOr_withEngine?_eq_some_iff.mpr ⟨_, _, hengine, _, _, hw.program, hw.arguments, rfl⟩,
      _, readOr_withExploration?_eq_some_iff.mpr
        ⟨_, _, hexploration, _, _, hw.kind, hw.seconds, rfl⟩,
      readOr_withOutput?_eq_some_iff.mpr ⟨_, houtput, _, hw.parent, rfl⟩⟩

/-! ## Reading a file -/

/-- This is what is said: nothing if there is no file, else what the document in the file says. -/
inductive Written (files : FileTree) : Option Path → Overrides → Prop
  | absent : Written files none .none
  | file {path : Path} {text : String} {fields : Toml.Fields} {w : Overrides}
      (read : files.read path = .ok (Utf8.encode text)) (parsed : Toml.parse text = .ok fields)
      (given : Says fields w) : Written files (some path) w

/-- What a text says is taken if the defaults with it are valid. -/
lemma ofText_of_says {text : String} (hparsed : Toml.parse text = .ok fields)
    (hgiven : Says fields w) :
    ofText text = (default.override w).validate.map fun _ => default.override w := by
  have hread : ofFields? fields = some (default.override w) :=
    ofFields?_eq_some_iff.mpr ⟨w, hgiven, rfl⟩
  rw [ofText, hparsed]
  simp only [hread]
  rcases (default.override w).validate with fault | _ <;> rfl

variable {P S σ : Type} {m : Machine P S σ} {h : Host P S σ}

/-- A file with a text is read to what the text says, with the path if it is refused. -/
lemma load_runOn {path : Path} {text : String}
    (hread : h.files.read path = .ok (Utf8.encode text)) :
    ((load path).runOn m h).1
      = (ofText text).mapError fun fault => .input (.inFile path fault) := by
  have hfile : (Work.readFile path : Work P S _).runOn m h = (.ok (.ok (Utf8.encode text)), h) :=
    congrArg (fun r => (Except.ok r, h)) hread
  rw [load, Work.runOn_bind, hfile]
  simp only [Work.runOn_bind, Work.orFailAt, Work.runOn_orFail, Except.mapError,
    Utf8.decode?_encode]
  rcases ofText text with fault | s <;> rfl

end Settings

end Concolic
