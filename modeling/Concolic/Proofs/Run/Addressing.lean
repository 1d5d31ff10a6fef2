/-
# Contents by their paths

The engine is handed a table of simulated files, and it is asked for the content of one of them
by its path.  The table has a row for every declared file and one for the standard input, which
is simulated under a path of its own.  Declared files have different paths, but nothing keeps a
file from being declared under the path of the standard input.

* A call by a path is part of the block of exchanges about one input, and the path is that of the
  input (`Asked.contentPath?_eq`, `Interviewed.exists_blocks`).
* Two inputs with one path are a file and the standard input
  (`Configuration.pairwise_contentPath?`).
-/
import Concolic.Proofs.Configuration.Store
import Concolic.Proofs.Run.Collection
import Concolic.Proofs.Run.Conversation

namespace Concolic

/-- The path under which the target opens an input. -/
def Input.contentPath? : Input → Option String
  | .argument _ => none
  | .file f => some f.path
  | .standardInput _ => some standardInputPath

/-- The path by which a call asks for a content. -/
def Call.path? {P S : Type} : Call P S → Option String
  | .lookupDescriptor _ path => some path
  | .dumpPath _ path => some path
  | _ => none

namespace Configuration

/-- There is a standard input, and a file is declared under its path. -/
def StandardInputTaken (c : Configuration) : Prop :=
  c.standardInput.isSome ∧ ∃ f ∈ c.files, f.path = standardInputPath

/-- No input but the one at this place has the path. -/
def IsPathOf (c : Configuration) (j : Nat) (path : String) : Prop :=
  ∀ k i, c.concolicInputs[k]? = some i → i.contentPath? = some path → k = j

variable {c : Configuration} {b : BoundInputs}

/-! ## Paths in the table -/

lemma nodup_filePaths (hc : c.IsBuilt) : (c.files.map InputFile.path).Nodup := by
  obtain ⟨executable, calls, rfl⟩ := hc
  exact (stores_build executable calls).nodup_names.2

/-- The table has the paths of the declared files and that of the standard input. -/
lemma filePaths_of_bound (hb : c.bound = .ok b) : b.fileTable.map SimulatedFile.path
    = c.files.map InputFile.path ++ c.standardInput.toList.map fun _ => standardInputPath := by
  obtain ⟨-, hfiles, hstd⟩ := eq_of_bound_eq_ok hb
  rw [BoundInputs.fileTable, List.map_append, hfiles, hstd, List.map_map]
  cases c.standardInput <;> rfl

lemma nodup_fileTable_iff (hc : c.IsBuilt) (hb : c.bound = .ok b) :
    (b.fileTable.map SimulatedFile.path).Nodup ↔ ¬ c.StandardInputTaken := by
  rw [filePaths_of_bound hb, StandardInputTaken]
  rcases c.standardInput with _ | size
  · simpa using nodup_filePaths hc
  · have hsingle : (List.map (fun _ => standardInputPath) (some size).toList)
        = [standardInputPath] := rfl
    rw [hsingle, List.nodup_append]
    constructor
    · rintro ⟨-, -, happart⟩ ⟨-, f, hf, hpath⟩
      exact happart f.path (List.mem_map_of_mem hf) _ (List.mem_singleton_self _) hpath
    · intro hfree
      refine ⟨nodup_filePaths hc, List.nodup_singleton _, ?_⟩
      intro path hpath path' hpath' heq
      obtain ⟨f, hf, rfl⟩ := List.mem_map.mp hpath
      exact hfree ⟨rfl, f, hf, heq.trans (List.mem_singleton.mp hpath')⟩

/-- Of two inputs with one path, the first one is a file under the path of the standard input, and
the second one is the standard input. -/
lemma pairwise_contentPath? (hc : c.IsBuilt) : c.concolicInputs.Pairwise fun i i' =>
    ∀ path, i.contentPath? = some path → i'.contentPath? = some path →
      c.StandardInputTaken ∧ path = standardInputPath := by
  rw [concolicInputs, List.pairwise_append, List.pairwise_append]
  refine ⟨⟨?arguments, ?files, ?argumentFile⟩, ?standardInput, ?other⟩
  case arguments =>
    refine List.pairwise_map.mpr (List.pairwise_of_forall fun a _ path hpath => ?_)
    cases hpath
  case files =>
    -- no path is declared twice
    refine List.pairwise_map.mpr ((List.pairwise_map.mp (nodup_filePaths hc)).imp ?_)
    intro f g hne path hf hg
    exact absurd (Option.some.inj (hf.trans hg.symm)) hne
  case argumentFile =>
    intro i hi i' _ path hpath
    obtain ⟨a, -, rfl⟩ := List.mem_map.mp hi
    cases hpath
  case standardInput => cases c.standardInput <;> simp
  case other =>
    intro i hi i' hi' path hpath hpath'
    obtain ⟨size, hsize, rfl⟩ := List.mem_map.mp hi'
    obtain rfl : standardInputPath = path := Option.some.inj hpath'
    rcases List.mem_append.mp hi with hi | hi
    · obtain ⟨a, -, rfl⟩ := List.mem_map.mp hi
      cases hpath
    · obtain ⟨f, hf, rfl⟩ := List.mem_map.mp hi
      have hsome : c.standardInput.isSome := Option.isSome_of_mem (Option.mem_toList.mp hsize)
      exact ⟨⟨hsome, f, hf, Option.some.inj hpath⟩, rfl⟩

/-- The path of an input belongs to it alone, unless it is that of the standard input and taken. -/
lemma isPathOf_or_taken (hc : c.IsBuilt) {j : Nat} {i : Input} {path : String}
    (hi : c.concolicInputs[j]? = some i) (hpath : i.contentPath? = some path) :
    c.IsPathOf j path ∨ c.StandardInputTaken ∧ path = standardInputPath := by
  by_cases htaken : c.StandardInputTaken ∧ path = standardInputPath
  · exact .inr htaken
  refine .inl fun k i' hi' hpath' => ?_
  have hpairs := List.pairwise_iff_getElem.mp (pairwise_contentPath? hc)
  obtain ⟨hj, rfl⟩ := List.getElem?_eq_some_iff.mp hi
  obtain ⟨hk, rfl⟩ := List.getElem?_eq_some_iff.mp hi'
  rcases Nat.lt_trichotomy k j with hlt | heq | hgt
  · exact absurd (hpairs k j hk hj hlt path hpath' hpath) htaken
  · exact heq
  · exact absurd (hpairs j k hj hk hgt path hpath hpath') htaken

end Configuration

variable {P S σ : Type}

/-! ## Calls by a path -/

/-- What is asked for by a path about an input has the path of the input. -/
lemma Asked.contentPath?_eq {state : S} {i : Input} {block : List (Exchange P S)}
    {answer : Except EngineError Bytes} (h : Asked state i.question block answer) :
    ∀ q ∈ block, ∀ path, q.call.path? = some path → i.contentPath? = some path := by
  intro q hq path hpath
  generalize hquestion : i.question = question at h
  have hfile : ∀ file, i.question = .content file → i.contentPath? = some file.path := by
    intro file hcontent
    cases i with
    | argument a => exact nomatch hcontent
    | file f =>
      obtain rfl := Question.content.inj hcontent
      rfl
    | standardInput size =>
      obtain rfl := Question.content.inj hcontent
      rfl
  cases h with
  | solved unknown answer =>
    obtain rfl := List.mem_singleton.mp hq
    exact nomatch hpath
  | notLookedUp file fault =>
    obtain rfl := List.mem_singleton.mp hq
    rw [hfile file hquestion]
    exact hpath
  | byDescriptor file descriptor answer =>
    rcases List.mem_pair.mp hq with rfl | rfl
    · rw [hfile file hquestion]
      exact hpath
    · exact nomatch hpath
  | byPath file answer =>
    rw [hfile file hquestion]
    rcases List.mem_pair.mp hq with rfl | rfl
    · exact hpath
    · exact hpath

/-- The engine is handed the table of the bound inputs and no other. -/
lemma Conversed.files_eq {policy : Policy} {c : Configuration} {b : BoundInputs}
    {opening : List (Exchange P S)} {interviews : List (Interview P S)}
    {r : Except RunError Harvest} (h : Conversed policy c opening interviews r)
    (hb : c.bind.result = .ok b) {q : Exchange P S} (hq : q ∈ opening) {project : P}
    {arguments : List Binding} {files : List SimulatedFile}
    (hcall : q.call = .entryState project arguments files) : files = b.fileTable := by
  have hentry : ∀ (b' : BoundInputs) (project' : P), c.bind.result = .ok b' →
      q.call = .entryState project' b'.arguments (b'.files ++ b'.standardInput.toList) →
      files = b.fileTable := by
    intro b' project' hb' hcall'
    obtain rfl := Except.ok.inj (hb.symm.trans hb')
    obtain ⟨-, -, hfiles⟩ := Call.entryState.inj (hcall.symm.trans hcall')
    exact hfiles
  cases h with
  | unbound hgap => exact nomatch hq
  | notLoaded hb' =>
    obtain rfl := List.mem_singleton.mp hq
    exact nomatch hcall
  | notEntered hb' =>
    rcases List.mem_pair.mp hq with rfl | rfl
    · exact nomatch hcall
    · exact hentry _ _ hb' rfl
  | notExplored hb' | explored hb' =>
    simp only [List.mem_cons, List.not_mem_nil, or_false] at hq
    rcases hq with rfl | rfl | rfl
    · exact nomatch hcall
    · exact hentry _ _ hb' rfl
    · exact nomatch hcall

/-- **Contents are told apart by their paths, unless a file takes that of the standard input.**  Let
a configuration be loaded and bound.  The paths in the table of simulated files are distinct exactly
if there is no standard input or no file is declared under its path.

Whatever the engine, the table is what it is handed in a harvest, and then it is asked about states.
The exchanges about a state are cut into one block for each input that is asked about, in their
order, and each call by a path in a block has the path of the input of this block.  No other input
has this path, unless it is that of the standard input and a file is declared under it. -/
theorem contents_addressed_by_path {c : Configuration} {b : BoundInputs} (hc : c.IsLoaded)
    (hb : c.bind.result = .ok b) :
    ((b.fileTable.map SimulatedFile.path).Nodup ↔ ¬ c.StandardInputTaken) ∧
    ∀ (m : Machine P S σ) (h : Host P S σ) (policy : Policy),
      ∃ (opening : List (Exchange P S)) (interviews : List (Interview P S)),
        ((harvest policy c).runOn m h).2.exchanges
          = h.exchanges ++ (opening ++ interviews.flatMap Interview.exchanges) ∧
        (∀ q ∈ opening, ∀ project arguments files,
          q.call = .entryState project arguments files → files = b.fileTable) ∧
        ∀ x ∈ interviews, ∃ blocks : List (List (Exchange P S)),
          x.exchanges = blocks.flatten ∧ blocks.length ≤ c.concolicCount ∧
          ∀ (j : Nat) (i : Input) (block : List (Exchange P S)),
            c.concolicInputs[j]? = some i → blocks[j]? = some block →
              (∃ answer, Asked x.state i.question block answer) ∧
              ∀ q ∈ block, ∀ path, q.call.path? = some path → i.contentPath? = some path ∧
                (c.IsPathOf j path ∨ c.StandardInputTaken ∧ path = standardInputPath) := by
  refine ⟨c.nodup_fileTable_iff hc.isBuilt (Configuration.bind_result.symm.trans hb), ?_⟩
  intro m h policy
  rcases hrun : (harvest policy c : Work P S Harvest).runOn m h with ⟨r, h'⟩
  obtain ⟨opening, interviews, hconversed, hex⟩ := conversed_of_runOn hrun
  refine ⟨opening, interviews, hex, ?_, fun x hx => ?_⟩
  · intro q hq project arguments files hcall
    exact hconversed.files_eq hb hq hcall
  · obtain ⟨blocks, hflat, hlength, hall⟩ := Interviewed.exists_blocks (hconversed.covers x hx)
    refine ⟨blocks, hflat, c.length_concolicInputs ▸ hlength, fun j i block hi hblock => ?_⟩
    obtain ⟨answer, hask⟩ := hall j i block hi hblock
    refine ⟨⟨answer, hask⟩, fun q hq path hpath => ?_⟩
    have hcontent := hask.contentPath?_eq q hq path hpath
    exact ⟨hcontent, c.isPathOf_or_taken hc.isBuilt hi hcontent⟩

/-! ### A file and the standard input -/

/-- A document that declares a file under this path and a standard input. -/
def besideDocument (path : String) : String :=
  "<c><exec><![CDATA[/t]]></exec><file path=\"" ++ path ++ "\" size=\"4\" concolic=\"true\"/>"
    ++ "<stdin size=\"2\" concolic=\"true\"/></c>"

/-- What it declares. -/
def besideConfiguration (path : String) : Configuration where
  executable := .ofString "/t"
  arguments := [.concrete 0 (Utf8.encode "/t") 0]
  files := [⟨path, 4⟩]
  standardInput := some 2

/-- What its inputs are bound to. -/
def besideBound (path : String) : BoundInputs where
  arguments := [.concrete (Utf8.encode "/t"), .concrete (Utf8.encode path)]
  files := [⟨path, ⟨path, 4⟩⟩]
  standardInput := some (.standardInput 2)

/-- A host on which a script is played that has handed out a state with four bytes under the path of
the standard input. -/
def besideHost : Host Path Nat Script :=
  { Host.new ⟨[], []⟩ "" with
    session := some { Script.new [] [] none with
      states := [⟨[], [(standardInputPath, 0, [1, 2, 3, 4])], []⟩] } }

/-- A file elsewhere does not get in the way of the standard input: the table that the engine is
handed has different paths. -/
theorem contents_addressed_by_path_sample :
    ((besideBound "/a").fileTable.map SimulatedFile.path).Nodup ∧
      ∃ opening interviews : List (Exchange Path Nat),
        ((harvest .singleFork (besideConfiguration "/a")).runOn
            scriptMachine besideHost).2.exchanges
          = besideHost.exchanges ++ (opening ++ interviews) ∧
        ∀ q ∈ opening, ∀ project arguments files,
          q.call = .entryState project arguments files → files = (besideBound "/a").fileTable := by
  have hloads : (Configuration.ofDocument (fun _ => true) (besideDocument "/a")).result
      = .ok (besideConfiguration "/a") := by decide +kernel
  have hb : (besideConfiguration "/a").bind.result = .ok (besideBound "/a") := by decide +kernel
  obtain ⟨hnodup, hrun⟩ := @contents_addressed_by_path Path Nat Script _ _ ⟨_, _, hloads⟩ hb
  obtain ⟨opening, interviews, hex, hfiles, -⟩ := hrun scriptMachine besideHost .singleFork
  refine ⟨hnodup.mpr ?_, opening, _, hex, hfiles⟩
  rintro ⟨-, f, hf, hpath⟩
  obtain rfl := List.mem_singleton.mp hf
  exact absurd hpath (by decide)

/-- A file that is declared under the path of the standard input is loaded and bound beside it.  The
table has the path twice, and asked for the standard input the engine answers with the content of
the file. -/
theorem file_answers_for_standardInput :
    ∃ (c : Configuration) (b : BoundInputs) (o : Outcome), c.IsLoaded ∧ c.bind.result = .ok b ∧
      b.fileTable.map SimulatedFile.path = ["/dev/stdin", "/dev/stdin"] ∧
      ¬ (b.fileTable.map SimulatedFile.path).Nodup ∧
      ((collect 0 c b).runOn scriptMachine besideHost).1 = .ok (.ok o) ∧
      o.values = [⟨.file, "stdin", 4, [1, 2, 3, 4]⟩,
        ⟨.standardInput, "crete-stdin", 2, [1, 2, 3, 4]⟩] := by
  have hloads : (Configuration.ofDocument (fun _ => true) (besideDocument "/dev/stdin")).result
      = .ok (besideConfiguration "/dev/stdin") := by decide +kernel
  exact ⟨besideConfiguration "/dev/stdin", besideBound "/dev/stdin", ⟨_⟩, ⟨_, _, hloads⟩,
    by decide +kernel, rfl, by decide +kernel, by decide +kernel, rfl⟩

end Concolic
