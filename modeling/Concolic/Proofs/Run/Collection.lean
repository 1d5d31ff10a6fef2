/-
# Outcomes answer declarations

What is collected about a state has one value for every input to be found, in the order of the
declarations: symbolic arguments, files, standard input.  Each value is the answer to the
question about that very input, and carries its kind, its name and its width.
-/
import Concolic.Engine.Scripted
import Concolic.Proofs.Configuration.Construction
import Concolic.Proofs.Run.Interview

namespace Concolic

variable {P S σ : Type}

/-- **No declared input is lost, repeated or mixed up with another.**  Declarations and bindings
are paired without a rest, and in the outcome of a state the value at a place is the answer to
the question about the input at that place.  The exchanges are cut into one block for every
input, in the order of the inputs. -/
theorem collect_answers_declarations {m : Machine P S σ} {h h' : Host P S σ} {c : Configuration}
    {b : BoundInputs} {state : S} {o : Outcome} (hb : c.bind.result = .ok b)
    (ran : (collect state c b).runOn m h = (.ok (.ok o), h')) :
    (b.unknownArguments.length = c.symbolicArguments.length ∧ b.files.length = c.files.length ∧
        b.standardInput.isSome = c.standardInput.isSome) ∧
      o.values.length = c.concolicCount ∧
      ∃ blocks : List (List (Exchange P S)),
        blocks.length = c.concolicCount ∧ h'.exchanges = h.exchanges ++ blocks.flatten ∧
        ∀ (j : Nat) (i : Input), c.concolicInputs[j]? = some i →
          ∃ block v, blocks[j]? = some block ∧ o.values[j]? = some v ∧
            Asked state i.question block (.ok v.value) ∧
            v.kind = i.kind ∧ v.elementName = i.elementName ∧ v.declaredSize = i.size := by
  rw [Configuration.bind_result] at hb
  obtain ⟨x, h₁, rfl, hx, hrun, hex⟩ := collect_runOn m h hb state
  rw [ran] at hrun
  obtain ⟨hout, rfl⟩ := Prod.mk.inj hrun
  rcases hr : x.result with ⟨i, e⟩ | answers
  · exact absurd (Except.ok.inj hout) (by simp [Interview.outcome, hr])
  rw [Interview.Covers, hr] at hx
  obtain ⟨blocks, hflat, hblocks, hanswers, hall⟩ := hx.blocks
  have hvalues : o.values = List.zipWith FoundValue.ofInput c.concolicInputs answers := by
    have ho := Except.ok.inj hout
    rw [Interview.outcome, hr] at ho
    rw [Except.ok.inj ho]
  have hpairs : b.unknownArguments.length = c.symbolicArguments.length ∧
      b.files.length = c.files.length ∧ b.standardInput.isSome = c.standardInput.isSome := by
    obtain ⟨-, hfiles, hstd⟩ := Configuration.eq_of_bound_eq_ok hb
    rw [Configuration.unknownArguments_of_bound hb, hfiles, hstd]
    simp
  refine ⟨hpairs, ?_, blocks, by rw [hblocks, c.length_concolicInputs], by rw [hex, hflat], ?_⟩
  · rw [hvalues, List.length_zipWith, hanswers, Nat.min_self, c.length_concolicInputs]
  · intro j i hi
    obtain ⟨block, v, hblock, hv, hask⟩ := hall j i hi
    refine ⟨block, .ofInput i v, hblock, ?_, hask, rfl, rfl, rfl⟩
    rw [hvalues, List.getElem?_zipWith, hi, hv]

/-! ### A program with one input of each kind -/

/-- A program that reads an argument, a file and its standard input. -/
def sampleConfiguration : Configuration :=
  .build (.ofString "/bin/tool")
    [.argument (.argument (.symbolic 1 4 [])), .file (.file ⟨"/in/data.txt", 3⟩),
      .standardInput (.standardInput 2)]

/-- What its inputs are bound to. -/
def sampleBound : BoundInputs where
  arguments := [.concrete (Utf8.encode "/bin/tool"), .symbolic ⟨"argv_1", 4⟩,
    .concrete (Utf8.encode "/in/data.txt")]
  files := [⟨"/in/data.txt", ⟨"/in/data.txt", 3⟩⟩]
  standardInput := some ⟨"/dev/stdin", ⟨"crete-stdin", 2⟩⟩

/-- A state in which the file is open and the standard input is not. -/
def sampleState : ScriptedState where
  solutions := [("argv_1", [1, 2, 3, 4, 5])]
  descriptors := [("/in/data.txt", 5, [10, 11, 12, 13])]
  files := [("/dev/stdin", [7])]

/-- A machine whose engines play scripts. -/
def scriptMachine : Machine Path Nat Script where
  launch _ _ := (.error (.engine .closed), [])
  engine := scriptedEngine
  close s := (s, [])

/-- A host on which a script is played that has handed out the state above. -/
def sampleHost : Host Path Nat Script :=
  { Host.new ⟨[], []⟩ "" with
    session := some { Script.new [] [] none with states := [sampleState] } }

/-- The value of the file is the content behind its descriptor, and the value of the standard
input is the content at its path. -/
theorem collect_answers_declarations_sample :
    ((collect 0 sampleConfiguration sampleBound).runOn scriptMachine sampleHost).1
        = .ok (.ok ⟨[⟨.argument, "argv_1", 4, [1, 2, 3, 4, 5]⟩,
          ⟨.file, "data.txt", 3, [10, 11, 12, 13]⟩, ⟨.standardInput, "crete-stdin", 2, [7]⟩]⟩) ∧
      sampleConfiguration.concolicCount = 3 ∧
      ∃ blocks : List (List (Exchange Path Nat)), blocks.length = sampleConfiguration.concolicCount
        ∧ ((collect 0 sampleConfiguration sampleBound).runOn scriptMachine sampleHost).2.exchanges
          = blocks.flatten := by
  have hb : sampleConfiguration.bind.result = .ok sampleBound := by decide +kernel
  have ran : ((collect 0 sampleConfiguration sampleBound).runOn scriptMachine sampleHost).1
      = .ok (.ok ⟨[⟨.argument, "argv_1", 4, [1, 2, 3, 4, 5]⟩,
        ⟨.file, "data.txt", 3, [10, 11, 12, 13]⟩, ⟨.standardInput, "crete-stdin", 2, [7]⟩]⟩) := by
    decide +kernel
  obtain ⟨-, hlen, blocks, hblocks, hex, -⟩ :=
    collect_answers_declarations (m := scriptMachine) (h := sampleHost) hb (Prod.ext ran rfl)
  exact ⟨ran, hlen.symm, blocks, hblocks, hex⟩

end Concolic
