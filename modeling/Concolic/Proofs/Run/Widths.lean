/-
# Widths in records

A record can hold lengths up to a limit, and refuses what is longer.  The loader admits files and a
standard input only with widths from one byte up to this limit, and what is recorded for them is cut
or filled to these widths, whatever the engine answers.  So only three things could be too long: the
bytes that are found for an argument, the base name of a file, and the number of inputs.

* The widths of loaded configurations (`Configuration.IsLoaded.width_of_content`).
* The lengths in a test case that has been collected (`fits_of_collect`).
-/
import Concolic.Proofs.Configuration.Loading
import Concolic.Proofs.Record.Interruption
import Concolic.Proofs.Run.Naming
import Mathlib.Data.Nat.Digits.Defs

namespace Concolic

/-! ## Declared widths -/

namespace Configuration

variable {c : Configuration}

/-- Files and the standard input are at least one byte wide and no wider than a record can hold. -/
lemma IsLoaded.width_of_content (hc : c.IsLoaded) {i : Input} (hi : i ∈ c.concolicInputs)
    (hkind : i.kind ≠ .argument) : 1 ≤ i.size ∧ i.size ≤ Record.limit := by
  obtain ⟨isFile, root, program, arguments, files, standardInput, hdeclared, hconf⟩ := hc.declared
  rcases List.mem_append.mp hi with hi | hi
  · rcases List.mem_append.mp hi with hi | hi
    · obtain ⟨a, -, rfl⟩ := List.mem_map.mp hi
      exact absurd rfl hkind
    · obtain ⟨f, hf, rfl⟩ := List.mem_map.mp hi
      rw [hconf.files] at hf
      obtain ⟨n, hn⟩ := hdeclared.fileElements.exists_declares f hf
      exact ⟨hn.wide, hn.narrow⟩
  · obtain ⟨size, hsize, rfl⟩ := List.mem_map.mp hi
    rw [Option.mem_toList, hconf.standardInput] at hsize
    obtain ⟨_, -, ⟨-, rfl⟩ | ⟨n, width, -, hn, rfl⟩⟩ := hdeclared.standardInputElement
    · exact nomatch hsize
    · -- a standard input of width zero is none
      by_cases hzero : width = 0
      · rw [if_pos hzero] at hsize
        exact nomatch hsize
      · rw [if_neg hzero] at hsize
        obtain rfl := Option.some.inj hsize
        exact ⟨Nat.one_le_iff_ne_zero.mpr hzero, hn.narrow⟩

/-- Positions are numbers of 64 bits. -/
lemma IsLoaded.index_lt (hc : c.IsLoaded) {a : Argument} (ha : a ∈ c.arguments) :
    a.index < Numeral.wordLimit := by
  obtain ⟨isFile, root, program, arguments, files, standardInput, hdeclared, hconf⟩ := hc.declared
  obtain ⟨others, hothers, hperm, -⟩ := hconf.arguments
  rw [hothers] at ha
  rcases List.mem_cons.mp ha with rfl | ha
  · exact Nat.zero_lt_succ _
  · obtain ⟨n, hn⟩ := hdeclared.argumentElements.exists_declares a (hperm.mem_iff.mp ha)
    exact hn.counts.lt_wordLimit

end Configuration

/-! ## Recorded lengths -/

/-- The name of an argument is short. -/
lemma Argument.length_encode_nameAt {index : Nat} (hindex : index < Numeral.wordLimit) :
    (Utf8.encode (nameAt index)).length ≤ Record.limit := by
  have hdigits : (Nat.repr index).length ≤ 20 :=
    Nat.repr_length index 20 (by decide) (Nat.lt_trans hindex (by decide))
  have hname : (nameAt index).length ≤ 25 := by
    show ("argv_" ++ index.repr).length ≤ 25
    rw [String.length_append]
    exact Nat.add_le_add_left hdigits 5
  have hbytes : (Utf8.encode (nameAt index)).length ≤ 100 :=
    Nat.le_trans (Utf8.length_encode_le _) (Nat.mul_le_mul_left 4 hname)
  exact Nat.le_trans hbytes (by decide)

variable {P S σ : Type} {m : Machine P S σ} {h h' : Host P S σ} {c : Configuration}
  {b : BoundInputs} {state : S} {o : Outcome}

/-- No medium refuses a test case that fits for its lengths. -/
lemma TestCase.Fits.writeTo_ne_overflow {t : TestCase} (ht : t.Fits) (medium : Medium)
    (field : Record.Field) (length : Nat) :
    (t.writeTo medium).1 ≠ .error (.overflow field length) := by
  rw [writeTo_eq_carryOut ht]
  rcases (medium.carryOut (t.strokes medium.position)).1 with fault | _
  · exact fun h => nomatch h
  · exact fun h => nomatch h

/-- Everything in a test case that has been collected fits into a record if the answers for
arguments, the base names of files and the number of inputs do. -/
lemma fits_of_collect (hc : c.IsLoaded) (hb : c.bound = .ok b)
    (ran : (collect state c b).runOn m h = (.ok (.ok o), h'))
    (solved : ∀ (s : S) (unknown : Unknown) (bytes : Bytes),
      (⟨.solve s unknown, .ok bytes⟩ : Exchange P S) ∈ h'.exchanges →
        bytes.length ≤ Record.limit)
    (named : ∀ f ∈ c.files, (Utf8.encode f.elementName).length ≤ Record.limit)
    (few : c.concolicCount ≤ Record.limit) : o.testCase.Fits := by
  obtain ⟨hsize, hall⟩ := elements_of_collect hb ran
  refine ⟨hsize ▸ few, fun e he => ?_⟩
  obtain ⟨j, hj⟩ := List.getElem?_of_mem he
  have hlt : j < c.concolicInputs.length := by
    rw [c.length_concolicInputs, ← hsize]
    exact (List.getElem?_eq_some_iff.mp hj).1
  obtain ⟨i, hi⟩ : ∃ i, c.concolicInputs[j]? = some i := ⟨_, List.getElem?_eq_getElem hlt⟩
  have hmem : i ∈ c.concolicInputs := List.mem_of_getElem? hi
  obtain ⟨block, answer, hblock, hask, helement⟩ := hall j i hi
  obtain rfl : e = ⟨i.elementName, (FoundValue.ofInput i answer).recorded⟩ :=
    Option.some.inj (hj.symm.trans helement)
  cases i with
  | argument a =>
    -- the value of an argument is recorded as it is found
    have hmem : a ∈ c.symbolicArguments := by simpa [Configuration.concolicInputs] using hmem
    have hargument : a ∈ c.arguments := List.mem_of_mem_filter hmem
    refine ⟨Argument.length_encode_nameAt (hc.index_lt hargument), ?_⟩
    cases hask with
    | solved unknown answer =>
      exact solved state _ answer (hblock.mem (List.mem_singleton_self _))
  | file f =>
    have hfile : f ∈ c.files := by simpa [Configuration.concolicInputs] using hmem
    refine ⟨named f hfile, ?_⟩
    show (answer.toWidth f.size).length ≤ Record.limit
    rw [Bytes.length_toWidth]
    exact (hc.width_of_content hmem (by simp [Input.kind])).2
  | standardInput size =>
    have hname : (Utf8.encode standardInputName).length ≤ Record.limit := by decide +kernel
    refine ⟨hname, ?_⟩
    show (answer.toWidth size).length ≤ Record.limit
    rw [Bytes.length_toWidth]
    exact (hc.width_of_content hmem (by simp [Input.kind])).2

/-- **What is collected for a loaded configuration can be recorded.**  Let the answers that are
found for arguments be no longer than a record can hold, and so the base names of files (a path
without one is a name itself) and the number of inputs.  Then no medium refuses the test case of an
outcome for one of its lengths, and in memory it is always recorded, however long the contents are
that the engine gives.  The value of a file or of the standard input has the declared width in the
record, which is at least one byte and at most the limit. -/
theorem collected_is_recorded (hc : c.IsLoaded) (hb : c.bind.result = .ok b)
    (ran : (collect state c b).runOn m h = (.ok (.ok o), h'))
    (solved : ∀ (s : S) (unknown : Unknown) (bytes : Bytes),
      (⟨.solve s unknown, .ok bytes⟩ : Exchange P S) ∈ h'.exchanges →
        bytes.length ≤ Record.limit)
    (named : ∀ f ∈ c.files, (Utf8.encode f.elementName).length ≤ Record.limit)
    (few : c.concolicCount ≤ Record.limit) :
    (∀ (medium : Medium) (field : Record.Field) (length : Nat),
      (o.testCase.writeTo medium).1 ≠ .error (.overflow field length)) ∧
    (∃ bytes, o.testCase.encode = .ok bytes) ∧
    ∀ (j : Nat) (i : Input), c.concolicInputs[j]? = some i → i.kind ≠ .argument →
      1 ≤ i.size ∧ i.size ≤ Record.limit ∧
        ∃ value, o.testCase.elements[j]? = some ⟨i.elementName, value⟩ ∧
          value.length = i.size := by
  rw [Configuration.bind_result] at hb
  have hfits : o.testCase.Fits := fits_of_collect hc hb ran solved named few
  refine ⟨hfits.writeTo_ne_overflow, ⟨_, TestCase.encode_eq_ok_iff.mpr ⟨hfits, rfl⟩⟩,
    fun j i hi hkind => ?_⟩
  obtain ⟨hwide, hnarrow⟩ := hc.width_of_content (List.mem_of_getElem? hi) hkind
  obtain ⟨block, answer, -, -, helement⟩ := (elements_of_collect hb ran).2 j i hi
  refine ⟨hwide, hnarrow, _, helement, ?_⟩
  cases i with
  | argument a => exact absurd rfl hkind
  | file f => exact Bytes.length_toWidth answer f.size
  | standardInput size => exact Bytes.length_toWidth answer size

/-! ### A file of the greatest width -/

/-- A document that declares an argument and a file of this width. -/
def wideDocument (width : String) : String :=
  "<c><exec><![CDATA[/t]]></exec><arg index=\"1\" size=\"1\" concolic=\"true\"/>"
    ++ "<file path=\"/a\" size=\"" ++ width ++ "\" concolic=\"true\"/></c>"

/-- What it declares if the width is the limit. -/
def wideConfiguration : Configuration where
  executable := .ofString "/t"
  arguments := [.concrete 0 (Utf8.encode "/t") 0, .symbolic 1 1 []]
  files := [⟨"/a", Record.limit⟩]
  standardInput := none

/-- What its inputs are bound to. -/
def wideBound : BoundInputs where
  arguments := [.concrete (Utf8.encode "/t"), .symbolic ⟨"argv_1", 1⟩,
    .concrete (Utf8.encode "/a")]
  files := [⟨"/a", ⟨"/a", Record.limit⟩⟩]
  standardInput := none

/-- A host on which a script is played that has handed out a state with two bytes in the file. -/
def wideHost : Host Path Nat Script :=
  { Host.new ⟨[], []⟩ "" with
    session := some { Script.new [] [] none with
      states := [⟨[("argv_1", [65])], [("/a", 3, [1, 2])], []⟩] } }

/-- What is collected about this state. -/
def wideOutcome : Outcome :=
  ⟨[⟨.argument, "argv_1", 1, [65]⟩, ⟨.file, "a", Record.limit, [1, 2]⟩]⟩

/-- The two bytes are filled to the greatest width that there is, and recorded. -/
theorem collected_is_recorded_sample :
    (Configuration.ofDocument (fun _ => true) (wideDocument "2147483647")).result
        = .ok wideConfiguration ∧
      ((collect 0 wideConfiguration wideBound).runOn scriptMachine wideHost).1
        = .ok (.ok wideOutcome) ∧
      (∃ bytes, wideOutcome.testCase.encode = .ok bytes) ∧
      ∃ value, wideOutcome.testCase.elements[1]? = some ⟨"a", value⟩ ∧
        value.length = 2147483647 := by
  have hloads : (Configuration.ofDocument (fun _ => true) (wideDocument "2147483647")).result
      = .ok wideConfiguration := by decide +kernel
  have hb : wideConfiguration.bind.result = .ok wideBound := by decide +kernel
  have hcollected : ((collect 0 wideConfiguration wideBound).runOn scriptMachine wideHost).1
      = .ok (.ok wideOutcome) := by decide +kernel
  have hexchanges :
      ((collect 0 wideConfiguration wideBound).runOn scriptMachine wideHost).2.exchanges
        = [⟨.solve 0 ⟨"argv_1", 1⟩, .ok [65]⟩, ⟨.lookupDescriptor 0 "/a", .ok (some 3)⟩,
          ⟨.dumpDescriptor 0 3, .ok [1, 2]⟩] := by rfl
  have hsolved : ∀ (s : Nat) (unknown : Unknown) (bytes : Bytes),
      (⟨.solve s unknown, .ok bytes⟩ : Exchange Path Nat) ∈
        ((collect 0 wideConfiguration wideBound).runOn scriptMachine wideHost).2.exchanges →
      bytes.length ≤ Record.limit := by
    intro s unknown bytes hmem
    rw [hexchanges] at hmem
    simp only [List.mem_cons, List.not_mem_nil, or_false, Exchange.mk.injEq, reduceCtorEq,
      false_and] at hmem
    obtain ⟨hcall, hanswer⟩ := hmem
    cases hcall
    obtain rfl := Except.ok.inj (eq_of_heq hanswer)
    decide
  have hnamed : ∀ f ∈ wideConfiguration.files,
      (Utf8.encode f.elementName).length ≤ Record.limit := by
    intro f hf
    obtain rfl := List.mem_singleton.mp hf
    decide +kernel
  obtain ⟨-, hencodes, hwidths⟩ := collected_is_recorded ⟨_, _, hloads⟩ hb
    (Prod.ext hcollected rfl) hsolved hnamed (by decide)
  obtain ⟨-, -, value, helement, hlength⟩ := hwidths 1 (.file ⟨"/a", Record.limit⟩) rfl nofun
  exact ⟨hloads, hcollected, hencodes, value, helement, hlength⟩

/-- A file that is one byte wider is not loaded. -/
example : (Configuration.ofDocument (fun _ => true) (wideDocument "2147483648")).result
    = .error (.invalid (.tooWide "/a" 2147483648)) := by
  decide +kernel

end Concolic
