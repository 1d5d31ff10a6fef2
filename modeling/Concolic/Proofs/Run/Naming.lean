/-
# Values under their names

In a record every input has an element, in the order symbolic arguments, files, standard input,
but a file is recorded under the base name of its path, and base names are not kept apart: files
in different directories may share one, and it may be the name of an argument or that of the
standard input.  `Configuration.NamesApart` says that none of this happens; it is all that is
needed, since positions are taken once.

Looking up a name finds the first of the elements that have it (`TestCase.get?_of_first`).  So a
value is found under the name of its input if no earlier input has this name, which always
holds of arguments, as they stand in front.
-/
import Concolic.Proofs.Configuration.Store
import Concolic.Proofs.Run.Pipeline

namespace Concolic

/-! ## Names in a record -/

/-- The first element of a name is the one that is looked up. -/
lemma TestCase.get?_of_first {t : TestCase} {j : Nat} {e : Element}
    (he : t.elements[j]? = some e)
    (hfirst : ∀ k < j, ∀ e', t.elements[k]? = some e' → e'.name ≠ e.name) :
    t.get? e.name = some e.value := by
  obtain ⟨hj, rfl⟩ := List.getElem?_eq_some_iff.mp he
  have hfind : t.elements.find? (fun e' => e'.name = t.elements[j].name) = some t.elements[j] := by
    refine List.find?_eq_some_iff_getElem.mpr ⟨by simp, j, hj, rfl, fun k hk => ?_⟩
    simpa using hfirst k hk _ (List.getElem?_eq_getElem (Nat.lt_trans hk hj))
  rw [get?, hfind]
  rfl

namespace Configuration

/-- The names under which inputs are recorded are different. -/
structure NamesApart (c : Configuration) : Prop where
  /-- No two files have the same base name. -/
  files : (c.files.map InputFile.elementName).Nodup
  /-- No file has the name of an argument that is to be found. -/
  arguments : ∀ a ∈ c.symbolicArguments, ∀ f ∈ c.files, a.name ≠ f.elementName
  /-- If there is a standard input, no file has its name. -/
  standardInput : ∀ size ∈ c.standardInput, ∀ f ∈ c.files, f.elementName ≠ standardInputName

/-- No input in front of the one at `j` has the same name. -/
def IsFirstOfName (c : Configuration) (j : Nat) (name : String) : Prop :=
  ∀ k < j, ∀ i, c.concolicInputs[k]? = some i → i.elementName ≠ name

variable {c : Configuration}

lemma nameAt_ne_standardInputName (n : Nat) : Argument.nameAt n ≠ standardInputName := by
  intro h
  have htext : "argv_" ++ n.repr = "crete-stdin" := h
  have hhead := congrArg (fun s : String => s.toList.head?) htext
  simp at hhead

/-- Arguments are told apart by their positions. -/
lemma nodup_names_symbolicArguments (hc : c.IsBuilt) :
    (c.symbolicArguments.map Argument.name).Nodup := by
  have hindex : (c.arguments.map Argument.index).Nodup :=
    (List.pairwise_map.mpr hc.pairwise_index_lt).imp Nat.ne_of_lt
  have hname : c.arguments.map Argument.name
      = (c.arguments.map Argument.index).map Argument.nameAt := by
    rw [List.map_map]
    rfl
  have hall : (c.arguments.map Argument.name).Nodup :=
    hname ▸ hindex.map Argument.nameAt_injective
  exact hall.sublist (List.filter_sublist.map Argument.name)

lemma map_elementName_concolicInputs : c.concolicInputs.map Input.elementName
    = c.symbolicArguments.map Argument.name ++ (c.files.map InputFile.elementName
      ++ c.standardInput.toList.map fun _ => standardInputName) := by
  rw [concolicInputs, List.map_append, List.map_append, List.map_map, List.map_map, List.map_map,
    List.append_assoc]
  rfl

/-- Among the names of all inputs, only those of files can stand in for one another. -/
lemma nodup_elementNames_iff (hc : c.IsBuilt) :
    (c.concolicInputs.map Input.elementName).Nodup ↔ c.NamesApart := by
  rw [map_elementName_concolicInputs, List.nodup_append', List.nodup_append']
  constructor
  · rintro ⟨-, ⟨hfiles, -, hinput⟩, harguments⟩
    refine ⟨hfiles, fun a ha f hf heq => ?_, fun size hsize f hf heq => ?_⟩
    · exact harguments (List.mem_map_of_mem ha)
        (List.mem_append_left _ (heq ▸ List.mem_map_of_mem hf))
    · exact hinput (List.mem_map_of_mem hf)
        (List.mem_map.mpr ⟨size, Option.mem_toList.mpr hsize, heq.symm⟩)
  · rintro ⟨hfiles, harguments, hinput⟩
    refine ⟨nodup_names_symbolicArguments hc, ⟨hfiles, ?_, ?_⟩, ?_⟩
    · cases c.standardInput <;> simp
    · intro name hname hstd
      obtain ⟨f, hf, rfl⟩ := List.mem_map.mp hname
      obtain ⟨size, hsize, heq⟩ := List.mem_map.mp hstd
      exact hinput size (Option.mem_toList.mp hsize) f hf heq.symm
    · intro name hname hrest
      obtain ⟨a, ha, rfl⟩ := List.mem_map.mp hname
      rcases List.mem_append.mp hrest with hfile | hstd
      · obtain ⟨f, hf, heq⟩ := List.mem_map.mp hfile
        exact harguments a ha f hf heq.symm
      · obtain ⟨size, -, heq⟩ := List.mem_map.mp hstd
        exact nameAt_ne_standardInputName a.index heq.symm

variable {j : Nat} {i : Input}

/-- Among inputs in front that have different names, each is the first of its name. -/
lemma isFirstOfName_of_nodup {n : Nat}
    (h : ((c.concolicInputs.take n).map Input.elementName).Nodup) (hj : j < n)
    (hi : c.concolicInputs[j]? = some i) : c.IsFirstOfName j i.elementName := by
  have hname : ∀ (k : Nat) (i : Input), k < n → c.concolicInputs[k]? = some i →
      ((c.concolicInputs.take n).map Input.elementName)[k]? = some i.elementName := by
    intro k i hk hi
    rw [List.getElem?_map, List.getElem?_take_of_lt hk, hi]
    rfl
  have hlength : j < ((c.concolicInputs.take n).map Input.elementName).length :=
    (List.getElem?_eq_some_iff.mp (hname j i hj hi)).1
  intro k hk i' hi' heq
  refine List.nodup_iff_getElem?_ne_getElem?.mp h k j hk hlength ?_
  rw [hname j i hj hi, hname k i' (Nat.lt_trans hk hj) hi', heq]

lemma NamesApart.isFirstOfName (h : c.NamesApart) (hc : c.IsBuilt)
    (hi : c.concolicInputs[j]? = some i) : c.IsFirstOfName j i.elementName := by
  refine isFirstOfName_of_nodup (n := c.concolicInputs.length) ?_
    (List.getElem?_eq_some_iff.mp hi).1 hi
  rw [List.take_length]
  exact (nodup_elementNames_iff hc).mpr h

/-- Arguments stand in front, so nothing that has their name stands before them. -/
lemma isFirstOfName_of_argument (hc : c.IsBuilt) (hi : c.concolicInputs[j]? = some i)
    (hkind : i.kind = .argument) : c.IsFirstOfName j i.elementName := by
  have hlength : (c.symbolicArguments.map Input.argument).length = c.symbolicArguments.length :=
    List.length_map _
  have hfront : c.concolicInputs.take c.symbolicArguments.length
      = c.symbolicArguments.map .argument := by
    rw [concolicInputs, List.append_assoc, List.take_left' hlength]
  refine isFirstOfName_of_nodup (n := c.symbolicArguments.length) ?_ ?_ hi
  · rw [hfront, List.map_map]
    exact nodup_names_symbolicArguments hc
  · by_contra hj
    -- behind the arguments there are only files and the standard input
    rw [concolicInputs, List.append_assoc, List.getElem?_append_right (by omega)] at hi
    rcases List.mem_append.mp (List.mem_of_getElem? hi) with hfile | hstd
    · obtain ⟨f, -, rfl⟩ := List.mem_map.mp hfile
      cases hkind
    · obtain ⟨size, -, rfl⟩ := List.mem_map.mp hstd
      cases hkind

end Configuration

/-! ## What is found under a name -/

variable {P S σ : Type} {m : Machine P S σ} {h h' : Host P S σ} {c : Configuration}
  {b : BoundInputs} {state : S} {o : Outcome}

/-- An outcome that has been collected is made of the answers in an interview about all inputs. -/
lemma interviewed_of_collect (hb : c.bound = .ok b)
    (ran : (collect state c b).runOn m h = (.ok (.ok o), h')) :
    ∃ asked answers, h'.exchanges = h.exchanges ++ asked ∧
      Interviewed state c.concolicInputs asked (.ok answers) ∧
      o.values = List.zipWith FoundValue.ofInput c.concolicInputs answers := by
  obtain ⟨x, h₁, rfl, hcovers, hrun, hex⟩ := collect_runOn m h hb state
  rw [ran] at hrun
  obtain ⟨hout, rfl⟩ := Prod.mk.inj hrun
  have hout : x.outcome c.concolicInputs = .ok o := (Except.ok.inj hout).symm
  rw [Interview.outcome] at hout
  rcases hr : x.result with ⟨i, e⟩ | answers
  · rw [hr] at hout
    cases hout
  · rw [hr] at hout
    obtain rfl := Except.ok.inj hout
    exact ⟨x.exchanges, answers, hex, hr ▸ hcovers, rfl⟩

/-- The elements of a record that has been collected are those of the inputs, in their order: each
holds what is recorded for the answer to the question about its input. -/
lemma elements_of_collect (hb : c.bound = .ok b)
    (ran : (collect state c b).runOn m h = (.ok (.ok o), h')) :
    o.testCase.size = c.concolicCount ∧
      ∀ (j : Nat) (i : Input), c.concolicInputs[j]? = some i →
        ∃ block answer, block <:+: h'.exchanges ∧ Asked state i.question block (.ok answer) ∧
          o.testCase.elements[j]?
            = some ⟨i.elementName, (FoundValue.ofInput i answer).recorded⟩ := by
  obtain ⟨asked, answers, hex, hasked, hvalues⟩ := interviewed_of_collect hb ran
  obtain ⟨blocks, rfl, -, hlength, hall⟩ := hasked.blocks
  refine ⟨?_, fun j i hi => ?_⟩
  · rw [TestCase.size, Outcome.testCase, List.length_map, hvalues, List.length_zipWith, hlength,
      Nat.min_self, c.length_concolicInputs]
  obtain ⟨block, answer, hblock, hanswer, hask⟩ := hall j i hi
  refine ⟨block, answer, ?_, hask, ?_⟩
  · rw [hex]
    exact (List.infix_of_mem_flatten (List.mem_of_getElem? hblock)).trans
      (List.suffix_append _ _).isInfix
  · rw [Outcome.testCase, List.getElem?_map, hvalues, List.getElem?_zipWith, hi, hanswer]
    rfl

/-- **Values are found under their names, as long as the names of files do not get in the way.**
The elements of a record have the names of the inputs, in their order, and these names are
different exactly if the base names of files differ from one another and from the other names.
Each element holds the answer to the question about its own input, and this value is found under
the name of the input in what the record is decoded to: whenever all names are different, in
any case if the input is an argument, and otherwise if no earlier input has the same name. -/
theorem collect_recorded_by_name (hc : c.IsLoaded) (hb : c.bind.result = .ok b)
    (ran : (collect state c b).runOn m h = (.ok (.ok o), h')) :
    o.testCase.elements.map Element.name = c.concolicInputs.map Input.elementName ∧
      ((o.testCase.elements.map Element.name).Nodup ↔ c.NamesApart) ∧
      ∀ (j : Nat) (i : Input), c.concolicInputs[j]? = some i →
        ∃ block answer, block <:+: h'.exchanges ∧ Asked state i.question block (.ok answer) ∧
          i.RecordedAs answer ⟨i.elementName, (FoundValue.ofInput i answer).recorded⟩ ∧
          o.testCase.elements[j]?
            = some ⟨i.elementName, (FoundValue.ofInput i answer).recorded⟩ ∧
          ((c.NamesApart ∨ i.kind = .argument ∨ c.IsFirstOfName j i.elementName) →
            ∀ bytes, o.testCase.encode = .ok bytes → ∃ t, TestCase.decode bytes = .ok t ∧
              t.get? i.elementName = some (FoundValue.ofInput i answer).recorded) := by
  rw [Configuration.bind_result] at hb
  obtain ⟨hsize, hall⟩ := elements_of_collect hb ran
  have hnames : o.testCase.elements.map Element.name = c.concolicInputs.map Input.elementName := by
    apply List.ext_getElem?
    intro j
    rw [List.getElem?_map, List.getElem?_map]
    rcases hi : c.concolicInputs[j]? with _ | i
    · have hj : o.testCase.elements.length ≤ j := by
        rw [← TestCase.size, hsize, ← c.length_concolicInputs]
        exact List.getElem?_eq_none_iff.mp hi
      rw [List.getElem?_eq_none hj]
      rfl
    · obtain ⟨block, answer, -, -, helement⟩ := hall j i hi
      rw [helement]
      rfl
  refine ⟨hnames, hnames ▸ c.nodup_elementNames_iff hc.isBuilt, fun j i hi => ?_⟩
  obtain ⟨block, answer, hblock, hask, helement⟩ := hall j i hi
  refine ⟨block, answer, hblock, hask, i.recordedAs_ofInput answer, helement,
    fun happly bytes hbytes => ?_⟩
  -- in each of the three cases the element is the first one of its name
  have hfirst : c.IsFirstOfName j i.elementName := by
    rcases happly with hapart | hkind | hfirst
    · exact hapart.isFirstOfName hc.isBuilt hi
    · exact Configuration.isFirstOfName_of_argument hc.isBuilt hi hkind
    · exact hfirst
  refine ⟨o.testCase, TestCase.decode_eq_ok_iff.mpr (TestCase.encode_eq_ok_iff.mp hbytes),
    TestCase.get?_of_first helement fun k hk e he => ?_⟩
  have hname : (c.concolicInputs.map Input.elementName)[k]? = some e.name := by
    rw [← hnames, List.getElem?_map, he]
    rfl
  rw [List.getElem?_map, Option.map_eq_some_iff] at hname
  obtain ⟨i', hi', heq⟩ := hname
  exact heq ▸ hfirst k hk i' hi'

/-! ### Two files with one base name -/

/-- A document that declares an argument and two files in different directories. -/
def namesakeDocument : String :=
  "<c><exec><![CDATA[/bin/tool]]></exec><arg index=\"1\" size=\"1\" concolic=\"true\"/><files>"
    ++ "<file path=\"/a/x\" size=\"1\" concolic=\"true\"/>"
    ++ "<file path=\"/b/x\" size=\"1\" concolic=\"true\"/></files></c>"

/-- What it declares. -/
def namesakeConfiguration : Configuration where
  executable := .ofString "/bin/tool"
  arguments := [.concrete 0 (Utf8.encode "/bin/tool") 0, .symbolic 1 1 []]
  files := [⟨"/a/x", 1⟩, ⟨"/b/x", 1⟩]
  standardInput := none

/-- What its inputs are bound to. -/
def namesakeBound : BoundInputs where
  arguments := [.concrete (Utf8.encode "/bin/tool"), .symbolic ⟨"argv_1", 1⟩,
    .concrete (Utf8.encode "/a/x"), .concrete (Utf8.encode "/b/x")]
  files := [⟨"/a/x", ⟨"/a/x", 1⟩⟩, ⟨"/b/x", ⟨"/b/x", 1⟩⟩]
  standardInput := none

/-- A host on which a script is played that has handed out a state with both files open. -/
def namesakeHost : Host Path Nat Script :=
  { Host.new ⟨[], []⟩ "" with
    session := some { Script.new [] [] none with
      states := [⟨[("argv_1", [65])], [("/a/x", 3, [1]), ("/b/x", 4, [2])], []⟩] } }

/-- What is collected about this state. -/
def namesakeOutcome : Outcome :=
  ⟨[⟨.argument, "argv_1", 1, [65]⟩, ⟨.file, "x", 1, [1]⟩, ⟨.file, "x", 1, [2]⟩]⟩

lemma namesakeDocument_loads :
    (Configuration.ofDocument (fun _ => true) namesakeDocument).result
      = .ok namesakeConfiguration := by
  decide +kernel

lemma namesakeOutcome_collected :
    ((collect 0 namesakeConfiguration namesakeBound).runOn scriptMachine namesakeHost).1
      = .ok (.ok namesakeOutcome) := by
  decide +kernel

/-- The value of the argument is found, whatever the files are called. -/
theorem collect_recorded_by_name_sample :
    namesakeConfiguration.bind.result = .ok namesakeBound ∧ ¬ namesakeConfiguration.NamesApart ∧
      ∃ bytes t, namesakeOutcome.testCase.encode = .ok bytes ∧ TestCase.decode bytes = .ok t ∧
        ∃ value, t.get? "argv_1" = some value := by
  have hb : namesakeConfiguration.bind.result = .ok namesakeBound := by decide +kernel
  obtain ⟨hnames, hapart, hfound⟩ := collect_recorded_by_name (m := scriptMachine)
    (h := namesakeHost) ⟨_, _, namesakeDocument_loads⟩ hb (Prod.ext namesakeOutcome_collected rfl)
  have hencode : namesakeOutcome.testCase.encode = .ok namesakeOutcome.testCase.bytes := by
    decide +kernel
  obtain ⟨block, answer, -, -, -, -, hget⟩ := hfound 0 (.argument (.symbolic 1 1 [])) rfl
  obtain ⟨t, hdecode, hvalue⟩ := hget (.inr (.inl rfl)) _ hencode
  exact ⟨hb, fun h => absurd (hapart.mpr h) (by decide), _, t, hencode, hdecode, _, hvalue⟩

/-- Names in a record may be the same: the value of the second file is not found under its name,
but that of the first one is. -/
theorem elementNames_not_apart :
    ∃ (c : Configuration) (b : BoundInputs) (o : Outcome) (bytes : Bytes) (t : TestCase),
      c.IsLoaded ∧ c.bind.result = .ok b ∧
        ((collect 0 c b).runOn scriptMachine namesakeHost).1 = .ok (.ok o) ∧
        o.testCase.encode = .ok bytes ∧ TestCase.decode bytes = .ok t ∧
        ¬ (t.elements.map Element.name).Nodup ∧
        c.concolicInputs[2]? = some (.file ⟨"/b/x", 1⟩) ∧
        t.elements[2]? = some ⟨(Input.file ⟨"/b/x", 1⟩).elementName, [2]⟩ ∧
        t.get? (Input.file ⟨"/b/x", 1⟩).elementName = some [1] := by
  refine ⟨namesakeConfiguration, namesakeBound, namesakeOutcome, namesakeOutcome.testCase.bytes,
    namesakeOutcome.testCase, ⟨_, _, namesakeDocument_loads⟩, by decide +kernel,
    namesakeOutcome_collected, by decide +kernel, by decide +kernel, by decide +kernel, rfl,
    by decide +kernel, by decide +kernel⟩

end Concolic
