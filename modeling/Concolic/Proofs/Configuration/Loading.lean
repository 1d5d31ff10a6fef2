/-
# Documents and the configurations they declare

A document tree declares a configuration if its elements do: its first `exec` names a program
that is there, every `arg` declares an argument and every `file` a file, no position and no path
is declared twice, and a single `stdin` may declare the standard input.  `Declared` says so for
given inputs, and `Configures` says what a configuration makes of them.  Which elements there are
and in which order is said by their places in the document (`Xml.Node.HasElements`).

Loading a document and declaring are the same: a document is accepted exactly if its tree
declares inputs, and what is built is the configuration with these inputs.
-/
import Concolic.Proofs.Configuration.Construction
import Concolic.Proofs.Configuration.Grammar
import Concolic.Proofs.Text.Utf8
import Concolic.Proofs.Xml.Elements

namespace Concolic.Configuration

open Xml (Node)

/-! ## Declarations of a document -/

/-- The first element that is to name the program begins with its name, blanks aside. -/
def NamesProgram (root : Node) (program : String) : Prop :=
  ∃ attributes text content others,
    root.HasElements "exec" (.element "exec" attributes (.text text :: content) :: others) ∧
      Text.IsTrimmed text program

/-- The elements of the name declare these values, each element one, in document order. -/
def AllDeclare {β : Type} (root : Node) (tag : String) (R : Node → β → Prop) (values : List β) :
    Prop :=
  ∃ elements, root.HasElements tag elements ∧ List.Forall₂ R elements values

/-- There is one element for the standard input at most, and one without a width declares none. -/
def DeclareAtMostOne (elements : List Node) (standardInput : Option Nat) : Prop :=
  elements = [] ∧ standardInput = none ∨
    ∃ n size, elements = [n] ∧ DeclaresStandardInput n size ∧
      standardInput = if size = 0 then none else some size

/-- The elements of the tree declare these inputs of this program. -/
structure Declared (isFile : Path → Bool) (root : Node) (program : String)
    (arguments : List Argument) (files : List InputFile) (standardInput : Option Nat) : Prop where
  named : NamesProgram root program
  given : program ≠ ""
  /-- The program is a regular file. -/
  found : isFile (.ofString program) = true
  argumentElements : AllDeclare root "arg" DeclaresArgument arguments
  /-- No position is declared twice. -/
  positions : (arguments.map Argument.index).Nodup
  fileElements : AllDeclare root "file" DeclaresFile files
  /-- No path is declared twice. -/
  paths : (files.map InputFile.path).Nodup
  standardInputElement : ∃ elements, root.HasElements "stdin" elements ∧
    DeclareAtMostOne elements standardInput

/-- The first argument of a program, its own path, which is known. -/
def programArgument (program : String) : Argument :=
  ⟨0, (Utf8.encode program).length, some (Utf8.encode program)⟩

/-- The configuration of this program has these inputs: its own path as the first argument and
the others behind it by their positions, and the files as they are declared. -/
structure Configures (c : Configuration) (program : String) (arguments : List Argument)
    (files : List InputFile) (standardInput : Option Nat) : Prop where
  executable : c.executable = .ofString program
  arguments : ∃ others : List Argument,
    c.arguments = programArgument program :: others ∧
      others.Perm arguments ∧ others.Pairwise (·.index < ·.index)
  files : c.files = files
  standardInput : c.standardInput = standardInput

variable {isFile : Path → Bool} {root root' n n' : Node} {c c' : Configuration}

lemma allDeclare_iff {β : Type} {tag : String} {R : Node → β → Prop} {values : List β} :
    AllDeclare root tag R values ↔ List.Forall₂ R (root.elements tag) values := by
  simp [AllDeclare, Node.hasElements_iff]

/-- What is declared is declared by an element. -/
lemma AllDeclare.exists_declares {β : Type} {tag : String} {R : Node → β → Prop} {values : List β}
    (h : AllDeclare root tag R values) : ∀ b ∈ values, ∃ n, R n b := by
  obtain ⟨elements, -, h⟩ := h
  induction h with
  | nil => exact nofun
  | @cons n b _ _ hb _ ih => exact List.forall_mem_cons.mpr ⟨⟨n, hb⟩, ih⟩

/-! ## The program -/

lemma namesProgram_iff {program : String} : NamesProgram root program ↔
    ∃ exec others text, root.elements "exec" = exec :: others ∧
      exec.leadingText? = some text ∧ Text.trim text = program := by
  constructor
  · rintro ⟨attributes, text, content, others, h, htrim⟩
    exact ⟨_, others, text, (Node.hasElements_iff.mp h).symm, rfl, htrim.trim_eq⟩
  · rintro ⟨exec, others, text, hexec, htext, htrim⟩
    have h := Node.hasElements_iff.mpr hexec.symm
    obtain ⟨_, attributes, content, rfl⟩ := Node.leadingText?_eq_some_iff.mp htext
    obtain ⟨_, _, heq⟩ := h.exists_eq _ List.mem_cons_self
    obtain ⟨rfl, -, -⟩ := Node.element.inj heq
    exact ⟨attributes, text, content, others, h, Text.trim_eq_iff.mp htrim⟩

/-- The text with which the first of the elements begins, which is to name the program. -/
def programText? (elements : List Node) : Option String :=
  elements.head?.map fun exec => exec.leadingText?.getD ""

lemma executableOf_congr
    (h : programText? (root.elements "exec") = programText? (root'.elements "exec")) :
    executableOf root = executableOf root' := by
  rw [executableOf, executableOf]
  revert h
  rcases root.elements "exec" with _ | ⟨exec, others⟩
  · rcases root'.elements "exec" with _ | ⟨exec', others'⟩
    · exact fun _ => rfl
    · exact fun h => absurd h (by simp [programText?])
  · rcases root'.elements "exec" with _ | ⟨exec', others'⟩
    · exact fun h => absurd h (by simp [programText?])
    · intro h
      have htext : exec.leadingText?.getD "" = exec'.leadingText?.getD "" := Option.some.inj h
      simp only [htext]

lemma executableOf_eq_ok_iff {executable : Path} : executableOf root = .ok executable ↔
    ∃ program, NamesProgram root program ∧ program ≠ "" ∧ executable = .ofString program := by
  simp only [namesProgram_iff]
  unfold executableOf
  split
  · rename_i hnone
    simp [hnone]
  · rename_i exec others hexec
    -- an element that does not begin with a text counts as one with a blank text
    rcases htext : exec.leadingText? with _ | text
    · have hblank : (Text.trim ((none : Option String).getD "")).isEmpty = true := by decide
      simp only [hblank, if_true, reduceCtorEq, false_iff]
      rintro ⟨program, ⟨exec', others', text, hexec', htext', -⟩, -⟩
      obtain ⟨rfl, -⟩ := List.cons.inj (hexec.symm.trans hexec')
      exact absurd (htext.symm.trans htext') (by simp)
    · simp only [Option.getD_some, String.isEmpty_iff]
      constructor
      · intro h
        split at h
        · exact absurd h (by simp)
        · rename_i hne
          exact ⟨_, ⟨exec, others, text, hexec, htext, rfl⟩, hne, (Except.ok.inj h).symm⟩
      · rintro ⟨program, ⟨exec', others', text', hexec', htext', rfl⟩, hne, rfl⟩
        obtain ⟨rfl, -⟩ := List.cons.inj (hexec.symm.trans hexec')
        obtain rfl := Option.some.inj (htext.symm.trans htext')
        rw [if_neg hne]

/-! ## The arguments -/

lemma addArgument_eq_ok_iff {a : Argument} : c.addArgument (.argument a) = .ok c' ↔
    a.index ≠ 0 ∧ ¬ (∃ b ∈ c.arguments, b.index = a.index) ∧
      c' = { c with arguments := insertArgument a c.arguments } := by
  simp only [addArgument, List.any_eq_true, decide_eq_true_eq]
  split
  · simp [*]
  · split
    · simp [*]
    · simp only [*, Except.ok.injEq, ne_eq, not_false_eq_true, true_and]
      exact eq_comm

lemma declareArgument_eq_ok_iff : (declareArgument c n).result = .ok c' ↔
    ∃ a, DeclaresArgument n a ∧ ¬ (∃ b ∈ c.arguments, b.index = a.index) ∧
      c' = { c with arguments := insertArgument a c.arguments } := by
  simp only [declareArgument, Traced.result_bind_eq_ok_iff, Traced.result_ofExcept,
    Traced.result_tell, argumentOf_eq_ok_iff]
  constructor
  · rintro ⟨_, ⟨a, rfl, ha⟩, -, -, hadd⟩
    exact ⟨a, ha, (addArgument_eq_ok_iff.mp hadd).2⟩
  · rintro ⟨a, ha, hadd⟩
    exact ⟨_, ⟨a, rfl, ha⟩, (), trivial,
      addArgument_eq_ok_iff.mpr ⟨Nat.one_le_iff_ne_zero.mp ha.position, hadd⟩⟩

lemma declareArgument_congr (c : Configuration) (n n' : Node)
    (h : n.attribute? = n'.attribute?) : declareArgument c n = declareArgument c n' := by
  rw [declareArgument, declareArgument, argumentOf_congr h]

/-- Arguments that are inserted behind a first one are inserted among the others. -/
lemma foldl_insertArgument {arguments : List Argument} (first : Argument)
    (hpos : ∀ a ∈ arguments, first.index ≤ a.index) (l : List Argument) :
    ∃ others, arguments.foldl (fun l a => insertArgument a l) (first :: l) = first :: others ∧
      others.Perm (arguments ++ l) := by
  induction arguments generalizing l with
  | nil => exact ⟨l, rfl, .refl _⟩
  | cons a arguments ih =>
    obtain ⟨ha, hpos⟩ := List.forall_mem_cons.mp hpos
    obtain ⟨others, heq, hperm⟩ := ih hpos (insertArgument a l)
    refine ⟨others, ?_, ?_⟩
    · rw [List.foldl_cons, insertArgument, if_neg (Nat.not_lt.mpr ha), heq]
    · have hinsert : (arguments ++ insertArgument a l).Perm (arguments ++ a :: l) :=
        (perm_insertArgument a l).append_left _
      exact (hperm.trans hinsert).trans List.perm_middle

/-- All arguments are added exactly if their positions differ from each other and were free. -/
lemma declareArguments_eq_ok_iff {l : List Node} : (l.foldlM declareArgument c).result = .ok c' ↔
    ∃ arguments, List.Forall₂ DeclaresArgument l arguments ∧
      (arguments.map Argument.index).Nodup ∧
      (∀ a ∈ arguments, ¬ ∃ b ∈ c.arguments, b.index = a.index) ∧
      c' = { c with arguments :=
        arguments.foldl (fun l a => insertArgument a l) c.arguments } := by
  have hfold : ∀ (arguments : List Argument) (c : Configuration),
      arguments.foldl (fun c a => { c with arguments := insertArgument a c.arguments }) c
        = { c with arguments := arguments.foldl (fun l a => insertArgument a l) c.arguments } := by
    intro arguments
    induction arguments with
    | nil => exact fun _ => rfl
    | cons a arguments ih => exact fun c => ih _
  have hstep : ∀ (c : Configuration) n c', (declareArgument c n).result = .ok c' ↔
      ∃ a, DeclaresArgument n a ∧ ¬ (∃ b ∈ c.arguments, b.index = a.index) ∧
        c' = { c with arguments := insertArgument a c.arguments } :=
    fun _ _ _ => declareArgument_eq_ok_iff
  have htaken : ∀ (c : Configuration) a k, (∃ b ∈ insertArgument a c.arguments, b.index = k) ↔
      k = a.index ∨ ∃ b ∈ c.arguments, b.index = k := by
    intro c a k
    simp only [mem_insertArgument, exists_eq_or_imp]
    exact or_congr_left eq_comm
  rw [Traced.result_foldlM_eq_ok_iff Argument.index
    (fun (c : Configuration) k => ∃ b ∈ c.arguments, b.index = k) hstep htaken]
  simp only [hfold]

/-! ## The files -/

lemma addFile_eq_ok_iff {f : InputFile} : c.addFile (.file f) = .ok c' ↔
    ¬ (∃ g ∈ c.files, g.path = f.path) ∧ c' = { c with files := c.files ++ [f] } := by
  simp only [addFile, List.any_eq_true, decide_eq_true_eq]
  split
  · simp [*]
  · simp only [*, Except.ok.injEq, not_false_eq_true, true_and]
    exact eq_comm

lemma declareFile_eq_ok_iff : (declareFile c n).result = .ok c' ↔
    ∃ f, DeclaresFile n f ∧ ¬ (∃ g ∈ c.files, g.path = f.path) ∧
      c' = { c with files := c.files ++ [f] } := by
  simp only [declareFile, Traced.result_bind_eq_ok_iff, Traced.result_ofExcept,
    Traced.result_tell, fileOf_eq_ok_iff]
  constructor
  · rintro ⟨_, ⟨f, rfl, hf⟩, -, -, hadd⟩
    exact ⟨f, hf, addFile_eq_ok_iff.mp hadd⟩
  · rintro ⟨f, hf, hadd⟩
    exact ⟨_, ⟨f, rfl, hf⟩, (), trivial, addFile_eq_ok_iff.mpr hadd⟩

lemma declareFile_congr (c : Configuration) (n n' : Node)
    (h : n.attribute? = n'.attribute?) : declareFile c n = declareFile c n' := by
  rw [declareFile, declareFile, fileOf_congr h]

/-- All files are added exactly if their paths differ from each other and were free. -/
lemma declareFiles_eq_ok_iff {l : List Node} : (l.foldlM declareFile c).result = .ok c' ↔
    ∃ files, List.Forall₂ DeclaresFile l files ∧ (files.map InputFile.path).Nodup ∧
      (∀ f ∈ files, ¬ ∃ g ∈ c.files, g.path = f.path) ∧
      c' = { c with files := c.files ++ files } := by
  have hfold : ∀ (files : List InputFile) (c : Configuration),
      files.foldl (fun c f => { c with files := c.files ++ [f] }) c
        = { c with files := c.files ++ files } := by
    intro files
    induction files with
    | nil => exact fun c => by simp
    | cons f files ih => exact fun c => by rw [List.foldl_cons, ih]; simp
  have hstep : ∀ (c : Configuration) n c', (declareFile c n).result = .ok c' ↔
      ∃ f, DeclaresFile n f ∧ ¬ (∃ g ∈ c.files, g.path = f.path) ∧
        c' = { c with files := c.files ++ [f] } :=
    fun _ _ _ => declareFile_eq_ok_iff
  have htaken : ∀ (c : Configuration) f k, (∃ g ∈ c.files ++ [f], g.path = k) ↔
      k = f.path ∨ ∃ g ∈ c.files, g.path = k := by
    intro c f k
    simp only [List.mem_append, List.mem_singleton, or_and_right, exists_or, exists_eq_left]
    exact or_comm.trans (or_congr_left eq_comm)
  rw [Traced.result_foldlM_eq_ok_iff InputFile.path
    (fun (c : Configuration) k => ∃ g ∈ c.files, g.path = k) hstep htaken]
  simp only [hfold]

/-! ## The standard input -/

lemma setStandardInput_eq_ok_iff {size : Nat} :
    c.setStandardInput (.standardInput size) = .ok c' ↔
      c.standardInput = none ∧ c' = { c with standardInput := some size } := by
  rw [setStandardInput]
  rcases c.standardInput with _ | size'
  · simpa using eq_comm
  · simp

/-- The standard input is set exactly if there is one element at most, and it declares one. -/
lemma declareStandardInput_eq_ok_iff {l : List Node} (hc : c.standardInput = none) :
    (declareStandardInput c l).result = .ok c' ↔
      ∃ standardInput, DeclareAtMostOne l standardInput ∧
        c' = { c with standardInput := standardInput } := by
  have hsame : { c with standardInput := none } = c := by rw [← hc]
  match l with
  | [] =>
    constructor
    · intro h
      obtain rfl := Except.ok.inj h
      exact ⟨none, .inl ⟨rfl, rfl⟩, hsame.symm⟩
    · rintro ⟨_, ⟨-, rfl⟩ | ⟨n, size, h, -⟩, rfl⟩
      · rw [hsame]
        rfl
      · exact absurd h (by simp)
  | [n] =>
    rw [declareStandardInput, Traced.result_bind_eq_ok_iff]
    simp only [Traced.result_ofExcept, standardInputOf_eq_ok_iff]
    constructor
    · rintro ⟨_, ⟨size, hsize, rfl⟩, h⟩
      refine ⟨_, .inr ⟨n, size, rfl, hsize, rfl⟩, ?_⟩
      by_cases hzero : size = 0
      · rw [if_pos hzero] at h ⊢
        obtain rfl := Except.ok.inj h
        exact hsame.symm
      · rw [if_neg hzero] at h ⊢
        obtain ⟨-, -, h⟩ := Traced.result_bind_eq_ok_iff.mp h
        exact setStandardInput_eq_ok_iff.mp h |>.2
    · rintro ⟨_, ⟨h, -⟩ | ⟨n', size, hn, hsize, rfl⟩, rfl⟩
      · exact absurd h (by simp)
      obtain rfl : n = n' := by simpa using hn
      refine ⟨_, ⟨size, hsize, rfl⟩, ?_⟩
      by_cases hzero : size = 0
      · rw [if_pos hzero, if_pos hzero, hsame]
        rfl
      · rw [if_neg hzero, if_neg hzero]
        exact setStandardInput_eq_ok_iff.mpr ⟨hc, rfl⟩
  | n :: n' :: l =>
    constructor
    · intro h
      exact absurd h (by simp [declareStandardInput])
    · rintro ⟨_, ⟨h, -⟩ | ⟨n, size, h, -⟩, -⟩
      · exact absurd h (by simp)
      · exact absurd h (by simp)

/-! ## Documents -/

lemma display_ofString (s : String) : (Path.ofString s).display = s := Utf8.lossy_encode s

/-- What is built from a tree is what its elements declare, argument by argument in the order of
the elements. -/
lemma ofTree_eq_ok_iff : (ofTree isFile root).result = .ok c ↔
    ∃ program arguments files standardInput,
      Declared isFile root program arguments files standardInput ∧
        c = ⟨.ofString program,
          arguments.foldl (fun l a => insertArgument a l) [programArgument program],
          files, standardInput⟩ := by
  have hnew : ∀ program, new (.ofString program)
      = ⟨.ofString program, [programArgument program], [], none⟩ := by
    intro program
    rw [new, display_ofString, Argument.concrete, Nat.zero_max, programArgument]
  rw [ofTree, Traced.result_bind_eq_ok_iff]
  simp only [Traced.result_ofExcept, executableOf_eq_ok_iff]
  constructor
  · rintro ⟨_, ⟨program, hnamed, hgiven, rfl⟩, h⟩
    split at h
    · rename_i hfound
      obtain ⟨-, -, h⟩ := Traced.result_bind_eq_ok_iff.mp h
      obtain ⟨c₁, h₁, h⟩ := Traced.result_bind_eq_ok_iff.mp h
      obtain ⟨c₂, h₂, h⟩ := Traced.result_bind_eq_ok_iff.mp h
      rw [hnew] at h₁
      obtain ⟨arguments, hargs, hpositions, -, rfl⟩ := declareArguments_eq_ok_iff.mp h₁
      obtain ⟨files, hfiles, hpaths, -, rfl⟩ := declareFiles_eq_ok_iff.mp h₂
      obtain ⟨standardInput, hstd, rfl⟩ := (declareStandardInput_eq_ok_iff rfl).mp h
      exact ⟨program, arguments, files, standardInput,
        ⟨hnamed, hgiven, hfound, allDeclare_iff.mpr hargs, hpositions, allDeclare_iff.mpr hfiles,
          hpaths, _, root.hasElements_elements "stdin", hstd⟩, rfl⟩
    · exact absurd h (by simp)
  · rintro ⟨program, arguments, files, standardInput, h, rfl⟩
    refine ⟨.ofString program, ⟨program, h.named, h.given, rfl⟩, ?_⟩
    rw [if_pos h.found, Traced.result_bind_eq_ok_iff]
    refine ⟨(), rfl, ?_⟩
    rw [declareAll, Traced.result_bind_eq_ok_iff, hnew]
    refine ⟨_, declareArguments_eq_ok_iff.mpr
      ⟨arguments, allDeclare_iff.mp h.argumentElements, h.positions, ?_, rfl⟩, ?_⟩
    · -- the position of the program is not declared
      rintro a ha ⟨b, hb, hindex⟩
      obtain rfl := List.mem_singleton.mp hb
      obtain ⟨n, hn⟩ := h.argumentElements.exists_declares a ha
      have hpos := hn.position
      rw [← hindex] at hpos
      exact absurd hpos (by simp [programArgument])
    · obtain ⟨elements, helements, hstd⟩ := h.standardInputElement
      rw [Node.hasElements_iff.mp helements] at hstd
      rw [Traced.result_bind_eq_ok_iff]
      exact ⟨_, declareFiles_eq_ok_iff.mpr
          ⟨files, allDeclare_iff.mp h.fileElements, h.paths, by simp, rfl⟩,
        (declareStandardInput_eq_ok_iff rfl).mpr ⟨standardInput, hstd, rfl⟩⟩

/-- Sorted by their positions, the arguments of a configuration are its own path and those that
are declared. -/
lemma Declared.configures {program : String} {arguments : List Argument} {files : List InputFile}
    {standardInput : Option Nat}
    (h : Declared isFile root program arguments files standardInput) :
    Configures ⟨.ofString program,
      arguments.foldl (fun l a => insertArgument a l) [programArgument program],
      files, standardInput⟩ program arguments files standardInput where
  executable := rfl
  arguments := by
    obtain ⟨others, heq, hperm⟩ := foldl_insertArgument (programArgument program)
      (fun a _ => Nat.zero_le a.index) []
    have hbuilt := isBuilt_of_ofTree (ofTree_eq_ok_iff.mpr ⟨_, _, _, _, h, rfl⟩)
    have hsorted := hbuilt.pairwise_index_lt
    rw [heq] at hsorted
    exact ⟨others, heq, by simpa using hperm, (List.pairwise_cons.mp hsorted).2⟩
  files := rfl
  standardInput := rfl

/-- Inputs of a program make up one configuration only. -/
lemma Configures.eq {program : String} {arguments : List Argument} {files : List InputFile}
    {standardInput : Option Nat} (h : c.Configures program arguments files standardInput)
    (h' : c'.Configures program arguments files standardInput) : c = c' := by
  obtain ⟨hexe, ⟨others, hargs, hperm, hsorted⟩, rfl, rfl⟩ := h
  obtain ⟨hexe', ⟨others', hargs', hperm', hsorted'⟩, hfiles, hstd⟩ := h'
  obtain rfl : others = others' :=
    List.Perm.eq_of_pairwise (fun a b _ _ hab hba => absurd hab (by omega)) hsorted hsorted'
      (hperm.trans hperm'.symm)
  obtain ⟨_, _, _, _⟩ := c
  obtain ⟨_, _, _, _⟩ := c'
  simp_all

/-- A tree is accepted with the configuration that has the inputs it declares. -/
lemma ofTree_eq_ok_iff_configures : (ofTree isFile root).result = .ok c ↔
    ∃ program arguments files standardInput,
      Declared isFile root program arguments files standardInput ∧
        c.Configures program arguments files standardInput := by
  constructor
  · intro hc
    obtain ⟨program, arguments, files, standardInput, h, rfl⟩ := ofTree_eq_ok_iff.mp hc
    exact ⟨program, arguments, files, standardInput, h, h.configures⟩
  · rintro ⟨program, arguments, files, standardInput, h, hc⟩
    rw [hc.eq h.configures]
    exact ofTree_eq_ok_iff.mpr ⟨program, arguments, files, standardInput, h, rfl⟩

lemma ofDocument_of_treeOf {document : String} (hroot : treeOf document = .ok root) :
    (ofDocument isFile document).result = (ofTree isFile root).result := by
  rw [ofDocument, Traced.result_bind, Traced.result_ofExcept, hroot]
  rfl

/-- A loaded configuration has the inputs that the tree of a document declares. -/
lemma IsLoaded.declared (hc : c.IsLoaded) :
    ∃ isFile root program arguments files standardInput,
      Declared isFile root program arguments files standardInput ∧
        c.Configures program arguments files standardInput := by
  obtain ⟨isFile, document, hdocument⟩ := hc
  obtain ⟨root, hroot, htree⟩ := Traced.result_bind_eq_ok_iff.mp hdocument
  exact ⟨isFile, root, ofTree_eq_ok_iff_configures.mp htree⟩

/-- **The loader accepts exactly the grammar and builds exactly what is declared.**  Whichever
regular files there are, a tree is accepted if and only if its elements, wherever they stand in it,
declare inputs, and then the configuration is the one with these inputs; a document is loaded as its
tree is. -/
theorem ofDocument_builds_declared (isFile : Path → Bool) :
    (∀ root : Node, (∃ c, (ofTree isFile root).result = .ok c) ↔
      ∃ program arguments files standardInput,
        Declared isFile root program arguments files standardInput) ∧
    (∀ (root : Node) (c : Configuration), (ofTree isFile root).result = .ok c ↔
      ∃ program arguments files standardInput,
        Declared isFile root program arguments files standardInput ∧
          c.Configures program arguments files standardInput) ∧
    ∀ (document : String) (c : Configuration), (ofDocument isFile document).result = .ok c ↔
      ∃ root, treeOf document = .ok root ∧ (ofTree isFile root).result = .ok c := by
  refine ⟨?_, ?_, ?_⟩
  · intro root
    constructor
    · rintro ⟨c, hc⟩
      obtain ⟨program, arguments, files, standardInput, h, -⟩ := ofTree_eq_ok_iff.mp hc
      exact ⟨program, arguments, files, standardInput, h⟩
    · rintro ⟨program, arguments, files, standardInput, h⟩
      exact ⟨_, ofTree_eq_ok_iff.mpr ⟨program, arguments, files, standardInput, h, rfl⟩⟩
  · intro root c
    exact ofTree_eq_ok_iff_configures
  · intro document c
    exact Traced.result_bind_eq_ok_iff

end Concolic.Configuration
