/-
# Configurations as keyed stores

A configuration keeps its inputs under keys: arguments under their positions, files under their
paths, and one place for the standard input.  What matters of a sequence of calls is the first
declaration for each key: it is kept, and all later ones for its key are refused, as are
declarations of another kind and those for position zero.  A call that is refused changes
nothing.

* `firstOf` picks the first entry for each key, and `Stores` says that a configuration holds
  what a sequence of calls declares first;
* `Refused` lists the reasons for which a call is refused (`add_eq_error_iff`);
* `Stores.after` is the step from one sequence of calls to the next longer one.

What `Stores` says determines the configuration (`Stores.eq`), so calls without duplicates may
be made in any order that keeps the order of the files.
-/
import Concolic.Proofs.Configuration.Loading
import Concolic.Proofs.Path
import Mathlib.Data.List.Nodup

namespace Concolic

/-! ## First entries -/

section FirstOf

variable {α κ : Type} [DecidableEq κ] {key : α → κ} {l l' : List α} {a : α} {k : κ}

/-- The first entry for each key, in their order. -/
def firstOf (key : α → κ) : List α → List α
  | [] => []
  | a :: l => a :: (firstOf key l).filter fun b => key b ≠ key a

lemma mem_map_firstOf_iff : k ∈ (firstOf key l).map key ↔ k ∈ l.map key := by
  induction l with
  | nil => rfl
  | cons a l ih =>
    have hrest : k ∈ ((firstOf key l).filter fun b => key b ≠ key a).map key ↔
        k ∈ l.map key ∧ k ≠ key a := by
      rw [← ih]
      simp only [List.mem_map, List.mem_filter, decide_eq_true_eq]
      constructor
      · rintro ⟨b, ⟨hb, hne⟩, rfl⟩
        exact ⟨⟨b, hb, rfl⟩, hne⟩
      · rintro ⟨⟨b, hb, rfl⟩, hne⟩
        exact ⟨b, ⟨hb, hne⟩, rfl⟩
    rw [firstOf, List.map_cons, List.map_cons, List.mem_cons, List.mem_cons, hrest]
    by_cases hk : k = key a
    · simp [hk]
    · simp [hk]

lemma nodup_map_firstOf : ((firstOf key l).map key).Nodup := by
  induction l with
  | nil => simp [firstOf]
  | cons a l ih =>
    rw [firstOf, List.map_cons, List.nodup_cons]
    refine ⟨?_, ih.sublist (List.filter_sublist.map key)⟩
    intro hmem
    obtain ⟨b, hb, hkey⟩ := List.mem_map.mp hmem
    have hne : key b ≠ key a := by simpa using (List.mem_filter.mp hb).2
    exact hne hkey

/-- One more entry counts only if it is the first for its key. -/
lemma firstOf_concat (l : List α) (a : α) :
    firstOf key (l ++ [a])
      = if key a ∈ l.map key then firstOf key l else firstOf key l ++ [a] := by
  induction l with
  | nil => simp [firstOf]
  | cons b l ih =>
    rw [List.cons_append, firstOf, firstOf, ih]
    by_cases hb : key a = key b
    · -- the entry is filtered out again, whether or not there is another one for its key
      have hmem : key a ∈ (b :: l).map key := by simp [hb]
      rw [if_pos hmem]
      split
      · rfl
      · rw [List.filter_append]
        simp [hb]
    · have hmem : key a ∈ (b :: l).map key ↔ key a ∈ l.map key := by simp [hb]
      simp only [hmem]
      split
      · rfl
      · rw [List.filter_append]
        simp [hb]

/-- If no key occurs twice, every entry is the first one for its key. -/
lemma firstOf_eq_self (h : (l.map key).Nodup) : firstOf key l = l := by
  induction l with
  | nil => rfl
  | cons a l ih =>
    obtain ⟨ha, hl⟩ := List.nodup_cons.mp h
    have hne : ∀ b ∈ l, key b ≠ key a := by
      intro b hb heq
      exact ha (heq ▸ List.mem_map_of_mem hb)
    rw [firstOf, ih hl, List.filter_eq_self.mpr (by simpa using hne)]

lemma firstOf_sublist (key : α → κ) (l : List α) : (firstOf key l).Sublist l := by
  induction l with
  | nil => exact .slnil
  | cons a l ih => exact (List.filter_sublist.trans ih).cons_cons a

end FirstOf

section Concat

variable {α β : Type} {p : α → Option β} {l : List α} {a : α} {b : β}

lemma filterMap_concat_of_none (h : p a = none) : (l ++ [a]).filterMap p = l.filterMap p := by
  rw [List.filterMap_append, List.filterMap_cons_none h, List.filterMap_nil, List.append_nil]

lemma filterMap_concat_of_some (h : p a = some b) :
    (l ++ [a]).filterMap p = l.filterMap p ++ [b] := by
  rw [List.filterMap_append, List.filterMap_cons_some h, List.filterMap_nil]

end Concat

/-! ## Arguments that are made -/

namespace Argument

lemma nameAt_injective : Function.Injective nameAt := by
  intro n n' heq
  have hrepr : "argv_" ++ n.repr = "argv_" ++ n'.repr := heq
  exact Nat.repr_injective ((String.append_right_inj _).mp hrepr)

/-- The argument is made as a concrete or as a symbolic one. -/
inductive IsDeclared : Argument → Prop
  /-- With a value that is known, and the width that is asked for. -/
  | concrete (index : Nat) (value : Bytes) (size : Nat) : IsDeclared (.concrete index value size)
  /-- With the width that is asked for, and the value that it would have by default. -/
  | symbolic (index size : Nat) (byDefault : Bytes) :
    IsDeclared (.symbolic index size byDefault)

lemma IsDeclared.length_le_size {a : Argument} (h : a.IsDeclared) {value : Bytes}
    (hvalue : a.literal = some value) : value.length ≤ a.size := by
  cases h with
  | concrete index value' size =>
    obtain rfl := Option.some.inj hvalue
    exact Nat.le_max_right size value'.length
  | symbolic index size byDefault => exact nomatch hvalue

end Argument

namespace Configuration

/-! ## What calls declare -/

namespace Addition

/-- The input that is to be added. -/
def input : Addition → Input
  | .argument i => i
  | .file i => i
  | .standardInput i => i

/-- The kind of input that can be added by the call. -/
def kind : Addition → InputKind
  | .argument _ => .argument
  | .file _ => .file
  | .standardInput _ => .standardInput

/-- The argument that is declared, unless it is for the position of the program. -/
def argument? : Addition → Option Argument
  | .argument (.argument a) => if a.index = 0 then none else some a
  | _ => none

/-- The file that is declared. -/
def file? : Addition → Option InputFile
  | .file (.file f) => some f
  | _ => none

/-- The width of the standard input that is declared. -/
def standardInput? : Addition → Option Nat
  | .standardInput (.standardInput size) => some size
  | _ => none

end Addition

/-- The configuration holds what the calls declare first: behind the path of the program there
is the first argument for each position, by their positions, then the first file for each path,
in the order of the calls, and the first standard input. -/
structure Stores (c : Configuration) (executable : Path) (calls : List Addition) : Prop where
  program : c.executable = executable
  arguments : ∃ others, c.arguments = .concrete 0 (Utf8.encode executable.display) 0 :: others ∧
    others.Perm (firstOf Argument.index (calls.filterMap Addition.argument?))
  ordered : c.arguments.Pairwise (·.index < ·.index)
  files : c.files = firstOf InputFile.path (calls.filterMap Addition.file?)
  standardInput : c.standardInput = (calls.filterMap Addition.standardInput?).head?

/-- A configuration refuses a call for one of these reasons. -/
inductive Refused (c : Configuration) : Addition → Violation → Prop
  /-- The input is not of the kind that the call adds. -/
  | wrongKind (call : Addition) : call.input.kind ≠ call.kind →
    Refused c call (.wrongKind call.input.name call.kind)
  /-- Position zero belongs to the program. -/
  | reserved (a : Argument) : a.index = 0 → Refused c (.argument (.argument a)) .reservedIndex
  /-- The position is taken. -/
  | positionTaken (a b : Argument) : a.index ≠ 0 → b ∈ c.arguments → b.index = a.index →
    Refused c (.argument (.argument a)) (.duplicateIndex a.index)
  /-- The path is taken. -/
  | pathTaken (f g : InputFile) : g ∈ c.files → g.path = f.path →
    Refused c (.file (.file f)) (.duplicateFile f.path)
  /-- There is a standard input. -/
  | standardInputTaken (size taken : Nat) : c.standardInput = some taken →
    Refused c (.standardInput (.standardInput size)) .duplicateStandardInput

variable {c c' : Configuration} {executable : Path} {calls calls' : List Addition}
  {call : Addition}

/-! ## Calls that are refused -/

lemma add_of_refused {v : Violation} (h : Refused c call v) : c.add call = .error (.invalid v) := by
  cases h with
  | wrongKind call hkind =>
    match call with
    | .argument (.argument _) | .file (.file _) | .standardInput (.standardInput _) =>
      exact absurd rfl hkind
    | .argument (.file _) | .argument (.standardInput _) | .file (.argument _)
    | .file (.standardInput _) | .standardInput (.argument _) | .standardInput (.file _) => rfl
  | reserved a hzero => simp [add, addArgument, hzero]
  | positionTaken a b hne hb hindex =>
    have hany : (c.arguments.any fun b => b.index = a.index) = true :=
      List.any_eq_true.mpr ⟨b, hb, by simpa using hindex⟩
    simp [add, addArgument, hne, hany]
  | pathTaken f g hg hpath =>
    have hany : (c.files.any fun g => g.path = f.path) = true :=
      List.any_eq_true.mpr ⟨g, hg, by simpa using hpath⟩
    simp [add, addFile, hany]
  | standardInputTaken size taken hsome => simp [add, setStandardInput, hsome]

lemma refused_of_add {e : Error} (h : c.add call = .error e) :
    ∃ v, e = .invalid v ∧ Refused c call v := by
  have hok : ¬ ∃ c', c.add call = .ok c' := by
    rintro ⟨c', hc'⟩
    exact nomatch h.symm.trans hc'
  have hrefused : ∃ v, Refused c call v := by
    match call with
    | .argument (.argument a) =>
      by_cases hzero : a.index = 0
      · exact ⟨_, .reserved a hzero⟩
      by_cases htaken : ∃ b ∈ c.arguments, b.index = a.index
      · obtain ⟨b, hb, hindex⟩ := htaken
        exact ⟨_, .positionTaken a b hzero hb hindex⟩
      · exact absurd ⟨_, addArgument_eq_ok_iff.mpr ⟨hzero, htaken, rfl⟩⟩ hok
    | .file (.file f) =>
      by_cases htaken : ∃ g ∈ c.files, g.path = f.path
      · obtain ⟨g, hg, hpath⟩ := htaken
        exact ⟨_, .pathTaken f g hg hpath⟩
      · exact absurd ⟨_, addFile_eq_ok_iff.mpr ⟨htaken, rfl⟩⟩ hok
    | .standardInput (.standardInput size) =>
      rcases hstd : c.standardInput with _ | taken
      · exact absurd ⟨_, setStandardInput_eq_ok_iff.mpr ⟨hstd, rfl⟩⟩ hok
      · exact ⟨_, .standardInputTaken size taken hstd⟩
    | .argument (.file _) | .argument (.standardInput _) | .file (.argument _)
    | .file (.standardInput _) | .standardInput (.argument _) | .standardInput (.file _) =>
      exact ⟨_, .wrongKind _ (by simp [Addition.input, Addition.kind, Input.kind])⟩
  obtain ⟨v, hv⟩ := hrefused
  have heq : Except.error e = Except.error (Error.invalid v) := h.symm.trans (add_of_refused hv)
  exact ⟨v, Except.error.inj heq, hv⟩

lemma add_eq_error_iff {e : Error} :
    c.add call = .error e ↔ ∃ v, e = .invalid v ∧ Refused c call v := by
  constructor
  · exact refused_of_add
  · rintro ⟨v, rfl, hv⟩
    exact add_of_refused hv

/-! ## One call more -/

lemma build_concat (executable : Path) (calls : List Addition) (call : Addition) :
    build executable (calls ++ [call]) = (build executable calls).after call := by
  rw [build, List.foldl_append, List.foldl_cons, List.foldl_nil, ← build]

lemma stores_new (executable : Path) : (new executable).Stores executable [] where
  program := rfl
  arguments := ⟨[], rfl, .refl _⟩
  ordered := by simp [new]
  files := rfl
  standardInput := rfl

/-- A position but zero is taken exactly if an argument is declared for it. -/
lemma Stores.taken_iff (h : c.Stores executable calls) {index : Nat} (hne : index ≠ 0) :
    (∃ b ∈ c.arguments, b.index = index) ↔
      index ∈ (calls.filterMap Addition.argument?).map Argument.index := by
  obtain ⟨others, hargs, hperm⟩ := h.arguments
  have hothers : (∃ b ∈ others, b.index = index) ↔
      index ∈ (firstOf Argument.index (calls.filterMap Addition.argument?)).map Argument.index := by
    rw [← (hperm.map Argument.index).mem_iff, List.mem_map]
  have hfirst : (Argument.concrete 0 (Utf8.encode executable.display) 0).index ≠ index :=
    fun heq => hne heq.symm
  rw [hargs, List.exists_mem_cons_iff, hothers, mem_map_firstOf_iff]
  exact or_iff_right hfirst

/-- A path is taken exactly if a file is declared for it. -/
lemma Stores.path_taken_iff (h : c.Stores executable calls) {path : String} :
    (∃ g ∈ c.files, g.path = path) ↔
      path ∈ (calls.filterMap Addition.file?).map InputFile.path := by
  rw [h.files, ← mem_map_firstOf_iff, List.mem_map]

/-! What is not declared by a further call is as before. -/

lemma Stores.arguments_of_none (h : c.Stores executable calls) (hnone : call.argument? = none) :
    ∃ others, c.arguments = .concrete 0 (Utf8.encode executable.display) 0 :: others ∧
      others.Perm (firstOf Argument.index ((calls ++ [call]).filterMap Addition.argument?)) := by
  rw [filterMap_concat_of_none hnone]
  exact h.arguments

lemma Stores.files_of_none (h : c.Stores executable calls) (hnone : call.file? = none) :
    c.files = firstOf InputFile.path ((calls ++ [call]).filterMap Addition.file?) := by
  rw [filterMap_concat_of_none hnone]
  exact h.files

lemma Stores.standardInput_of_none (h : c.Stores executable calls)
    (hnone : call.standardInput? = none) :
    c.standardInput = ((calls ++ [call]).filterMap Addition.standardInput?).head? := by
  rw [filterMap_concat_of_none hnone]
  exact h.standardInput

/-- What a call declares that is refused, if anything, is not the first for its key. -/
lemma Stores.of_refused (h : c.Stores executable calls) {v : Violation} (hv : Refused c call v) :
    c.Stores executable (calls ++ [call]) := by
  cases hv with
  | wrongKind call hkind =>
    have hnone : call.argument? = none ∧ call.file? = none ∧ call.standardInput? = none := by
      rcases call with ⟨_ | _ | _⟩ | ⟨_ | _ | _⟩ | ⟨_ | _ | _⟩
      all_goals first
        | exact absurd rfl hkind
        | exact ⟨rfl, rfl, rfl⟩
    obtain ⟨hargument, hfile, hstandard⟩ := hnone
    exact ⟨h.program, h.arguments_of_none hargument, h.ordered, h.files_of_none hfile,
      h.standardInput_of_none hstandard⟩
  | reserved a hzero =>
    have hnone : (Addition.argument (.argument a)).argument? = none := if_pos hzero
    exact ⟨h.program, h.arguments_of_none hnone, h.ordered, h.files_of_none rfl,
      h.standardInput_of_none rfl⟩
  | positionTaken a b hne hb hindex =>
    have hsome : (Addition.argument (.argument a)).argument? = some a := if_neg hne
    have hmem := (h.taken_iff hne).mp ⟨b, hb, hindex⟩
    refine ⟨h.program, ?_, h.ordered, h.files_of_none rfl, h.standardInput_of_none rfl⟩
    rw [filterMap_concat_of_some hsome, firstOf_concat, if_pos hmem]
    exact h.arguments
  | pathTaken f g hg hpath =>
    have hsome : (Addition.file (.file f)).file? = some f := rfl
    have hmem := h.path_taken_iff.mp ⟨g, hg, hpath⟩
    refine ⟨h.program, h.arguments_of_none rfl, h.ordered, ?_, h.standardInput_of_none rfl⟩
    rw [filterMap_concat_of_some hsome, firstOf_concat, if_pos hmem]
    exact h.files
  | standardInputTaken size taken htaken =>
    have hsome : (Addition.standardInput (.standardInput size)).standardInput? = some size := rfl
    have hhead := h.standardInput.symm.trans htaken
    refine ⟨h.program, h.arguments_of_none rfl, h.ordered, h.files_of_none rfl, ?_⟩
    rw [filterMap_concat_of_some hsome, List.head?_append, hhead, htaken]
    rfl

/-- What a call declares that is accepted is the first for its key. -/
lemma Stores.of_added (h : c.Stores executable calls) (hadd : c.add call = .ok c') :
    c'.Stores executable (calls ++ [call]) := by
  rcases add_eq_ok hadd with ⟨a, rfl, hne, hfree, rfl⟩ | ⟨f, rfl, hfree, rfl⟩ |
    ⟨size, rfl, hnone, rfl⟩
  · obtain ⟨others, hargs, hperm⟩ := h.arguments
    have hsome : (Addition.argument (.argument a)).argument? = some a := if_neg hne
    have hfirst : a.index ∉ (calls.filterMap Addition.argument?).map Argument.index := by
      rw [← h.taken_iff hne]
      rintro ⟨b, hb, hindex⟩
      exact hfree b hb hindex
    refine ⟨h.program, ⟨insertArgument a others, ?_, ?_⟩,
      pairwise_insertArgument h.ordered hfree, h.files_of_none rfl, h.standardInput_of_none rfl⟩
    · -- the argument of the program stays in front
      have hpos : ¬ a.index < (Argument.concrete 0 (Utf8.encode executable.display) 0).index :=
        Nat.not_lt_zero a.index
      show insertArgument a c.arguments = _
      rw [hargs, insertArgument, if_neg hpos]
    · rw [filterMap_concat_of_some hsome, firstOf_concat, if_neg hfirst]
      have hinsert : (insertArgument a others).Perm (a :: others) := perm_insertArgument a others
      exact (hinsert.trans (hperm.cons a)).trans (List.perm_append_singleton a _).symm
  · have hsome : (Addition.file (.file f)).file? = some f := rfl
    have hfirst : f.path ∉ (calls.filterMap Addition.file?).map InputFile.path := by
      rw [← h.path_taken_iff]
      rintro ⟨g, hg, hpath⟩
      exact hfree g hg hpath
    refine ⟨h.program, h.arguments_of_none rfl, h.ordered, ?_, h.standardInput_of_none rfl⟩
    show c.files ++ [f] = _
    rw [filterMap_concat_of_some hsome, firstOf_concat, if_neg hfirst, h.files]
  · have hsome : (Addition.standardInput (.standardInput size)).standardInput? = some size := rfl
    have hhead := h.standardInput.symm.trans hnone
    refine ⟨h.program, h.arguments_of_none rfl, h.ordered, h.files_of_none rfl, ?_⟩
    rw [filterMap_concat_of_some hsome, List.head?_append, hhead]
    rfl

/-- After one call more, the configuration holds what is declared first by all calls. -/
lemma Stores.after (h : c.Stores executable calls) (call : Addition) :
    (c.after call).Stores executable (calls ++ [call]) := by
  rcases hadd : c.add call with e | c'
  · have hsame : c.after call = c := by rw [Configuration.after, hadd]
    obtain ⟨v, -, hv⟩ := refused_of_add hadd
    rw [hsame]
    exact h.of_refused hv
  · have hnext : c.after call = c' := by rw [Configuration.after, hadd]
    rw [hnext]
    exact h.of_added hadd

/-- A sequence of calls leads to the configuration that holds what they declare first. -/
lemma stores_build (executable : Path) (calls : List Addition) :
    (build executable calls).Stores executable calls := by
  induction calls using List.reverseRecOn with
  | nil => exact stores_new executable
  | append_singleton calls call ih =>
    rw [build_concat]
    exact ih.after call

/-! ## What the calls determine -/

/-- What is declared first determines the configuration. -/
lemma Stores.eq (h : c.Stores executable calls) (h' : c'.Stores executable calls')
    (hargs : (firstOf Argument.index (calls.filterMap Addition.argument?)).Perm
      (firstOf Argument.index (calls'.filterMap Addition.argument?)))
    (hfiles : calls.filterMap Addition.file? = calls'.filterMap Addition.file?)
    (hstd : (calls.filterMap Addition.standardInput?).head?
      = (calls'.filterMap Addition.standardInput?).head?) : c = c' := by
  obtain ⟨others, heq, hperm⟩ := h.arguments
  obtain ⟨others', heq', hperm'⟩ := h'.arguments
  have hsorted : others.Pairwise (·.index < ·.index) := by
    have hall := h.ordered
    rw [heq] at hall
    exact (List.pairwise_cons.mp hall).2
  have hsorted' : others'.Pairwise (·.index < ·.index) := by
    have hall := h'.ordered
    rw [heq'] at hall
    exact (List.pairwise_cons.mp hall).2
  have hothers : others = others' :=
    List.Perm.eq_of_pairwise (fun a b _ _ hab hba => absurd hab (by omega)) hsorted hsorted'
      ((hperm.trans hargs).trans hperm'.symm)
  have harguments : c.arguments = c'.arguments := by rw [heq, heq', hothers]
  have hprogram : c.executable = c'.executable := h.program.trans h'.program.symm
  have hf : c.files = c'.files := by rw [h.files, h'.files, hfiles]
  have hs : c.standardInput = c'.standardInput := by rw [h.standardInput, h'.standardInput, hstd]
  obtain ⟨_, _, _, _⟩ := c
  obtain ⟨_, _, _, _⟩ := c'
  simp_all

/-- Without two declarations for one position and without two standard inputs, only the order
of the files matters. -/
lemma build_eq_of_perm (hperm : calls'.Perm calls)
    (hfiles : calls'.filterMap Addition.file? = calls.filterMap Addition.file?)
    (hpositions : ((calls.filterMap Addition.argument?).map Argument.index).Nodup)
    (hstd : (calls.filterMap Addition.standardInput?).length ≤ 1) :
    build executable calls' = build executable calls := by
  have hargs := hperm.filterMap Addition.argument?
  have hpositions' : ((calls'.filterMap Addition.argument?).map Argument.index).Nodup :=
    (hargs.map Argument.index).nodup_iff.mpr hpositions
  have hinputs := hperm.filterMap Addition.standardInput?
  have hhead : (calls'.filterMap Addition.standardInput?).head?
      = (calls.filterMap Addition.standardInput?).head? := by
    match hlist : calls.filterMap Addition.standardInput? with
    | [] =>
      rw [hlist] at hinputs
      rw [hinputs.eq_nil]
    | [size] =>
      rw [hlist] at hinputs
      rw [List.perm_singleton.mp hinputs]
    | _ :: _ :: _ =>
      rw [hlist] at hstd
      exact absurd hstd (by simp)
  refine (stores_build executable calls').eq (stores_build executable calls) ?_ hfiles hhead
  rw [firstOf_eq_self hpositions, firstOf_eq_self hpositions']
  exact hargs

/-! ## Names and widths -/

lemma Stores.nodup_names (h : c.Stores executable calls) :
    (c.arguments.map Argument.name).Nodup ∧ (c.files.map InputFile.path).Nodup := by
  constructor
  · have hindex : (c.arguments.map Argument.index).Nodup :=
      List.pairwise_map.mpr (h.ordered.imp fun hlt => Nat.ne_of_lt hlt)
    have hnames : c.arguments.map Argument.name
        = (c.arguments.map Argument.index).map Argument.nameAt := by
      rw [List.map_map]
      rfl
    rw [hnames]
    exact hindex.map Argument.nameAt_injective
  · rw [h.files]
    exact nodup_map_firstOf

/-- All arguments are made as concrete or symbolic ones if those of the calls are. -/
lemma Stores.isDeclared (h : c.Stores executable calls)
    (hcalls : ∀ a, .argument (.argument a) ∈ calls → a.IsDeclared) :
    ∀ a ∈ c.arguments, a.IsDeclared := by
  obtain ⟨others, hargs, hperm⟩ := h.arguments
  intro a ha
  rw [hargs] at ha
  rcases List.mem_cons.mp ha with rfl | ha
  · exact .concrete 0 _ 0
  · have hfirst := (firstOf_sublist _ _).subset (hperm.mem_iff.mp ha)
    obtain ⟨call, hcall, hsome⟩ := List.mem_filterMap.mp hfirst
    match call with
    | .argument (.argument a') =>
      rw [Addition.argument?] at hsome
      split at hsome
      · exact absurd hsome (by simp)
      · obtain rfl := Option.some.inj hsome
        exact hcalls a' hcall
    | .argument (.file _) | .argument (.standardInput _) | .file _ | .standardInput _ =>
      exact nomatch hsome

/-- **A configuration is a keyed store that keeps what is declared first.**  Whatever calls are
made for a program, in any number and order:

* the configuration holds the first argument for each position but zero behind the path of the
  program, by their positions, the first file for each path, and the first standard input;
* a further call is refused exactly for the reasons that `Refused` lists, and then it changes
  nothing;
* names of arguments differ from each other, and so do those of files;
* concrete arguments are at least as wide as their values;
* without two declarations for one position and without two standard inputs, only the order of
  the files matters. -/
theorem build_keeps_first_declarations (executable : Path) (calls : List Addition) :
    (build executable calls).Stores executable calls ∧
    (∀ call e, (build executable calls).add call = .error e ↔
      ∃ v, e = .invalid v ∧ Refused (build executable calls) call v) ∧
    (∀ call e, (build executable calls).add call = .error e →
      build executable (calls ++ [call]) = build executable calls) ∧
    (((build executable calls).arguments.map Argument.name).Nodup ∧
      ((build executable calls).files.map InputFile.path).Nodup) ∧
    ((∀ a, .argument (.argument a) ∈ calls → a.IsDeclared) →
      ∀ a ∈ (build executable calls).arguments, ∀ value, a.literal = some value →
        value.length ≤ a.size) ∧
    ∀ calls' : List Addition, calls'.Perm calls →
      calls'.filterMap Addition.file? = calls.filterMap Addition.file? →
      ((calls.filterMap Addition.argument?).map Argument.index).Nodup →
      (calls.filterMap Addition.standardInput?).length ≤ 1 →
        build executable calls' = build executable calls := by
  have hstores := stores_build executable calls
  refine ⟨hstores, fun _ _ => add_eq_error_iff, ?_, hstores.nodup_names, ?_, ?_⟩
  · intro call e herror
    rw [build_concat, after, herror]
  · intro hcalls a ha value hvalue
    exact (hstores.isDeclared hcalls a ha).length_le_size hvalue
  · intro calls' hperm hfiles hpositions hstd
    exact build_eq_of_perm hperm hfiles hpositions hstd

end Configuration

end Concolic
