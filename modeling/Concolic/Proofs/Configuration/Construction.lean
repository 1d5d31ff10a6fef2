/-
# How configurations come about

A configuration is made for a program and then grows by calls that add one input each; a call
that fails leaves it as it was.  A document that is read makes the same calls, so whatever
holds of the configurations that calls build holds of the loaded ones too.

The invariant that is needed most is that the arguments stand in the order of their positions
and that no position is taken twice.  It makes a search for a position meaningful, and adding an
argument does what such a search tells (`IsBuilt.addArgument_by_search`).
-/
import Concolic.Configuration.Document
import Concolic.Proofs.Log.Traced

namespace Concolic.Configuration

/-! ## Calls -/

/-- A call that adds an input to a configuration; the input need not be of the right kind. -/
inductive Addition where
  /-- Add an argument. -/
  | argument (i : Input)
  /-- Add a file. -/
  | file (i : Input)
  /-- Set the standard input. -/
  | standardInput (i : Input)
  deriving DecidableEq, Repr

/-- What a call comes to. -/
def add (c : Configuration) : Addition → Except Error Configuration
  | .argument i => c.addArgument i
  | .file i => c.addFile i
  | .standardInput i => c.setStandardInput i

/-- The configuration after a call; one that fails leaves it as it is. -/
def after (c : Configuration) (a : Addition) : Configuration :=
  match c.add a with
  | .ok c' => c'
  | .error _ => c

/-- The configuration of a program after a sequence of calls. -/
def build (executable : Path) (calls : List Addition) : Configuration :=
  calls.foldl after (new executable)

/-- A sequence of calls leads to the configuration. -/
def IsBuilt (c : Configuration) : Prop := ∃ executable calls, c = build executable calls

/-- The configuration is declared by a document. -/
def IsLoaded (c : Configuration) : Prop :=
  ∃ isFile document, (ofDocument isFile document).result = .ok c

/-- What a call can do: it adds an argument at a free position, a file at a free path, or the
standard input if there is none. -/
lemma add_eq_ok {c c' : Configuration} {call : Addition} (h : c.add call = .ok c') :
    (∃ a, call = .argument (.argument a) ∧ a.index ≠ 0
        ∧ (∀ b ∈ c.arguments, b.index ≠ a.index)
        ∧ c' = { c with arguments := insertArgument a c.arguments }) ∨
      (∃ f, call = .file (.file f) ∧ (∀ g ∈ c.files, g.path ≠ f.path)
        ∧ c' = { c with files := c.files ++ [f] }) ∨
      ∃ size, call = .standardInput (.standardInput size) ∧ c.standardInput = none
        ∧ c' = { c with standardInput := some size } := by
  match call with
  | .argument (.argument a) =>
    simp only [add, addArgument] at h
    split at h
    · exact absurd h (by simp)
    rename_i hzero
    split at h
    · exact absurd h (by simp)
    rename_i hany
    obtain rfl := Except.ok.inj h
    refine .inl ⟨a, rfl, hzero, fun b hb hne => hany ?_, rfl⟩
    exact List.any_eq_true.mpr ⟨b, hb, by simpa using hne⟩
  | .file (.file f) =>
    simp only [add, addFile] at h
    split at h
    · exact absurd h (by simp)
    rename_i hany
    obtain rfl := Except.ok.inj h
    refine .inr (.inl ⟨f, rfl, fun g hg hne => hany ?_, rfl⟩)
    exact List.any_eq_true.mpr ⟨g, hg, by simpa using hne⟩
  | .standardInput (.standardInput size) =>
    simp only [add, setStandardInput] at h
    split at h
    · exact absurd h (by simp)
    rename_i hnone
    obtain rfl := Except.ok.inj h
    exact .inr (.inr ⟨size, rfl, by simpa using hnone, rfl⟩)
  | .argument (.file _) | .argument (.standardInput _) | .file (.argument _)
  | .file (.standardInput _) | .standardInput (.argument _) | .standardInput (.file _) =>
    exact absurd h (by simp [add, addArgument, addFile, setStandardInput])

lemma isBuilt_new (executable : Path) : (new executable).IsBuilt := ⟨executable, [], rfl⟩

lemma IsBuilt.of_add {c c' : Configuration} {a : Addition} (hc : c.IsBuilt)
    (ha : c.add a = .ok c') : c'.IsBuilt := by
  obtain ⟨executable, calls, rfl⟩ := hc
  refine ⟨executable, calls ++ [a], ?_⟩
  rw [build, List.foldl_append, List.foldl_cons, List.foldl_nil, ← build, after, ha]

/-- What holds of a configuration without inputs and is preserved by every call that succeeds
holds of all configurations that calls lead to. -/
lemma IsBuilt.induction {p : Configuration → Prop} (hnew : ∀ executable, p (new executable))
    (hadd : ∀ c a c', p c → c.add a = .ok c' → p c') {c : Configuration} (hc : c.IsBuilt) :
    p c := by
  obtain ⟨executable, calls, rfl⟩ := hc
  have hall : ∀ (calls : List Addition) (c : Configuration), p c → p (calls.foldl after c) := by
    intro calls
    induction calls with
    | nil => exact fun c hc => hc
    | cons a calls ih =>
      intro c hc
      refine ih (c.after a) ?_
      rcases ha : c.add a with e | c'
      · -- the call fails and leaves the configuration as it is
        rwa [after, ha]
      · rw [after, ha]
        exact hadd c a c' hc ha
  exact hall calls _ (hnew executable)

/-! ## Documents -/

lemma isBuilt_of_declareArgument {c c' : Configuration} {n : Xml.Node} (hc : c.IsBuilt)
    (h : (declareArgument c n).result = .ok c') : c'.IsBuilt := by
  obtain ⟨i, -, h⟩ := Traced.result_bind_eq_ok_iff.mp h
  obtain ⟨-, -, h⟩ := Traced.result_bind_eq_ok_iff.mp h
  exact hc.of_add (a := .argument i) h

lemma isBuilt_of_declareFile {c c' : Configuration} {n : Xml.Node} (hc : c.IsBuilt)
    (h : (declareFile c n).result = .ok c') : c'.IsBuilt := by
  obtain ⟨i, -, h⟩ := Traced.result_bind_eq_ok_iff.mp h
  obtain ⟨-, -, h⟩ := Traced.result_bind_eq_ok_iff.mp h
  exact hc.of_add (a := .file i) h

lemma isBuilt_of_declareStandardInput {c c' : Configuration} {ns : List Xml.Node}
    (hc : c.IsBuilt) (h : (declareStandardInput c ns).result = .ok c') : c'.IsBuilt := by
  match ns with
  | [] =>
    obtain rfl := Except.ok.inj h
    exact hc
  | [n] =>
    obtain ⟨found, -, h⟩ := Traced.result_bind_eq_ok_iff.mp h
    cases found with
    | none =>
      obtain ⟨-, -, h⟩ := Traced.result_bind_eq_ok_iff.mp h
      obtain rfl := Except.ok.inj h
      exact hc
    | some i =>
      obtain ⟨-, -, h⟩ := Traced.result_bind_eq_ok_iff.mp h
      exact hc.of_add (a := .standardInput i) h
  | _ :: _ :: _ => exact absurd h (by simp [declareStandardInput])

lemma isBuilt_of_ofTree {isFile : Path → Bool} {root : Xml.Node} {c : Configuration}
    (h : (ofTree isFile root).result = .ok c) : c.IsBuilt := by
  obtain ⟨executable, -, h⟩ := Traced.result_bind_eq_ok_iff.mp h
  split at h
  · obtain ⟨-, -, h⟩ := Traced.result_bind_eq_ok_iff.mp h
    obtain ⟨c₁, h₁, h⟩ := Traced.result_bind_eq_ok_iff.mp h
    obtain ⟨c₂, h₂, h⟩ := Traced.result_bind_eq_ok_iff.mp h
    have hc₁ : c₁.IsBuilt := Traced.result_foldlM_induction
      (fun _ _ _ hc hn => isBuilt_of_declareArgument hc hn) (isBuilt_new executable) h₁
    have hc₂ : c₂.IsBuilt := Traced.result_foldlM_induction
      (fun _ _ _ hc hn => isBuilt_of_declareFile hc hn) hc₁ h₂
    exact isBuilt_of_declareStandardInput hc₂ h
  · exact absurd h (by simp)

/-- Loaded configurations are built by the calls that the elements of the document make. -/
lemma IsLoaded.isBuilt {c : Configuration} (hc : c.IsLoaded) : c.IsBuilt := by
  obtain ⟨isFile, document, h⟩ := hc
  obtain ⟨root, -, h⟩ := Traced.result_bind_eq_ok_iff.mp h
  exact isBuilt_of_ofTree h

/-! ## The order of arguments -/

section Order

variable {a b : Argument} {l before after : List Argument} {index : Nat}

lemma perm_insertArgument (a : Argument) (l : List Argument) :
    (insertArgument a l).Perm (a :: l) := by
  induction l with
  | nil => exact .refl _
  | cons b l ih =>
    rw [insertArgument]
    split
    · exact .refl _
    · exact (ih.cons b).trans (.swap a b l)

lemma mem_insertArgument : b ∈ insertArgument a l ↔ b = a ∨ b ∈ l :=
  (perm_insertArgument a l).mem_iff.trans List.mem_cons

/-- An argument goes behind all with smaller positions and in front of all with larger ones. -/
lemma insertArgument_append (hbefore : ∀ b ∈ before, b.index < a.index)
    (hafter : ∀ b ∈ after, a.index < b.index) :
    insertArgument a (before ++ after) = before ++ a :: after := by
  induction before with
  | nil =>
    cases after with
    | nil => rfl
    | cons b after => exact if_pos (hafter b List.mem_cons_self)
  | cons b before ih =>
    obtain ⟨hb, hbefore⟩ := List.forall_mem_cons.mp hbefore
    rw [List.cons_append, insertArgument, if_neg (Nat.lt_asymm hb), ih hbefore, List.cons_append]

/-- A position that is free parts the others into smaller and larger ones. -/
lemma exists_append_of_free (hl : l.Pairwise (·.index < ·.index))
    (hfree : ∀ b ∈ l, b.index ≠ index) :
    ∃ before after, l = before ++ after ∧ (∀ b ∈ before, b.index < index) ∧
      ∀ b ∈ after, index < b.index := by
  induction l with
  | nil => exact ⟨[], [], rfl, by simp, by simp⟩
  | cons b l ih =>
    obtain ⟨hb, hl⟩ := List.pairwise_cons.mp hl
    obtain ⟨hne, hfree⟩ := List.forall_mem_cons.mp hfree
    rcases Nat.lt_or_gt_of_ne hne with hlt | hgt
    · obtain ⟨before, after, rfl, hbefore, hafter⟩ := ih hl hfree
      exact ⟨b :: before, after, rfl, List.forall_mem_cons.mpr ⟨hlt, hbefore⟩, hafter⟩
    · exact ⟨[], b :: l, rfl, by simp,
        List.forall_mem_cons.mpr ⟨hgt, fun x hx => Nat.lt_trans hgt (hb x hx)⟩⟩

lemma pairwise_insertArgument (hl : l.Pairwise (·.index < ·.index))
    (hfree : ∀ b ∈ l, b.index ≠ a.index) :
    (insertArgument a l).Pairwise (·.index < ·.index) := by
  obtain ⟨before, after, rfl, hbefore, hafter⟩ := exists_append_of_free hl hfree
  obtain ⟨hl₁, hl₂, hacross⟩ := List.pairwise_append.mp hl
  rw [insertArgument_append hbefore hafter]
  refine List.pairwise_append.mpr ⟨hl₁, List.pairwise_cons.mpr ⟨hafter, hl₂⟩, ?_⟩
  exact fun x hx => List.forall_mem_cons.mpr ⟨hbefore x hx, hacross x hx⟩

end Order

/-- The arguments stand in the order of their positions, and every position is taken once. -/
lemma IsBuilt.pairwise_index_lt {c : Configuration} (hc : c.IsBuilt) :
    c.arguments.Pairwise (·.index < ·.index) := by
  refine IsBuilt.induction (p := fun c => c.arguments.Pairwise (·.index < ·.index)) ?_ ?_ hc
  · intro executable
    simp [new]
  · intro c call c' hc hcall
    rcases add_eq_ok hcall with ⟨a, -, -, hfree, rfl⟩ | ⟨f, -, -, rfl⟩ | ⟨size, -, -, rfl⟩
    · exact pairwise_insertArgument hc hfree
    · exact hc
    · exact hc

/-- What a search for a position among arguments in the order of their positions may tell. -/
inductive IsSearched (l : List Argument) (index : Nat) : Except Nat Nat → Prop where
  /-- The argument with this number has the position. -/
  | found {n : Nat} {b : Argument} : l[n]? = some b → b.index = index → IsSearched l index (.ok n)
  /-- There is none, and one could be inserted under this number. -/
  | absent {n : Nat} : n ≤ l.length → (∀ b ∈ l.take n, b.index < index) →
    (∀ b ∈ l.drop n, index < b.index) → IsSearched l index (.error n)

/-- On the arguments of a configuration, a search for a position comes to one of the two. -/
lemma IsBuilt.exists_isSearched {c : Configuration} (hc : c.IsBuilt) (index : Nat) :
    ∃ told, IsSearched c.arguments index told := by
  by_cases hfree : ∀ b ∈ c.arguments, b.index ≠ index
  · obtain ⟨before, after, heq, hbefore, hafter⟩ :=
      exists_append_of_free hc.pairwise_index_lt hfree
    refine ⟨.error before.length, .absent ?_ ?_ ?_⟩
    · simp [heq]
    · simpa [heq] using hbefore
    · simpa [heq] using hafter
  · push Not at hfree
    obtain ⟨b, hb, hindex⟩ := hfree
    obtain ⟨n, hn⟩ := List.getElem?_of_mem hb
    exact ⟨.ok n, .found hn hindex⟩

/-- An argument that is found at the position is in the way of a new one. -/
lemma addArgument_of_found {c : Configuration} {a : Argument} {n : Nat} (hpos : a.index ≠ 0)
    (h : IsSearched c.arguments a.index (.ok n)) :
    c.addArgument (.argument a) = .error (.invalid (.duplicateIndex a.index)) := by
  obtain @⟨n, b, hn, hindex⟩ := h
  rw [addArgument, if_neg hpos]
  exact if_pos (List.any_eq_true.mpr ⟨b, List.mem_of_getElem? hn, decide_eq_true hindex⟩)

/-- If none is found, the new argument gets the number that the search tells. -/
lemma addArgument_of_absent {c : Configuration} {a : Argument} {n : Nat} (hpos : a.index ≠ 0)
    (h : IsSearched c.arguments a.index (.error n)) :
    c.addArgument (.argument a)
      = .ok { c with arguments := c.arguments.take n ++ a :: c.arguments.drop n } := by
  obtain _ | ⟨-, hbefore, hafter⟩ := h
  have hfree : ¬ c.arguments.any (·.index = a.index) = true := by
    rw [List.any_eq_true]
    rintro ⟨b, hb, hindex⟩
    have hindex := of_decide_eq_true hindex
    rw [← List.take_append_drop n c.arguments, List.mem_append] at hb
    rcases hb with hb | hb
    · exact absurd (hbefore b hb) (by omega)
    · exact absurd (hafter b hb) (by omega)
  rw [addArgument, if_neg hpos, if_neg hfree, ← insertArgument_append hbefore hafter,
    List.take_append_drop]

/-- **An argument is added where a search for its position ends.**  A search finds an argument with
the position or tells a number at which one can be inserted.  What is found is in the way, and a new
argument gets the number that is told. -/
theorem IsBuilt.addArgument_by_search {c : Configuration} (hc : c.IsBuilt) {a : Argument}
    (hpos : a.index ≠ 0) :
    (∃ told, IsSearched c.arguments a.index told) ∧
      (∀ n, IsSearched c.arguments a.index (.ok n) →
        c.addArgument (.argument a) = .error (.invalid (.duplicateIndex a.index))) ∧
      ∀ n, IsSearched c.arguments a.index (.error n) →
        c.addArgument (.argument a)
          = .ok { c with arguments := c.arguments.take n ++ a :: c.arguments.drop n } :=
  ⟨hc.exists_isSearched a.index, fun _ h => addArgument_of_found hpos h,
    fun _ h => addArgument_of_absent hpos h⟩

end Concolic.Configuration
