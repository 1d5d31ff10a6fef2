/-
# Configurations that can be bound

The positions of the arguments of a configuration are the places of the argument vector, so they
must leave no gap.  Binding compares the arguments with the places one by one and never looks
ahead.  This finds the first gap because the arguments of a configuration that has been built
stand in the order of their positions: an argument that is not at the place where it is found
stands behind it, and so do all arguments that follow.
-/
import Concolic.Proofs.Binding
import Concolic.Proofs.Configuration.Construction

namespace Concolic.Configuration

/-- Arguments are declared for all positions below their number, and for no other ones. -/
def IsDense (c : Configuration) : Prop :=
  ∀ i, (∃ a ∈ c.arguments, a.index = i) ↔ i < c.arguments.length

/-- It is the first position that no argument is declared for. -/
structure IsFirstGap (c : Configuration) (missing : Nat) : Prop where
  /-- No argument is declared for it. -/
  free : ∀ a ∈ c.arguments, a.index ≠ missing
  /-- An argument is declared for every position before it. -/
  taken : ∀ i < missing, ∃ a ∈ c.arguments, a.index = i

/-- The bound inputs hold every argument at its own position, the paths of the files behind all
arguments, and in the table of files the declared ones, the standard input last. -/
structure IsBoundTo (c : Configuration) (b : BoundInputs) : Prop where
  /-- There is a place for every argument and every file. -/
  length : b.arguments.length = c.arguments.length + c.files.length
  /-- A concrete argument is its bytes, as they are. -/
  concrete : ∀ a ∈ c.arguments, ∀ bytes, a.literal = some bytes →
    b.arguments[a.index]? = some (.concrete bytes)
  /-- A symbolic argument is to be found, under its name and in its width. -/
  symbolic : ∀ a ∈ c.arguments, a.literal = none →
    b.arguments[a.index]? = some (.symbolic ⟨a.name, a.size⟩)
  /-- The paths of the files follow in the order of declaration. -/
  paths : ∀ k f, c.files[k]? = some f →
    b.arguments[c.arguments.length + k]? = some (.concrete (Utf8.encode f.path))
  /-- The files that are simulated are the declared ones. -/
  table : b.fileTable = (c.files.map fun f => ⟨f.path, ⟨f.path, f.size⟩⟩)
    ++ c.standardInput.toList.map fun size => ⟨"/dev/stdin", ⟨"crete-stdin", size⟩⟩

variable {c : Configuration} {b : BoundInputs} {p p' position : Nat} {as : List Argument}

lemma IsFirstGap.unique (h : c.IsFirstGap p) (h' : c.IsFirstGap p') : p = p' := by
  rcases Nat.lt_trichotomy p p' with hlt | heq | hlt
  · obtain ⟨a, ha, hindex⟩ := h'.taken p hlt
    exact absurd hindex (h.free a ha)
  · exact heq
  · obtain ⟨a, ha, hindex⟩ := h.taken p' hlt
    exact absurd hindex (h'.free a ha)

/-- Arguments that stand in the order of their positions are all found at their places, or there
is a first place that is skipped. -/
lemma bindArguments_cases (hsorted : as.Pairwise (·.index < ·.index))
    (hle : ∀ a ∈ as, position ≤ a.index) :
    bindArguments position as = .ok (as.map Binding.ofArgument) ∧
        as.map Argument.index = List.range' position as.length ∨
      ∃ p, bindArguments position as = .error ⟨p⟩ ∧ position ≤ p ∧ (∀ a ∈ as, a.index ≠ p) ∧
        (∀ i, position ≤ i → i < p → ∃ a ∈ as, a.index = i) ∧ ∃ a ∈ as, p < a.index := by
  induction as generalizing position with
  | nil => exact .inl ⟨rfl, rfl⟩
  | cons a as ih =>
    obtain ⟨hafter, hsorted⟩ := List.pairwise_cons.mp hsorted
    obtain ⟨ha, -⟩ := List.forall_mem_cons.mp hle
    by_cases hindex : a.index = position
    · have hle' : ∀ x ∈ as, position + 1 ≤ x.index := fun x hx => hindex ▸ hafter x hx
      rcases ih hsorted hle'
        with ⟨hbound, hrange⟩ | ⟨p, hbound, hle, hfree, htaken, x, hx, hlt⟩
      · refine .inl ⟨by simp [bindArguments, hindex, hbound], ?_⟩
        rw [List.map_cons, hrange, hindex, List.length_cons, List.range'_succ]
      · refine .inr ⟨p, by simp [bindArguments, hindex, hbound], Nat.le_of_succ_le hle, ?_, ?_, x,
          List.mem_cons_of_mem a hx, hlt⟩
        · refine List.forall_mem_cons.mpr ⟨?_, hfree⟩
          omega
        · intro i hi hip
          rcases Nat.eq_or_lt_of_le hi with rfl | hi
          · exact ⟨a, List.mem_cons_self, hindex⟩
          · obtain ⟨x, hx, hxi⟩ := htaken i hi hip
            exact ⟨x, List.mem_cons_of_mem a hx, hxi⟩
    · -- the first argument stands behind its place, and all others behind the first
      have hlt : position < a.index := Nat.lt_of_le_of_ne ha (Ne.symm hindex)
      refine .inr ⟨position, by rw [bindArguments, if_neg hindex], Nat.le_refl position, ?_, ?_, a,
        List.mem_cons_self, hlt⟩
      · intro x hx
        rcases List.mem_cons.mp hx with rfl | hx
        · exact hindex
        · have hax := hafter x hx
          omega
      · intro i hi hip
        omega

/-- A configuration that has been built is bound if its arguments have the positions from zero
on, and otherwise it has a first gap with an argument behind it. -/
lemma bound_cases (hc : c.IsBuilt) :
    (∃ b, c.bound = .ok b) ∧ c.arguments.map Argument.index = List.range c.arguments.length ∨
      ∃ p, c.bound = .error ⟨p⟩ ∧ c.IsFirstGap p ∧ ∃ a ∈ c.arguments, p < a.index := by
  have hle : ∀ a ∈ c.arguments, 0 ≤ a.index := fun a _ => Nat.zero_le a.index
  rcases bindArguments_cases hc.pairwise_index_lt hle
    with ⟨hbound, hrange⟩ | ⟨p, hbound, -, hfree, htaken, hbehind⟩
  · refine .inl ⟨⟨_, by rw [bound, hbound]⟩, ?_⟩
    rw [hrange, List.range_eq_range']
  · exact .inr ⟨p, by rw [bound, hbound], ⟨hfree, fun i => htaken i (Nat.zero_le i)⟩, hbehind⟩

lemma exists_bound_iff_isDense (hc : c.IsBuilt) : (∃ b, c.bound = .ok b) ↔ c.IsDense := by
  rcases bound_cases hc with ⟨hbound, hrange⟩ | ⟨p, hbound, hgap, a, ha, hlt⟩
  · refine iff_of_true hbound fun i => ?_
    rw [← List.mem_range, ← hrange, List.mem_map]
  · refine iff_of_false (by simp [hbound]) fun hdense => ?_
    -- the positions before the gap are declared, so it is at the end, but an argument is behind it
    have hend : ¬ p < c.arguments.length := fun hp =>
      (hdense p).mpr hp |>.elim fun x hx => hgap.free x hx.1 hx.2
    have hinside := (hdense a.index).mp ⟨a, ha, rfl⟩
    omega

lemma bound_eq_error_iff (hc : c.IsBuilt) :
    c.bound = .error ⟨p⟩ ↔ ¬ c.IsDense ∧ c.IsFirstGap p := by
  rw [← exists_bound_iff_isDense hc]
  rcases bound_cases hc with ⟨⟨b, hb⟩, -⟩ | ⟨p', hbound, hgap, -⟩
  · simp [hb]
  · constructor
    · intro h
      obtain rfl : p' = p := by simpa [hbound] using h
      exact ⟨by simp [hbound], hgap⟩
    · rintro ⟨-, hgap'⟩
      rw [hbound, hgap.unique hgap']

/-- Every argument is at the place of its position. -/
lemma getElem?_arguments_index (hc : c.IsBuilt) (h : c.bound = .ok b) {a : Argument}
    (ha : a ∈ c.arguments) : c.arguments[a.index]? = some a := by
  rcases bound_cases hc with ⟨-, hrange⟩ | ⟨p, hbound, -⟩
  · obtain ⟨i, hi, rfl⟩ := List.mem_iff_getElem.mp ha
    have hindex : (c.arguments[i]).index = i := by
      rw [← List.getElem_map Argument.index (h := by simpa using hi)]
      simp only [hrange, List.getElem_range]
    rw [hindex, List.getElem?_eq_getElem hi]
  · rw [hbound] at h
    exact absurd h (by simp)

lemma isBoundTo_of_bound (hc : c.IsBuilt) (h : c.bound = .ok b) : c.IsBoundTo b := by
  obtain ⟨harguments, hfiles, hstandardInput⟩ := eq_of_bound_eq_ok h
  have hplace : ∀ a ∈ c.arguments, b.arguments[a.index]? = some (Binding.ofArgument a) := by
    intro a ha
    have hat := getElem?_arguments_index hc h ha
    have hmap : (c.arguments.map Binding.ofArgument)[a.index]? = some (Binding.ofArgument a) := by
      rw [List.getElem?_map, hat, Option.map_some]
    rw [harguments, List.getElem?_append_left (List.getElem?_eq_some_iff.mp hmap).1, hmap]
  refine ⟨?_, ?_, ?_, ?_, ?_⟩
  · rw [harguments, List.length_append, List.length_map, List.length_map]
  · intro a ha bytes hliteral
    rw [hplace a ha, Binding.ofArgument, hliteral]
  · intro a ha hliteral
    rw [hplace a ha, Binding.ofArgument, hliteral]
  · intro k f hf
    have hlength : (c.arguments.map Binding.ofArgument).length = c.arguments.length :=
      List.length_map _
    rw [harguments, ← hlength, List.getElem?_append_right (Nat.le_add_right _ k),
      Nat.add_sub_cancel_left, List.getElem?_map, hf, Option.map_some]
  · rw [BoundInputs.fileTable, hfiles, hstandardInput]
    cases c.standardInput <;> rfl

/-- **Binding asks for arguments without a gap, and puts every input into its place.**  Take a
configuration that any calls have built.  It is bound if and only if the positions of its
arguments are those below their number, where the program itself is at position zero.  If they
are not, then the first position for which there is no argument is told.  If they are, then every
argument is at its own position of the argument vector: a concrete one with its bytes, which are
not padded, and a symbolic one as so many bytes to be found.  The paths of the files follow in
the order of declaration, and the table of files holds the declared files and then the standard
input, if there is one, in their declared widths. -/
theorem bind_fills_places (executable : Path) (calls : List Addition) :
    let c := build executable calls
    ((∃ b, c.bind.result = .ok b) ↔ c.IsDense) ∧
      (∀ p, c.bind.result = .error ⟨p⟩ ↔ ¬ c.IsDense ∧ c.IsFirstGap p) ∧
      ∀ b, c.bind.result = .ok b → c.IsBoundTo b := by
  intro c
  have hc : c.IsBuilt := ⟨executable, calls, rfl⟩
  rw [bind_result]
  exact ⟨exists_bound_iff_isDense hc, fun _ => bound_eq_error_iff hc,
    fun _ hb => isBoundTo_of_bound hc hb⟩

/-- Arguments that are declared in another order than that of their positions, one of them with a
value that is narrower than its width; and an argument that leaves two gaps. -/
theorem bind_fills_places_unordered :
    let program : Path := .ofString "/bin/tool"
    let c := build program [.argument (.argument (.symbolic 2 4 [])),
      .argument (.argument (.concrete 1 [45, 110] 10)), .file (.file ⟨"/in/a", 3⟩)]
    let gapped := build program [.argument (.argument (.symbolic 3 4 []))]
    (∃ b, c.bind.result = .ok b ∧ c.IsDense ∧ b.arguments[1]? = some (.concrete [45, 110]) ∧
        b.arguments[2]? = some (.symbolic ⟨"argv_2", 4⟩) ∧
        b.arguments[3]? = some (.concrete (Utf8.encode "/in/a")) ∧
        b.fileTable = [⟨"/in/a", ⟨"/in/a", 3⟩⟩]) ∧
      gapped.bind.result = .error ⟨1⟩ ∧ gapped.IsFirstGap 1 := by
  intro program c gapped
  have hb : ∃ b, c.bind.result = .ok b := ⟨⟨[.concrete (Utf8.encode "/bin/tool"),
    .concrete [45, 110], .symbolic ⟨"argv_2", 4⟩, .concrete (Utf8.encode "/in/a")],
    [⟨"/in/a", ⟨"/in/a", 3⟩⟩], none⟩, by decide +kernel⟩
  have hgap : gapped.bind.result = .error ⟨1⟩ := by decide +kernel
  refine ⟨?_, hgap, (((bind_fills_places program _).2.1 1).mp hgap).2⟩
  obtain ⟨hdense, -, hplaces⟩ := bind_fills_places program
    [.argument (.argument (.symbolic 2 4 [])), .argument (.argument (.concrete 1 [45, 110] 10)),
      .file (.file ⟨"/in/a", 3⟩)]
  obtain ⟨b, hb⟩ := hb
  have hbound := hplaces b hb
  exact ⟨b, hb, hdense.mp ⟨b, hb⟩,
    hbound.concrete (.concrete 1 [45, 110] 10) (by decide +kernel) _ rfl,
    hbound.symbolic (.symbolic 2 4 []) (by decide +kernel) rfl,
    hbound.paths 0 ⟨"/in/a", 3⟩ (by decide +kernel), hbound.table⟩

end Concolic.Configuration
