/-
# What the declared inputs are bound to

Binding goes through the arguments position by position, so if it succeeds there is one entry
of the argument vector for each of them, in the same order; the paths of the files follow, and
they are concrete.  What is to be found in the argument vector is therefore exactly what the
symbolic arguments declare, and the simulated files are the declared ones.
-/
import Concolic.Binding
import Mathlib.Tactic.Common

namespace Concolic

/-- What is to be found for an argument. -/
def Argument.unknown (a : Argument) : Unknown := ⟨a.name, a.size⟩

lemma Binding.unknown?_ofArgument (a : Argument) :
    (Binding.ofArgument a).unknown? = if a.isSymbolic then some a.unknown else none := by
  unfold Binding.ofArgument Argument.isSymbolic
  cases a.literal <;> rfl

namespace Configuration

variable {c : Configuration} {b : BoundInputs}

@[simp] lemma bind_result : c.bind.result = c.bound := by
  unfold bind
  split
  · rename_i b hb
    exact hb.symm
  · rename_i e he
    exact he.symm

lemma eq_map_of_bindArguments_eq_ok {position : Nat} {as : List Argument} {bs : List Binding}
    (h : bindArguments position as = .ok bs) : bs = as.map Binding.ofArgument := by
  induction as generalizing position bs with
  | nil => exact (Except.ok.inj h).symm
  | cons a as ih =>
    rw [bindArguments] at h
    split at h
    · split at h
      · rename_i bs' hbs'
        rw [← Except.ok.inj h, ih hbs', List.map_cons]
      · exact absurd h (by simp)
    · exact absurd h (by simp)

/-- The argument vector starts with an entry for every argument, and the tables of files have
an entry for every file. -/
lemma eq_of_bound_eq_ok (h : c.bound = .ok b) :
    b.arguments = c.arguments.map Binding.ofArgument
        ++ c.files.map (fun f => .concrete (Utf8.encode f.path)) ∧
      b.files = c.files.map InputFile.simulated ∧
      b.standardInput = c.standardInput.map SimulatedFile.standardInput := by
  unfold bound at h
  split at h
  · exact absurd h (by simp)
  · rename_i bs hbs
    rw [← Except.ok.inj h, eq_map_of_bindArguments_eq_ok hbs]
    exact ⟨rfl, rfl, rfl⟩

/-- The unknowns in the argument vector are those of the symbolic arguments: the entries for
concrete arguments and for the paths of files have none. -/
lemma unknownArguments_of_bound (h : c.bound = .ok b) :
    b.unknownArguments = c.symbolicArguments.map Argument.unknown := by
  have hargs : ∀ as : List Argument, (as.map Binding.ofArgument).filterMap Binding.unknown?
      = (as.filter Argument.isSymbolic).map Argument.unknown := by
    intro as
    induction as with
    | nil => rfl
    | cons a as ih =>
      rw [List.map_cons, List.filterMap_cons, Binding.unknown?_ofArgument, ih]
      by_cases ha : a.isSymbolic = true
      · simp [ha]
      · simp [ha]
  have hfiles : ∀ fs : List InputFile,
      (fs.map fun f => Binding.concrete (Utf8.encode f.path)).filterMap Binding.unknown? = [] := by
    intro fs
    simp [List.filterMap_map, Function.comp_def, Binding.unknown?]
  rw [BoundInputs.unknownArguments, (eq_of_bound_eq_ok h).1, List.filterMap_append, hargs, hfiles,
    List.append_nil, symbolicArguments]

end Configuration

end Concolic
