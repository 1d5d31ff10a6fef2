/-
# Which engine is started

Engines are started one after the other and each gets a number, so which engine a piece of work is
given depends on how many have been started before it.  To say what work comes to *with the same
engine*, however many were started, a machine is pinned to a number: all its engines are started
like the one with that number (`Machine.pinned`).

* Work that starts no engine does the same on both machines (`Action.run_eq_of_launches_eq`), and so
  does work that starts one, if the machine is pinned to the number that is next
  (`Action.run_eq_run_pinned`).
* How many engines confined work starts does not depend on its surroundings
  (`Action.Confined.launches_congr`).
* The work on a document of a batch starts one engine if the document loads, and none otherwise
  (`launches_processOne`).
-/
import Concolic.Proofs.Run.Confined
import Concolic.Run.Batch

namespace Concolic

open FileTree (GrowsBelow SameWithin)

variable {P S σ α β : Type} {m : Machine P S σ} {h h' : Host P S σ} {n : Nat}

/-! ## Pinned machines -/

/-- The machine that starts all its engines as this one starts the engine with the number. -/
def Machine.pinned (m : Machine P S σ) (n : Nat) : Machine P S σ where
  launch _ command := m.launch n command
  engine := m.engine
  close := m.close

/-- All engines of a pinned machine are started alike. -/
lemma Machine.pinned_alike (m : Machine P S σ) (n : Nat) (command : EngineCommand) :
    ∀ k, (m.pinned n).launch k command = (m.pinned n).launch 0 command := fun _ => rfl

namespace Operation

/-- The operation starts no engine. -/
def StartsNone : Operation P S → Prop
  | .launch _ => False
  | _ => True

/-- How many engines the operation starts. -/
def launches : Operation P S → Nat
  | .launch _ => 1
  | _ => 0

lemma StartsNone.launches {op : Operation P S} (hop : op.StartsNone) : op.launches = 0 := by
  cases op with
  | launch command => exact hop.elim
  | file | ask | close | tell | print | stamp => rfl

lemma IsPlain.startsNone {op : Operation P S} (hop : op.IsPlain) : op.StartsNone := by
  cases op with
  | launch command => exact hop.elim
  | file | ask | close | tell | print | stamp => trivial

end Operation

namespace Host

lemma launches_perform (op : Operation P S) :
    (h.perform m op).2.launches = h.launches + op.launches := by
  cases op with
  | launch command =>
    rcases hl : m.launch h.launches command with ⟨_ | _, _⟩ <;>
      simp [perform, hl, Operation.launches]
  | ask call => rcases hs : h.session with _ | s <;> simp [perform, hs, Operation.launches]
  | close => rcases hs : h.session with _ | s <;> simp [perform, hs, Operation.launches]
  | file | tell | print | stamp => rfl

/-- A machine that is pinned to the next number does what the machine does. -/
lemma perform_pinned (op : Operation P S) :
    h.perform (m.pinned h.launches) op = h.perform m op := by
  cases op <;> rfl

lemma perform_pinned_of_startsNone {op : Operation P S} (hop : op.StartsNone) :
    h.perform (m.pinned n) op = h.perform m op := by
  cases op with
  | launch command => exact hop.elim
  | file | ask | close | tell | print | stamp => rfl

end Host

namespace Action

/-- No engine that has been started is forgotten. -/
lemma launches_le_run (x : Action P S α) : h.launches ≤ (x.run m h).2.launches := by
  induction x generalizing h with
  | done a => exact Nat.le_refl _
  | step op next ih =>
    have hone := Host.launches_perform (m := m) (h := h) op
    have hrest := ih (h.perform m op).1 (h := (h.perform m op).2)
    rw [run_step]
    omega

/-- A run that starts no engine does not depend on how engines are started. -/
lemma run_eq_of_launches_eq {x : Action P S α}
    (hx : (x.run (m.pinned n) h).2.launches = h.launches) :
    x.run m h = x.run (m.pinned n) h := by
  induction x generalizing h with
  | done a => rfl
  | step op next ih =>
    rw [run_step] at hx
    have hone := Host.launches_perform (m := m.pinned n) (h := h) op
    have hrest := launches_le_run (m := m.pinned n) (h := (h.perform (m.pinned n) op).2)
      (next (h.perform (m.pinned n) op).1)
    have hop : op.StartsNone := by
      cases op with
      | launch command =>
        have hstarts : (Operation.launch command : Operation P S).launches = 1 := rfl
        omega
      | file | ask | close | tell | print | stamp => trivial
    have hnone := hop.launches
    have hnext := ih (h.perform (m.pinned n) op).1 (h := (h.perform (m.pinned n) op).2) (by omega)
    rw [run_step, run_step, ← Host.perform_pinned_of_startsNone (n := n) hop]
    exact hnext

/-- A run that starts one engine at most is the same on the machine that is pinned to the next
number. -/
lemma run_eq_run_pinned {x : Action P S α}
    (hx : (x.run (m.pinned h.launches) h).2.launches ≤ h.launches + 1) :
    x.run m h = x.run (m.pinned h.launches) h := by
  generalize hn : h.launches = n at hx
  induction x generalizing h with
  | done a => rfl
  | step op next ih =>
    rw [run_step] at hx
    have hone := Host.launches_perform (m := m.pinned n) (h := h) op
    have hsame : h.perform (m.pinned n) op = h.perform m op := by
      rw [← hn, Host.perform_pinned]
    rw [run_step, run_step, ← hsame]
    by_cases hop : op.launches = 0
    · exact ih (h.perform (m.pinned n) op).1 (h := (h.perform (m.pinned n) op).2) (by omega) hx
    · -- the one engine has been started, so the rest starts none
      have hrest := launches_le_run (m := m.pinned n) (h := (h.perform (m.pinned n) op).2)
        (next (h.perform (m.pinned n) op).1)
      exact run_eq_of_launches_eq (by omega)

variable {p : Operation P S → Prop} {x : Action P S α}

/-- Work that starts no engine leaves their number. -/
lemma Uses.launches_run (hx : x.Uses p) (hp : ∀ op, p op → op.StartsNone) :
    (x.run m h).2.launches = h.launches := by
  refine hx.run_keeps Host.launches fun op h hop => ?_
  rw [Host.launches_perform, (hp op hop).launches, Nat.add_zero]

/-- How many engines confined work starts does not depend on its surroundings. -/
lemma Confined.launches_congr {t₀ : FileTree} {base : Location} {name : Bytes}
    {command : EngineCommand} {known : Bool}
    (alike : ∀ n, m.launch n command = m.launch 0 command)
    (hx : x.Confined t₀ base name command known) (hh : h.Alike t₀ base name known h') :
    (x.run m h').2.launches + h.launches = (x.run m h).2.launches + h'.launches := by
  induction x generalizing h h' known with
  | done a => exact Nat.add_comm _ _
  | step op next ih =>
    obtain ⟨hop, hnext⟩ := hx
    obtain ⟨hanswer, hh'⟩ := Host.perform_congr alike hop hh
    have hrest := ih _ (hnext _ (Host.perform_canAnswer hh.grows)) hh'
    have hone := Host.launches_perform (m := m) (h := h) op
    have hone' := Host.launches_perform (m := m) (h := h') op
    rw [run_step, run_step, hanswer]
    omega

end Action

/-! ## Documents that load -/

lemma Operation.Reads.startsNone {op : Operation P S} (hop : op.Reads) : op.StartsNone := by
  cases op with
  | launch command => exact hop.elim
  | file | ask | close | tell | print | stamp => trivial

/-- The configuration of the document can be loaded. -/
def Loads (m : Machine P S σ) (h : Host P S σ) (document : Path) : Prop :=
  ∃ c h', (loadConfiguration document).runOn m h = (.ok c, h')

/-- Whether a document loads can be seen from the files. -/
lemma loads_congr {m' : Machine P S σ} {document : Path} (hfiles : h'.files = h.files) :
    Loads m' h' document ↔ Loads m h document := by
  have hresult : ((loadConfiguration document : Work P S _).runOn m' h').1
      = ((loadConfiguration document : Work P S _).runOn m h).1 :=
    (uses_reads_loadConfiguration document).run_fst_eq hfiles
  constructor
  · rintro ⟨c, after, hload⟩
    rw [hload] at hresult
    exact ⟨c, ((loadConfiguration document).runOn m h).2, Prod.ext hresult.symm rfl⟩
  · rintro ⟨c, after, hload⟩
    rw [hload] at hresult
    exact ⟨c, ((loadConfiguration document).runOn m' h').2, Prod.ext hresult rfl⟩

/-! ## The work on a document -/

variable {command : EngineCommand} {policy : Policy} {r : RunDirectory} {document : Path}

/-- Work with an engine of its own starts this one. -/
lemma Work.launches_withEngine {w : Work P S α} (hw : w.Uses Operation.StartsNone) :
    ((Work.withEngine command w).runOn m h).2.launches = h.launches + 1 := by
  have hstart := Host.launches_perform (m := m) (h := h) (.launch command)
  rw [Work.withEngine, Work.runOn_bind, Work.runOn_lift]
  rcases hlaunch : (Action.ask (.launch command) : Action P S _).run m h with ⟨started, h₁⟩
  have hperform : h.perform m (.launch command) = (started, h₁) := hlaunch
  rw [hperform] at hstart
  rcases started with e | _
  · exact hstart
  · have hwork : (w.run.run m h₁).2.launches = h₁.launches := hw.launches_run fun _ => id
    have hclose := Host.launches_perform (m := m) (h := (w.run.run m h₁).2) .close
    simp only [Work.runOn_bind, Work.runOn_lift, Work.runOn_orFail]
    exact hclose.trans (hwork.trans hstart)

/-- **The work on a document of a batch starts one engine if the document loads**, and no engine
otherwise. -/
lemma launches_processOne :
    (Loads m h document →
      ((processOne command policy r document).runOn m h).2.launches = h.launches + 1) ∧
    (¬ Loads m h document →
      ((processOne command policy r document).runOn m h).2.launches = h.launches) := by
  have hload : ∀ h : Host P S σ,
      ((loadConfiguration document : Work P S _).runOn m h).2.launches = h.launches := fun h =>
    (uses_reads_loadConfiguration document).launches_run fun _ => Operation.Reads.startsNone
  rw [processOne, Work.runOn_bind, Work.runOn_tell]
  simp only
  generalize htold : ({ h with events := h.events ++ [batchEvent .info
    s!"Processing {document.display}"] } : Host P S σ) = told
  have hloads : Loads m h document ↔ Loads m told document :=
    (loads_congr (by rw [← htold])).symm
  have hnumber : told.launches = h.launches := by rw [← htold]
  rw [hloads, ← hnumber, Work.runOn_bind]
  rcases hrun : (loadConfiguration document).runOn m told with ⟨e | c, h₁⟩
  · refine ⟨?_, ?_⟩
    · rintro ⟨c, after, hok⟩
      rw [hrun] at hok
      exact nomatch congrArg Prod.fst hok
    · intro _
      have hsame := hload told
      rwa [hrun] at hsame
  · refine ⟨?_, ?_⟩
    · intro _
      have hsame := hload told
      rw [hrun] at hsame
      rw [Work.launches_withEngine ((uses_isPlain_process c).mono fun _ =>
        Operation.IsPlain.startsNone), ← hsame]
    · intro hnot
      exact absurd ⟨c, h₁, hrun⟩ hnot

end Concolic
