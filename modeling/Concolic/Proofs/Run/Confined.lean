/-
# Work that keeps to one entry

Several workers carry out work at the same time, in one tree of files.  Whether the work of one
of them depends on the others can be seen from its tree of steps: it does not if every operation
on files keeps to one entry of the directory in which all of them write (`FileTree.Stays`), and
if the engine is called only after it has been started or closed by the same work.

* `Action.Confined` says so for a tree of steps.  Only those ways on are followed that can be
  gone: the answer to an operation on files must be one that is given in some tree that has
  grown below the directory.
* `Host.perform_congr` and `Host.perform_frame` treat one step, `Action.Confined.run_congr` and
  `Action.Confined.run_frame` a whole run: in surroundings that are alike for the worker the run
  ends with the same result and the same files in the entry, and nothing else has changed.
-/
import Concolic.Proofs.FileTree.Confinement
import Concolic.Proofs.Run.Operations

namespace Concolic

open FileTree (GrowsBelow Within SameWithin Stays)

variable {P S σ α β : Type} {m : Machine P S σ} {h h' : Host P S σ}
  {t₀ : FileTree} {base : Location} {name : Bytes} {command : EngineCommand} {known : Bool}

/-! ## One operation -/

namespace Operation

/-- Does the answer show that an engine has been started or closed?  Then it is known which
engine is running. -/
def settles : (op : Operation P S) → op.Answer → Bool
  | .launch _, .ok _ => true
  | .close, _ => true
  | _, _ => false

/-- The operation keeps to the entry, and calls an engine only if it is known which one is
running; engines are started by the one command. -/
def Keeps (t₀ : FileTree) (base : Location) (name : Bytes) (command : EngineCommand)
    (known : Bool) : Operation P S → Prop
  | .file op => Stays t₀ base name op.run
  | .launch command' => command' = command
  | .ask _ => known = true
  | .close => True
  | .tell _ => True
  | .print _ => True
  | .stamp => False

/-- The operation can be answered like this while the tree grows below the directory. -/
def CanAnswer (t₀ : FileTree) (base : Location) : (op : Operation P S) → op.Answer → Prop
  | .file op, answer => ∃ t, GrowsBelow base t₀ t ∧ answer = (op.run t).1
  | _, _ => True

lemma Keeps.of_known {op : Operation P S} (hop : op.Keeps t₀ base name command known) :
    op.Keeps t₀ base name command true := by
  cases op with
  | ask call => rfl
  | file | launch | close | tell | print | stamp => exact hop

end Operation

/-- The surroundings are alike for work that keeps to the entry; they have the same engine if it
is known which one is running. -/
structure Host.Alike (t₀ : FileTree) (base : Location) (name : Bytes) (known : Bool)
    (h h' : Host P S σ) : Prop where
  grows : GrowsBelow base t₀ h.files
  grows' : GrowsBelow base t₀ h'.files
  same : SameWithin base name h.files h'.files
  session : known = true → h'.session = h.session

namespace Host

variable {op : Operation P S}

lemma perform_canAnswer (hg : GrowsBelow base t₀ h.files) :
    op.CanAnswer t₀ base (h.perform m op).1 := by
  cases op with
  | file op => exact ⟨h.files, hg, rfl⟩
  | launch | ask | close | tell | print | stamp => trivial

/-- **One step changes nothing outside the entry.** -/
lemma perform_frame (hop : op.Keeps t₀ base name command known)
    (hg : GrowsBelow base t₀ h.files) :
    GrowsBelow base t₀ (h.perform m op).2.files ∧
      ∀ q, ¬ Within base name q → (h.perform m op).2.files.node? q = h.files.node? q := by
  cases op with
  | file op => exact ⟨Stays.growsBelow hop hg, Stays.frame hop hg⟩
  | launch command =>
    rw [files_perform_launch]
    exact ⟨hg, fun _ _ => rfl⟩
  | ask call =>
    rw [files_perform_ask]
    exact ⟨hg, fun _ _ => rfl⟩
  | close =>
    rw [files_perform_close]
    exact ⟨hg, fun _ _ => rfl⟩
  | tell | print => exact ⟨hg, fun _ _ => rfl⟩
  | stamp => exact hop.elim

/-- **One step does the same in surroundings that are alike.** -/
lemma perform_congr (alike : ∀ n, m.launch n command = m.launch 0 command)
    (hop : op.Keeps t₀ base name command known) (hh : Alike t₀ base name known h h') :
    (h'.perform m op).1 = (h.perform m op).1 ∧
      Alike t₀ base name (known || op.settles (h.perform m op).1) (h.perform m op).2
        (h'.perform m op).2 := by
  cases op with
  | file op =>
    obtain ⟨hanswer, hsame⟩ := Stays.congr hop hh.grows hh.grows' hh.same
    exact ⟨hanswer, Stays.growsBelow hop hh.grows, Stays.growsBelow hop hh.grows', hsame,
      fun hknown => hh.session (by simpa [Operation.settles] using hknown)⟩
  | launch command' =>
    obtain rfl : command' = command := hop
    have hl := (alike h'.launches).trans (alike h.launches).symm
    rcases hlaunch : m.launch h.launches command' with ⟨e | s, told⟩
    · rw [hlaunch] at hl
      simp only [perform, hlaunch, hl]
      exact ⟨rfl, hh.grows, hh.grows', hh.same,
        fun hknown => hh.session (by simpa [Operation.settles] using hknown)⟩
    · rw [hlaunch] at hl
      simp only [perform, hlaunch, hl]
      exact ⟨rfl, hh.grows, hh.grows', hh.same, fun _ => rfl⟩
  | ask call =>
    have hs := hh.session hop
    rcases hsession : h.session with _ | s
    · rw [hsession] at hs
      simp only [perform, hsession, hs]
      exact ⟨rfl, hh.grows, hh.grows', hh.same, fun _ => rfl⟩
    · rw [hsession] at hs
      simp only [perform, hsession, hs]
      exact ⟨rfl, hh.grows, hh.grows', hh.same, fun _ => rfl⟩
  | close =>
    have hnone : ∀ k : Host P S σ, (k.perform m .close).2.session = none := by
      intro k
      rcases hs : k.session with _ | s <;> simp [perform, hs]
    refine ⟨rfl, ?_, ?_, ?_, fun _ => (hnone h').trans (hnone h).symm⟩
    · rw [files_perform_close]
      exact hh.grows
    · rw [files_perform_close]
      exact hh.grows'
    · rw [files_perform_close, files_perform_close]
      exact hh.same
  | tell | print =>
    exact ⟨rfl, hh.grows, hh.grows', hh.same,
      fun hknown => hh.session (by simpa [Operation.settles] using hknown)⟩
  | stamp => exact hop.elim

end Host

/-! ## Trees of steps -/

namespace Action

/-- Every operation that can come up keeps to the entry. -/
def Confined (t₀ : FileTree) (base : Location) (name : Bytes) (command : EngineCommand) :
    Bool → Action P S α → Prop
  | _, .done _ => True
  | known, .step op next => op.Keeps t₀ base name command known ∧
      ∀ answer, op.CanAnswer t₀ base answer →
        (next answer).Confined t₀ base name command (known || op.settles answer)

namespace Confined

/-- It does no harm to know which engine is running. -/
lemma of_known {x : Action P S α} (hx : x.Confined t₀ base name command known) :
    x.Confined t₀ base name command true := by
  induction x generalizing known with
  | done a => trivial
  | step op next ih =>
    refine ⟨hx.1.of_known, fun answer hanswer => ?_⟩
    rw [Bool.true_or]
    exact ih answer (hx.2 answer hanswer)

lemma or {x : Action P S α} (hx : x.Confined t₀ base name command known) (b : Bool) :
    x.Confined t₀ base name command (known || b) := by
  cases b with
  | false => rwa [Bool.or_false]
  | true =>
    rw [Bool.or_true]
    exact hx.of_known

lemma bind {x : Action P S α} {f : α → Action P S β}
    (hx : x.Confined t₀ base name command known)
    (hf : ∀ a, (f a).Confined t₀ base name command known) :
    (x >>= f).Confined t₀ base name command known := by
  show (x.bind f).Confined t₀ base name command known
  induction x generalizing known with
  | done a => exact hf a
  | step op next ih =>
    refine ⟨hx.1, fun answer hanswer => ih answer (hx.2 answer hanswer) fun a => ?_⟩
    exact (hf a).or _

lemma of_uses {p : Operation P S → Prop} {x : Action P S α} (hx : x.Uses p)
    (hp : ∀ op known', p op → op.Keeps t₀ base name command (known || known')) :
    x.Confined t₀ base name command known := by
  induction x generalizing known with
  | done a => trivial
  | step op next ih =>
    refine ⟨by simpa using hp op false hx.1, fun answer _ => ih answer (hx.2 answer) ?_⟩
    intro op' known' hop'
    rw [Bool.or_assoc]
    exact hp op' _ hop'

variable {x : Action P S α}

/-- **A run changes nothing outside the entry.** -/
lemma run_frame (hx : x.Confined t₀ base name command known)
    (hg : GrowsBelow base t₀ h.files) :
    GrowsBelow base t₀ (x.run m h).2.files ∧
      ∀ q, ¬ Within base name q → (x.run m h).2.files.node? q = h.files.node? q := by
  induction x generalizing h known with
  | done a => exact ⟨hg, fun _ _ => rfl⟩
  | step op next ih =>
    obtain ⟨hop, hnext⟩ := hx
    obtain ⟨hg', hframe⟩ := Host.perform_frame hop hg (m := m)
    obtain ⟨hg'', hframe'⟩ := ih _ (hnext _ (Host.perform_canAnswer hg)) hg'
    exact ⟨hg'', fun q hq => (hframe' q hq).trans (hframe q hq)⟩

/-- **A run does the same in surroundings that are alike.** -/
lemma run_congr (alike : ∀ n, m.launch n command = m.launch 0 command)
    (hx : x.Confined t₀ base name command known) (hh : h.Alike t₀ base name known h') :
    (x.run m h').1 = (x.run m h).1 ∧
      SameWithin base name (x.run m h).2.files (x.run m h').2.files := by
  induction x generalizing h h' known with
  | done a => exact ⟨rfl, hh.same⟩
  | step op next ih =>
    obtain ⟨hop, hnext⟩ := hx
    obtain ⟨hanswer, hh'⟩ := Host.perform_congr alike hop hh
    rw [run, run]
    simp only [hanswer]
    exact ih _ (hnext _ (Host.perform_canAnswer hh.grows)) hh'

end Confined

end Action

/-! ## Work -/

namespace Work

/-- Every operation of the work that can come up keeps to the entry. -/
def Confined (t₀ : FileTree) (base : Location) (name : Bytes) (command : EngineCommand)
    (known : Bool) (w : Work P S α) : Prop :=
  Action.Confined t₀ base name command known (ExceptT.run w)

lemma confined_pure (a : α) : (pure a : Work P S α).Confined t₀ base name command known := trivial

lemma Confined.bind {w : Work P S α} {f : α → Work P S β}
    (hw : w.Confined t₀ base name command known)
    (hf : ∀ a, (f a).Confined t₀ base name command known) :
    (w >>= f).Confined t₀ base name command known := by
  refine Action.Confined.bind hw fun r => ?_
  cases r with
  | ok a => exact hf a
  | error e => trivial

lemma Confined.of_uses {p : Operation P S → Prop} {w : Work P S α} (hw : w.Uses p)
    (hp : ∀ op known', p op → op.Keeps t₀ base name command (known || known')) :
    w.Confined t₀ base name command known := Action.Confined.of_uses hw hp

lemma confined_orFail {ε : Type} (toError : ε → RunError) (r : Except ε α) :
    (orFail toError r : Work P S α).Confined t₀ base name command known := trivial

lemma confined_lift {x : Action P S α} (hx : x.Confined t₀ base name command known) :
    (ExceptT.lift x : Work P S α).Confined t₀ base name command known :=
  hx.bind fun _ => trivial

/-- After a step that may fail, its value is known. -/
lemma confined_orFail_bind {ε : Type} {toError : ε → RunError} {r : Except ε α}
    {f : α → Work P S β} (hf : ∀ a, r = .ok a → (f a).Confined t₀ base name command known) :
    (orFail toError r >>= f).Confined t₀ base name command known := by
  cases r with
  | error e => trivial
  | ok a => exact hf a rfl

lemma confined_file {op : FileOperation} (hop : Stays t₀ base name op.run) :
    (file op : Work P S op.Answer).Confined t₀ base name command known :=
  ⟨hop, fun _ _ => trivial⟩

/-- After an operation on files, its answer is one that can be given. -/
lemma confined_file_bind {op : FileOperation} {f : op.Answer → Work P S β}
    (hop : Stays t₀ base name op.run)
    (hf : ∀ t, GrowsBelow base t₀ t →
      (f (op.run t).1).Confined t₀ base name command known) :
    (file op >>= f).Confined t₀ base name command known := by
  refine ⟨hop, fun answer hanswer => ?_⟩
  obtain ⟨t, ht, rfl⟩ := hanswer
  exact (hf t ht).or _

lemma confined_tell (e : Log.Event) :
    (tell e : Work P S Unit).Confined t₀ base name command known := ⟨trivial, fun _ _ => trivial⟩

lemma confined_traced {ε : Type} (toError : ε → RunError) (x : Traced ε α) :
    (traced toError x : Work P S α).Confined t₀ base name command known := by
  refine .of_uses (uses_traced (p := fun op => ∃ e, op = .tell e) fun e => ⟨e, rfl⟩) ?_
  rintro op known' ⟨e, rfl⟩
  trivial

/-- With an engine of its own, work does not depend on which one has been running. -/
lemma confined_withEngine {w : Work P S α} (hw : w.Confined t₀ base name command true) :
    (withEngine command w).Confined t₀ base name command known := by
  refine ⟨rfl, fun answer _ => ?_⟩
  cases answer with
  | error e => trivial
  | ok started =>
    have hclose : ∀ result : Except RunError α,
        (ExceptT.lift (Action.ask .close) >>= fun _ => orFail id result : Work P S α).Confined
          t₀ base name command true :=
      fun result => ⟨trivial, fun _ _ => by cases result <;> trivial⟩
    have hrest := Confined.bind (confined_lift hw) hclose
    rwa [← Bool.or_true known] at hrest

end Work

end Concolic
