/-
# Engines dealt out to jobs

A machine need not start all its engines alike: one may fail to start and the next one may not,
and each may find other things.  Then what a job comes to depends on the number of its engine, and
in a pool this number depends on whose turn it was.  Nothing else does: jobs that keep to entries
of their own, and start one engine at most, each come to what the job comes to alone with an
engine of that number, and the numbers are dealt out to the jobs that start an engine, each number
once.

* `Dealt` says so of results and files.
* For actions that are carried out one after the other it is shown by induction (`Dealt.cons`).
* For pools it is an invariant (`Pool.Dealing`).  What is left of a job that has not been given
  an engine is on course with whichever it will be given; once it has been given one, with this
  one, and it asks for no other.
-/
import Concolic.Proofs.Run.Launches
import Concolic.Proofs.Run.Pool
import Mathlib.Algebra.Notation.Indicator
import Mathlib.Algebra.Order.Interval.Set.SuccPred
import Mathlib.Algebra.Order.Ring.Nat
import Mathlib.Data.Nat.SuccPred
import Mathlib.Data.Set.Function

namespace Concolic

open FileTree (GrowsBelow Within SameWithin)

variable {P S σ α : Type} {m : Machine P S σ} {h : Host P S σ} {t₀ : FileTree} {base : Location}
  {command : EngineCommand} {loading : Set Bytes} {xs : List (Bytes × Action P S α)}
  {x y : Bytes × Action P S α}

/-- Whichever engines are started, the actions for the entries in the set start one, and the
others start none. -/
structure StartsFor (m : Machine P S σ) (h : Host P S σ) (loading : Set Bytes)
    (xs : List (Bytes × Action P S α)) : Prop where
  /-- Those for the entries in the set start one engine. -/
  one : ∀ x ∈ xs, x.1 ∈ loading → ∀ n,
    (x.2.run (m.pinned n) h).2.launches = h.launches + 1
  /-- The others start none. -/
  none : ∀ x ∈ xs, x.1 ∉ loading → ∀ n, (x.2.run (m.pinned n) h).2.launches = h.launches

lemma StartsFor.of_cons (hs : StartsFor m h loading (x :: xs)) : StartsFor m h loading xs :=
  ⟨fun y hy => hs.one y (List.mem_cons_of_mem _ hy),
    fun y hy => hs.none y (List.mem_cons_of_mem _ hy)⟩

/-- One engine is the most that an action starts. -/
lemma StartsFor.le_one (hs : StartsFor m h loading xs) (hx : x ∈ xs) (n : Nat) :
    (x.2.run (m.pinned n) h).2.launches ≤ h.launches + 1 := by
  by_cases hload : x.1 ∈ loading
  · exact (hs.one x hx hload n).le
  · exact (hs.none x hx hload n).trans_le (Nat.le_succ _)

/-- The entries for which there is an action that starts an engine. -/
def starting (loading : Set Bytes) (xs : List (Bytes × Action P S α)) : Set Bytes :=
  {name | name ∈ xs.map Prod.fst ∧ name ∈ loading}

lemma starting_cons_of_mem (hx : x.1 ∈ loading) :
    starting loading (x :: xs) = insert x.1 (starting loading xs) := by
  ext name
  constructor
  · rintro ⟨hname, hload⟩
    rcases List.mem_cons.mp hname with rfl | hname
    · exact .inl rfl
    · exact .inr ⟨hname, hload⟩
  · rintro (rfl | ⟨hname, hload⟩)
    · exact ⟨List.mem_cons_self, hx⟩
    · exact ⟨List.mem_cons_of_mem _ hname, hload⟩

lemma starting_cons_of_notMem (hx : x.1 ∉ loading) :
    starting loading (x :: xs) = starting loading xs := by
  ext name
  constructor
  · rintro ⟨hname, hload⟩
    rcases List.mem_cons.mp hname with rfl | hname
    · exact absurd hload hx
    · exact ⟨hname, hload⟩
  · rintro ⟨hname, hload⟩
    exact ⟨List.mem_cons_of_mem _ hname, hload⟩

/-- The results and the files are those to which the actions come when each of them is carried
out alone with the engine of its number; every number since the beginning has been given to one
of the actions that start an engine. -/
structure Dealt (m : Machine P S σ) (h : Host P S σ) (base : Location) (loading : Set Bytes)
    (xs : List (Bytes × Action P S α)) (number : Bytes → Nat) (results : List α)
    (files : FileTree) (launches : Nat) : Prop where
  /-- The results are. -/
  results_eq : results = xs.map fun x => (x.2.run (m.pinned (number x.1)) h).1
  /-- In each entry stands what the action for it alone leaves there. -/
  entry : ∀ x ∈ xs, SameWithin base x.1 (x.2.run (m.pinned (number x.1)) h).2.files files
  /-- Everywhere else nothing has changed. -/
  frame : ∀ q, (∀ x ∈ xs, ¬ Within base x.1 q) → files.node? q = h.files.node? q
  /-- No engine is forgotten. -/
  le : h.launches ≤ launches
  /-- Every number is given once. -/
  numbers : Set.BijOn number (starting loading xs) (Set.Ico h.launches launches)

/-- Only the files matter, and how many engines have been started. -/
lemma Dealt.of_files_eq {number : Bytes → Nat} {results : List α} {files : FileTree}
    {launches : Nat} {h' : Host P S σ} (hxs : Apart t₀ base command xs)
    (hg : GrowsBelow base t₀ h.files) (hfiles : h'.files = h.files)
    (hlaunches : h'.launches = h.launches)
    (hd : Dealt m h' base loading xs number results files launches) :
    Dealt m h base loading xs number results files launches := by
  have hrun : ∀ x ∈ xs, ∀ n, (x.2.run (m.pinned n) h').1 = (x.2.run (m.pinned n) h).1 ∧
      SameWithin base x.1 (x.2.run (m.pinned n) h).2.files
        (x.2.run (m.pinned n) h').2.files := by
    intro x hx n
    refine (hxs.confined x hx).run_congr (m.pinned_alike n command)
      ⟨hg, hfiles ▸ hg, fun q _ => by rw [hfiles], by simp⟩
  refine ⟨?_, ?_, ?_, hlaunches ▸ hd.le, hlaunches ▸ hd.numbers⟩
  · rw [hd.results_eq]
    exact List.map_congr_left fun x hx => (hrun x hx _).1
  · intro x hx q hq
    exact (hd.entry x hx q hq).trans ((hrun x hx _).2 q hq)
  · intro q hq
    rw [hd.frame q hq, hfiles]

/-! ## One after the other -/

lemma Apart.fst_ne_head (hxs : Apart t₀ base command (x :: xs)) (hy : y ∈ xs) : y.1 ≠ x.1 := by
  intro heq
  exact (List.nodup_cons.mp hxs.nodup).1 (heq ▸ List.mem_map_of_mem hy)

/-- What an action does does not concern the actions for other entries, whichever engine they are
given. -/
lemma Apart.run_after (hxs : Apart t₀ base command (x :: xs)) (hg : GrowsBelow base t₀ h.files)
    (hy : y ∈ xs) (n : Nat) :
    (y.2.run (m.pinned n) (x.2.run m h).2).1 = (y.2.run (m.pinned n) h).1 ∧
      SameWithin base y.1 (y.2.run (m.pinned n) h).2.files
        (y.2.run (m.pinned n) (x.2.run m h).2).2.files ∧
      (y.2.run (m.pinned n) (x.2.run m h).2).2.launches + h.launches
        = (y.2.run (m.pinned n) h).2.launches + (x.2.run m h).2.launches := by
  obtain ⟨hg', hframe⟩ := (hxs.confined x List.mem_cons_self).run_frame hg (m := m)
  have hne : y.1 ≠ x.1 := hxs.fst_ne_head hy
  have halike : h.Alike t₀ base y.1 false (x.2.run m h).2 :=
    ⟨hg, hg', fun q hq => hframe q fun hwithin => hne (hq.name_eq hwithin), by simp⟩
  have hconfined := hxs.of_cons.confined y hy
  obtain ⟨hresult, hentry⟩ := hconfined.run_congr (m.pinned_alike n command) halike
  exact ⟨hresult, hentry, hconfined.launches_congr (m.pinned_alike n command) halike⟩

/-- After an action, the others start as many engines as before it. -/
lemma StartsFor.after (hxs : Apart t₀ base command (x :: xs)) (hg : GrowsBelow base t₀ h.files)
    (hs : StartsFor m h loading (x :: xs)) : StartsFor m (x.2.run m h).2 loading xs where
  one y hy hload n := by
    obtain ⟨-, -, hlaunches⟩ := hxs.run_after hg hy n (m := m)
    rw [hs.of_cons.one y hy hload n] at hlaunches
    omega
  none y hy hload n := by
    obtain ⟨-, -, hlaunches⟩ := hxs.run_after hg hy n (m := m)
    rw [hs.of_cons.none y hy hload n] at hlaunches
    omega

section

variable {number : Bytes → Nat} {results : List α} {files : FileTree} {launches : Nat}
  (hxs : Apart t₀ base command (x :: xs)) (hs : StartsFor m h loading (x :: xs))
  (hd : Dealt m (x.2.run m h).2 base loading xs number results files launches)

include hxs hs hd

/-- The next number is given to the first action if it starts an engine. -/
lemma Dealt.numbers_cons :
    Set.BijOn (Function.update number x.1 h.launches) (starting loading (x :: xs))
      (Set.Ico h.launches launches) := by
  have hrun := Action.run_eq_run_pinned (hs.le_one List.mem_cons_self h.launches)
  have hown : Function.update number x.1 h.launches x.1 = h.launches := Function.update_self _ _ _
  have hrest : Set.BijOn (Function.update number x.1 h.launches) (starting loading xs)
      (Set.Ico (x.2.run m h).2.launches launches) := by
    refine hd.numbers.congr fun name hname => ?_
    obtain ⟨y, hy, rfl⟩ := List.mem_map.mp hname.1
    exact (Function.update_of_ne (hxs.fst_ne_head hy) _ _).symm
  by_cases hload : x.1 ∈ loading
  · have hnext : (x.2.run m h).2.launches = h.launches + 1 := by
      rw [hrun]
      exact hs.one x List.mem_cons_self hload _
    have hlt : h.launches < launches := by
      have hle := hd.le
      omega
    rw [hnext] at hrest
    have hbij := hrest.insert (a := x.1) (by rw [hown]; simp)
    rwa [hown, Set.insert_Ico_add_one_left_eq_Ico hlt, ← starting_cons_of_mem hload] at hbij
  · have hnext : (x.2.run m h).2.launches = h.launches := by
      rw [hrun]
      exact hs.none x List.mem_cons_self hload _
    rw [hnext] at hrest
    rw [starting_cons_of_notMem hload]
    exact hrest

/-- **The engine that is started next goes to the action that is carried out next.** -/
lemma Dealt.cons (hg : GrowsBelow base t₀ h.files) :
    Dealt m h base loading (x :: xs) (Function.update number x.1 h.launches)
      ((x.2.run m h).1 :: results) files launches := by
  -- the first action may start one engine, and then it is the next one
  have hrun : x.2.run m h = x.2.run (m.pinned h.launches) h :=
    Action.run_eq_run_pinned (hs.le_one List.mem_cons_self _)
  have hown : Function.update number x.1 h.launches x.1 = h.launches := Function.update_self _ _ _
  have hnumber : ∀ y ∈ xs, Function.update number x.1 h.launches y.1 = number y.1 :=
    fun y hy => Function.update_of_ne (hxs.fst_ne_head hy) _ _
  obtain ⟨-, hframe⟩ := (hxs.confined x List.mem_cons_self).run_frame hg (m := m)
  refine ⟨?_, ?_, ?_, (Action.launches_le_run x.2).trans hd.le, hd.numbers_cons hxs hs⟩
  · rw [List.map_cons, hown, ← hrun, hd.results_eq]
    refine congrArg _ (List.map_congr_left fun y hy => ?_)
    rw [hnumber y hy]
    exact (hxs.run_after hg hy _).1
  · rw [List.forall_mem_cons, hown, ← hrun]
    refine ⟨fun q hq => hd.frame q fun y hy hwithin => ?_, ?_⟩
    · exact hxs.fst_ne_head hy (hwithin.name_eq hq)
    · intro y hy q hq
      rw [hnumber y hy]
      exact (hd.entry y hy q hq).trans ((hxs.run_after hg hy _).2.1 q hq)
  · intro q hq
    obtain ⟨hx, hrest⟩ := List.forall_mem_cons.mp hq
    exact (hd.frame q hrest).trans (hframe q hx)

end

/-! ## Taking turns -/

/-- The job when what it asks for has been done. -/
def Job.advanced (m : Machine P S σ) (shared : Host P S σ) (job : Job P S σ α)
    {op : Operation P S} (next : op.Answer → Action P S α) : Job P S σ α :=
  ⟨next ((job.host shared).perform m op).1, ((job.host shared).perform m op).2.session, true⟩

/-- With each of the engines, what is left of a job comes to what its action comes to alone with
this engine, and it starts as many engines as are due. -/
structure Job.OnCourseWith (m : Machine P S σ) (t₀ : FileTree) (base : Location)
    (command : EngineCommand) (h shared : Host P S σ) (x : Bytes × Action P S α)
    (engines : Set Nat) (due : Nat) (job : Job P S σ α) : Prop where
  /-- The job is on course with each of the engines. -/
  onCourse : ∀ n ∈ engines, job.OnCourse (m.pinned n) t₀ base command h shared x
  /-- It starts the engines that are due. -/
  launches : ∀ n ∈ engines,
    (job.rest.run (m.pinned n) (job.host shared)).2.launches = shared.launches + due

namespace Job.OnCourseWith

variable {job : Job P S σ α} {shared shared' : Host P S σ} {engines : Set Nat} {due : Nat}
  {op : Operation P S} {next : op.Answer → Action P S α}

/-- What changes outside its entry does not concern a job. -/
lemma of_same (hjob : job.OnCourseWith m t₀ base command h shared x engines due)
    (hg : GrowsBelow base t₀ shared.files) (hg' : GrowsBelow base t₀ shared'.files)
    (hsame : SameWithin base x.1 shared.files shared'.files) :
    job.OnCourseWith m t₀ base command h shared' x engines due where
  onCourse n hn := (hjob.onCourse n hn).of_same (m.pinned_alike n command) hg hg' hsame
  launches n hn := by
    have halike : (job.host shared).Alike t₀ base x.1 true (job.host shared') :=
      ⟨hg, hg', hsame, fun _ => rfl⟩
    have hcount := (hjob.onCourse n hn).confined.launches_congr (m.pinned_alike n command) halike
    have hdue := hjob.launches n hn
    have hshared : (job.host shared).launches = shared.launches := rfl
    have hshared' : (job.host shared').launches = shared'.launches := rfl
    omega

/-- A step that starts no engine brings the job on with each of the engines. -/
lemma own_step (hjob : job.OnCourseWith m t₀ base command h shared x engines due)
    (hg : GrowsBelow base t₀ shared.files) (left : job.rest = .step op next)
    (hop : op.StartsNone) :
    ((job.host shared).perform m op).2.launches = shared.launches ∧
      (job.advanced m shared next).OnCourseWith m t₀ base command h
        ((job.host shared).perform m op).2 x engines due := by
  have hnone : ((job.host shared).perform m op).2.launches = shared.launches := by
    rw [Host.launches_perform, hop.launches]
    rfl
  refine ⟨hnone, fun n hn => ?_, fun n hn => ?_⟩
  · have hown := (hjob.onCourse n hn).own_step hg left
    rw [Host.perform_pinned_of_startsNone hop] at hown
    exact hown
  · have hdue := hjob.launches n hn
    rw [left, Action.run_step, Host.perform_pinned_of_startsNone hop] at hdue
    rw [hnone]
    exact hdue

/-- A job that starts an engine is one for which an engine is due. -/
lemma due_pos (hjob : job.OnCourseWith m t₀ base command h shared x engines due) {n : Nat}
    (hn : n ∈ engines) {started : EngineCommand}
    {next : (Operation.launch started : Operation P S).Answer → Action P S α}
    (left : job.rest = .step (.launch started) next) : 0 < due := by
  have hdue := hjob.launches n hn
  have hone := Host.launches_perform (m := m.pinned n) (h := job.host shared) (.launch started)
  have hrest := Action.launches_le_run (m := m.pinned n)
    (h := ((job.host shared).perform (m.pinned n) (.launch started)).2)
    (next ((job.host shared).perform (m.pinned n) (.launch started)).1)
  rw [left, Action.run_step] at hdue
  have hshared : (job.host shared).launches = shared.launches := rfl
  have hstarts : (Operation.launch started : Operation P S).launches = 1 := rfl
  omega

/-- The engine that a job starts is the one with the next number, and the job is on course with
this one. -/
lemma own_launch (hjob : job.OnCourseWith m t₀ base command h shared x engines (due + 1))
    (hg : GrowsBelow base t₀ shared.files) (hn : shared.launches ∈ engines)
    {started : EngineCommand}
    {next : (Operation.launch started : Operation P S).Answer → Action P S α}
    (left : job.rest = .step (.launch started) next) :
    ((job.host shared).perform m (.launch started)).2.launches = shared.launches + 1 ∧
      (job.advanced m shared next).OnCourseWith m t₀ base command h
        ((job.host shared).perform m (.launch started)).2 x {shared.launches} due := by
  have hone : ((job.host shared).perform m (.launch started)).2.launches = shared.launches + 1 :=
    Host.launches_perform _
  have hpinned : (job.host shared).perform (m.pinned shared.launches) (.launch started)
      = (job.host shared).perform m (.launch started) :=
    Host.perform_pinned (h := job.host shared) _
  refine ⟨hone, ?_, ?_⟩
  · rintro _ rfl
    have hown := (hjob.onCourse _ hn).own_step hg left
    rw [hpinned] at hown
    exact hown
  · rintro _ rfl
    have hdue := hjob.launches _ hn
    rw [left, Action.run_step, hpinned] at hdue
    rw [hone, Nat.add_assoc, Nat.add_comm 1 due]
    exact hdue

end Job.OnCourseWith

namespace Pool

variable {pool pool' : Pool P S σ α} {workers : Nat} {dealt dealt' : Set Bytes}
  {number number' : Bytes → Nat}

/-- The engines that a job can still be given: the one that it has been given, or any. -/
def enginesFor (dealt : Set Bytes) (number : Bytes → Nat) (name : Bytes) : Set Nat :=
  {n | name ∈ dealt → n = number name}

lemma enginesFor_congr {name : Bytes} (hdealt : name ∈ dealt' ↔ name ∈ dealt)
    (hnumber : number' name = number name) :
    enginesFor dealt' number' name = enginesFor dealt number name := by
  rw [enginesFor, enginesFor, hnumber, hdealt]

/-- The number of engines that a job will still start. -/
noncomputable def dueFor (loading dealt : Set Bytes) (name : Bytes) : Nat :=
  (loading \ dealt).indicator (fun _ => 1) name

lemma dueFor_of_mem {name : Bytes} (h : name ∈ loading \ dealt) : dueFor loading dealt name = 1 :=
  Set.indicator_of_mem h _

lemma dueFor_of_notMem {name : Bytes} (h : name ∉ loading \ dealt) :
    dueFor loading dealt name = 0 := Set.indicator_of_notMem h _

lemma dueFor_congr {name : Bytes} (hdealt : name ∈ dealt' ↔ name ∈ dealt) :
    dueFor loading dealt' name = dueFor loading dealt name := by
  by_cases h : name ∈ loading \ dealt
  · rw [dueFor_of_mem h, dueFor_of_mem ⟨h.1, fun hmem => h.2 (hdealt.mp hmem)⟩]
  · rw [dueFor_of_notMem h]
    exact dueFor_of_notMem fun hmem => h ⟨hmem.1, fun hd => hmem.2 (hdealt.mpr hd)⟩

/-- The engines that have been started so far were given to the jobs for these entries, and every
job is on course with each of the engines that it can be given. -/
structure Dealing (m : Machine P S σ) (t₀ : FileTree) (base : Location)
    (command : EngineCommand) (h : Host P S σ) (loading : Set Bytes)
    (xs : List (Bytes × Action P S α)) (dealt : Set Bytes) (number : Bytes → Nat)
    (pool : Pool P S σ α) : Prop where
  /-- There is one job for every action. -/
  length_eq : pool.jobs.length = xs.length
  /-- The files have grown below the common directory. -/
  grows : GrowsBelow base t₀ pool.shared.files
  /-- Every job is on course. -/
  job : ∀ (i : Nat) x job, xs[i]? = some x → pool.jobs[i]? = some job →
    job.OnCourseWith m t₀ base command h pool.shared x (enginesFor dealt number x.1)
      (dueFor loading dealt x.1)
  /-- Nothing else has changed. -/
  frame : ∀ q, (∀ x ∈ xs, ¬ Within base x.1 q) → pool.shared.files.node? q = h.files.node? q
  /-- No engine is forgotten. -/
  le : h.launches ≤ pool.shared.launches
  /-- Engines are given only to jobs that start one. -/
  subset : dealt ⊆ starting loading xs
  /-- Every number is given once. -/
  numbers : Set.BijOn number dealt (Set.Ico h.launches pool.shared.launches)

/-- At the end, no engine is due any more, so every job that starts an engine has been given
one. -/
lemma Dealing.comeTo {results : List α}
    (hpool : Dealing m t₀ base command h loading xs dealt number pool)
    (hfinished : pool.FinishedWith results) :
    Dealt m h base loading xs number results pool.shared.files pool.shared.launches := by
  -- a job that has ended starts no engine, so none is due
  have hnone : ∀ (i : Nat) x job a, xs[i]? = some x → pool.jobs[i]? = some job →
      job.rest = .done a → x.1 ∉ loading \ dealt := by
    intro i x job a hx hjob hrest hwaits
    have hn : number x.1 ∈ enginesFor dealt number x.1 := fun _ => rfl
    have hdue := (hpool.job i x job hx hjob).launches _ hn
    rw [hrest, dueFor_of_mem hwaits] at hdue
    have hshared : (job.host pool.shared).launches = pool.shared.launches := rfl
    have hdone : ((Action.done a).run (m.pinned (number x.1)) (job.host pool.shared)).2.launches
        = (job.host pool.shared).launches := rfl
    omega
  have hcourse : ∀ (i : Nat) x job, xs[i]? = some x → pool.jobs[i]? = some job →
      job.OnCourse (m.pinned (number x.1)) t₀ base command h pool.shared x := by
    intro i x job hx hjob
    exact (hpool.job i x job hx hjob).onCourse _ fun _ => rfl
  have hall : starting loading xs = dealt := by
    refine Set.Subset.antisymm ?_ hpool.subset
    rintro name ⟨hname, hload⟩
    obtain ⟨x, hx, rfl⟩ := List.mem_map.mp hname
    obtain ⟨i, hi⟩ := List.mem_iff_getElem?.mp hx
    obtain ⟨job, a, hjob, -, hrest⟩ := hfinished.exists_done hpool.length_eq hi
    by_contra hwaits
    exact hnone i x job a hi hjob hrest ⟨hload, hwaits⟩
  refine ⟨?_, ?_, hpool.frame, hpool.le, ?_⟩
  · refine hfinished.results_eq hpool.length_eq fun i x job a hx hjob hrest => ?_
    have hresult := (hcourse i x job hx hjob).result
    rwa [hrest] at hresult
  · intro x hx
    obtain ⟨i, hi⟩ := List.mem_iff_getElem?.mp hx
    obtain ⟨job, a, hjob, -, hrest⟩ := hfinished.exists_done hpool.length_eq hi
    have hentry := (hcourse i x job hi hjob).entry
    rwa [hrest] at hentry
  · rw [hall]
    exact hpool.numbers

/-- The job whose turn it is keeps to its entry. -/
lemma Dealing.frame_step (hpool : Dealing m t₀ base command h loading xs dealt number pool)
    {i : Nat} {job : Job P S σ α} {op : Operation P S} {next : op.Answer → Action P S α}
    (found : pool.jobs[i]? = some job) (left : job.rest = .step op next) (hx : xs[i]? = some x) :
    GrowsBelow base t₀ ((job.host pool.shared).perform m op).2.files ∧
      ∀ q, ¬ Within base x.1 q → ((job.host pool.shared).perform m op).2.files.node? q
        = pool.shared.files.node? q := by
  have hconfined := ((hpool.job i x job hx found).onCourse (number x.1) fun _ => rfl).confined
  rw [left] at hconfined
  exact Host.perform_frame (h := job.host pool.shared) hconfined.1 hpool.grows

variable (hxs : Apart t₀ base command xs)

include hxs

/-- At the beginning, no engine has been given to any job. -/
lemma dealing_start (hg : GrowsBelow base t₀ h.files) (hs : StartsFor m h loading xs)
    (number : Bytes → Nat) :
    Dealing m t₀ base command h loading xs ∅ number (start h (xs.map Prod.snd)) := by
  have hcourse : ∀ n, OnCourse (m.pinned n) t₀ base command h xs (start h (xs.map Prod.snd)) :=
    fun n => onCourse_start (m.pinned_alike n command) hxs hg
  -- which engine has been running before makes no difference
  have hlaunches : ∀ (i : Nat) x job, xs[i]? = some x →
      (start h (xs.map Prod.snd)).jobs[i]? = some job → ∀ n,
      (job.rest.run (m.pinned n) (job.host h)).2.launches
        = (x.2.run (m.pinned n) h).2.launches := by
    intro i x job hx hjob n
    rw [start, List.getElem?_map, List.getElem?_map, hx] at hjob
    obtain rfl := Option.some.inj hjob
    have hh : h.Alike t₀ base x.1 false { h with session := none } :=
      ⟨hg, hg, fun _ _ => rfl, by simp⟩
    have hcount := (hxs.confined x (List.mem_of_getElem? hx)).launches_congr
      (m.pinned_alike n command) hh
    exact Nat.add_right_cancel hcount
  refine ⟨by simp [start], hg, ?_, fun _ _ => rfl, Nat.le_refl _, Set.empty_subset _, ?_⟩
  · intro i x job hx hjob
    refine ⟨fun n _ => (hcourse n).job i x job hx hjob, fun n _ => ?_⟩
    have hmem := List.mem_of_getElem? hx
    by_cases hload : x.1 ∈ loading
    · rw [dueFor_of_mem ⟨hload, Set.notMem_empty _⟩]
      exact (hlaunches i x job hx hjob n).trans (hs.one x hmem hload n)
    · rw [dueFor_of_notMem fun hwaits => hload hwaits.1]
      exact (hlaunches i x job hx hjob n).trans (hs.none x hmem hload n)
  · simp [start]

/-- If the engines of all other jobs stay with them, it is enough to see how the job whose turn
it is comes on. -/
lemma Dealing.advance (hpool : Dealing m t₀ base command h loading xs dealt number pool)
    {i : Nat} {job : Job P S σ α} {op : Operation P S} {next : op.Answer → Action P S α}
    (found : pool.jobs[i]? = some job) (left : job.rest = .step op next) (hx : xs[i]? = some x)
    (hothers : ∀ name ≠ x.1, (name ∈ dealt' ↔ name ∈ dealt) ∧ number' name = number name)
    (hown : (job.advanced m pool.shared next).OnCourseWith m t₀ base command h
      ((job.host pool.shared).perform m op).2 x (enginesFor dealt' number' x.1)
      (dueFor loading dealt' x.1))
    (hsubset : dealt' ⊆ starting loading xs)
    (hnumbers : Set.BijOn number' dealt'
      (Set.Ico h.launches ((job.host pool.shared).perform m op).2.launches)) :
    Dealing m t₀ base command h loading xs dealt' number' (pool.advance m i job op next) := by
  obtain ⟨hlt, -⟩ := List.getElem?_eq_some_iff.mp found
  obtain ⟨hg', hframe⟩ := hpool.frame_step found left hx
  refine ⟨by simpa [Pool.advance] using hpool.length_eq, hg', ?_, ?_, ?_, hsubset, hnumbers⟩
  · intro j y job' hy hjob'
    by_cases hij : i = j
    · subst hij
      obtain rfl : x = y := Option.some.inj (hx.symm.trans hy)
      rw [Pool.advance, List.getElem?_set_self hlt] at hjob'
      obtain rfl := Option.some.inj hjob'
      exact hown
    · -- the entry and the engine of another job are not touched
      rw [Pool.advance, List.getElem?_set_ne hij] at hjob'
      have hne := hxs.fst_ne hx hy hij
      obtain ⟨hdealt, hnumber⟩ := hothers y.1 hne.symm
      rw [enginesFor_congr hdealt hnumber, dueFor_congr hdealt]
      refine (hpool.job j y job' hy hjob').of_same hpool.grows hg' fun q hq => ?_
      exact hframe q fun hwithin => hne (hwithin.name_eq hq)
  · intro q hq
    exact (hframe q (hq x (List.mem_of_getElem? hx))).trans (hpool.frame q hq)
  · have hmore := Host.launches_perform (m := m) (h := job.host pool.shared) op
    have hshared : (job.host pool.shared).launches = pool.shared.launches := rfl
    have hle := hpool.le
    show h.launches ≤ ((job.host pool.shared).perform m op).2.launches
    omega

/-- The engine that a job starts is given to this job, for which one was due. -/
lemma Dealing.advance_launch (hpool : Dealing m t₀ base command h loading xs dealt number pool)
    {i : Nat} {job : Job P S σ α} {started : EngineCommand}
    {next : (Operation.launch started : Operation P S).Answer → Action P S α}
    (found : pool.jobs[i]? = some job) (left : job.rest = .step (.launch started) next)
    (hx : xs[i]? = some x) :
    Dealing m t₀ base command h loading xs (insert x.1 dealt)
      (Function.update number x.1 pool.shared.launches)
      (pool.advance m i job (.launch started) next) := by
  have hown := hpool.job i x job hx found
  -- a job for which no engine is due starts none
  have hdue : x.1 ∈ loading \ dealt := by
    by_contra hnot
    have hpos := hown.due_pos (n := number x.1) (fun _ => rfl) left
    exact absurd (dueFor_of_notMem hnot) hpos.ne'
  rw [dueFor_of_mem hdue] at hown
  have hany : pool.shared.launches ∈ enginesFor dealt number x.1 :=
    fun hdealt => absurd hdealt hdue.2
  obtain ⟨hone, hnow⟩ := hown.own_launch hpool.grows hany left
  have hgiven : Function.update number x.1 pool.shared.launches x.1 = pool.shared.launches :=
    Function.update_self _ _ _
  refine hpool.advance hxs found left hx ?_ ?_ ?_ ?_
  · intro name hne
    exact ⟨by simp [hne], Function.update_of_ne hne _ _⟩
  · have hengines : enginesFor (insert x.1 dealt)
        (Function.update number x.1 pool.shared.launches) x.1 = {pool.shared.launches} := by
      ext n
      simp [enginesFor]
    rw [hengines, dueFor_of_notMem fun hwaits => hwaits.2 (Set.mem_insert _ _)]
    exact hnow
  · rw [Set.insert_subset_iff]
    exact ⟨⟨List.mem_map_of_mem (List.mem_of_getElem? hx), hdue.1⟩, hpool.subset⟩
  · have hrest : Set.BijOn (Function.update number x.1 pool.shared.launches) dealt
        (Set.Ico h.launches pool.shared.launches) := by
      refine hpool.numbers.congr fun name hname => ?_
      have hne : name ≠ x.1 := by
        rintro rfl
        exact hdue.2 hname
      exact (Function.update_of_ne hne _ _).symm
    have hbij := hrest.insert (a := x.1) (by rw [hgiven]; simp)
    rwa [hgiven, Set.insert_Ico_right_eq_Ico_add_one hpool.le, ← hone] at hbij

/-- **An engine that is started is given to the job whose turn it is**, and all other steps leave
the engines with the jobs that have them. -/
lemma Dealing.step (hpool : Dealing m t₀ base command h loading xs dealt number pool)
    (hstep : Step m workers pool pool') :
    ∃ dealt' number', Dealing m t₀ base command h loading xs dealt' number' pool' := by
  cases hstep with
  | @advance i job op next found left free =>
    obtain ⟨hlt, -⟩ := List.getElem?_eq_some_iff.mp found
    obtain ⟨x, hx⟩ : ∃ x, xs[i]? = some x :=
      ⟨_, List.getElem?_eq_getElem (hpool.length_eq ▸ hlt)⟩
    by_cases hop : op.StartsNone
    · -- nobody is given an engine
      have hown := hpool.job i x job hx found
      refine ⟨dealt, number, hpool.advance hxs found left hx (fun _ _ => ⟨.rfl, rfl⟩)
        (hown.own_step hpool.grows left hop).2 hpool.subset ?_⟩
      rw [Host.launches_perform, hop.launches]
      exact hpool.numbers
    · obtain ⟨started, rfl⟩ : ∃ started, op = .launch started := by
        cases op with
        | launch started => exact ⟨started, rfl⟩
        | file | ask | close | tell | print | stamp => exact absurd trivial hop
      exact ⟨_, _, hpool.advance_launch hxs found left hx⟩

/-- However far a pool has come, every engine that has been started was given to one job. -/
lemma Dealing.of_reaches (hpool : Dealing m t₀ base command h loading xs dealt number pool)
    (hreach : Reaches m workers pool pool') :
    ∃ dealt' number', Dealing m t₀ base command h loading xs dealt' number' pool' := by
  induction hreach with
  | refl => exact ⟨dealt, number, hpool⟩
  | tail _ hstep ih =>
    obtain ⟨_, _, hbefore⟩ := ih
    exact hbefore.step hxs hstep

/-- **When a pool has ended, the engines have been dealt out**, one to each of the actions that
start one. -/
lemma dealt_of_reaches {results : List α} (hg : GrowsBelow base t₀ h.files)
    (hs : StartsFor m h loading xs) (hreach : Reaches m workers (start h (xs.map Prod.snd)) pool)
    (hfinished : pool.FinishedWith results) :
    ∃ number,
      Dealt m h base loading xs number results pool.shared.files pool.shared.launches := by
  obtain ⟨dealt, number, hpool⟩ :=
    (dealing_start hxs hg hs fun _ => 0).of_reaches hxs hreach
  exact ⟨number, hpool.comeTo hfinished⟩

end Pool

end Concolic
