/-
# Workers that take turns

A pool holds jobs, which are actions in shared surroundings; only the engine that runs for a job
is its own.  In a step of the pool one job does the next thing that it asks for, and whose turn
it is, is open: a job that has been begun can always go on, and a new one can be begun while
there are fewer jobs underway than workers.

* No pool goes on for ever (`Pool.wellFounded_step`), and one that has not ended can go on
  (`Pool.exists_step_or_finishedWith`), so every pool comes to its end.
* If every job keeps to an entry of its own in a common directory, then whatever has happened,
  what is left of each job comes to what the whole job comes to on its own
  (`Pool.OnCourse`, preserved by every step).  So the end of a pool does not depend on whose
  turn it was (`Pool.OnCourse.comeTo`).
-/
import Concolic.Proofs.Run.Confined
import Mathlib.Data.List.Nodup
import Mathlib.Logic.Hydra

namespace Concolic

open FileTree (GrowsBelow Within SameWithin)

variable {P S σ α : Type} {m : Machine P S σ} {workers : Nat}

/-! ## Pools -/

/-- A job. -/
structure Job (P S σ α : Type) where
  /-- What is left to be done. -/
  rest : Action P S α
  /-- The engine that runs for it. -/
  session : Option σ
  /-- Has a worker taken it? -/
  begun : Bool

namespace Job

/-- Is nothing left to be done? -/
def isDone (job : Job P S σ α) : Bool :=
  match job.rest with
  | .done _ => true
  | .step .. => false

/-- Is a worker busy with it? -/
def isUnderway (job : Job P S σ α) : Bool := job.begun && !job.isDone

/-- The surroundings of a job: the shared ones, with its own engine. -/
def host (job : Job P S σ α) (shared : Host P S σ) : Host P S σ :=
  { shared with session := job.session }

end Job

/-- Jobs in shared surroundings. -/
structure Pool (P S σ α : Type) where
  /-- The surroundings, apart from the engines. -/
  shared : Host P S σ
  /-- The jobs, in their order. -/
  jobs : List (Job P S σ α)

namespace Pool

/-- The pool in which no job has been begun. -/
def start (shared : Host P S σ) (actions : List (Action P S α)) : Pool P S σ α where
  shared := shared
  jobs := actions.map fun x => ⟨x, none, false⟩

/-- The pool after the job with a number has asked for something. -/
def advance (m : Machine P S σ) (pool : Pool P S σ α) (i : Nat) (job : Job P S σ α)
    (op : Operation P S) (next : op.Answer → Action P S α) : Pool P S σ α :=
  let (answer, after) := (job.host pool.shared).perform m op
  ⟨after, pool.jobs.set i ⟨next answer, after.session, true⟩⟩

/-- One step of a pool with a number of workers. -/
inductive Step (m : Machine P S σ) (workers : Nat) : Pool P S σ α → Pool P S σ α → Prop where
  | advance (pool : Pool P S σ α) {i : Nat} {job : Job P S σ α} {op : Operation P S}
      {next : op.Answer → Action P S α} (found : pool.jobs[i]? = some job)
      (left : job.rest = .step op next)
      (free : job.begun = true ∨ pool.jobs.countP Job.isUnderway < workers) :
      Step m workers pool (pool.advance m i job op next)

/-- The second pool can come about from the first one. -/
def Reaches (m : Machine P S σ) (workers : Nat) : Pool P S σ α → Pool P S σ α → Prop :=
  Relation.ReflTransGen (Step m workers)

/-- All jobs have ended, with these results. -/
def FinishedWith (pool : Pool P S σ α) (results : List α) : Prop :=
  pool.jobs.map Job.rest = results.map .done

end Pool

/-! ## Every pool comes to its end -/

/-- The first action is what one step leaves of the second one. -/
inductive Action.Next : Action P S α → Action P S α → Prop where
  | step (op : Operation P S) (next : op.Answer → Action P S α) (answer : op.Answer) :
      Next (next answer) (.step op next)

lemma Action.wellFounded_next : WellFounded (Action.Next : Action P S α → _ → Prop) := by
  refine ⟨fun x => ?_⟩
  induction x with
  | done a => exact ⟨_, fun y hy => nomatch hy⟩
  | step op next ih =>
    refine ⟨_, fun y hy => ?_⟩
    cases hy with
    | step _ _ answer => exact ih answer

namespace Pool

variable {pool pool' : Pool P S σ α}

/-- What is left of jobs, in no particular order. -/
def left (jobs : List (Job P S σ α)) : Multiset (Action P S α) := ↑(jobs.map Job.rest)

lemma left_eq_of_perm {jobs others : List (Job P S σ α)} {job : Job P S σ α}
    (h : (job :: others).Perm jobs) : left jobs = left others + {job.rest} := by
  rw [left, ← Multiset.coe_eq_coe.mpr (h.map Job.rest), List.map_cons, ← Multiset.cons_coe,
    ← Multiset.singleton_add, add_comm]
  rfl

/-- In a step, one of the actions makes way for what is left of it. -/
lemma Step.cutExpand (hstep : Step m workers pool pool') :
    Relation.CutExpand Action.Next (left pool'.jobs) (left pool.jobs) := by
  cases hstep with
  | @advance i job op next found hrest free =>
    obtain ⟨hlt, hget⟩ := List.getElem?_eq_some_iff.mp found
    have hbefore := left_eq_of_perm (List.getElem_cons_eraseIdx_perm hlt)
    rw [hget] at hbefore
    rw [hbefore, Pool.advance, left_eq_of_perm (List.set_perm_cons_eraseIdx hlt _).symm, hrest]
    exact Relation.cutExpand_add_single _ (.step op next _)

/-- **No pool goes on for ever**, whosever turn it is. -/
lemma wellFounded_step (m : Machine P S σ) (workers : Nat) :
    WellFounded fun pool' pool : Pool P S σ α => Step m workers pool pool' :=
  Subrelation.wf Step.cutExpand
    (InvImage.wf (fun pool : Pool P S σ α => left pool.jobs) Action.wellFounded_next.cutExpand)

lemma exists_finishedWith (h : ∀ job ∈ pool.jobs, job.isDone = true) :
    ∃ results, pool.FinishedWith results := by
  unfold FinishedWith
  generalize pool.jobs = jobs at h
  induction jobs with
  | nil => exact ⟨[], rfl⟩
  | cons job jobs ih =>
    obtain ⟨hjob, hjobs⟩ := List.forall_mem_cons.mp h
    obtain ⟨results, hresults⟩ := ih hjobs
    obtain ⟨a, ha⟩ : ∃ a, job.rest = .done a := by
      unfold Job.isDone at hjob
      split at hjob
      · exact ⟨_, ‹_›⟩
      · exact absurd hjob (by simp)
    exact ⟨a :: results, by rw [List.map_cons, List.map_cons, ha, hresults]⟩

/-- **A pool that has not ended can go on.** -/
lemma exists_step_or_finishedWith (m : Machine P S σ) (hw : 0 < workers)
    (pool : Pool P S σ α) :
    (∃ pool', Step m workers pool pool') ∨ ∃ results, pool.FinishedWith results := by
  by_cases hdone : ∀ job ∈ pool.jobs, job.isDone = true
  · exact .inr (exists_finishedWith hdone)
  -- a job that is underway can go on, and if there is none, any job can be begun
  obtain ⟨job, hmem, hjob, free⟩ : ∃ job ∈ pool.jobs, job.isDone = false ∧
      (job.begun = true ∨ pool.jobs.countP Job.isUnderway < workers) := by
    by_cases hbusy : ∃ job ∈ pool.jobs, job.isUnderway = true
    · obtain ⟨job, hmem, hunderway⟩ := hbusy
      rw [Job.isUnderway, Bool.and_eq_true, Bool.not_eq_true'] at hunderway
      exact ⟨job, hmem, hunderway.2, .inl hunderway.1⟩
    · push Not at hdone hbusy
      obtain ⟨job, hmem, hjob⟩ := hdone
      have hnone : pool.jobs.countP Job.isUnderway = 0 := List.countP_eq_zero.mpr hbusy
      exact ⟨job, hmem, by simpa using hjob, .inr (by omega)⟩
  obtain ⟨i, found⟩ := List.mem_iff_getElem?.mp hmem
  obtain ⟨op, next, left⟩ : ∃ op next, job.rest = .step op next := by
    unfold Job.isDone at hjob
    split at hjob
    · exact absurd hjob (by simp)
    · exact ⟨_, _, ‹_›⟩
  exact .inl ⟨_, .advance pool found left free⟩

end Pool

/-! ## Jobs with entries of their own -/

/-- The same stands everywhere in both trees, and relative paths start at the same place; only
the order of a listing can differ. -/
structure FileTree.Same (t t' : FileTree) : Prop where
  /-- Relative paths start at the same place. -/
  current : t.current = t'.current
  /-- The same stands everywhere. -/
  node : ∀ q, t.node? q = t'.node? q

variable {t₀ : FileTree} {base : Location} {command : EngineCommand} {h : Host P S σ}
  {xs : List (Bytes × Action P S α)}

/-- The actions keep to entries of the directory at `base`, each to the one that it is paired
with, and these are different. -/
structure Apart (t₀ : FileTree) (base : Location) (command : EngineCommand)
    (xs : List (Bytes × Action P S α)) : Prop where
  /-- Every action keeps to its entry, whichever engine has been running. -/
  confined : ∀ x ∈ xs, x.2.Confined t₀ base x.1 command false
  /-- The entries are different. -/
  nodup : (xs.map Prod.fst).Nodup

lemma Apart.of_cons {x : Bytes × Action P S α} (hxs : Apart t₀ base command (x :: xs)) :
    Apart t₀ base command xs :=
  ⟨fun y hy => hxs.confined y (List.mem_cons_of_mem _ hy), (List.nodup_cons.mp hxs.nodup).2⟩

lemma Apart.fst_ne {x y : Bytes × Action P S α} {i j : Nat} (hxs : Apart t₀ base command xs)
    (hx : xs[i]? = some x) (hy : xs[j]? = some y) (hne : i ≠ j) : x.1 ≠ y.1 := by
  intro heq
  obtain ⟨hi, rfl⟩ := List.getElem?_eq_some_iff.mp hx
  obtain ⟨hj, rfl⟩ := List.getElem?_eq_some_iff.mp hy
  have hi' : i < (xs.map Prod.fst).length := by simpa
  have hj' : j < (xs.map Prod.fst).length := by simpa
  have hget : (xs.map Prod.fst)[i] = (xs.map Prod.fst)[j] := by simpa
  exact hne (hxs.nodup.getElem_inj_iff.mp hget)

/-- The results and the files are those to which the actions come when each of them is carried
out alone. -/
structure ComeTo (m : Machine P S σ) (h : Host P S σ) (base : Location)
    (xs : List (Bytes × Action P S α)) (results : List α) (files : FileTree) : Prop where
  /-- The results are. -/
  results_eq : results = xs.map fun x => (x.2.run m h).1
  /-- Relative paths start at the same place. -/
  current : files.current = h.files.current
  /-- In each entry stands what the action for it alone leaves there. -/
  entry : ∀ x ∈ xs, SameWithin base x.1 (x.2.run m h).2.files files
  /-- Everywhere else nothing has changed. -/
  frame : ∀ q, (∀ x ∈ xs, ¬ Within base x.1 q) → files.node? q = h.files.node? q

/-- What the actions come to is determined. -/
lemma ComeTo.unique {results results' : List α} {files files' : FileTree}
    (hc : ComeTo m h base xs results files) (hc' : ComeTo m h base xs results' files') :
    results' = results ∧ files'.Same files := by
  refine ⟨hc'.results_eq.trans hc.results_eq.symm, hc'.current.trans hc.current.symm, fun q => ?_⟩
  by_cases hq : ∀ x ∈ xs, ¬ Within base x.1 q
  · exact (hc'.frame q hq).trans (hc.frame q hq).symm
  · push Not at hq
    obtain ⟨x, hx, hwithin⟩ := hq
    exact (hc'.entry x hx q hwithin).trans (hc.entry x hx q hwithin).symm

/-- Actions that are carried out one after the other come to what each of them comes to alone. -/
lemma ComeTo.cons {x : Bytes × Action P S α} {results : List α} {files : FileTree}
    (alike : ∀ n, m.launch n command = m.launch 0 command)
    (hxs : Apart t₀ base command (x :: xs)) (hg : GrowsBelow base t₀ h.files)
    (hc : ComeTo m (x.2.run m h).2 base xs results files) :
    ComeTo m h base (x :: xs) ((x.2.run m h).1 :: results) files := by
  obtain ⟨hg', hframe⟩ := (hxs.confined x List.mem_cons_self).run_frame hg (m := m)
  have hne : ∀ y ∈ xs, x.1 ≠ y.1 := by
    intro y hy heq
    exact (List.nodup_cons.mp hxs.nodup).1 (List.mem_map.mpr ⟨y, hy, heq.symm⟩)
  -- the first action does not concern the others
  have hrun : ∀ y ∈ xs, (y.2.run m (x.2.run m h).2).1 = (y.2.run m h).1 ∧
      SameWithin base y.1 (y.2.run m h).2.files (y.2.run m (x.2.run m h).2).2.files := by
    intro y hy
    refine (hxs.of_cons.confined y hy).run_congr alike ⟨hg, hg', fun q hq => ?_, by simp⟩
    exact hframe q fun hwithin => hne y hy (hwithin.name_eq hq)
  refine ⟨?_, hc.current.trans (hg'.current.trans hg.current.symm), ?_, ?_⟩
  · rw [List.map_cons, hc.results_eq]
    exact congrArg _ (List.map_congr_left fun y hy => (hrun y hy).1)
  · rw [List.forall_mem_cons]
    refine ⟨fun q hq => hc.frame q fun y hy hwithin => hne y hy (hq.name_eq hwithin), ?_⟩
    intro y hy q hq
    exact (hc.entry y hy q hq).trans ((hrun y hy).2 q hq)
  · intro q hq
    obtain ⟨hx, hrest⟩ := List.forall_mem_cons.mp hq
    exact (hc.frame q hrest).trans (hframe q hx)

/-- What is left of a job comes to what its action comes to alone. -/
structure Job.OnCourse (m : Machine P S σ) (t₀ : FileTree) (base : Location)
    (command : EngineCommand) (h shared : Host P S σ) (x : Bytes × Action P S α)
    (job : Job P S σ α) : Prop where
  /-- The job goes on keeping to the entry. -/
  confined : job.rest.Confined t₀ base x.1 command true
  /-- It comes to the same result. -/
  result : (job.rest.run m (job.host shared)).1 = (x.2.run m h).1
  /-- It leaves the same in the entry. -/
  entry : SameWithin base x.1 (x.2.run m h).2.files (job.rest.run m (job.host shared)).2.files

namespace Job.OnCourse

variable {x y : Bytes × Action P S α} {job job' : Job P S σ α} {shared : Host P S σ}
  {op : Operation P S} {next : op.Answer → Action P S α}

/-- The next thing that a job asks for brings it on. -/
lemma own_step (hjob : job.OnCourse m t₀ base command h shared x)
    (hg : GrowsBelow base t₀ shared.files) (left : job.rest = .step op next) :
    Job.OnCourse m t₀ base command h ((job.host shared).perform m op).2 x
      ⟨next ((job.host shared).perform m op).1, ((job.host shared).perform m op).2.session,
        true⟩ := by
  obtain ⟨hconfined, hresult, hentry⟩ := hjob
  rw [left] at hconfined hresult hentry
  have hg' : GrowsBelow base t₀ (job.host shared).files := hg
  exact ⟨(hconfined.2 _ (Host.perform_canAnswer hg')), hresult, hentry⟩

/-- What changes outside its entry does not concern a job. -/
lemma of_same (alike : ∀ n, m.launch n command = m.launch 0 command)
    (hjob : job.OnCourse m t₀ base command h shared x) {shared' : Host P S σ}
    (hg : GrowsBelow base t₀ shared.files) (hg' : GrowsBelow base t₀ shared'.files)
    (hsame : SameWithin base x.1 shared.files shared'.files) :
    job.OnCourse m t₀ base command h shared' x := by
  have hh : (job.host shared).Alike t₀ base x.1 true (job.host shared') :=
    ⟨hg, hg', hsame, fun _ => rfl⟩
  obtain ⟨hresult, hentry⟩ := hjob.confined.run_congr alike hh
  exact ⟨hjob.confined, hresult.trans hjob.result,
    fun q hq => (hentry q hq).trans (hjob.entry q hq)⟩

end Job.OnCourse

namespace Pool

variable {pool pool' : Pool P S σ α}

/-- All jobs are on course, and nothing has changed outside their entries. -/
structure OnCourse (m : Machine P S σ) (t₀ : FileTree) (base : Location)
    (command : EngineCommand) (h : Host P S σ) (xs : List (Bytes × Action P S α))
    (pool : Pool P S σ α) : Prop where
  /-- There is one job for every action. -/
  length_eq : pool.jobs.length = xs.length
  /-- The files have grown below the common directory. -/
  grows : GrowsBelow base t₀ pool.shared.files
  /-- Every job is on course. -/
  job : ∀ (i : Nat) (x : Bytes × Action P S α) (job : Job P S σ α), xs[i]? = some x →
    pool.jobs[i]? = some job → job.OnCourse m t₀ base command h pool.shared x
  /-- Nothing else has changed. -/
  frame : ∀ q, (∀ x ∈ xs, ¬ Within base x.1 q) → pool.shared.files.node? q = h.files.node? q

/-- At the end, nothing but a result is left of each job. -/
lemma FinishedWith.exists_done {results : List α} (hfinished : pool.FinishedWith results)
    (hlen : pool.jobs.length = xs.length) {i : Nat} {x : Bytes × Action P S α}
    (hx : xs[i]? = some x) :
    ∃ job a, pool.jobs[i]? = some job ∧ results[i]? = some a ∧ job.rest = .done a := by
  have hi : i < pool.jobs.length := hlen ▸ (List.getElem?_eq_some_iff.mp hx).1
  have hjob : pool.jobs[i]? = some pool.jobs[i] := List.getElem?_eq_getElem hi
  have heq := congrArg (fun l => l[i]?) hfinished
  simp only [List.getElem?_map, hjob, Option.map_some] at heq
  obtain ⟨a, ha, hrest⟩ := Option.map_eq_some_iff.mp heq.symm
  exact ⟨_, a, hjob, ha, hrest.symm⟩

lemma FinishedWith.length_eq {results : List α} (hfinished : pool.FinishedWith results) :
    results.length = pool.jobs.length := by
  have heq := congrArg List.length hfinished
  rw [List.length_map, List.length_map] at heq
  exact heq.symm

/-- The results are what the actions come to if each of them is. -/
lemma FinishedWith.results_eq {results : List α} (hfinished : pool.FinishedWith results)
    (hlen : pool.jobs.length = xs.length) {f : Bytes × Action P S α → α}
    (hdone : ∀ (i : Nat) x job a, xs[i]? = some x → pool.jobs[i]? = some job →
      job.rest = .done a → a = f x) : results = xs.map f := by
  refine List.ext_getElem? fun i => ?_
  rw [List.getElem?_map]
  rcases hx : xs[i]? with _ | x
  · simpa [hfinished.length_eq, hlen] using hx
  · obtain ⟨job, a, hjob, ha, hrest⟩ := hfinished.exists_done hlen hx
    rw [ha, hdone i x job a hx hjob hrest]
    rfl

/-- At the end, the jobs have come to what their actions come to alone. -/
lemma OnCourse.comeTo {results : List α} (hpool : OnCourse m t₀ base command h xs pool)
    (hg : GrowsBelow base t₀ h.files) (hfinished : pool.FinishedWith results) :
    ComeTo m h base xs results pool.shared.files where
  results_eq := by
    refine hfinished.results_eq hpool.length_eq fun i x job a hx hjob hrest => ?_
    obtain ⟨-, hresult, -⟩ := hpool.job i x job hx hjob
    rwa [hrest] at hresult
  current := hpool.grows.current.trans hg.current.symm
  entry := by
    intro x hx
    obtain ⟨i, hi⟩ := List.mem_iff_getElem?.mp hx
    obtain ⟨job, a, hjob, -, hrest⟩ := hfinished.exists_done hpool.length_eq hi
    obtain ⟨-, -, hentry⟩ := hpool.job i x job hi hjob
    rwa [hrest] at hentry
  frame := hpool.frame

variable (alike : ∀ n, m.launch n command = m.launch 0 command)
  (hxs : Apart t₀ base command xs)

include alike hxs

/-- No engine is running for a job at the beginning, but that does not matter: each action
starts one before it calls it. -/
lemma onCourse_start (hg : GrowsBelow base t₀ h.files) :
    OnCourse m t₀ base command h xs (start h (xs.map Prod.snd)) := by
  refine ⟨by simp [start], hg, ?_, fun _ _ => rfl⟩
  intro i x job hx hjob
  rw [start, List.getElem?_map, List.getElem?_map, hx] at hjob
  obtain rfl := Option.some.inj hjob
  have hh : h.Alike t₀ base x.1 false { h with session := none } :=
    ⟨hg, hg, fun _ _ => rfl, by simp⟩
  have hconfined := hxs.confined x (List.mem_of_getElem? hx)
  obtain ⟨hresult, hentry⟩ := hconfined.run_congr alike hh
  exact ⟨hconfined.of_known, hresult, hentry⟩

/-- **A step of one job keeps all jobs on course.** -/
lemma OnCourse.step (hpool : OnCourse m t₀ base command h xs pool)
    (hstep : Step m workers pool pool') : OnCourse m t₀ base command h xs pool' := by
  cases hstep with
  | @advance i job op next found left free =>
    obtain ⟨hlt, -⟩ := List.getElem?_eq_some_iff.mp found
    obtain ⟨x, hx⟩ : ∃ x, xs[i]? = some x :=
      ⟨_, List.getElem?_eq_getElem (hpool.length_eq ▸ hlt)⟩
    have hown := hpool.job i x job hx found
    have hconfined := hown.confined
    rw [left] at hconfined
    obtain ⟨hg', hframe⟩ := Host.perform_frame (m := m) (h := job.host pool.shared)
      hconfined.1 hpool.grows
    refine ⟨by simpa [advance] using hpool.length_eq, hg', ?_, ?_⟩
    · intro j y job' hy hjob'
      by_cases hij : i = j
      · subst hij
        obtain rfl : x = y := Option.some.inj (hx.symm.trans hy)
        rw [advance, List.getElem?_set_self hlt] at hjob'
        obtain rfl := Option.some.inj hjob'
        exact hown.own_step hpool.grows left
      · -- the entry of another job is not touched
        rw [advance, List.getElem?_set_ne hij] at hjob'
        refine (hpool.job j y job' hy hjob').of_same alike hpool.grows hg' fun q hq => ?_
        exact hframe q fun hwithin => hxs.fst_ne hx hy hij (hwithin.name_eq hq)
    · intro q hq
      exact (hframe q (hq x (List.mem_of_getElem? hx))).trans (hpool.frame q hq)

/-- However far a pool has come, all its jobs are on course. -/
lemma OnCourse.of_reaches (hpool : OnCourse m t₀ base command h xs pool)
    (hreach : Reaches m workers pool pool') : OnCourse m t₀ base command h xs pool' := by
  induction hreach with
  | refl => exact hpool
  | tail _ hstep ih => exact ih.step alike hxs hstep

end Pool

end Concolic
