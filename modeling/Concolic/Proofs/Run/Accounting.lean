/-
# What a batch accounts for

The documents of a directory are those with a companion, which are worked on, and those without,
which are skipped; and a document that is worked on ends in one of two ways.  So each document of
the directory stands once in the report, in one of its three lists (`BatchReport.Accounts`).

What is said about a document is what the work on it comes to alone, with the same engine
(`BatchReport.WorkedAlone`).  Engines may start and fail in any way, and be given to documents in
any order; but each engine is given to one document, and a document is given one if it loads, and
none otherwise.
-/
import Concolic.Proofs.Run.Dealing
import Concolic.Proofs.Run.Discovery
import Concolic.Proofs.Run.Parallel

namespace Concolic

open FileTree (GrowsBelow Within SameWithin)

variable {P S σ : Type} {m : Machine P S σ} {h h' : Host P S σ} {t t₀ : FileTree}
  {base : Location} {command : EngineCommand} {policy : Policy} {r : RunDirectory}
  {directory : Path} {documents : List Path} {d : Discovery}

/-! ## The order of documents -/

/-- The name of the first path comes before that of the second one. -/
def Path.NamedBefore (p q : Path) : Prop :=
  ∃ a b, p.fileName? = some a ∧ q.fileName? = some b ∧ a.le b = true ∧ a ≠ b

lemma Path.NamedBefore.ne {p q : Path} (hpq : p.NamedBefore q) : p ≠ q := by
  rintro rfl
  obtain ⟨a, b, ha, hb, -, hne⟩ := hpq
  exact hne (Option.some.inj (ha.symm.trans hb))

lemma Path.nodup_of_pairwise_namedBefore {paths : List Path}
    (hpaths : paths.Pairwise Path.NamedBefore) : paths.Nodup :=
  hpaths.imp Path.NamedBefore.ne

/-- The documents of a directory are found in the order of their names. -/
lemma FileTree.pairwise_documentsAmong {names : List Bytes} (ht : t.Proper)
    (hlist : t.list directory = .ok names) :
    (t.documentsAmong directory names).Pairwise Path.NamedBefore := by
  obtain ⟨hnodup, hleads⟩ := ht.of_list_eq_ok hlist
  have hsorted : (names.mergeSort Bytes.le).Pairwise fun a b => a.le b = true ∧ a ≠ b :=
    (Bytes.pairwise_mergeSort names).and
      ((List.mergeSort_perm names Bytes.le).nodup_iff.mpr hnodup)
  refine List.Pairwise.sublist (List.filter_sublist.trans List.filter_sublist) ?_
  rw [List.pairwise_map]
  refine hsorted.imp_of_mem fun ha hb hab => ?_
  exact ⟨_, _, Path.fileName?_child (hleads _ (List.mem_mergeSort.mp ha)),
    Path.fileName?_child (hleads _ (List.mem_mergeSort.mp hb)), hab⟩

/-! ## Three lists -/

namespace BatchReport

variable {report : BatchReport} {skipped : List Path}
  {results : List (Path × Except RunError TargetReport)}

/-- The documents for which something was done. -/
def documentsDone (report : BatchReport) : List Path := report.succeeded.map TargetReport.document

/-- The documents that failed. -/
def documentsFailed (report : BatchReport) : List Path := report.failed.map Prod.fst

/-- All documents that stand in the report. -/
def allDocuments (report : BatchReport) : List Path :=
  report.documentsDone ++ report.documentsFailed ++ report.skipped

/-- Every document of the directory stands once in the report, and nothing else does. -/
structure Accounts (report : BatchReport) (t : FileTree) (directory : Path) : Prop where
  /-- No document stands in the report twice. -/
  nodup : report.allDocuments.Nodup
  /-- The documents of the directory stand in it. -/
  mem_iff : ∀ path, path ∈ report.allDocuments ↔ t.HasDocument directory path
  /-- Those without a companion are skipped. -/
  skipped_iff : ∀ path,
    path ∈ report.skipped ↔ t.HasDocument directory path ∧ t.isFile (companion path) = false
  /-- Those for which something was done stand in the order of their names. -/
  done_sorted : report.documentsDone.Pairwise Path.NamedBefore
  /-- Those that failed stand in the order of their names. -/
  failed_sorted : report.documentsFailed.Pairwise Path.NamedBefore

/-- The results tell of the documents that they are paired with. -/
def Faithful (results : List (Path × Except RunError TargetReport)) : Prop :=
  ∀ x ∈ results, ∀ target, x.2 = .ok target → target.document = x.1

lemma documentsDone_ofResults (hf : Faithful results) :
    (ofResults skipped results).documentsDone
      = (results.filter fun x => x.2.toOption.isSome).map Prod.fst := by
  induction results with
  | nil => rfl
  | cons x results ih =>
    obtain ⟨hx, hresults⟩ := List.forall_mem_cons.mp hf
    obtain ⟨document, result⟩ := x
    have hrest := ih hresults
    cases result with
    | error e => exact hrest
    | ok target => exact congrArg₂ List.cons (hx target rfl) hrest

lemma documentsFailed_ofResults :
    (ofResults skipped results).documentsFailed
      = (results.filter fun x => !x.2.toOption.isSome).map Prod.fst := by
  induction results with
  | nil => rfl
  | cons x results ih =>
    obtain ⟨document, result⟩ := x
    cases result with
    | error e => exact congrArg (List.cons document) ih
    | ok target => exact ih

/-- **A report on the documents that were found accounts for the documents of the directory.** -/
lemma accounts_ofResults (proper : h.files.Proper)
    (found : (discover directory).runOn m h = (.ok d, h')) (hf : Faithful results)
    (hresults : results.map Prod.fst = d.documents) :
    (ofResults d.skipped results).Accounts h.files directory := by
  obtain ⟨names, hlist, hd, -⟩ := discover_runOn_eq_ok found
  have hdocuments : d.documents
      = (h.files.documentsAmong directory names).filter h.files.hasCompanion := by rw [hd]; rfl
  have hskipped : d.skipped = (h.files.documentsAmong directory names).filter
      fun document => !h.files.hasCompanion document := by rw [hd]; rfl
  have hsorted := FileTree.pairwise_documentsAmong proper hlist
  have hsub : d.documents.Sublist (h.files.documentsAmong directory names) := by
    rw [hdocuments]
    exact List.filter_sublist
  have hdone : (ofResults d.skipped results).documentsDone.Sublist d.documents := by
    rw [documentsDone_ofResults hf, ← hresults]
    exact List.filter_sublist.map _
  have hfailed : (ofResults d.skipped results).documentsFailed.Sublist d.documents := by
    rw [documentsFailed_ofResults, ← hresults]
    exact List.filter_sublist.map _
  -- the documents with a companion are those for which something was done and those that failed
  have hboth : ((ofResults d.skipped results).documentsDone
      ++ (ofResults d.skipped results).documentsFailed).Perm d.documents := by
    rw [documentsDone_ofResults hf, documentsFailed_ofResults, ← List.map_append, ← hresults]
    exact (List.filter_append_perm _ results).map _
  have hall : (ofResults d.skipped results).allDocuments.Perm
      (h.files.documentsAmong directory names) := by
    refine (hboth.append_right d.skipped).trans ?_
    rw [hdocuments, hskipped]
    exact List.filter_append_perm _ _
  have hmem : ∀ path, path ∈ h.files.documentsAmong directory names ↔
      h.files.HasDocument directory path := fun path => FileTree.mem_documentsAmong_iff hlist
  refine ⟨?_, ?_, ?_, hsorted.sublist (hdone.trans hsub), hsorted.sublist (hfailed.trans hsub)⟩
  · exact hall.nodup_iff.mpr (Path.nodup_of_pairwise_namedBefore hsorted)
  · intro path
    exact hall.mem_iff.trans (hmem path)
  · intro path
    show path ∈ d.skipped ↔ _
    rw [hskipped, List.mem_filter, hmem, Bool.not_eq_true']
    rfl

end BatchReport

/-! ## The work on each document alone -/

/-- The report is about the document that has been worked on. -/
lemma document_of_processOne {document : Path} {target : TargetReport}
    (hr : (processOne command policy r document).runOn m h = (.ok target, h')) :
    target.document = document := by
  obtain ⟨_, h₁, -, hr₁⟩ := Work.runOn_bind_eq_ok_iff.mp hr
  obtain ⟨c, h₂, -, hengine⟩ := Work.runOn_bind_eq_ok_iff.mp hr₁
  rcases Work.withEngine_runOn hengine with ⟨e, he, -⟩ | ⟨h₃, h₄, -, -, hprocess, -⟩
  · exact nomatch he
  obtain ⟨v, h₅, -, hr₂⟩ := Work.runOn_bind_eq_ok_iff.mp hprocess
  obtain ⟨l, h₆, -, hr₃⟩ := Work.runOn_bind_eq_ok_iff.mp hr₂
  obtain ⟨testCases, h₇, -, hr₄⟩ := Work.runOn_bind_eq_ok_iff.mp hr₃
  obtain ⟨_, h₈, -, hr₅⟩ := Work.runOn_bind_eq_ok_iff.mp hr₄
  obtain ⟨htarget, -⟩ := Prod.mk.inj hr₅
  rw [← Except.ok.inj htarget]

/-- What the work on a document comes to alone, with the engine of a number. -/
def alone (m : Machine P S σ) (h : Host P S σ) (command : EngineCommand) (policy : Policy)
    (r : RunDirectory) (n : Nat) (document : Path) : Except RunError TargetReport × Host P S σ :=
  (processOne command policy r document).runOn (m.pinned n) h

/-- What is reported, and what is there, is for each document what the work on it comes to alone,
with the engine that it has been given. -/
structure BatchReport.WorkedAlone (m : Machine P S σ) (h : Host P S σ) (base : Location)
    (command : EngineCommand) (policy : Policy) (r : RunDirectory) (d : Discovery)
    (number : Path → Nat) (report : BatchReport) (files : FileTree) (launches : Nat) : Prop where
  /-- The report tells what the work on each document comes to. -/
  report_eq : report = .ofResults d.skipped (d.documents.map fun document =>
    (document, (alone m h command policy r (number document) document).1))
  /-- In the directory of each document stands what the work on it leaves there. -/
  output : ∀ document ∈ d.documents, ∀ name, document.fileName? = some name →
    SameWithin base name (alone m h command policy r (number document) document).2.files files
  /-- Everywhere else nothing has changed. -/
  elsewhere : ∀ q, (∀ document ∈ d.documents, ∀ name, document.fileName? = some name →
    ¬ Within base name q) → files.node? q = h.files.node? q
  /-- The work on a document that loads starts one engine. -/
  starts_one : ∀ document ∈ d.documents, Loads m h document →
    (alone m h command policy r (number document) document).2.launches = h.launches + 1
  /-- The work on any other document starts none. -/
  starts_none : ∀ document ∈ d.documents, ¬ Loads m h document →
    (alone m h command policy r (number document) document).2.launches = h.launches
  /-- The engines that were started have been given to the documents that load, one to each. -/
  numbers : Set.BijOn number {document | document ∈ d.documents ∧ Loads m h document}
    (Set.Ico h.launches launches)

/-- **The report accounts for the documents of the directory.** -/
lemma BatchReport.WorkedAlone.accounts {found : Host P S σ} {number : Path → Nat}
    {report : BatchReport} {files : FileTree} {launches : Nat}
    (hw : WorkedAlone m h base command policy r d number report files launches)
    (proper : found.files.Proper)
    (hfound : (discover directory).runOn m found = (.ok d, h')) :
    report.Accounts found.files directory := by
  rw [hw.report_eq]
  refine accounts_ofResults proper hfound ?_ ?_
  · intro x hx target htarget
    obtain ⟨document, -, rfl⟩ := List.mem_map.mp hx
    exact document_of_processOne (Prod.ext htarget rfl)
  · rw [List.map_map]
    exact List.map_id _

/-! ## Documents that start engines -/

/-- The names of the documents that load. -/
def loadingNames (m : Machine P S σ) (h : Host P S σ) (documents : List Path) : Set Bytes :=
  (fun document => document.fileName?.getD []) ''
    {document | document ∈ documents ∧ Loads m h document}

/-- Documents that are worked on apart have different names. -/
lemma Apart.injOn (hxs : Apart t₀ base command
      (namedActions command policy r documents : List (Bytes × Action P S _))) :
    Set.InjOn (fun document : Path => document.fileName?.getD [])
      {document | document ∈ documents} := by
  have hnodup := hxs.nodup
  rw [namedActions, List.map_map] at hnodup
  exact fun _ hdocument _ hdocument' => List.inj_on_of_nodup_map hnodup hdocument hdocument'

/-- Whichever engines are started, the work on a document starts one if the document loads. -/
lemma startsFor_namedActions (hxs : Apart t₀ base command
      (namedActions command policy r documents : List (Bytes × Action P S _)))
    (hfiles : h'.files = h.files) :
    StartsFor m h' (loadingNames m h documents)
      (namedActions command policy r documents : List (Bytes × Action P S _)) where
  one := by
    intro x hx hload n
    obtain ⟨document, hmem, rfl⟩ := List.mem_map.mp hx
    obtain ⟨document', ⟨hmem', hloads⟩, hname⟩ := hload
    obtain rfl := hxs.injOn hmem' hmem hname
    exact launches_processOne.1 ((loads_congr hfiles).mpr hloads)
  none := by
    intro x hx hload n
    obtain ⟨document, hmem, rfl⟩ := List.mem_map.mp hx
    refine launches_processOne.2 fun hloads => hload ?_
    exact ⟨document, ⟨hmem, (loads_congr hfiles).mp hloads⟩, rfl⟩

/-- Engines that have been dealt out to the work on the documents have been given to the
documents. -/
lemma Dealt.workedAlone {number : Bytes → Nat}
    {results : List (Except RunError TargetReport)} {files : FileTree} {launches : Nat}
    (hxs : Apart t₀ base command
      (namedActions command policy r d.documents : List (Bytes × Action P S _)))
    (named : ∀ document ∈ d.documents, document.fileName? ≠ none)
    (hd : Dealt m h base (loadingNames m h d.documents)
      (namedActions command policy r d.documents) number results files launches) :
    BatchReport.WorkedAlone m h base command policy r d
      (fun document => number (document.fileName?.getD []))
      (.ofResults d.skipped (d.documents.zip results)) files launches where
  report_eq := by
    rw [hd.results_eq, namedActions, List.map_map]
    exact congrArg _ List.map_prod_left_eq_zip.symm
  output := by
    intro document hmem name hname
    have hentry := hd.entry _ (List.mem_map_of_mem hmem)
    simp only [hname, Option.getD_some] at hentry ⊢
    exact hentry
  elsewhere := by
    intro q hq
    refine hd.frame q fun x hx => ?_
    obtain ⟨document, hmem, rfl⟩ := List.mem_map.mp hx
    obtain ⟨name, hname⟩ := Option.ne_none_iff_exists'.mp (named document hmem)
    rw [hname]
    exact hq document hmem name hname
  starts_one document hmem hloads := launches_processOne.1 ((loads_congr rfl).mpr hloads)
  starts_none document hmem hnot :=
    launches_processOne.2 fun hloads => hnot ((loads_congr rfl).mp hloads)
  numbers := by
    have hall : starting (loadingNames m h d.documents)
        (namedActions command policy r d.documents : List (Bytes × Action P S _))
        = loadingNames m h d.documents := by
      refine Set.Subset.antisymm (fun _ hname => hname.2) fun name hname => ⟨?_, hname⟩
      obtain ⟨document, ⟨hmem, -⟩, rfl⟩ := hname
      rw [namedActions, List.map_map]
      exact List.mem_map_of_mem hmem
    have hnumbers := hd.numbers
    rw [hall] at hnumbers
    exact hnumbers.comp (Set.InjOn.bijOn_image (hxs.injOn.mono fun _ hdocument => hdocument.1))

/-! ## Batches -/

/-- One worker deals the engines out to the documents in their order. -/
lemma processEach_dealt {loading : Set Bytes} (hg : GrowsBelow base t₀ h.files)
    (hxs : Apart t₀ base command
      (namedActions command policy r documents : List (Bytes × Action P S _)))
    (hs : StartsFor m h loading
      (namedActions command policy r documents : List (Bytes × Action P S _))) :
    ∃ number results h', (processEach command policy r documents).runOn m h
        = (.ok (documents.zip results), h') ∧
      Dealt m h base loading (namedActions command policy r documents) number results h'.files
        h'.launches := by
  induction documents generalizing h with
  | nil =>
    refine ⟨fun _ => 0, [], h, rfl, rfl, by simp [namedActions], fun _ _ => rfl, Nat.le_refl _, ?_⟩
    simp [starting, namedActions]
  | cons document documents ih =>
    have hg' := ((hxs.confined _ List.mem_cons_self).run_frame hg (m := m)).1
    obtain ⟨number, results, h', hrun, hd⟩ := ih hg' hxs.of_cons (hs.after hxs hg)
    refine ⟨_, _ :: results, h', ?_, hd.cons hxs hs hg⟩
    rw [processEach, Work.runOn_bind, Work.runOn_lift]
    simp only
    rw [Work.runOn_bind, hrun]
    rfl

section

variable (stands : r.StandsAt h.files base)
  (named : ∀ document ∈ d.documents, document.fileName? ≠ none)
  (distinct : (d.documents.map Path.fileName?).Nodup)
  (apart : ∀ document ∈ d.documents, LiesApart h.files base document)

include stands named distinct apart

/-- **On one worker, each document comes to what the work on it comes to alone.** -/
lemma processBatch_workedAlone (command : EngineCommand) (policy : Policy) (jobs : Nat) :
    ∃ number report h', (processBatch command policy jobs r d).runOn m h = (.ok report, h') ∧
      report.WorkedAlone m h base command policy r d number h'.files h'.launches := by
  have hg := GrowsBelow.refl base h.files
  have hxs : Apart h.files base command
      (namedActions command policy r d.documents : List (Bytes × Action P S _)) :=
    apart_namedActions stands named distinct apart
  -- that the batch is worked on by several workers is only told
  obtain ⟨told, hfiles, hlaunches, hwork⟩ : ∃ told : Host P S σ, told.files = h.files ∧
      told.launches = h.launches ∧
      (processBatch command policy jobs r d).runOn m h
        = (processBatch command policy 1 r d).runOn m told := by
    unfold processBatch
    by_cases hjobs : 1 < jobs
    · refine ⟨{ h with events := h.events
        ++ [batchEvent .debug s!"Processing batch on {jobs} threads"] }, rfl, rfl, ?_⟩
      rw [if_pos hjobs, if_neg (by decide), Work.runOn_bind, Work.runOn_tell]
    · refine ⟨h, rfl, rfl, ?_⟩
      rw [if_neg hjobs, if_neg (by decide)]
  obtain ⟨number, results, h₁, heach, hd⟩ := processEach_dealt (m := m) (h := told)
    (hfiles ▸ hg) hxs (startsFor_namedActions hxs hfiles)
  obtain ⟨h', hbatch, hsame, hcount⟩ := processBatch_one_runOn heach
  have hdealt := (hd.of_files_eq hxs hg hfiles hlaunches).workedAlone hxs named
  rw [← hsame, ← hcount] at hdealt
  exact ⟨_, _, h', hwork.trans hbatch, hdealt⟩

/-- **On several workers, each document comes to what the work on it comes to alone.** -/
lemma Pool.workedAlone {workers : Nat} {pool : Pool P S σ (Except RunError TargetReport)}
    {results : List (Except RunError TargetReport)}
    (hreach : Reaches m workers (start h (documentActions command policy r d.documents)) pool)
    (hfinished : pool.FinishedWith results) :
    ∃ number, BatchReport.WorkedAlone m h base command policy r d number
      (.ofResults d.skipped (d.documents.zip results)) pool.shared.files
      pool.shared.launches := by
  have hxs : Apart h.files base command
      (namedActions command policy r d.documents : List (Bytes × Action P S _)) :=
    apart_namedActions stands named distinct apart
  rw [← snd_namedActions] at hreach
  obtain ⟨number, hd⟩ := dealt_of_reaches hxs (GrowsBelow.refl base h.files)
    (startsFor_namedActions hxs rfl) hreach hfinished
  exact ⟨_, hd.workedAlone hxs named⟩

end

end Concolic
