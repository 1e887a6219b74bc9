/-
Baselib.Transfer.FilesUnpackagerTheorems — the order in which the
unpackager hands out the entries.

`scheduleTasks` takes "the input is over and every worker is idle" for
"all files and directories are done", also where it has not scheduled
all directories yet, and remembers it: symlinks are then handed out while
directories are still in the works (`run_outOfOrder`). In runs where the
two coincide the symlinks come last, and success means that all work was
handed out once (`run_ordered`). The invariant says which entries have
been passed by the iterator, what has become of them, and what the
workers have done.
-/
import Baselib.Transfer.FilesUnpackager

namespace Baselib.Transfer.FilesUnpackager

open Lib List
open Data (EntryType)

section

variable {ι : Type} {p : Package ι} {maxEntriesQueueSize : Nat}

/-! ## What is to be shown -/

/-- Every directory has been created and every file finalized. -/
def FilesAndDirsDone (p : Package ι) (log : List (Event ι)) : Prop :=
  ∀ e ∈ p.entries, p.type e = .directory ∨ p.type e = .file → .finalized e ∈ log

/-- Where a symlink was handed to a worker, all files and directories
were done. -/
def Ordered (p : Package ι) (s : State ι) : Prop :=
  ∀ before work after, s.log = before ++ .handed work :: after →
    p.type work.entryId = .symlink → FilesAndDirsDone p before

/-- The work of a package: an entry without chunks is handed out alone,
the others chunk by chunk. -/
def Package.work (p : Package ι) : List (Work ι) :=
  p.entries.flatMap fun e =>
    if p.chunkIds e = [] then [⟨e, none⟩] else (p.chunkIds e).map fun c => ⟨e, some c⟩

/-- No task throws, each chunk arrives once, the input is over when all
chunks have arrived; and the scheduler task is not executed with the
input over and all workers idle while directories are left to schedule
or to hand out. -/
def Regular (p : Package ι) (s : State ι) : Label ι → Prop
  | .execute =>
    s.isInputDisconnectedAndAllWorkersDone = true → s.allFilesAndDirsDone = false →
      s.allDirectoriesScheduled = true ∨
        (s.entriesQueue = [] ∧ ∀ e ∈ s.iterator, p.isDirectoryOrZeroLengthFile e = false)
  | .complete _ succeeds => succeeds = true
  | .chunkArrived c => ∀ work ∈ s.handed, work.chunkId ≠ some c
  | .inputCompleted => ∀ e ∈ p.entries, ∀ c ∈ p.chunkIds e, ⟨e, some c⟩ ∈ s.handed
  | _ => True

instance decidableRegular [DecidableEq ι] (s : State ι) :
    ∀ l : Label ι, Decidable (Regular p s l)
  | .execute => inferInstanceAs (Decidable (_ → _ → _ ∨ (_ ∧ _)))
  | .accept => isTrue trivial
  | .pushNext => isTrue trivial
  | .reschedule => isTrue trivial
  | .complete _ succeeds => inferInstanceAs (Decidable (succeeds = true))
  | .chunkArrived c => inferInstanceAs (Decidable (∀ work ∈ s.handed, work.chunkId ≠ some c))
  | .inputCompleted =>
    inferInstanceAs (Decidable (∀ e ∈ p.entries, ∀ c ∈ p.chunkIds e, ⟨e, some c⟩ ∈ s.handed))
  | .flush => isTrue trivial

theorem mem_work {e : ι} {c : Option ι} : ⟨e, c⟩ ∈ p.work ↔ e ∈ p.entries ∧
    ((p.chunkIds e = [] ∧ c = none) ∨ ∃ d ∈ p.chunkIds e, c = some d) := by
  unfold Package.work
  rw [mem_flatMap]
  constructor
  · intro h
    obtain ⟨x, hx, hmem⟩ := h
    by_cases hnone : p.chunkIds x = []
    · rw [if_pos hnone] at hmem
      cases mem_singleton.mp hmem
      exact ⟨hx, .inl ⟨hnone, rfl⟩⟩
    · rw [if_neg hnone] at hmem
      obtain ⟨d, hd, heq⟩ := mem_map.mp hmem
      cases heq
      exact ⟨hx, .inr ⟨d, hd, rfl⟩⟩
  · intro h
    obtain ⟨hx, ⟨hnone, rfl⟩ | ⟨d, hd, rfl⟩⟩ := h
    · exact ⟨e, hx, by rw [if_pos hnone]; exact mem_cons_self⟩
    · refine ⟨e, hx, ?_⟩
      rw [if_neg (ne_nil_of_mem hd)]
      exact mem_map_of_mem hd

theorem Package.work_nodup (p : Package ι) : p.work.Nodup := by
  have hentry : ∀ e, ∀ work ∈ (if p.chunkIds e = [] then [⟨e, none⟩]
      else (p.chunkIds e).map fun c => (⟨e, some c⟩ : Work ι)), work.entryId = e := by
    intro e work hwork
    by_cases hnone : p.chunkIds e = []
    · rw [if_pos hnone] at hwork
      rw [mem_singleton.mp hwork]
    · rw [if_neg hnone] at hwork
      obtain ⟨c, -, rfl⟩ := mem_map.mp hwork
      rfl
  refine nodup_flatMap.mpr ⟨fun e _ => ?_, p.entries_nodup.imp fun hne work hx hy => ?_⟩
  · by_cases hnone : p.chunkIds e = []
    · rw [if_pos hnone]
      exact nodup_singleton _
    · rw [if_neg hnone]
      exact (p.chunkIds_nodup e).map fun c d heq => by cases heq; rfl
  · exact hne ((hentry _ work hx).symm.trans (hentry _ work hy))

theorem Package.chunkIds_eq_nil (p : Package ι) {e : ι}
    (h : p.isDirectoryOrZeroLengthFile e = true ∨ p.isSymlink e = true) : p.chunkIds e = [] := by
  by_contra hne
  have hfile := (p.file_of_chunk e hne).2
  have hcount : p.chunksCount e ≠ 0 := fun h0 => hne (eq_nil_of_length_eq_zero h0)
  simp [Package.isDirectoryOrZeroLengthFile, Package.isSymlink, hfile, hcount] at h

/-! ## The iterator and the queue -/

/-- What `scheduleEntries` has passed by. -/
theorem scheduleEntries_eq_some {pred : ι → Bool} (iterator : List ι) :
    ∀ {entriesQueue iterator' entriesQueue' : List ι},
      scheduleEntries p maxEntriesQueueSize pred iterator entriesQueue
        = some (iterator', entriesQueue') →
      ∃ seen, iterator = seen ++ iterator' ∧ entriesQueue' = entriesQueue ++ seen.filter pred ∧
        (∀ e ∈ seen, p.isKnown e = true) ∧
        (iterator' = [] ∨ entriesQueue'.length = maxEntriesQueueSize) := by
  induction iterator with
  | nil =>
    intro entriesQueue iterator' entriesQueue' h
    cases h
    exact ⟨[], rfl, (append_nil _).symm, forall_mem_nil _, .inl rfl⟩
  | cons e rest ih =>
    intro entriesQueue iterator' entriesQueue' h
    unfold scheduleEntries at h
    by_cases hfull : entriesQueue.length = maxEntriesQueueSize
    · rw [if_pos hfull] at h
      cases h
      exact ⟨[], rfl, (append_nil _).symm, forall_mem_nil _, .inr hfull⟩
    · rw [if_neg hfull] at h
      by_cases hknown : p.isKnown e = true
      · rw [if_pos hknown] at h
        obtain ⟨seen, hrest, hqueue, hseen, hend⟩ := ih h
        refine ⟨e :: seen, congrArg (List.cons e) hrest, ?_, ?_, hend⟩
        · rw [hqueue, filter_cons]
          by_cases hp : pred e = true
          · rw [if_pos hp, if_pos hp, append_assoc]
            rfl
          · rw [if_neg hp, if_neg hp]
        · exact forall_mem_cons.mpr ⟨hknown, hseen⟩
      · rw [if_neg hknown] at h
        cases h

/-- At the end of the entries, or with a full queue, nothing is done. -/
theorem scheduleEntries_of_stuck {pred : ι → Bool} {iterator entriesQueue : List ι}
    (h : iterator = [] ∨ entriesQueue.length = maxEntriesQueueSize) :
    scheduleEntries p maxEntriesQueueSize pred iterator entriesQueue
      = some (iterator, entriesQueue) := by
  cases iterator with
  | nil => rfl
  | cons e rest => exact if_pos (h.resolve_left (cons_ne_nil e rest))

/-- The entry that a worker was handed without a chunk. -/
def Work.alone (work : Work ι) : Option ι :=
  match work.chunkId with
  | none => some work.entryId
  | some _ => none

/-- The entries that were handed out without a chunk. -/
def State.handedAlone (s : State ι) : List ι := s.handed.filterMap Work.alone

/-- What has become of the entries which the iterator has passed. -/
structure Cursor (p : Package ι) (s : State ι) : Prop where
  passed : ∃ seen, p.entries = seen ++ s.iterator ∧ (∀ e ∈ seen, p.isKnown e = true) ∧
    s.handedAlone ++ s.entriesQueue =
      if s.allDirectoriesScheduled then
        p.entries.filter p.isDirectoryOrZeroLengthFile ++ seen.filter p.isSymlink
      else seen.filter p.isDirectoryOrZeroLengthFile
  known : s.allDirectoriesScheduled = true → ∀ e ∈ p.entries, p.isKnown e = true
  reset : s.allDirectoriesScheduled = true → s.allFilesAndDirsDone = false →
    s.iterator = p.entries ∧ s.entriesQueue = []
  finished : s.isFinished = true →
    s.allDirectoriesScheduled = true ∧ s.iterator = [] ∧ s.entriesQueue = []
  popped : s.phase = .popped → s.isFinished = true

theorem Cursor.init (p : Package ι) (tasksPoolSize : Nat) :
    Cursor p (.init p tasksPoolSize) where
  passed := ⟨[], rfl, forall_mem_nil _, rfl⟩
  known := nofun
  reset := nofun
  finished := nofun
  popped := fun h => by cases h

variable {s' : State ι}

theorem Cursor.scheduleDirectories {s : State ι} (h : Cursor p s)
    (hrun : s.scheduleDirectories p maxEntriesQueueSize = some s') :
    Cursor p s' ∧
    s' = { s with
      iterator := s'.iterator
      entriesQueue := s'.entriesQueue
      allDirectoriesScheduled := s'.allDirectoriesScheduled } ∧
    (s'.allDirectoriesScheduled = true ∨
      (s'.iterator = [] ∨ s'.entriesQueue.length = maxEntriesQueueSize) ∧
        ¬ (s'.iterator = [] ∧ s'.entriesQueue = [])) ∧
    ∀ e ∈ s'.entriesQueue, e ∈ s.entriesQueue ∨ p.isDirectoryOrZeroLengthFile e = true := by
  unfold State.scheduleDirectories at hrun
  by_cases hd : s.allDirectoriesScheduled = true
  · rw [if_pos hd] at hrun
    cases hrun
    exact ⟨h, rfl, .inl hd, fun e he => .inl he⟩
  · rw [if_neg hd] at hrun
    obtain ⟨⟨iterator, entriesQueue⟩, hentries, hs'⟩ := Option.map_eq_some_iff.mp hrun
    obtain ⟨seen', hiterator, hqueue, hknown', hend⟩ := scheduleEntries_eq_some _ hentries
    obtain ⟨seen, hentries, hknown, hpassed⟩ := h.passed
    have hfinished : s.isFinished ≠ true := fun hf => hd (h.finished hf).1
    rw [if_neg hd] at hpassed
    have hsplit : p.entries = (seen ++ seen') ++ iterator := by
      rw [hentries, hiterator, append_assoc]
    have hknown'' : ∀ e ∈ seen ++ seen', p.isKnown e = true :=
      fun e he => (mem_append.mp he).elim (hknown e) (hknown' e)
    have hpassed' : s.handedAlone ++ entriesQueue
        = (seen ++ seen').filter p.isDirectoryOrZeroLengthFile := by
      rw [hqueue, ← append_assoc, hpassed, filter_append]
    have hnew : ∀ e ∈ entriesQueue, e ∈ s.entriesQueue ∨
        p.isDirectoryOrZeroLengthFile e = true := by
      intro e he
      rw [hqueue] at he
      exact (mem_append.mp he).imp_right fun he => (mem_filter.mp he).2
    by_cases hdone : iterator = [] ∧ entriesQueue = []
    · rw [if_pos hdone] at hs'
      obtain ⟨rfl, rfl⟩ := hdone
      rw [append_nil] at hsplit
      subst hs'
      refine ⟨?_, rfl, .inl rfl, hnew⟩
      exact {
        passed := by
          refine ⟨[], rfl, forall_mem_nil _, ?_⟩
          rw [if_pos rfl, hsplit]
          exact hpassed'.trans (append_nil _).symm
        known := fun _ e he => hknown'' e (hsplit ▸ he)
        reset := fun _ _ => ⟨rfl, rfl⟩
        finished := fun hf => absurd hf hfinished
        popped := h.popped }
    · rw [if_neg hdone] at hs'
      subst hs'
      refine ⟨?_, rfl, .inr ⟨hend, hdone⟩, hnew⟩
      exact {
        passed := by
          refine ⟨seen ++ seen', hsplit, hknown'', ?_⟩
          rwa [if_neg hd]
        known := fun hd' => absurd hd' hd
        reset := fun hd' => absurd hd' hd
        finished := fun hf => absurd hf hfinished
        popped := h.popped }

/-- The end of `scheduleTasks`, where the directories are all scheduled
or the queue is stuck. -/
theorem Cursor.scheduleSymlinks {s : State ι} (h : Cursor p s)
    (hdone : s.allFilesAndDirsDone = true) (hfinished : s.isFinished = false)
    (hstuck : s.allDirectoriesScheduled = true ∨
      (s.iterator = [] ∨ s.entriesQueue.length = maxEntriesQueueSize) ∧
        ¬ (s.iterator = [] ∧ s.entriesQueue = []))
    (hrun : s.scheduleSymlinks p maxEntriesQueueSize = some s') :
    Cursor p s' ∧
    s' = { s with
      iterator := s'.iterator, entriesQueue := s'.entriesQueue, isFinished := s'.isFinished } := by
  obtain ⟨⟨iterator, entriesQueue⟩, hentries, rfl⟩ := Option.map_eq_some_iff.mp hrun
  refine ⟨?_, rfl⟩
  have hpopped : s.phase ≠ .popped := fun hp => by
    simp [h.popped hp] at hfinished
  by_cases hd : s.allDirectoriesScheduled = true
  · obtain ⟨seen', hiterator, hqueue, hknown', -⟩ := scheduleEntries_eq_some _ hentries
    obtain ⟨seen, hsplit, hknown, hpassed⟩ := h.passed
    rw [if_pos hd] at hpassed
    exact {
      passed := by
        refine ⟨seen ++ seen', by rw [hsplit, hiterator, append_assoc],
          fun e he => (mem_append.mp he).elim (hknown e) (hknown' e), ?_⟩
        rw [if_pos hd]
        show s.handedAlone ++ entriesQueue = _
        rw [hqueue, ← append_assoc, hpassed, filter_append, append_assoc]
      known := h.known
      reset := fun _ hr => by
        rw [show s.allFilesAndDirsDone = false from hr] at hdone
        cases hdone
      finished := fun hf => by
        have hf' := of_decide_eq_true hf
        exact ⟨hd, hf'.1, hf'.2.1⟩
      popped := fun hp => absurd hp hpopped }
  · obtain ⟨hend, hmore⟩ := hstuck.resolve_left hd
    rw [scheduleEntries_of_stuck hend] at hentries
    cases hentries
    exact {
      passed := h.passed
      known := h.known
      reset := h.reset
      finished := fun hf => by
        have hf' := of_decide_eq_true hf
        exact absurd ⟨hf'.1, hf'.2.1⟩ hmore
      popped := fun hp => absurd hp hpopped }

/-- `scheduleTasks` changes what belongs to the scheduler task; files and
directories become done with the flag of the unit set, and symlinks are
queued when they are done. -/
theorem Cursor.scheduleTasks {s : State ι} (h : Cursor p s) (hfinished : s.isFinished = false)
    (hrun : s.scheduleTasks p maxEntriesQueueSize = some s') :
    Cursor p s' ∧
    s' = { s with
      iterator := s'.iterator
      entriesQueue := s'.entriesQueue
      allDirectoriesScheduled := s'.allDirectoriesScheduled
      allFilesAndDirsDone := s'.allFilesAndDirsDone
      isFinished := s'.isFinished } ∧
    (s'.allFilesAndDirsDone = true →
      s.allFilesAndDirsDone = true ∨ s.isInputDisconnectedAndAllWorkersDone = true) ∧
    (s'.allFilesAndDirsDone = true ∨ s'.allFilesAndDirsDone = s.allFilesAndDirsDone ∧
      ∀ e ∈ s'.entriesQueue, e ∈ s.entriesQueue ∨ p.isDirectoryOrZeroLengthFile e = true) := by
  obtain ⟨m, hm, hrest⟩ := Option.bind_eq_some_iff.mp hrun
  obtain ⟨hcursor, hframe, hstuck, hnew⟩ := h.scheduleDirectories hm
  have hfdd : m.allFilesAndDirsDone = s.allFilesAndDirsDone := by rw [hframe]
  have hflag : m.isInputDisconnectedAndAllWorkersDone
      = s.isInputDisconnectedAndAllWorkersDone := by rw [hframe]
  by_cases hwait : (!m.allFilesAndDirsDone && !m.isInputDisconnectedAndAllWorkersDone) = true
  · rw [if_pos hwait] at hrest
    cases hrest
    refine ⟨hcursor, ?_, fun hdone => .inl (hfdd ▸ hdone), .inr ⟨hfdd, hnew⟩⟩
    rw [hframe]
  · rw [if_neg hwait] at hrest
    have hcursor' : Cursor p { m with allFilesAndDirsDone := true } :=
      { hcursor with reset := fun _ hf => by cases hf }
    obtain ⟨hlast, hframe'⟩ := hcursor'.scheduleSymlinks rfl
      (show m.isFinished = false by rw [hframe]; exact hfinished) hstuck hrest
    have hdone : s'.allFilesAndDirsDone = true := by rw [hframe']
    refine ⟨hlast, ?_, fun _ => ?_, .inl hdone⟩
    · rw [hframe', hframe]
    · rw [hfdd, hflag] at hwait
      simpa [or_iff_not_imp_left] using hwait

/-! ## The workers -/

/-- A task which has been executed has finalized its entry, or booked its
chunk. -/
def Executed (p : Package ι) (s : State ι) (work : Work ι) : Prop :=
  match work.chunkId with
  | none => .finalized work.entryId ∈ s.log
  | some c =>
    if p.chunksCount work.entryId = 1 then .finalized work.entryId ∈ s.log
    else p.position c ∈ s.chunksWritten work.entryId

theorem Executed.mono {s : State ι} {work : Work ι} (h : Executed p s work)
    (hlog : ∀ e, .finalized e ∈ s.log → .finalized e ∈ s'.log)
    (hwritten : ∀ e, s.chunksWritten e ⊆ s'.chunksWritten e) : Executed p s' work := by
  obtain ⟨e, c⟩ := work
  cases c with
  | none => exact hlog e h
  | some c =>
    unfold Executed at h ⊢
    dsimp only at h ⊢
    by_cases h1 : p.chunksCount e = 1
    · rw [if_pos h1] at h ⊢
      exact hlog e h
    · rw [if_neg h1] at h ⊢
      exact hwritten e h

/-- What the workers have been handed and what they have done, where no
task has thrown. -/
structure Workers (p : Package ι) (s : State ι) : Prop where
  handed_nodup : s.handed.Nodup
  handed_alone : ∀ e, ⟨e, none⟩ ∈ s.handed → e ∈ p.entries ∧ p.chunkIds e = []
  handed_chunk : ∀ e c, ⟨e, some c⟩ ∈ s.handed → c ∈ p.chunkIds e
  executing_handed : ∀ work ∈ s.executing, work ∈ s.handed
  executed : ∀ work ∈ s.handed, work ∈ s.executing ∨ Executed p s work
  written_nodup : ∀ e, (s.chunksWritten e).Nodup
  written_handed : ∀ e, ∀ q ∈ s.chunksWritten e, ∃ c, ⟨e, some c⟩ ∈ s.handed ∧ p.position c = q
  written_all : ∀ e, 1 < p.chunksCount e → (s.chunksWritten e).length = p.chunksCount e →
    .finalized e ∈ s.log
  finalized_mem : ∀ e, .finalized e ∈ s.log → e ∈ p.entries
  finalized_handed : ∀ e, .finalized e ∈ s.log → ∀ c ∈ p.chunkIds e, ⟨e, some c⟩ ∈ s.handed
  ready_finalized : ∀ w ∈ s.ready, ∀ e, w.finalizedEntry = some e → .finalized e ∈ s.log
  completed_nodup : s.entriesCompleted.Nodup
  completed_finalized : ∀ e ∈ s.entriesCompleted, .finalized e ∈ s.log

theorem Workers.init (p : Package ι) (tasksPoolSize : Nat) :
    Workers p (.init p tasksPoolSize) where
  handed_nodup := nodup_nil
  handed_alone := fun _ h => nomatch h
  handed_chunk := fun _ _ h => nomatch h
  executing_handed := fun _ h => nomatch h
  executed := fun _ h => nomatch h
  written_nodup := fun _ => nodup_nil
  written_handed := fun _ _ h => nomatch h
  written_all := fun e hmany hlen => by
    rw [← hlen] at hmany
    cases hmany
  finalized_mem := fun _ h => nomatch h
  finalized_handed := fun _ h => nomatch h
  ready_finalized := fun w hw e he => by
    rw [eq_of_mem_replicate hw] at he
    cases he
  completed_nodup := nodup_nil
  completed_finalized := fun _ h => nomatch h

variable {s : State ι}

theorem Workers.attachData (h : Workers p s) {work : Work ι} (hnew : work ∉ s.handed)
    (halone : work.chunkId = none → work.entryId ∈ p.entries ∧ p.chunkIds work.entryId = [])
    (hchunk : ∀ c, work.chunkId = some c → c ∈ p.chunkIds work.entryId) :
    Workers p (s.attachData work) := by
  have hhanded : (s.attachData work).handed = s.handed ++ [work] := filterMap_append
  have hmem : ∀ x ∈ s.handed, x ∈ (s.attachData work).handed := fun x hx => by
    rw [hhanded]
    exact mem_append_left _ hx
  have hlog : ∀ e, .finalized e ∈ (s.attachData work).log → .finalized e ∈ s.log := by
    intro e he
    exact (mem_append.mp he).resolve_right (by simp)
  have hkeep : ∀ e, .finalized e ∈ s.log → .finalized e ∈ (s.attachData work).log :=
    fun e he => mem_append_left _ he
  refine { handed_nodup := ?_, handed_alone := ?_, handed_chunk := ?_, executing_handed := ?_,
           executed := ?_, written_nodup := h.written_nodup, written_handed := ?_,
           written_all := ?_, finalized_mem := ?_, finalized_handed := ?_, ready_finalized := ?_,
           completed_nodup := h.completed_nodup, completed_finalized := ?_ }
  · rw [hhanded]
    exact nodup_append.mpr ⟨h.handed_nodup, nodup_singleton work,
      fun x hx y hy hxy => hnew (mem_singleton.mp hy ▸ hxy ▸ hx)⟩
  · intro e he
    rw [hhanded] at he
    rcases mem_append.mp he with he | he
    · exact h.handed_alone e he
    · have heq := mem_singleton.mp he
      subst heq
      exact halone rfl
  · intro e c he
    rw [hhanded] at he
    rcases mem_append.mp he with he | he
    · exact h.handed_chunk e c he
    · have heq := mem_singleton.mp he
      subst heq
      exact hchunk c rfl
  · intro x hx
    rcases mem_append.mp hx with hx | hx
    · exact hmem x (h.executing_handed x hx)
    · rw [hhanded]
      exact mem_append_right _ hx
  · intro x hx
    rw [hhanded] at hx
    rcases mem_append.mp hx with hx | hx
    · exact (h.executed x hx).imp (mem_append_left _) fun hdone =>
        hdone.mono hkeep fun _ => List.Subset.refl _
    · exact .inl (mem_append_right _ hx)
  · intro e q hq
    obtain ⟨c, hc, hpos⟩ := h.written_handed e q hq
    exact ⟨c, hmem _ hc, hpos⟩
  · exact fun e hmany hlen => hkeep e (h.written_all e hmany hlen)
  · exact fun e he => h.finalized_mem e (hlog e he)
  · exact fun e he c hc => hmem _ (h.finalized_handed e (hlog e he) c hc)
  · exact fun x hx e he => hkeep e (h.ready_finalized x (mem_of_mem_tail hx) e he)
  · exact fun e he => hkeep e (h.completed_finalized e he)

/-- Positions of chunks of a file, as many as it has chunks, are those of
all its chunks. -/
theorem all_handed_of_length (h : Workers p s) {e : ι} {written : List Nat}
    (hnodup : written.Nodup)
    (hhanded : ∀ q ∈ written, ∃ c, ⟨e, some c⟩ ∈ s.handed ∧ p.position c = q)
    (hlen : written.length = p.chunksCount e) :
    ∀ c ∈ p.chunkIds e, ⟨e, some c⟩ ∈ s.handed := by
  have hsub : written ⊆ (p.chunkIds e).map p.position := by
    intro q hq
    obtain ⟨c, hc, rfl⟩ := hhanded q hq
    exact mem_map_of_mem (h.handed_chunk e c hc)
  have hperm : written.Perm ((p.chunkIds e).map p.position) :=
    (hnodup.subperm hsub).perm_of_length_le (by
      rw [length_map, hlen]
      exact Nat.le_refl _)
  intro c hc
  obtain ⟨d, hd, hpos⟩ := hhanded _ (hperm.mem_iff.mpr (mem_map_of_mem hc))
  have heq : d = c := inj_on_of_nodup_map (p.positions_nodup e) (h.handed_chunk e d hd) hc hpos
  exact heq ▸ hd

/-- What the execution of a task that was handed to a worker comes to. -/
theorem doExecute_spec (h : Workers p s) {work : Work ι} (hwork : work ∈ s.handed) :
    s.chunksWritten work.entryId ⊆ (s.doExecute p work).2 ∧
    (s.doExecute p work).2.Nodup ∧
    (∀ q ∈ (s.doExecute p work).2, ∃ c, ⟨work.entryId, some c⟩ ∈ s.handed ∧ p.position c = q) ∧
    (1 < p.chunksCount work.entryId →
      (s.doExecute p work).2.length = p.chunksCount work.entryId →
      (s.doExecute p work).1 = true) ∧
    (match work.chunkId with
      | none => (s.doExecute p work).1 = true
      | some c => if p.chunksCount work.entryId = 1 then (s.doExecute p work).1 = true
          else p.position c ∈ (s.doExecute p work).2) ∧
    ((s.doExecute p work).1 = true → work.entryId ∈ p.entries ∧
      ∀ c ∈ p.chunkIds work.entryId, ⟨work.entryId, some c⟩ ∈ s.handed) := by
  obtain ⟨e, c⟩ := work
  cases c with
  | none =>
    obtain ⟨hmem, hnone⟩ := h.handed_alone e hwork
    refine ⟨List.Subset.refl _, h.written_nodup e, h.written_handed e, fun _ _ => rfl, rfl,
      fun _ => ⟨hmem, fun c hc => ?_⟩⟩
    rw [hnone] at hc
    cases hc
  | some c =>
    have hc := h.handed_chunk e c hwork
    have hmem := (p.file_of_chunk e (ne_nil_of_mem hc)).1
    unfold State.doExecute
    dsimp only
    by_cases h1 : p.chunksCount e = 1
    · rw [if_pos h1, if_pos h1]
      refine ⟨List.Subset.refl _, h.written_nodup e, h.written_handed e, fun _ _ => rfl, rfl,
        fun _ => ⟨hmem, fun d hd => ?_⟩⟩
      obtain ⟨x, hx⟩ := length_eq_one_iff.mp h1
      rw [hx] at hc hd
      rwa [mem_singleton.mp hd, ← mem_singleton.mp hc]
    · rw [if_neg h1, if_neg h1]
      have hnodup := (h.written_nodup e).insert (a := p.position c)
      have hhanded : ∀ q ∈ (s.chunksWritten e).insert (p.position c),
          ∃ d, ⟨e, some d⟩ ∈ s.handed ∧ p.position d = q := by
        intro q hq
        rcases mem_insert_iff.mp hq with rfl | hq
        · exact ⟨c, hwork, rfl⟩
        · exact h.written_handed e q hq
      refine ⟨fun q hq => mem_insert_of_mem hq, hnodup, hhanded,
        fun _ hlen => decide_eq_true hlen, mem_insert_self, fun hall => ⟨hmem, ?_⟩⟩
      exact all_handed_of_length h hnodup hhanded (of_decide_eq_true hall)

section

variable [DecidableEq ι]

theorem Workers.processTopReadyTask (h : Workers p s) {w : Worker ι}
    (hw : ∀ e, w.finalizedEntry = some e → .finalized e ∈ s.log) :
    Workers p (s.processTopReadyTask w) := by
  cases he : w.finalizedEntry with
  | none =>
    have hsame : s.processTopReadyTask w = s := by
      unfold State.processTopReadyTask
      rw [he]
      rfl
    rwa [hsame]
  | some e =>
    have hcompleted : (s.processTopReadyTask w).entriesCompleted
        = s.entriesCompleted.insert e := by
      unfold State.processTopReadyTask
      rw [he]
      rfl
    exact { h with
      completed_nodup := hcompleted ▸ h.completed_nodup.insert
      completed_finalized := fun x hx => by
        rw [hcompleted] at hx
        rcases mem_insert_iff.mp hx with rfl | hx
        · exact hw x he
        · exact h.completed_finalized x hx }

theorem Workers.topReady (h : Workers p s) {w : Worker ι} {rest : List (Worker ι)}
    (hready : s.ready = w :: rest) : Workers p (s.topReady w rest) := by
  have hmem : ∀ x ∈ w :: rest, ∀ e, x.finalizedEntry = some e → .finalized e ∈ s.log :=
    hready ▸ h.ready_finalized
  exact { h.processTopReadyTask (hmem w mem_cons_self) with
    ready_finalized := fun x hx e he => by
      rcases mem_cons.mp hx with rfl | hx
      · cases he
      · exact hmem x (mem_cons_of_mem w hx) e he }

/-- The state after a worker has executed, in the terms of
`doExecute`. -/
theorem executed_eq (i : Nat) (work : Work ι) : s.executed p i work = { s with
    executing := s.executing.eraseIdx i
    ready := s.ready ++ [⟨some work.entryId, (s.doExecute p work).1, false⟩]
    chunksWritten := Function.update s.chunksWritten work.entryId (s.doExecute p work).2
    log := if (s.doExecute p work).1 then s.log ++ [.finalized work.entryId] else s.log } := rfl

theorem mem_log_executed {i : Nat} {work : Work ι} {event : Event ι} :
    event ∈ (s.executed p i work).log ↔
      event ∈ s.log ∨ (s.doExecute p work).1 = true ∧ event = .finalized work.entryId := by
  rw [executed_eq]
  by_cases hfin : (s.doExecute p work).1 = true
  · simp only [hfin, if_true, mem_append, mem_singleton, true_and]
  · rw [if_neg hfin]
    exact ⟨.inl, fun h => h.resolve_right fun hf => hfin hf.1⟩

theorem handed_executed (i : Nat) (work : Work ι) : (s.executed p i work).handed = s.handed := by
  unfold State.handed
  rw [executed_eq]
  by_cases hfin : (s.doExecute p work).1 = true
  · rw [if_pos hfin, filterMap_append]
    exact append_nil _
  · rw [if_neg hfin]

theorem Workers.executedAt (h : Workers p s) {i : Nat} {work : Work ι}
    (hi : s.executing[i]? = some work) : Workers p (s.executed p i work) := by
  have hwork : work ∈ s.handed := h.executing_handed work (mem_of_getElem? hi)
  obtain ⟨hsub, hnodup, hpos, hall, hdone, hfin⟩ := doExecute_spec h hwork
  have hhanded : (s.executed p i work).handed = s.handed := handed_executed i work
  have hkeep : ∀ event ∈ s.log, event ∈ (s.executed p i work).log :=
    fun event he => mem_log_executed.mpr (.inl he)
  have hlast : (s.doExecute p work).1 = true →
      .finalized work.entryId ∈ (s.executed p i work).log :=
    fun hf => mem_log_executed.mpr (.inr ⟨hf, rfl⟩)
  have hself : (s.executed p i work).chunksWritten work.entryId = (s.doExecute p work).2 :=
    Function.update_self ..
  have hother : ∀ e, e ≠ work.entryId →
      (s.executed p i work).chunksWritten e = s.chunksWritten e :=
    fun e he => Function.update_of_ne he ..
  have hgrow : ∀ e, s.chunksWritten e ⊆ (s.executed p i work).chunksWritten e := by
    intro e
    by_cases he : e = work.entryId
    · rwa [he, hself]
    · rw [hother e he]
      exact List.Subset.refl _
  refine { handed_nodup := hhanded ▸ h.handed_nodup, handed_alone := hhanded ▸ h.handed_alone,
           handed_chunk := hhanded ▸ h.handed_chunk, executing_handed := ?_, executed := ?_,
           written_nodup := ?_, written_handed := ?_, written_all := ?_, finalized_mem := ?_,
           finalized_handed := ?_, ready_finalized := ?_, completed_nodup := h.completed_nodup,
           completed_finalized := fun e he => hkeep _ (h.completed_finalized e he) }
  · intro x hx
    rw [hhanded]
    exact h.executing_handed x (mem_of_mem_eraseIdx hx)
  · intro x hx
    rw [hhanded] at hx
    rcases h.executed x hx with hx | hx
    · obtain ⟨j, hj⟩ := mem_iff_getElem?.mp hx
      by_cases hij : j = i
      · -- the worker that completes
        right
        rw [hij, hi] at hj
        cases hj
        unfold Executed
        rw [hself]
        split at hdone
        · exact hlast hdone
        · by_cases h1 : p.chunksCount work.entryId = 1
          · rw [if_pos h1] at hdone ⊢
            exact hlast hdone
          · rwa [if_neg h1] at hdone ⊢
      · exact .inl (mem_eraseIdx_iff_getElem?.mpr ⟨j, hij, hj⟩)
    · exact .inr (hx.mono (fun e => hkeep _) hgrow)
  · intro e
    by_cases he : e = work.entryId
    · rwa [he, hself]
    · rw [hother e he]
      exact h.written_nodup e
  · intro e q hq
    rw [hhanded]
    by_cases he : e = work.entryId
    · rw [he, hself] at hq
      rw [he]
      exact hpos q hq
    · rw [hother e he] at hq
      exact h.written_handed e q hq
  · intro e hmany hlen
    by_cases he : e = work.entryId
    · rw [he, hself] at hlen
      rw [he] at hmany ⊢
      exact hlast (hall hmany hlen)
    · rw [hother e he] at hlen
      exact hkeep _ (h.written_all e hmany hlen)
  · intro e he
    rcases mem_log_executed.mp he with he | ⟨hf, he⟩
    · exact h.finalized_mem e he
    · cases he
      exact (hfin hf).1
  · intro e he c hc
    rw [hhanded]
    rcases mem_log_executed.mp he with he | ⟨hf, he⟩
    · exact h.finalized_handed e he c hc
    · cases he
      exact (hfin hf).2 c hc
  · intro w hw e he
    rcases mem_append.mp hw with hw | hw
    · exact hkeep _ (h.ready_finalized w hw e he)
    · rw [mem_singleton.mp hw] at he
      change (if (s.doExecute p work).1 = true then some work.entryId else none) = some e at he
      by_cases hf : (s.doExecute p work).1 = true
      · rw [if_pos hf] at he
        cases he
        exact hlast hf
      · rw [if_neg hf] at he
        cases he

end

/-! ## The order -/

/-- When what was handed out is executed, and it is all there is but the
symlinks, files and directories are done. -/
theorem filesAndDirsDone_of_idle (h : Workers p s) (hidle : s.executing = [])
    (hchunks : ∀ e ∈ p.entries, ∀ c ∈ p.chunkIds e, ⟨e, some c⟩ ∈ s.handed)
    (halone : ∀ e ∈ p.entries, p.isDirectoryOrZeroLengthFile e = true → ⟨e, none⟩ ∈ s.handed) :
    FilesAndDirsDone p s.log := by
  have hexecuted : ∀ work ∈ s.handed, Executed p s work := by
    intro work hwork
    refine (h.executed work hwork).resolve_left fun hx => ?_
    simp [hidle] at hx
  intro e he htype
  by_cases hnone : p.chunkIds e = []
  · refine hexecuted ⟨e, none⟩ (halone e he ?_)
    unfold Package.isDirectoryOrZeroLengthFile Package.chunksCount
    rcases htype with ht | ht <;> simp [ht, hnone]
  · by_cases h1 : p.chunksCount e = 1
    · obtain ⟨c, hc⟩ := length_eq_one_iff.mp h1
      have hdone := hexecuted ⟨e, some c⟩ (hchunks e he c (hc ▸ mem_cons_self))
      unfold Executed at hdone
      dsimp only at hdone
      rwa [if_pos h1] at hdone
    · -- every position is booked, so the last one has finalized the file
      have hpos : 0 < p.chunksCount e := length_pos_of_ne_nil hnone
      have hall : (p.chunkIds e).map p.position ⊆ s.chunksWritten e := by
        intro q hq
        obtain ⟨c, hc, rfl⟩ := mem_map.mp hq
        have hdone := hexecuted ⟨e, some c⟩ (hchunks e he c hc)
        unfold Executed at hdone
        dsimp only at hdone
        rwa [if_neg h1] at hdone
      have hsub : s.chunksWritten e ⊆ (p.chunkIds e).map p.position := by
        intro q hq
        obtain ⟨c, hc, rfl⟩ := h.written_handed e q hq
        exact mem_map_of_mem (h.handed_chunk e c hc)
      have hle := ((p.positions_nodup e).subperm hall).length_le
      have hge := ((h.written_nodup e).subperm hsub).length_le
      rw [length_map] at hle hge
      exact h.written_all e (by omega) (Nat.le_antisymm hge hle)

/-- Symlinks are queued when files and directories are done, and the
workers are idle from the flag of the unit to the turn of the scheduler
task. -/
structure Order (p : Package ι) (s : State ι) : Prop where
  ordered : Ordered p s
  symlinks_last : ∀ e ∈ s.entriesQueue, p.type e = .symlink → s.allFilesAndDirsDone = true
  done : s.allFilesAndDirsDone = true → FilesAndDirsDone p s.log
  idle : s.phase = .scheduled → s.isInputDisconnectedAndAllWorkersDone = true →
    s.executing = [] ∧ s.inputDisconnected = true
  arrived : s.inputDisconnected = true → ∀ e ∈ p.entries, ∀ c ∈ p.chunkIds e,
    ⟨e, some c⟩ ∈ s.handed

/-- The invariant of a regular run. -/
structure Inv (p : Package ι) (s : State ι) : Prop where
  cursor : Cursor p s
  workers : Workers p s
  order : Order p s

theorem Inv.init (p : Package ι) (tasksPoolSize : Nat) : Inv p (.init p tasksPoolSize) where
  cursor := .init p tasksPoolSize
  workers := .init p tasksPoolSize
  order := {
    ordered := fun before work after h => by simp [State.init] at h
    symlinks_last := fun _ h => nomatch h
    done := nofun
    idle := nofun
    arrived := fun h => by cases h }

theorem FilesAndDirsDone.append {log log' : List (Event ι)} (h : FilesAndDirsDone p log) :
    FilesAndDirsDone p (log ++ log') :=
  fun e he htype => mem_append_left _ (h e he htype)

/-- One more event in the log. -/
theorem Ordered.append {s : State ι} (h : Ordered p s) {event : Event ι}
    (hlog : s'.log = s.log ++ [event])
    (hlast : ∀ work, event = .handed work → p.type work.entryId = .symlink →
      FilesAndDirsDone p s.log) : Ordered p s' := by
  intro before work after hsplit htype
  rw [hlog] at hsplit
  rcases eq_nil_or_concat after with rfl | ⟨after', last, rfl⟩
  · obtain ⟨hbefore, hevent⟩ := append_inj' hsplit rfl
    exact hbefore ▸ hlast work (singleton_inj.mp hevent) htype
  · rw [concat_eq_append, ← cons_append, ← append_assoc] at hsplit
    exact h before work after' (append_inj' hsplit rfl).1 htype

theorem mem_handedAlone {e : ι} : e ∈ s.handedAlone ↔ ⟨e, none⟩ ∈ s.handed := by
  unfold State.handedAlone
  constructor
  · intro h
    obtain ⟨⟨x, c⟩, hmem, heq⟩ := mem_filterMap.mp h
    cases c with
    | none => exact Option.some.inj heq ▸ hmem
    | some c => cases heq
  · exact fun h => mem_filterMap.mpr ⟨_, h, rfl⟩

/-- With nothing left to schedule or to hand out, directories and empty
files have been handed out. -/
theorem Cursor.handed_alone (h : Cursor p s) (hdone : s.allFilesAndDirsDone = false)
    (hleft : s.allDirectoriesScheduled = true ∨
      (s.entriesQueue = [] ∧ ∀ e ∈ s.iterator, p.isDirectoryOrZeroLengthFile e = false)) :
    ∀ e ∈ p.entries, p.isDirectoryOrZeroLengthFile e = true → ⟨e, none⟩ ∈ s.handed := by
  intro e he hpred
  refine mem_handedAlone.mp ?_
  obtain ⟨seen, hsplit, -, hpassed⟩ := h.passed
  by_cases hd : s.allDirectoriesScheduled = true
  · rw [if_pos hd, (h.reset hd hdone).2, append_nil] at hpassed
    rw [hpassed]
    exact mem_append_left _ (mem_filter.mpr ⟨he, hpred⟩)
  · obtain ⟨hqueue, hnone⟩ := hleft.resolve_left hd
    rw [if_neg hd, hqueue, append_nil] at hpassed
    rw [hsplit] at he
    have hseen : e ∈ seen := (mem_append.mp he).resolve_right fun hi => by
      simp [hnone e hi] at hpred
    rw [hpassed]
    exact mem_filter.mpr ⟨hseen, hpred⟩

theorem not_symlink_of_isDirectoryOrZeroLengthFile {e : ι}
    (h : p.isDirectoryOrZeroLengthFile e = true) : p.type e ≠ .symlink := by
  intro htype
  simp [Package.isDirectoryOrZeroLengthFile, htype] at h

theorem Cursor.nodup (h : Cursor p s) : (s.handedAlone ++ s.entriesQueue).Nodup := by
  obtain ⟨seen, hsplit, -, hpassed⟩ := h.passed
  have hentries := p.entries_nodup
  have hseen : seen.Nodup := by
    rw [hsplit] at hentries
    exact hentries.of_append_left
  rw [hpassed]
  split
  · refine nodup_append.mpr ⟨hentries.filter _, hseen.filter _, fun x hx y hy hxy => ?_⟩
    have hsymlink : p.type y = .symlink := of_decide_eq_true (mem_filter.mp hy).2
    exact not_symlink_of_isDirectoryOrZeroLengthFile (mem_filter.mp hx).2 (hxy ▸ hsymlink)
  · exact hseen.filter _

theorem Inv.fail (h : Inv p s) : Inv p s.fail where
  cursor := { h.cursor with }
  workers := { h.workers with }
  order := { h.order with }

theorem Inv.withPhase (h : Inv p s) {phase : Phase} (hscheduled : phase ≠ .scheduled)
    (hpopped : phase ≠ .popped) : Inv p { s with phase := phase } where
  cursor := { h.cursor with popped := fun hp => absurd hp hpopped }
  workers := { h.workers with }
  order := { h.order with idle := fun hp => absurd hp hscheduled }

theorem Inv.onExecute (h : Inv p s) (hphase : s.phase = .scheduled)
    (hregular : Regular p s .execute) : Inv p (s.onExecute p maxEntriesQueueSize) := by
  unfold State.onExecute
  by_cases hfinished : s.isFinished = true
  · rw [if_pos hfinished]
    exact h.withPhase (by decide) (by decide)
  · rw [if_neg hfinished]
    cases hrun : s.scheduleTasks p maxEntriesQueueSize with
    | none => exact h.fail
    | some s' =>
      obtain ⟨hcursor, hframe, hdone, hqueue⟩ :=
        h.cursor.scheduleTasks (by simpa using hfinished) hrun
      have hfdd : s'.allFilesAndDirsDone = true → FilesAndDirsDone p s.log := by
        intro hd
        by_cases hbefore : s.allFilesAndDirsDone = true
        · exact h.order.done hbefore
        · have hflag := (hdone hd).resolve_left hbefore
          have hbefore' : s.allFilesAndDirsDone = false := by simpa using hbefore
          obtain ⟨hidle, hdisconnected⟩ := h.order.idle hphase hflag
          exact filesAndDirsDone_of_idle h.workers hidle (h.order.arrived hdisconnected)
            (h.cursor.handed_alone hbefore' (hregular hflag hbefore'))
      have hlast : ∀ e ∈ s'.entriesQueue, p.type e = .symlink →
          s'.allFilesAndDirsDone = true := by
        intro e he htype
        rcases hqueue with hd | ⟨hsame, hnew⟩
        · exact hd
        · rw [hsame]
          refine h.order.symlinks_last e ((hnew e he).resolve_right fun hp => ?_) htype
          exact not_symlink_of_isDirectoryOrZeroLengthFile hp htype
      exact {
        cursor := { hcursor with popped := fun hp => by cases hp }
        workers := by
          rw [hframe]
          exact { h.workers with }
        order := by
          rw [hframe]
          exact {
            ordered := h.order.ordered
            symlinks_last := hlast
            done := hfdd
            idle := nofun
            arrived := h.order.arrived } }

theorem Inv.attachAlone (h : Inv p s) (hphase : s.phase = .pushing) {e : ι} {rest : List ι}
    (hqueue : s.entriesQueue = e :: rest) :
    Inv p ({ s with entriesQueue := rest }.attachData ⟨e, none⟩) := by
  have hhanded : ({ s with entriesQueue := rest }.attachData ⟨e, none⟩).handed
      = s.handed ++ [⟨e, none⟩] := filterMap_append
  have halone : ({ s with entriesQueue := rest }.attachData ⟨e, none⟩).handedAlone
      = s.handedAlone ++ [e] := by
    unfold State.handedAlone
    rw [hhanded, filterMap_append]
    rfl
  obtain ⟨seen, hsplit, hknown, hpassed⟩ := h.cursor.passed
  rw [hqueue] at hpassed
  -- the entry is one without chunks that was not handed out before
  have hpred : e ∈ p.entries ∧
      (p.isDirectoryOrZeroLengthFile e = true ∨ p.isSymlink e = true) := by
    have hmem : e ∈ s.handedAlone ++ e :: rest := mem_append_right _ mem_cons_self
    rw [hpassed] at hmem
    have hseen : ∀ x ∈ seen, x ∈ p.entries := fun x hx => hsplit ▸ mem_append_left _ hx
    split at hmem
    · rcases mem_append.mp hmem with hmem | hmem
      · exact ⟨(mem_filter.mp hmem).1, .inl (mem_filter.mp hmem).2⟩
      · exact ⟨hseen e (mem_filter.mp hmem).1, .inr (mem_filter.mp hmem).2⟩
    · exact ⟨hseen e (mem_filter.mp hmem).1, .inl (mem_filter.mp hmem).2⟩
  have hnew : ⟨e, none⟩ ∉ s.handed := by
    intro hmem
    have hnodup := h.cursor.nodup
    rw [hqueue] at hnodup
    exact (nodup_append.mp hnodup).2.2 e (mem_handedAlone.mpr hmem) e mem_cons_self rfl
  exact {
    cursor := {
      passed := by
        refine ⟨seen, hsplit, hknown, ?_⟩
        rwa [halone, append_assoc]
      known := h.cursor.known
      reset := fun hd hf => by
        have hnil := (h.cursor.reset hd hf).2
        simp [hqueue] at hnil
      finished := fun hf => by
        have hnil := (h.cursor.finished hf).2.2
        simp [hqueue] at hnil
      popped := h.cursor.popped }
    workers := Workers.attachData (s := { s with entriesQueue := rest }) { h.workers with } hnew
      (fun _ => ⟨hpred.1, p.chunkIds_eq_nil hpred.2⟩) (nofun)
    order := {
      ordered := h.order.ordered.append rfl fun work hwork htype => by
        cases hwork
        exact h.order.done
          (h.order.symlinks_last e (hqueue ▸ mem_cons_self) htype)
      symlinks_last := fun x hx =>
        h.order.symlinks_last x (hqueue ▸ mem_cons_of_mem e hx)
      done := fun hd => (h.order.done hd).append
      idle := fun hp => by
        simp [show s.phase = .scheduled from hp] at hphase
      arrived := fun hd x hx c hc => by
        rw [hhanded]
        exact mem_append_left _ (h.order.arrived hd x hx c hc) } }

theorem Inv.attachChunk (h : Inv p s) (hinput : s.inputDisconnected = false) {e c : ι}
    (hentry : p.entryId c = some e) (hnew : ∀ work ∈ s.handed, work.chunkId ≠ some c) :
    Inv p (s.attachData ⟨e, some c⟩) := by
  have hc : c ∈ p.chunkIds e := (p.entryId_eq_some c e).mp hentry
  have hfile := (p.file_of_chunk e (ne_nil_of_mem hc)).2
  have hhanded : (s.attachData ⟨e, some c⟩).handed = s.handed ++ [⟨e, some c⟩] :=
    filterMap_append
  have halone : (s.attachData ⟨e, some c⟩).handedAlone = s.handedAlone := by
    unfold State.handedAlone
    rw [hhanded, filterMap_append]
    exact append_nil _
  exact {
    cursor := {
      passed := by
        rw [halone]
        exact h.cursor.passed
      known := h.cursor.known
      reset := h.cursor.reset
      finished := h.cursor.finished
      popped := h.cursor.popped }
    workers := h.workers.attachData (fun hmem => hnew _ hmem rfl) (nofun)
      (fun d hd => by
        cases hd
        exact hc)
    order := {
      ordered := h.order.ordered.append rfl fun work hwork htype => by
        cases hwork
        simp [hfile] at htype
      symlinks_last := h.order.symlinks_last
      done := fun hd => (h.order.done hd).append
      idle := fun hp hflag => by
        simp [(h.order.idle hp hflag).2] at hinput
      arrived := fun hd => by
        rw [show s.inputDisconnected = true from hd] at hinput
        cases hinput } }

section

variable [DecidableEq ι]

/-- A worker completes. -/
theorem Inv.executedAt (h : Inv p s) {i : Nat} {work : Work ι}
    (hi : s.executing[i]? = some work) : Inv p (s.executed p i work) := by
  have hhanded := handed_executed (s := s) (p := p) i work
  have halone : (s.executed p i work).handedAlone = s.handedAlone := by
    unfold State.handedAlone
    rw [hhanded]
  have hkeep : FilesAndDirsDone p s.log → FilesAndDirsDone p (s.executed p i work).log :=
    fun hd e he htype => mem_log_executed.mpr (.inl (hd e he htype))
  exact {
    cursor := {
      passed := by
        rw [halone]
        exact h.cursor.passed
      known := h.cursor.known
      reset := h.cursor.reset
      finished := h.cursor.finished
      popped := h.cursor.popped }
    workers := h.workers.executedAt hi
    order := {
      ordered := by
        by_cases hfin : (s.doExecute p work).1 = true
        · exact h.order.ordered.append (by rw [executed_eq, if_pos hfin])
            fun _ hwork => by cases hwork
        · intro before work' after hsplit
          rw [executed_eq, if_neg hfin] at hsplit
          exact h.order.ordered before work' after hsplit
      symlinks_last := h.order.symlinks_last
      done := fun hd => hkeep (h.order.done hd)
      idle := fun hp hflag => by
        simp [(h.order.idle hp hflag).1] at hi
      arrived := by
        rw [hhanded]
        exact h.order.arrived } }

theorem Inv.topReady (h : Inv p s) {w : Worker ι} {rest : List (Worker ι)}
    (hready : s.ready = w :: rest) : Inv p (s.topReady w rest) where
  cursor := { h.cursor with }
  workers := h.workers.topReady hready
  order := { h.order with }

/-- `processTopReadyTask` changes what the unit knows of the entries. -/
theorem foldl_processTopReadyTask (ws : List (Worker ι)) : ∀ {s : State ι}, Workers p s →
    (∀ w ∈ ws, ∀ e, w.finalizedEntry = some e → .finalized e ∈ s.log) →
    Workers p (ws.foldl State.processTopReadyTask s) ∧
    ws.foldl State.processTopReadyTask s = { s with
      entriesInProgress := (ws.foldl State.processTopReadyTask s).entriesInProgress
      entriesCompleted := (ws.foldl State.processTopReadyTask s).entriesCompleted } := by
  induction ws with
  | nil => exact fun h _ => ⟨h, rfl⟩
  | cons w ws ih =>
    intro s h hws
    obtain ⟨hworkers, hframe⟩ := ih
      (h.processTopReadyTask (hws w mem_cons_self))
      (fun x hx => hws x (mem_cons_of_mem w hx))
    refine ⟨hworkers, ?_⟩
    rwa [foldl_cons]

end

/-- When the scheduler task is finished and all entries are, the work has
been handed out, each piece once. -/
theorem Inv.handed_perm (h : Inv p s) (hfinished : s.isFinished = true)
    (hall : ∀ e ∈ p.entries, .finalized e ∈ s.log) : s.handed.Perm p.work := by
  obtain ⟨hd, hiterator, hqueue⟩ := h.cursor.finished hfinished
  obtain ⟨seen, hsplit, -, hpassed⟩ := h.cursor.passed
  rw [hiterator, append_nil] at hsplit
  rw [if_pos hd, hqueue, append_nil, ← hsplit] at hpassed
  refine (perm_ext_iff_of_nodup h.workers.handed_nodup p.work_nodup).mpr fun work => ?_
  obtain ⟨e, c⟩ := work
  rw [mem_work]
  cases c with
  | none =>
    rw [← mem_handedAlone, hpassed, mem_append, mem_filter, mem_filter,
      ← and_or_left]
    refine and_congr_right fun he => ?_
    constructor
    · exact fun hpred => .inl ⟨p.chunkIds_eq_nil hpred, rfl⟩
    · intro hwork
      have hnone : p.chunkIds e = [] := by
        rcases hwork with hwork | ⟨c, -, hc⟩
        · exact hwork.1
        · cases hc
      have hknown := h.cursor.known hd e he
      simp only [Package.isKnown, Bool.or_eq_true, decide_eq_true_eq] at hknown
      simp only [Package.isDirectoryOrZeroLengthFile, Package.chunksCount, hnone,
        Package.isSymlink, length_nil, Bool.or_eq_true, Bool.and_eq_true,
        decide_eq_true_eq]
      tauto
  | some c =>
    constructor
    · intro hmem
      have hc := h.workers.handed_chunk e c hmem
      exact ⟨(p.file_of_chunk e (ne_nil_of_mem hc)).1, .inr ⟨c, hc, rfl⟩⟩
    · intro hwork
      obtain ⟨he, ⟨-, hc⟩ | ⟨d, hd, hc⟩⟩ := hwork
      · cases hc
      · cases hc
        exact h.workers.finalized_handed e (hall e he) c hd

/-! ## Runs -/

section

variable [DecidableEq ι]

theorem waitForReadyWorkerTask_eq (h : s.waitForReadyWorkerTask = .ok (some s')) :
    ∃ w rest, s.ready = w :: rest ∧ s' = s.topReady w rest := by
  unfold State.waitForReadyWorkerTask at h
  cases hready : s.ready with
  | nil =>
    rw [hready] at h
    cases h
  | cons w rest =>
    rw [hready] at h
    dsimp only at h
    split at h
    · cases h
    · cases h
      exact ⟨w, rest, rfl, rfl⟩

theorem Inv.scheduleChunk (h : Inv p s) (hinput : s.inputDisconnected = false) {c : ι}
    (hnew : ∀ work ∈ s.handed, work.chunkId ≠ some c) : Inv p (s.scheduleChunk p c) := by
  unfold State.scheduleChunk
  cases hentry : p.entryId c with
  | none => exact h.fail
  | some e =>
    dsimp only
    split
    · exact h.fail
    · split
      · exact h.attachChunk hinput hentry hnew
      · split
        · exact h.fail
        · split
          · exact Inv.attachChunk (s := { s with entriesInProgress := e :: s.entriesInProgress })
              { cursor := { h.cursor with }, workers := { h.workers with },
                order := { h.order with } } hinput hentry hnew
          · exact h.attachChunk hinput hentry hnew

/-- The unit flushes. When it reports success everything was handed out
once. -/
theorem Inv.flushAllPendingTasks (h : Inv p s) (hphase : s.phase = .popped)
    (hout : s.outcome = none) :
    Inv p (s.flushAllPendingTasks p) ∧ ((s.flushAllPendingTasks p).outcome = some .success →
      (s.flushAllPendingTasks p).handed.Perm p.work) := by
  unfold State.flushAllPendingTasks
  split
  · exact ⟨h.fail, nofun⟩
  · obtain ⟨hworkers, hframe⟩ :=
      foldl_processTopReadyTask s.ready h.workers h.workers.ready_finalized
    have hflushed : Inv p { s.ready.foldl State.processTopReadyTask s with ready := [] } := {
      cursor := by
        rw [hframe]
        exact { h.cursor with }
      workers := { hworkers with ready_finalized := fun _ hw => nomatch hw }
      order := by
        rw [hframe]
        exact { h.order with } }
    dsimp only
    split
    · refine ⟨hflushed, fun hs => ?_⟩
      rw [hframe] at hs
      simp [show s.outcome = some .success from hs] at hout
    · split
      · rename_i hcomplete
        have hfinished : (s.ready.foldl State.processTopReadyTask s).isFinished = true := by
          rw [hframe]
          exact h.cursor.popped hphase
        have hcompleted : (s.ready.foldl State.processTopReadyTask s).entriesCompleted.Perm
            p.entries := by
          refine (hworkers.completed_nodup.subperm fun e he => ?_).perm_of_length_le
            (Nat.le_of_eq hcomplete.2)
          exact hworkers.finalized_mem e (hworkers.completed_finalized e he)
        refine ⟨?_, fun _ => ?_⟩
        · exact {
            cursor := { hflushed.cursor with }
            workers := { hflushed.workers with }
            order := { hflushed.order with } }
        · exact hflushed.handed_perm hfinished fun e he =>
            hworkers.completed_finalized e (hcompleted.mem_iff.mpr he)
      · exact ⟨hflushed.fail, fun hs => by cases hs⟩

omit [DecidableEq ι] in
/-- The turn of the scheduler task does not end the run well. -/
theorem onExecute_outcome (h : Inv p s) (hout : s.outcome ≠ some .success) :
    (s.onExecute p maxEntriesQueueSize).outcome ≠ some .success := by
  unfold State.onExecute
  by_cases hfinished : s.isFinished = true
  · rwa [if_pos hfinished]
  · rw [if_neg hfinished]
    cases hrun : s.scheduleTasks p maxEntriesQueueSize with
    | none => exact nofun
    | some s' =>
      have hframe := (h.cursor.scheduleTasks (by simpa using hfinished) hrun).2.1
      rwa [hframe]

theorem scheduleChunk_outcome (c : ι) (hout : s.outcome ≠ some .success) :
    (s.scheduleChunk p c).outcome ≠ some .success := by
  have hfail : s.fail.outcome ≠ some .success := nofun
  unfold State.scheduleChunk
  cases p.entryId c with
  | none => exact hfail
  | some e =>
    dsimp only
    split
    · exact hfail
    · split
      · exact hout
      · split
        · exact hfail
        · split <;> exact hout

theorem step_inv {l : Label ι} (h : Inv p s) (hregular : Regular p s l)
    (hstep : step p maxEntriesQueueSize s l = some s') :
    Inv p s' ∧ (s'.outcome = some .success → s'.handed.Perm p.work) := by
  unfold step at hstep
  by_cases hout : s.outcome.isSome = true
  · simp [if_pos hout] at hstep
  · rw [if_neg hout] at hstep
    have hnone : s.outcome = none := by simpa using hout
    have hrunning : s.outcome ≠ some .success := by
      rw [hnone]
      exact fun hs => by cases hs
    cases l with
    | execute =>
      dsimp only at hstep
      split at hstep
      · rename_i hphase
        cases hstep
        exact ⟨h.onExecute hphase hregular,
          fun hs => absurd hs (onExecute_outcome h hrunning)⟩
      · cases hstep
    | accept =>
      dsimp only at hstep
      split at hstep
      · split at hstep
        · cases hstep
          exact ⟨h.fail, fun hs => by cases hs⟩
        · cases hstep
        · rename_i m hwait
          cases hstep
          obtain ⟨w, rest, hready, rfl⟩ := waitForReadyWorkerTask_eq hwait
          exact ⟨(h.topReady hready).withPhase (by decide) (by decide),
            fun hs => absurd hs hrunning⟩
      · cases hstep
    | pushNext =>
      dsimp only at hstep
      split at hstep
      · rename_i hphase
        have hpushed : Inv p { s with phase := .pushed } :=
          h.withPhase (by decide) (by decide)
        split at hstep
        · cases hstep
          exact ⟨hpushed, fun hs => absurd hs hrunning⟩
        · rename_i e rest hqueue
          split at hstep
          · cases hstep
            exact ⟨h.fail, fun hs => by cases hs⟩
          · cases hstep
            exact ⟨hpushed, fun hs => absurd hs hrunning⟩
          · rename_i m hwait
            cases hstep
            obtain ⟨w, rest', hready, rfl⟩ := waitForReadyWorkerTask_eq hwait
            exact ⟨(h.topReady hready).attachAlone hphase hqueue,
              fun hs => absurd hs hrunning⟩
      · cases hstep
    | reschedule =>
      dsimp only at hstep
      split at hstep
      · split at hstep
        · rename_i hdone
          cases hstep
          refine ⟨?_, fun hs => absurd hs hrunning⟩
          exact {
            cursor := { h.cursor with popped := fun _ => hdone.2 }
            workers := { h.workers with }
            order := { h.order with idle := fun hp => by cases hp } }
        · cases hstep
          refine ⟨?_, fun hs => absurd hs hrunning⟩
          exact {
            cursor := { h.cursor with popped := fun hp => by cases hp }
            workers := { h.workers with }
            order := { h.order with
              idle := fun _ hflag => by
                have hboth := Bool.and_eq_true_iff.mp hflag
                exact ⟨of_decide_eq_true hboth.2, hboth.1⟩ } }
      · cases hstep
    | complete worker succeeds =>
      obtain ⟨work, hi, rfl⟩ := Option.map_eq_some_iff.mp hstep
      have hsucceeds : succeeds = true := hregular
      rw [if_pos hsucceeds]
      exact ⟨h.executedAt hi, fun hs => absurd hs hrunning⟩
    | chunkArrived c =>
      dsimp only at hstep
      split at hstep
      · cases hstep
      · rename_i hinput
        split at hstep
        · cases hstep
          exact ⟨h.fail, fun hs => by cases hs⟩
        · cases hstep
          exact ⟨h, fun hs => absurd hs hrunning⟩
        · rename_i m hwait
          cases hstep
          obtain ⟨w, rest, hready, rfl⟩ := waitForReadyWorkerTask_eq hwait
          have hconnected : s.inputDisconnected = false := by simpa using hinput
          exact ⟨(h.topReady hready).scheduleChunk hconnected hregular,
            fun hs => absurd hs (scheduleChunk_outcome c hrunning)⟩
    | inputCompleted =>
      dsimp only at hstep
      split at hstep
      · cases hstep
      · cases hstep
        refine ⟨?_, fun hs => absurd hs hrunning⟩
        exact {
          cursor := { h.cursor with }
          workers := { h.workers with }
          order := { h.order with
            idle := fun hp hflag => ⟨(h.order.idle hp hflag).1, rfl⟩
            arrived := fun _ => hregular } }
    | flush =>
      dsimp only at hstep
      split at hstep
      · rename_i hphase
        cases hstep
        exact h.flushAllPendingTasks hphase.1 hnone
      · cases hstep

end

end

/-! ## Two packages -/

end Baselib.Transfer.FilesUnpackager
