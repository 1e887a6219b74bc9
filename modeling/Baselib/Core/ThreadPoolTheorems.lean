/-
Baselib.Core.ThreadPoolTheorems — what holds of the threads of a pool in every
run.

Every worker was joined, or is in the pool, or is left to a dispose to join
(`Inv.covered`); what was joined has finished. `step_inv` is assembled from a
lemma for each kind of section.
-/
import Baselib.Core.ThreadPool

namespace Baselib.Core.ThreadPool

open Lib Lib.Transition List

variable {s s' : State} {w i : Nat}

/-- The worker is in `run()` of the service. -/
def RunsIn (s : State) (w service : Nat) : Prop := s.workers[w]? = some (.running service)

def startedCount (s : State) : Nat := s.workers.countP Worker.isStarted

/-! ## What holds of every run -/

structure Inv (s : State) : Prop where
  ready : s.threadsReady = startedCount s
  work : s.shuttingDown = false → (s.work = true ↔ s.service.isSome = true)
  covered : ∀ w < s.workers.length,
    w ∈ s.joined ∨ w ∈ s.threads ∨ w ∈ s.phase.threads ∨ ∃ call ∈ s.calls, w ∈ call.threads
  joined : ∀ w ∈ s.joined, s.workers[w]? = some .finished
  idle : s.shuttingDown = true → ∀ w ∈ s.threads, ∀ service, ¬ RunsIn s w service
  joining : ∀ threads, .joining threads ∈ s.calls → s.shuttingDown = true
  calls : s.phase ≠ .alive → ∀ call ∈ s.calls, call = .done
  emptied : (s.phase = .gone ∨ ∃ threads, s.phase = .joining threads) →
    s.threads = [] ∧ s.shuttingDown = true

theorem inv_create (threadCount : Nat) : Inv (.create threadCount) where
  ready := rfl
  work _ := by simp [State.create]
  covered w h := absurd h (Nat.not_lt_zero w)
  joined w h := absurd h not_mem_nil
  idle h := by cases h
  joining threads h := absurd h not_mem_nil
  calls _ call h := absurd h not_mem_nil
  emptied h := by rcases h with h | ⟨_, h⟩ <;> cases h

/-! ## Sections -/

theorem exists_threads_of_setCall (call' : Call) {call : Call} (hcall : s.calls[i]? = some call)
    (h : ∃ c ∈ s.calls, w ∈ c.threads) :
    w ∈ call.threads ∨ ∃ c ∈ (s.setCall i call').calls, w ∈ c.threads := by
  obtain ⟨c, hc, hw⟩ := h
  rcases mem_cons.mp ((Slots.perm_cons_eraseIdx hcall).mem_iff.mp hc) with rfl | hc
  · exact .inl hw
  · exact .inr ⟨c, (Slots.set_perm hcall call').mem_iff.mpr (mem_cons_of_mem _ hc), hw⟩

theorem mem_setCall {call call' c : Call} (hcall : s.calls[i]? = some call)
    (h : c ∈ (s.setCall i call').calls) : c = call' ∨ c ∈ s.calls := by
  rcases mem_cons.mp ((Slots.set_perm hcall call').mem_iff.mp h) with rfl | hc
  · exact .inl rfl
  · exact .inr ((Slots.perm_cons_eraseIdx hcall).mem_iff.mpr (mem_cons_of_mem _ hc))

theorem setCall_mem {call call' : Call} (hcall : s.calls[i]? = some call) :
    call' ∈ (s.setCall i call').calls :=
  (Slots.set_perm hcall call').mem_iff.mpr mem_cons_self

/-- A call which is under way finds the pool alive. -/
theorem Inv.alive (h : Inv s) {call : Call} (hcall : s.calls[i]? = some call)
    (hcall' : call ≠ .done) : s.phase = .alive := by
  by_contra hphase
  exact hcall' (h.calls hphase call (mem_of_getElem? hcall))

/-- A call goes on and has no other threads to join. -/
theorem Inv.setCall (h : Inv s) {call call' : Call} (hcall : s.calls[i]? = some call)
    (hdone : call ≠ .done) (hsame : ∀ w ∈ call.threads, w ∈ call'.threads)
    (hjoining : ∀ threads, call' = .joining threads → s.shuttingDown = true) :
    Inv (s.setCall i call') :=
  { h with
    covered := fun w hw => by
      refine (h.covered w hw).imp_right (.imp_right (.imp_right fun hw => ?_))
      rcases exists_threads_of_setCall call' hcall hw with hw | hw
      · exact ⟨call', setCall_mem hcall, hsame w hw⟩
      · exact hw
    joining := fun threads hmem => by
      rcases mem_setCall hcall hmem with heq | hmem
      · exact hjoining threads heq.symm
      · exact h.joining threads hmem
    calls := fun hphase => absurd (h.alive hcall hdone) hphase }

theorem RunsIn.of_pushThreads {count service : Nat} (h : RunsIn (s.pushThreads count) w service) :
    RunsIn s w service := by
  unfold RunsIn State.pushThreads at h
  rcases Nat.lt_or_ge w s.workers.length with hlt | hge
  · rwa [getElem?_append_left hlt] at h
  · rw [getElem?_append_right hge, getElem?_replicate] at h
    split at h <;> cases h

theorem startedCount_pushThreads (s : State) (count : Nat) :
    startedCount (s.pushThreads count) = startedCount s := by
  simp [startedCount, State.pushThreads, countP_append, countP_replicate,
    Worker.isStarted]

/-- Threads are created where they are not left over: by the constructor or a
client. -/
theorem Inv.pushThreads (h : Inv s) {count : Nat}
    (hphase : ¬ (s.phase = .gone ∨ ∃ threads, s.phase = .joining threads)) :
    Inv (s.pushThreads count) :=
  { h with
    ready := h.ready.trans (startedCount_pushThreads s count).symm
    covered w hw := by
      rcases Nat.lt_or_ge w s.workers.length with hlt | hge
      · exact (h.covered w hlt).imp_right (.imp_left (mem_append_left _))
      · refine .inr (.inl (mem_append_right _ (mem_map.mpr
          ⟨w - s.workers.length, mem_range.mpr ?_, Nat.add_sub_cancel' hge⟩)))
        have hlength : (s.pushThreads count).workers.length = s.workers.length + count := by
          simp [State.pushThreads]
        omega
    joined w hw := by
      have hfinished := h.joined w hw
      have hlt := (List.getElem?_eq_some_iff.mp hfinished).1
      exact (getElem?_append_left hlt).trans hfinished
    idle hshut w hw service hruns := by
      have hruns := hruns.of_pushThreads
      rcases mem_append.mp hw with hw | hw
      · exact h.idle hshut w hw service hruns
      · obtain ⟨j, -, rfl⟩ := mem_map.mp hw
        have hlt := (List.getElem?_eq_some_iff.mp hruns).1
        omega
    emptied hemptied := absurd hemptied hphase }

/-- A worker which has not finished changes. -/
theorem Inv.setWorker (h : Inv s) {worker worker' : Worker} (hworker : s.workers[w]? = some worker)
    (hunfinished : worker ≠ .finished) {threadsReady : Nat}
    (hready : threadsReady + (if worker.isStarted then 1 else 0) =
      s.threadsReady + if worker'.isStarted then 1 else 0)
    (hidle : s.shuttingDown = true → ∀ service, worker' ≠ .running service) :
    Inv { s with workers := s.workers.set w worker', threadsReady := threadsReady } :=
  { h with
    ready := by
      have hcount := Slots.countP_set_add Worker.isStarted hworker worker'
      have hbefore := h.ready
      unfold startedCount at hbefore ⊢
      dsimp only
      omega
    covered w' hw' := h.covered w' (by rwa [length_set] at hw')
    joined w' hw' := by
      have hfinished := h.joined w' hw'
      refine Slots.getElem?_set_of_ne (fun heq => ?_) hfinished
      rw [← heq, hworker] at hfinished
      exact hunfinished (Option.some.inj hfinished)
    idle hshut w' hw' service hruns := by
      obtain rfl | heq := eq_or_ne w w'
      · have hlt := (List.getElem?_eq_some_iff.mp hworker).1
        rw [RunsIn, getElem?_set_self hlt] at hruns
        exact hidle hshut service (Option.some.inj hruns)
      · rw [RunsIn, getElem?_set_ne heq] at hruns
        exact h.idle hshut w' hw' service hruns }

theorem Inv.ensureService (h : Inv s) : Inv s.ensureService := by
  unfold State.ensureService
  split
  · exact { h with
      work := fun _ => ⟨fun _ => rfl, fun _ => rfl⟩ }
  · exact h

theorem ensureService_isSome (s : State) : ∃ service, s.ensureService.service = some service := by
  unfold State.ensureService
  split
  · exact ⟨_, rfl⟩
  next hboth =>
    obtain ⟨hsome, -⟩ := not_or.mp hboth
    exact Option.ne_none_iff_exists'.mp hsome

/-- The service is only made where there is none. -/
theorem ensureService_eq (h : Inv s) (hshut : s.shuttingDown = false) {service : Nat}
    (hservice : s.service = some service) : s.ensureService = s := by
  have hwork : s.work = true := (h.work hshut).mpr (by rw [hservice]; rfl)
  unfold State.ensureService
  rw [if_neg]
  rintro (hnone | hfalse)
  · simp [hservice] at hnone
  · rw [hwork] at hfalse
    cases hfalse

theorem ensureService_workers (s : State) :
    s.ensureService.workers = s.workers ∧ s.ensureService.threadsReady = s.threadsReady ∧
      s.ensureService.shuttingDown = s.shuttingDown ∧ s.ensureService.calls = s.calls := by
  unfold State.ensureService
  split <;> exact ⟨rfl, rfl, rfl, rfl⟩

/-- What the lock section of a worker does. -/
theorem enter_cases (s : State) (w : Nat) (isFirstRun fails : Bool) :
    let ready := if isFirstRun then s.threadsReady + 1 else s.threadsReady
    (s.shuttingDown = true ∧ s.enter w isFirstRun fails =
      { s with workers := s.workers.set w .finished, threadsReady := ready }) ∨
    (s.shuttingDown = false ∧ s.enter w isFirstRun fails = s) ∨
    (s.shuttingDown = false ∧ ∃ service, s.ensureService.service = some service ∧
      s.enter w isFirstRun fails =
        { s.ensureService with
          workers := s.ensureService.workers.set w (.running service)
          threadsReady := ready }) := by
  intro ready
  by_cases hshut : s.shuttingDown = true
  · exact .inl ⟨hshut, by rw [State.enter, if_pos hshut]⟩
  · have hfalse := Bool.eq_false_iff.mpr hshut
    by_cases hfails : (s.service = none ∨ s.work = false) ∧ fails
    · exact .inr (.inl ⟨hfalse, by rw [State.enter, if_neg hshut, if_pos hfails]⟩)
    · obtain ⟨service, hservice⟩ := ensureService_isSome s
      refine .inr (.inr ⟨hfalse, service, hservice, ?_⟩)
      rw [State.enter, if_neg hshut, if_neg hfails]
      dsimp only
      rw [hservice]
      rw [(ensureService_workers s).2.1]

theorem Inv.enter (h : Inv s) {worker : Worker} {isFirstRun fails : Bool}
    (hworker : s.workers[w]? = some worker) (hunfinished : worker ≠ .finished)
    (hfirst : worker.isStarted = !isFirstRun) : Inv (s.enter w isFirstRun fails) := by
  obtain ⟨hworkers, hready, hshutting, -⟩ := ensureService_workers s
  rcases enter_cases s w isFirstRun fails with
    ⟨hshut, heq⟩ | ⟨-, heq⟩ | ⟨hshut, service, hservice, heq⟩
  · rw [heq]
    refine h.setWorker hworker hunfinished ?_ nofun
    rw [hfirst]
    cases isFirstRun <;> rfl
  · rwa [heq]
  · rw [heq]
    refine h.ensureService.setWorker (hworkers.symm ▸ hworker) hunfinished ?_ fun hshut' => ?_
    · rw [hfirst, hready]
      cases isFirstRun <;> rfl
    · rw [hshutting, hshut] at hshut'
      cases hshut'

/-- A dispose takes the threads of the pool. -/
theorem Inv.dispose (h : Inv s) (halive : s.phase = .alive) :
    Inv { s.shutDown with calls := s.calls ++ [.joining s.threads] } where
  ready := h.ready
  work hshut := by cases hshut
  covered w hw := by
    rcases h.covered w hw with hw | hw | hw | ⟨call, hcall, hw⟩
    · exact .inl hw
    · exact .inr (.inr (.inr ⟨.joining s.threads,
        mem_append_right _ (mem_singleton.mpr rfl), hw⟩))
    · exact .inr (.inr (.inl hw))
    · exact .inr (.inr (.inr ⟨call, mem_append_left _ hcall, hw⟩))
  joined := h.joined
  idle _ w hw := absurd hw not_mem_nil
  joining _ _ := rfl
  calls hphase := absurd halive hphase
  emptied _ := ⟨rfl, rfl⟩

/-- The last dispose begins when no call is under way. -/
theorem Inv.destroy (h : Inv s) (hdone : ∀ call ∈ s.calls, call = .done)
    (hphase : s.phase.threads = []) : Inv { s.shutDown with phase := .joining s.threads } where
  ready := h.ready
  work hshut := by cases hshut
  covered w hw := by
    rcases h.covered w hw with hw | hw | hw | ⟨call, hcall, hw⟩
    · exact .inl hw
    · exact .inr (.inr (.inl hw))
    · rw [hphase] at hw
      exact absurd hw not_mem_nil
    · rw [hdone call hcall] at hw
      exact absurd hw not_mem_nil
  joined := h.joined
  idle _ w hw := absurd hw not_mem_nil
  joining _ _ := rfl
  calls _ := hdone
  emptied _ := ⟨rfl, rfl⟩

theorem joinFirst_eq_some {threads rest : List Nat} :
    joinFirst s threads = some (w, rest) ↔ threads = w :: rest ∧ s.workers[w]? = some .finished := by
  cases threads with
  | nil => simp [joinFirst]
  | cons w' threads =>
    rw [joinFirst]
    split
    next hfinished =>
      simp only [Option.some.injEq, Prod.mk.injEq, List.cons.injEq]
      constructor
      · rintro ⟨rfl, rfl⟩
        exact ⟨⟨rfl, rfl⟩, hfinished⟩
      · exact And.left
    next hnot =>
      simp only [List.cons.injEq]
      constructor
      · nofun
      · rintro ⟨⟨rfl, rfl⟩, hfinished⟩
        exact absurd hfinished hnot

theorem created_eq_enough {threadCount : Nat} {failsAfter : Option Nat}
    (h : created s threadCount failsAfter = .enough) : ¬ s.threads.length < threadCount := by
  intro hless
  unfold created at h
  rw [if_pos hless] at h
  cases failsAfter <;> cases h

theorem created_of_not_lt {threadCount : Nat} (failsAfter : Option Nat)
    (h : ¬ s.threads.length < threadCount) : created s threadCount failsAfter = .enough := by
  unfold created
  rw [if_neg h]

theorem Inv.join (h : Inv s) {rest : List Nat} (hcall : s.calls[i]? = some (.joining (w :: rest)))
    (hfinished : s.workers[w]? = some .finished) :
    Inv { s.setCall i (.joining rest) with joined := s.joined ++ [w] } :=
  { h with
    covered w' hw' := by
      rcases h.covered w' hw' with hw | hw | hw | hw
      · exact .inl (mem_append_left _ hw)
      · exact .inr (.inl hw)
      · exact .inr (.inr (.inl hw))
      · rcases exists_threads_of_setCall (.joining rest) hcall hw with hw | hw
        · rcases mem_cons.mp hw with rfl | hw
          · exact .inl (mem_append_right _ (mem_singleton.mpr rfl))
          · exact .inr (.inr (.inr ⟨.joining rest, setCall_mem hcall, hw⟩))
        · exact .inr (.inr (.inr hw))
    joined w' hw' := by
      rcases mem_append.mp hw' with hw | hw
      · exact h.joined w' hw
      · rwa [mem_singleton.mp hw]
    joining threads hmem := by
      rcases mem_setCall hcall hmem with heq | hmem
      · exact h.joining _ (mem_of_getElem? hcall)
      · exact h.joining threads hmem
    calls hphase := absurd (h.alive hcall nofun) hphase }

theorem Inv.destroyJoin (h : Inv s) {rest : List Nat} (hphase : s.phase = .joining (w :: rest))
    (hfinished : s.workers[w]? = some .finished) :
    Inv { s with phase := .joining rest, joined := s.joined ++ [w] } :=
  { h with
    covered w' hw' := by
      rcases h.covered w' hw' with hw | hw | hw | hw
      · exact .inl (mem_append_left _ hw)
      · exact .inr (.inl hw)
      · rw [hphase] at hw
        rcases mem_cons.mp hw with rfl | hw
        · exact .inl (mem_append_right _ (mem_singleton.mpr rfl))
        · exact .inr (.inr (.inl hw))
      · exact .inr (.inr (.inr hw))
    joined w' hw' := by
      rcases mem_append.mp hw' with hw | hw
      · exact h.joined w' hw
      · rwa [mem_singleton.mp hw]
    calls _ := h.calls (by rw [hphase]; exact nofun)
    emptied _ := h.emptied (.inr ⟨_, hphase⟩) }

theorem Inv.reset (h : Inv s) (hshut : s.shuttingDown = true) : Inv { s with service := none } :=
  { h with
    work := fun hshut' => by
      have hfalse : s.shuttingDown = false := hshut'
      rw [hshut] at hfalse
      cases hfalse }

theorem Inv.destroyReset (h : Inv s) (hphase : s.phase = .joining []) :
    Inv { s with phase := .gone, service := none } :=
  have hemptied := h.emptied (.inr ⟨_, hphase⟩)
  { h.reset hemptied.2 with
    covered := fun w hw => by
      have hcovered := h.covered w hw
      rwa [hphase] at hcovered
    calls := fun _ => h.calls (by rw [hphase]; exact nofun)
    emptied := fun _ => hemptied }

/-- The phase goes on towards a pool which is alive, or has failed to be. -/
theorem Inv.setPhase (h : Inv s) {phase : Phase} (hcalls : ∀ call ∈ s.calls, call = .done)
    (hthreads : s.phase.threads = [])
    (hphase : ¬ (phase = .gone ∨ ∃ threads, phase = .joining threads)) :
    Inv { s with phase := phase } :=
  { h with
    covered := fun w hw => by
      refine (h.covered w hw).imp_right (.imp_right (.imp_left fun hw => ?_))
      simp [hthreads] at hw
    calls := fun _ => hcalls
    emptied := fun hemptied => absurd hemptied hphase }

/-! ## Steps -/

theorem step_inv {l : Label} (h : Inv s) (hstep : step s l = some s') : Inv s' := by
  cases l with
  | construct failsAfter =>
    dsimp only [step] at hstep
    split at hstep
    next threadCount hphase =>
      have hcalls := h.calls (by rw [hphase]; exact nofun)
      have hthreads : s.phase.threads = [] := by rw [hphase]; rfl
      have hnot : ¬ (s.phase = .gone ∨ ∃ threads, s.phase = .joining threads) := by simp [hphase]
      split at hstep <;> cases hstep
      · exact h.setPhase hcalls hthreads (by simp)
      · exact (h.pushThreads hnot).setPhase hcalls hthreads (by simp)
      · exact (h.pushThreads hnot).setPhase hcalls hthreads (by simp)
    next => cases hstep
  | constructed =>
    dsimp only [step] at hstep
    split at hstep
    next threadCount hphase =>
      split at hstep <;> cases hstep
      exact h.setPhase (h.calls (by rw [hphase]; exact nofun))
        (by rw [hphase]; rfl) (by simp)
    next => cases hstep
  | unwind =>
    dsimp only [step] at hstep
    split at hstep <;> cases hstep
    next hphase =>
      exact h.destroy (h.calls (by rw [hphase]; exact nofun)) (by rw [hphase]; rfl)
  | resize threadCount =>
    dsimp only [step] at hstep
    split at hstep
    next halive =>
      split at hstep <;> cases hstep
      · exact h
      · refine
          { h with
            covered := fun w hw => ?_
            joining := fun threads hmem => ?_
            calls := fun hphase => absurd halive hphase }
        · rcases h.covered w hw with hw | hw | hw | ⟨call, hcall, hw⟩
          · exact .inl hw
          · exact .inr (.inl hw)
          · exact .inr (.inr (.inl hw))
          · exact .inr (.inr (.inr ⟨call, mem_append_left _ hcall, hw⟩))
        · rcases mem_append.mp hmem with hmem | hmem
          · exact h.joining threads hmem
          · cases mem_singleton.mp hmem
    next => cases hstep
  | size i =>
    dsimp only [step] at hstep
    split at hstep
    next threadCount hcall =>
      split at hstep <;> cases hstep
      · exact h.setCall hcall nofun (fun _ hw => hw) nofun
      · exact h.setCall hcall nofun (fun _ hw => hw) nofun
    next => cases hstep
  | createThreads i failsAfter =>
    dsimp only [step] at hstep
    split at hstep
    next threadCount hcall =>
      have halive := h.alive hcall nofun
      have hnot : ¬ (s.phase = .gone ∨ ∃ threads, s.phase = .joining threads) := by simp [halive]
      split at hstep <;> cases hstep
      · exact h.setCall hcall nofun (fun _ hw => hw) nofun
      · exact (h.pushThreads hnot).setCall hcall nofun (fun _ hw => hw)
          nofun
      · exact (h.pushThreads hnot).setCall hcall nofun (fun _ hw => hw)
          nofun
    next => cases hstep
  | wait i =>
    dsimp only [step] at hstep
    split at hstep
    next threadCount hcall =>
      split at hstep <;> cases hstep
      exact h.setCall hcall nofun (fun _ hw => hw) nofun
    next => cases hstep
  | returns i =>
    dsimp only [step] at hstep
    split at hstep <;> cases hstep
    next threadCount hcall =>
      exact h.setCall hcall nofun (fun _ hw => hw) nofun
  | dispose =>
    dsimp only [step] at hstep
    split at hstep <;> cases hstep
    next halive => exact h.dispose halive
  | join i =>
    dsimp only [step] at hstep
    split at hstep
    next threads hcall =>
      split at hstep <;> cases hstep
      next w rest hfirst =>
        obtain ⟨rfl, hfinished⟩ := joinFirst_eq_some.mp hfirst
        exact h.join hcall hfinished
    next => cases hstep
  | reset i =>
    dsimp only [step] at hstep
    split at hstep <;> cases hstep
    next hcall =>
      have hset : Inv (s.setCall i .done) :=
        h.setCall hcall nofun (fun _ hw => hw) nofun
      exact hset.reset (h.joining _ (mem_of_getElem? hcall))
  | destroy =>
    dsimp only [step] at hstep
    split at hstep <;> cases hstep
    next hdone => exact h.destroy hdone.2 (by rw [hdone.1]; rfl)
  | destroyJoin =>
    dsimp only [step] at hstep
    split at hstep
    next threads hphase =>
      split at hstep <;> cases hstep
      next w rest hfirst =>
        obtain ⟨rfl, hfinished⟩ := joinFirst_eq_some.mp hfirst
        exact h.destroyJoin hphase hfinished
    next => cases hstep
  | destroyReset =>
    dsimp only [step] at hstep
    split at hstep <;> cases hstep
    next hphase => exact h.destroyReset hphase
  | enter w fails =>
    dsimp only [step] at hstep
    split at hstep <;> cases hstep
    next hworker => exact h.enter hworker nofun rfl
    next hworker => exact h.enter hworker nofun rfl
  | runReturns _ | runThrows _ =>
    dsimp only [step] at hstep
    split at hstep <;> cases hstep
    next service hworker =>
      exact h.setWorker hworker nofun rfl nofun

end Baselib.Core.ThreadPool
