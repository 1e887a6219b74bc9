/-
Baselib.Core.ThreadPoolLifetime — the lifetime of the I/O service of a pool,
and what a resize waits for.

While the pool is not shutting down the service stays there for the workers;
once it is, a worker which is running is one that some dispose has still to
join. So a dispose may only destroy the service when no other one is left with
a running worker (`Orderly`), which the code does not make sure of.
-/
import Baselib.Core.ThreadPoolTheorems

namespace Baselib.Core.ThreadPool

open Lib Lib.Transition List

variable {s s' : State} {w i : Nat}

/-! ## The service -/

/-- A step which leaves the service alone: no worker enters it. -/
structure Keeps (s s' : State) : Prop where
  service : s'.service = s.service
  services : s'.services = s.services
  runs : ∀ w service, RunsIn s' w service → RunsIn s w service
  shuttingDown : s.shuttingDown = true → s'.shuttingDown = true
  threadsReady : s.threadsReady ≤ s'.threadsReady

theorem Keeps.refl (s : State) : Keeps s s := ⟨rfl, rfl, fun _ _ h => h, id, Nat.le_refl _⟩

/-- A step changes nothing else about the service and the workers. -/
theorem Keeps.frame {t : State} (h : Keeps s t) (hservice : s'.service = t.service)
    (hservices : s'.services = t.services) (hworkers : s'.workers = t.workers) (hshut : t.shuttingDown = true → s'.shuttingDown = true)
    (hready : s'.threadsReady = t.threadsReady) : Keeps s s' where
  service := hservice.trans h.service
  services := hservices.trans h.services
  runs w service hruns := h.runs w service (by rwa [RunsIn, hworkers] at hruns)
  shuttingDown := hshut ∘ h.shuttingDown
  threadsReady := hready ▸ h.threadsReady

theorem keeps_pushThreads (s : State) (count : Nat) : Keeps s (s.pushThreads count) :=
  ⟨rfl, rfl, fun _ _ h => h.of_pushThreads, id, Nat.le_refl _⟩

theorem RunsIn.of_setWorker {worker : Worker} {threadsReady service w' : Nat}
    (hidle : ∀ service, worker ≠ .running service)
    (h : RunsIn { s with workers := s.workers.set w worker, threadsReady := threadsReady } w'
      service) : RunsIn s w' service := by
  obtain rfl | heq := eq_or_ne w w'
  · have hlt := (List.getElem?_eq_some_iff.mp h).1
    rw [RunsIn, getElem?_set_self (by rwa [length_set] at hlt)] at h
    exact absurd (Option.some.inj h) (hidle service)
  · rwa [RunsIn, getElem?_set_ne heq] at h

theorem keeps_setWorker {worker : Worker} {threadsReady : Nat}
    (hidle : ∀ service, worker ≠ .running service) (hready : s.threadsReady ≤ threadsReady) :
    Keeps s { s with workers := s.workers.set w worker, threadsReady := threadsReady } :=
  ⟨rfl, rfl, fun _ _ h => h.of_setWorker hidle, id, hready⟩

/-- A worker enters the service, which is made if there is none. -/
structure Enters (s s' : State) (entered : Nat) : Prop where
  running : s.shuttingDown = false
  service : s'.service = some entered
  same : ∀ service, s.service = some service → service = entered
  runs : ∀ w service, RunsIn s' w service → service = entered ∨ RunsIn s w service
  threadsReady : s.threadsReady ≤ s'.threadsReady

/-- The service is destroyed, by a call or when the pool ends. -/
structure Resets (s s' : State) (l : Label) : Prop where
  shuttingDown : s.shuttingDown = true
  still : s'.shuttingDown = true
  service : s'.service = none
  services : s'.services = s.services
  workers : s'.workers = s.workers
  threadsReady : s'.threadsReady = s.threadsReady
  label : (∃ i, l = .reset i ∧ s.phase = .alive) ∨ s.phase = .joining []

theorem enter_effect (h : Inv s) {isFirstRun fails : Bool} :
    Keeps s (s.enter w isFirstRun fails) ∨
      ∃ service, Enters s (s.enter w isFirstRun fails) service := by
  obtain ⟨hworkers, -, -⟩ := ensureService_workers s
  have hready : s.threadsReady ≤ if isFirstRun then s.threadsReady + 1 else s.threadsReady := by
    split <;> omega
  rcases enter_cases s w isFirstRun fails with
    ⟨hshut, heq⟩ | ⟨-, heq⟩ | ⟨hshut, service, hservice, heq⟩
  · rw [heq]
    exact .inl (keeps_setWorker nofun hready)
  · rw [heq]
    exact .inl (.refl s)
  · rw [heq]
    refine .inr ⟨service, hshut, hservice, fun service' hservice' => ?_,
      fun w' service' hruns => ?_, hready⟩
    · rw [ensureService_eq h hshut hservice', hservice'] at hservice
      exact Option.some.inj hservice
    · obtain rfl | hsame := eq_or_ne w w'
      · have hlt := (List.getElem?_eq_some_iff.mp hruns).1
        rw [RunsIn, getElem?_set_self (by rwa [length_set] at hlt)] at hruns
        cases hruns
        exact .inl rfl
      · rw [RunsIn, getElem?_set_ne hsame, hworkers] at hruns
        exact .inr hruns

/-- What a step does to the service. -/
theorem step_effect {l : Label} (h : Inv s) (hstep : step s l = some s') :
    Keeps s s' ∨ (∃ service, Enters s s' service) ∨ Resets s s' l := by
  cases l with
  | construct _ | constructed | createThreads _ _ | size _ | wait _ | returns _ | join _
  | destroyJoin =>
    dsimp only [step] at hstep
    repeat' split at hstep
    all_goals cases hstep
    all_goals first
      | exact .inl ((Keeps.refl s).frame rfl rfl rfl id rfl)
      | exact .inl ((keeps_pushThreads s _).frame rfl rfl rfl id rfl)
  | unwind | dispose | destroy =>
    dsimp only [step] at hstep
    split at hstep <;> cases hstep
    exact .inl ((Keeps.refl s).frame rfl rfl rfl (fun _ => rfl) rfl)
  | resize threadCount =>
    dsimp only [step] at hstep
    split at hstep
    next =>
      split at hstep <;> cases hstep
      · exact .inl (.refl s)
      · exact .inl ((Keeps.refl s).frame rfl rfl rfl id rfl)
    next => cases hstep
  | reset i =>
    dsimp only [step] at hstep
    split at hstep <;> cases hstep
    next hcall =>
      have hshut := h.joining _ (mem_of_getElem? hcall)
      exact .inr (.inr ⟨hshut, hshut, rfl, rfl, rfl, rfl,
        Or.inl ⟨i, rfl, h.alive hcall nofun⟩⟩)
  | destroyReset =>
    dsimp only [step] at hstep
    split at hstep <;> cases hstep
    next hphase =>
      have hshut := (h.emptied (.inr ⟨_, hphase⟩)).2
      exact .inr (.inr ⟨hshut, hshut, rfl, rfl, rfl, rfl, .inr hphase⟩)
  | enter w fails =>
    dsimp only [step] at hstep
    split at hstep <;> cases hstep <;> exact (enter_effect h).imp_right Or.inl
  | runReturns _ | runThrows _ =>
    dsimp only [step] at hstep
    split at hstep <;> cases hstep
    exact .inl (keeps_setWorker nofun (Nat.le_refl _))

/-- A pool which is shutting down goes on to, and no service is made. -/
theorem step_shuttingDown {l : Label} (h : Inv s) (hstep : step s l = some s')
    (hshut : s.shuttingDown = true) : s'.shuttingDown = true ∧ s'.services = s.services := by
  rcases step_effect h hstep with hkeeps | ⟨entered, henters⟩ | hresets
  · exact ⟨hkeeps.shuttingDown hshut, hkeeps.services⟩
  · simp [henters.running] at hshut
  · exact ⟨hresets.still, hresets.services⟩

/-- The service is not made again once the pool is shutting down. -/
theorem run_shuttingDown {ls : List Label} (h : Inv s) (hshut : s.shuttingDown = true)
    (hrun : run step s ls = some s') : s'.services = s.services := by
  have hreached : Inv s' ∧ s'.shuttingDown = true ∧ s'.services = s.services := by
    refine run_invariant (P := fun s' => Inv s' ∧ s'.shuttingDown = true ∧
      s'.services = s.services) (C := fun _ _ => True) ?_ ⟨h, hshut, rfl⟩ along_true hrun
    rintro m l m' ⟨hinv, hshut, hservices⟩ - hstep
    obtain ⟨hshut', hservices'⟩ := step_shuttingDown hinv hstep hshut
    exact ⟨step_inv hinv hstep, hshut', hservices'.trans hservices⟩
  exact hreached.2.2

/-! ## What is promised -/

/-- A worker in `run()` has the service it runs in. -/
def Safe (s : State) : Prop := ∀ w service, RunsIn s w service → s.service = some service

/-- A resize which is about to return has the threads it asked for started. -/
def Prompt (s : State) : Prop :=
  ∀ threadCount, .resized threadCount ∈ s.calls → s.shuttingDown = false →
    threadCount ≤ startedCount s

/-- The threads of a pool which is gone were joined. -/
def Joined (s : State) : Prop := s.phase = .gone → ∀ w < s.workers.length, w ∈ s.joined

structure Sound (s : State) : Prop where
  safe : Safe s
  prompt : Prompt s
  joined : Joined s

theorem sound_create (threadCount : Nat) : Sound (.create threadCount) where
  safe w service h := by cases h
  prompt _ h := absurd h not_mem_nil
  joined h := by cases h

theorem Inv.allJoined (h : Inv s) : Joined s := by
  intro hgone w hw
  rcases h.covered w hw with hw | hw | hw | ⟨call, hcall, hw⟩
  · exact hw
  · rw [(h.emptied (.inl hgone)).1] at hw
    exact absurd hw not_mem_nil
  · rw [hgone] at hw
    exact absurd hw not_mem_nil
  · rw [h.calls (by rw [hgone]; exact nofun) call hcall] at hw
    exact absurd hw not_mem_nil

/-! ## When the code keeps it -/

def Worker.isRunning : Worker → Bool
  | .running _ => true
  | _ => false

def EnoughStarted (s : State) (threadCount : Nat) : Prop :=
  s.shuttingDown = true ∨ threadCount ≤ s.threadsReady

instance (s : State) (threadCount : Nat) : Decidable (EnoughStarted s threadCount) :=
  inferInstanceAs (Decidable (_ ∨ _))

/-- No worker which a call has still to join is in `run()`. -/
def NoneRunning (s : State) : Prop :=
  ∀ call ∈ s.calls, ∀ w ∈ call.threads, s.workers[w]?.any Worker.isRunning = false

instance (s : State) : Decidable (NoneRunning s) :=
  inferInstanceAs (Decidable (∀ call ∈ s.calls, ∀ w ∈ call.threads, _ = false))

/-- A resize which finds enough threads finds them started. -/
def FindsStarted (s : State) : Option Call → Prop
  | some (.checked threadCount) =>
    s.threads.length < threadCount ∨ EnoughStarted s (limitThreadCount threadCount)
  | some (.creating threadCount) => s.threads.length < threadCount ∨ EnoughStarted s threadCount
  | _ => True

instance (s : State) : (call : Option Call) → Decidable (FindsStarted s call)
  | some (.checked _) | some (.creating _) => inferInstanceAs (Decidable (_ ∨ _))
  | none | some (.waiting _) | some (.resized _) | some (.joining _) | some .done => isTrue trivial

/-- What the code does not make sure of: a dispose which destroys the service
may leave another one with a running worker. -/
def Orderly (s : State) : Label → Prop
  | .size i => FindsStarted s s.calls[i]?
  | .createThreads i _ => FindsStarted s s.calls[i]?
  | .reset _ => NoneRunning s
  | _ => True

instance (s : State) : (l : Label) → Decidable (Orderly s l)
  | .size i | .createThreads i _ => inferInstanceAs (Decidable (FindsStarted s s.calls[i]?))
  | .reset _ => inferInstanceAs (Decidable (NoneRunning s))
  | .construct _ | .constructed | .unwind | .resize _ | .wait _ | .returns _ | .dispose | .join _
  | .destroy | .destroyJoin | .destroyReset | .enter _ _ | .runReturns _ | .runThrows _ =>
    isTrue trivial

theorem exists_runsIn (h : s.workers[w]?.any Worker.isRunning = true) :
    ∃ service, RunsIn s w service := by
  rcases hworker : s.workers[w]? with _ | worker
  · simp [hworker] at h
  · rw [hworker] at h
    cases worker with
    | running service => exact ⟨service, hworker⟩
    | starting | thrown | finished => cases h

theorem NoneRunning.not_runsIn (h : NoneRunning s) {call : Call} (hcall : call ∈ s.calls)
    (hw : w ∈ call.threads) (service : Nat) : ¬ RunsIn s w service := by
  intro hruns
  have hnot := h call hcall w hw
  rw [hruns] at hnot
  cases hnot

/-- Nothing runs in the service which is destroyed. -/
theorem Inv.idle_of_resets {l : Label} (h : Inv s) (hresets : Resets s s' l) (horderly : Orderly s l)
    (service : Nat) : ¬ RunsIn s w service := by
  intro hruns
  have hlt := (List.getElem?_eq_some_iff.mp hruns).1
  rcases h.covered w hlt with hw | hw | hw | ⟨call, hcall, hw⟩
  · have hfinished := h.joined w hw
    rw [hruns] at hfinished
    cases hfinished
  · exact h.idle hresets.shuttingDown w hw service hruns
  · rcases hresets.label with ⟨i, -, halive⟩ | hphase
    · rw [halive] at hw
      exact absurd hw not_mem_nil
    · rw [hphase] at hw
      exact absurd hw not_mem_nil
  · rcases hresets.label with ⟨i, rfl, -⟩ | hphase
    · exact NoneRunning.not_runsIn horderly hcall hw service hruns
    · rw [h.calls (by rw [hphase]; exact nofun) call hcall] at hw
      exact absurd hw not_mem_nil

theorem Safe.step {l : Label} (hsafe : Safe s) (h : Inv s) (horderly : Orderly s l)
    (hstep : step s l = some s') : Safe s' := by
  intro w service hruns
  rcases step_effect h hstep with hkeeps | ⟨entered, henters⟩ | hresets
  · exact hkeeps.service.trans (hsafe w service (hkeeps.runs w service hruns))
  · rcases henters.runs w service hruns with rfl | hruns
    · exact henters.service
    · rw [henters.same service (hsafe w service hruns)]
      exact henters.service
  · rw [RunsIn, hresets.workers] at hruns
    exact absurd hruns (h.idle_of_resets hresets horderly service)

theorem enter_calls (s : State) (w : Nat) (isFirstRun fails : Bool) :
    (s.enter w isFirstRun fails).calls = s.calls := by
  rcases enter_cases s w isFirstRun fails with ⟨-, heq⟩ | ⟨-, heq⟩ | ⟨-, service, -, heq⟩
  · rw [heq]
  · rw [heq]
  · rw [heq]
    exact (ensureService_workers s).2.2.2

/-- A call which is about to return was so before, or has enough threads. -/
theorem resized_of_step {l : Label} {threadCount : Nat} (horderly : Orderly s l)
    (hstep : step s l = some s') (hmem : .resized threadCount ∈ s'.calls) :
    .resized threadCount ∈ s.calls ∨ EnoughStarted s threadCount := by
  -- the calls before, where the step sets one to something else
  have hkept : ∀ {t : State} {i : Nat} {call call' : Call}, t.calls = s.calls →
      t.calls[i]? = some call → .resized threadCount ∈ (t.setCall i call').calls →
      call' ≠ .resized threadCount → .resized threadCount ∈ s.calls :=
    fun ht hcall hmem hne => ht ▸ (mem_setCall hcall hmem).resolve_left fun heq => hne heq.symm
  cases l with
  | construct _ | constructed | destroyJoin | unwind | destroy | destroyReset | runReturns _
  | runThrows _ =>
    dsimp only [step] at hstep
    repeat' split at hstep
    all_goals cases hstep
    all_goals exact .inl hmem
  | resize count =>
    dsimp only [step] at hstep
    split at hstep
    next =>
      split at hstep <;> cases hstep
      · exact .inl hmem
      · exact .inl ((mem_append.mp hmem).resolve_right (by simp))
    next => cases hstep
  | size i =>
    dsimp only [step] at hstep
    split at hstep
    next count hcall =>
      split at hstep
      next hless =>
        cases hstep
        exact .inl (hkept rfl hcall hmem nofun)
      next henough =>
        cases hstep
        rcases mem_setCall hcall hmem with heq | hmem
        · cases heq
          rw [Orderly, hcall, FindsStarted] at horderly
          exact .inr (horderly.resolve_left henough)
        · exact .inl hmem
    next => cases hstep
  | createThreads i failsAfter =>
    dsimp only [step] at hstep
    split at hstep
    next count hcall =>
      split at hstep
      next hcreated =>
        cases hstep
        rcases mem_setCall hcall hmem with heq | hmem
        · cases heq
          rw [Orderly, hcall, FindsStarted] at horderly
          exact .inr (horderly.resolve_left (created_eq_enough hcreated))
        · exact .inl hmem
      all_goals
        cases hstep
        exact .inl (hkept (t := s.pushThreads _) rfl hcall hmem nofun)
    next => cases hstep
  | wait i =>
    dsimp only [step] at hstep
    split at hstep
    next count hcall =>
      split at hstep <;> cases hstep
      next hready =>
        rcases mem_setCall hcall hmem with heq | hmem
        · cases heq
          exact .inr (.inr hready)
        · exact .inl hmem
    next => cases hstep
  | returns _ | reset _ =>
    dsimp only [step] at hstep
    split at hstep <;> cases hstep
    next hcall => exact .inl (hkept rfl hcall hmem nofun)
  | dispose =>
    dsimp only [step] at hstep
    split at hstep <;> cases hstep
    exact .inl ((mem_append.mp hmem).resolve_right (by simp))
  | join i =>
    dsimp only [step] at hstep
    split at hstep
    next hcall =>
      split at hstep <;> cases hstep
      exact .inl (hkept rfl hcall hmem nofun)
    next => cases hstep
  | enter w fails =>
    dsimp only [step] at hstep
    split at hstep <;> cases hstep <;> rw [enter_calls] at hmem <;> exact .inl hmem

theorem Prompt.step {l : Label} (hprompt : Prompt s) (h : Inv s) (horderly : Orderly s l)
    (hstep : step s l = some s') : Prompt s' := by
  intro threadCount hmem hshut'
  have hshut : s.shuttingDown = false := by
    by_contra hnot
    simp [(step_shuttingDown h hstep (by simpa using hnot)).1] at hshut'
  have henough : threadCount ≤ s.threadsReady := by
    rcases resized_of_step horderly hstep hmem with hmem | htrue | hready
    · exact h.ready.symm ▸ hprompt threadCount hmem hshut
    · simp [hshut] at htrue
    · exact hready
  have hgrows : s.threadsReady ≤ s'.threadsReady := by
    rcases step_effect h hstep with hkeeps | ⟨entered, henters⟩ | hresets
    · exact hkeeps.threadsReady
    · exact henters.threadsReady
    · exact Nat.le_of_eq hresets.threadsReady.symm
  exact (step_inv h hstep).ready ▸ Nat.le_trans henough hgrows

/-- A resize which returns early shows that it does. -/
theorem enoughStarted_of_prompt (h : Inv s) {call : Call} {threadCount : Nat}
    (hcall : s.calls[i]? = some call) (hprompt : Prompt (s.setCall i (.resized threadCount))) :
    EnoughStarted s threadCount := by
  by_cases hshut : s.shuttingDown = true
  · exact .inl hshut
  · have hfalse : s.shuttingDown = false := Bool.eq_false_iff.mpr hshut
    exact .inr (h.ready ▸ hprompt threadCount (setCall_mem hcall) hfalse)

/-- A step keeps the promises exactly when it is orderly. -/
theorem step_sound_iff {l : Label} (h : Inv s) (hsound : Sound s) (hstep : step s l = some s') :
    Sound s' ↔ Orderly s l := by
  refine ⟨fun hsound' => ?_, fun horderly => ⟨hsound.safe.step h horderly hstep,
    hsound.prompt.step h horderly hstep, (step_inv h hstep).allJoined⟩⟩
  cases l with
  | size i =>
    dsimp only [step] at hstep
    rw [Orderly]
    split at hstep
    next count hcall =>
      rw [hcall, FindsStarted]
      split at hstep <;> cases hstep
      next hless => exact .inl hless
      next => exact .inr (enoughStarted_of_prompt h hcall hsound'.prompt)
    next => cases hstep
  | createThreads i failsAfter =>
    dsimp only [step] at hstep
    rw [Orderly]
    split at hstep
    next count hcall =>
      rw [hcall, FindsStarted]
      by_cases hless : s.threads.length < count
      · exact .inl hless
      · rw [created_of_not_lt failsAfter hless] at hstep
        cases hstep
        exact .inr (enoughStarted_of_prompt h hcall hsound'.prompt)
    next => cases hstep
  | reset i =>
    dsimp only [step] at hstep
    split at hstep <;> cases hstep
    intro call hcall w hw
    by_contra hany
    obtain ⟨service, hruns⟩ := exists_runsIn (by simpa using hany)
    have hnone := hsound'.safe w service hruns
    cases hnone
  | _ => trivial

/-! ## Runs -/

/-- What is promised of the calls and the workers of a pool. -/
structure Lifetime (threadCount : Nat) (ls : List Label) : Prop where
  sound : Throughout step Sound (.create threadCount) ls
  /-- No service is made once a dispose has begun. -/
  made : ∀ ls₁ ls₂ s s', ls₁ ++ ls₂ <+: ls → run step (.create threadCount) ls₁ = some s →
    run step s ls₂ = some s' → s.shuttingDown = true → s'.services = s.services

theorem run_inv {threadCount : Nat} {ls : List Label}
    (hrun : run step (.create threadCount) ls = some s) : Inv s :=
  run_invariant (C := fun _ _ => True) (fun _ _ _ h _ hstep => step_inv h hstep)
    (inv_create threadCount) along_true hrun

theorem lifetime_iff (threadCount : Nat) {ls : List Label} {s : State}
    (hrun : run step (.create threadCount) ls = some s) :
    Lifetime threadCount ls ↔ Along step Orderly (.create threadCount) ls := by
  have hsound : Throughout step Sound (.create threadCount) ls ↔
      Along step Orderly (.create threadCount) ls :=
    throughout_iff_along (I := Inv) (fun _ _ _ => step_inv) (fun _ _ _ => step_sound_iff)
      (inv_create threadCount) (sound_create threadCount) hrun
  constructor
  · intro hlifetime
    exact hsound.mp hlifetime.sound
  · intro horderly
    refine ⟨hsound.mpr horderly, ?_⟩
    intro ls₁ ls₂ s₁ s₂ _ hrun₁ hrun₂ hshut
    exact run_shuttingDown (run_inv hrun₁) hshut hrun₂

/-- A pool of one thread grows by one and is disposed. -/
def growthRun : List Label :=
  [.construct none, .enter 0 false, .constructed, .resize 2, .size 0, .createThreads 0 none,
    .enter 1 false, .wait 0, .returns 0, .dispose, .runReturns 1, .runReturns 0, .join 1, .join 1,
    .reset 1, .destroy, .destroyReset]

theorem growthRun_lifetime : Lifetime 1 growthRun :=
  (lifetime_iff 1 rfl).mpr (by decide)

/-- The second dispose does not wait for the thread the first one joins. -/
def twoDisposes : List Label :=
  [.construct none, .enter 0 false, .constructed, .dispose, .dispose, .reset 1]

/-- The second resize finds a thread which the first one has just created. -/
def twoResizes : List Label :=
  [.construct none, .enter 0 false, .constructed, .resize 2, .size 0, .createThreads 0 none,
    .resize 2, .size 1]

theorem twoCalls_unsound :
    (∃ s, run step (.create 1) twoDisposes = some s ∧ RunsIn s 0 0 ∧ s.service = none) ∧
      ∃ s, run step (.create 1) twoResizes = some s ∧
        Call.resized 2 ∈ s.calls ∧ s.shuttingDown = false ∧ startedCount s = 1 :=
  ⟨⟨_, rfl, rfl, rfl⟩, ⟨_, rfl, by decide, rfl, rfl⟩⟩

end Baselib.Core.ThreadPool
