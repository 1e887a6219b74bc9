/-
Baselib.Tasks.MultiOperationTaskTheorems — one terminal notification for
each run, and where its close stands.

The winner is counted: the threads which hold the terminal path and the
notifications made for the run are together one exactly when the path has
been taken (`Inv.winner`). Nothing can be begun once it has, so a run is
over when it is reported. The close is not tied to it in the same way:
the thread which has decided to close may carry it out after another one
has reported the run (`run_closes_late`).
-/
import Mathlib.Data.List.Perm.Basic
import Baselib.Tasks.MultiOperationTask

namespace Baselib.Tasks.MultiOperationTask

open Lib List

variable {ε : Type} {log : List (Event ε)}

/-! ## What the log says of a run -/

def Event.run : Event ε → Nat
  | .completed run _ _ => run
  | .initiateClose run => run
  | .notifyReady run _ _ => run

def Event.isReady (run : Nat) : Event ε → Bool
  | .notifyReady run' _ _ => run' = run
  | _ => false

def Event.isClose (run : Nat) : Event ε → Bool
  | .initiateClose run' => run' = run
  | _ => false

/-- The error with which an operation of the run completed. -/
def Event.error (run : Nat) : Event ε → Option (ε × Bool)
  | .completed run' (some eptr) isExpectedException =>
    if run' = run then some (eptr, isExpectedException) else none
  | _ => none

/-- The first error recorded for the run, as `notifyReady` takes it: the
exception, and whether it is expected. -/
def firstErrorOf (log : List (Event ε)) (run : Nat) : Option ε × Bool :=
  match (log.filterMap (Event.error run)).head? with
  | some (eptr, isExpectedException) => (some eptr, isExpectedException)
  | none => (none, false)

theorem firstErrorOf_append {run : Nat} {e : Event ε}
    (h : e.error run = none ∨ (firstErrorOf log run).1.isSome = true) :
    firstErrorOf (log ++ [e]) run = firstErrorOf log run := by
  unfold firstErrorOf at h ⊢
  rw [filterMap_append]
  cases hlog : log.filterMap (Event.error run) with
  | nil =>
    rw [hlog] at h
    cases h with
    | inl hnone => simp [hnone]
    | inr hsome => cases hsome
  | cons p ps => rfl

theorem firstErrorOf_record {run : Nat} {eptr : ε} {x : Bool}
    (h : (firstErrorOf log run).1 = none) :
    firstErrorOf (log ++ [.completed run (some eptr) x]) run = (some eptr, x) := by
  unfold firstErrorOf at h ⊢
  rw [filterMap_append]
  cases hlog : log.filterMap (Event.error run) with
  | nil => simp [Event.error]
  | cons p ps =>
    rw [hlog] at h
    cases h

/-- A run which is not in the log has no error. -/
theorem firstErrorOf_fresh {run : Nat} (h : ∀ e ∈ log, e.run ≠ run) :
    firstErrorOf log run = (none, false) := by
  have hnil : log.filterMap (Event.error run) = [] := by
    refine filterMap_eq_nil_iff.mpr fun e he => ?_
    cases e with
    | completed run' eptr x =>
      cases eptr with
      | none => rfl
      | some eptr => exact if_neg (h _ he)
    | initiateClose => rfl
    | notifyReady => rfl
  unfold firstErrorOf
  rw [hnil]
  rfl

theorem Event.error_of_run_ne {e : Event ε} {run : Nat} (h : e.run ≠ run) :
    e.error run = none := by
  cases e with
  | completed run' eptr x =>
    cases eptr with
    | none => rfl
    | some eptr => exact if_neg h
  | initiateClose => rfl
  | notifyReady => rfl

theorem Event.isReady_of_run_ne {e : Event ε} {run : Nat} (h : e.run ≠ run) :
    e.isReady run = false := by
  cases e with
  | notifyReady run' eptr x => exact decide_eq_false h
  | completed => rfl
  | initiateClose => rfl

theorem countP_isReady_fresh {run : Nat} (h : ∀ e ∈ log, e.run ≠ run) :
    log.countP (Event.isReady run) = 0 :=
  countP_eq_zero.mpr fun e he => by simp [Event.isReady_of_run_ne (h e he)]

/-! ## The block under the accounting lock -/

theorem Accounting.takeTerminalNoLock_eq (a : Accounting ε) {t : Bool}
    (ht : (!a.terminalTaken && a.closing && a.pendingOperations == 0) = t) :
    a.takeTerminalNoLock = (t, { a with terminalTaken := a.terminalTaken || t }) := by
  obtain ⟨pending, closing, closeInitiated, taken, firstError, expected⟩ := a
  subst ht
  cases taken <;> cases closing <;> cases pending <;> rfl

/-- Whether the exception is the first one. -/
def Accounting.isFirst (a : Accounting ε) (eptr : Option ε) : Bool :=
  eptr.isSome && a.firstError.isNone

theorem Accounting.account_eq (a : Accounting ε) (eptr : Option ε) (x : Bool) :
    a.account eptr x =
      { a with
        pendingOperations := a.pendingOperations - 1
        firstError := if a.isFirst eptr then eptr else a.firstError
        firstErrorIsExpected := if a.isFirst eptr then x else a.firstErrorIsExpected
        closing := a.closing || a.isFirst eptr } := by
  obtain ⟨pending, closing, closeInitiated, taken, firstError, expected⟩ := a
  cases pending <;> cases firstError <;> cases eptr <;>
    simp [Accounting.account, Accounting.isFirst]

/-- What `onOperationCompleted` does to the accounting, and what it
decides. -/
theorem onOperationCompleted_spec (a : Accounting ε) (run : Nat) (eptr : Option ε) (x : Bool)
    {d : Decision ε} {a' : Accounting ε} (h : a.onOperationCompleted run eptr x = (d, a')) :
    d.run = run ∧
    (d.firstError, d.firstErrorIsExpected) = (a'.firstError, a'.firstErrorIsExpected) ∧
    d.close = (a'.closing && !a.closeInitiated) ∧
    d.terminal = (!a.terminalTaken && a'.closing && a'.pendingOperations == 0) ∧
    a' =
      { pendingOperations := a.pendingOperations - 1
        closing := a.closing || a.isFirst eptr
        closeInitiated := a.closeInitiated || d.close
        terminalTaken := a.terminalTaken || d.terminal
        firstError := if a.isFirst eptr then eptr else a.firstError
        firstErrorIsExpected := if a.isFirst eptr then x else a.firstErrorIsExpected } := by
  unfold Accounting.onOperationCompleted at h
  rw [a.account_eq eptr x] at h
  generalize hc : ((a.closing || a.isFirst eptr) && !a.closeInitiated) = close at h
  cases close with
  | false =>
    simp only [hc, Bool.false_eq_true, if_false] at h
    rw [Accounting.takeTerminalNoLock_eq _ rfl] at h
    cases h
    exact ⟨rfl, rfl, hc.symm, rfl, by simp⟩
  | true =>
    simp only [hc, if_true] at h
    rw [Accounting.takeTerminalNoLock_eq _ rfl] at h
    cases h
    exact ⟨rfl, rfl, hc.symm, rfl, by simp⟩

/-! ## One winner -/

structure Inv (s : State ε) : Prop where
  pending : s.accounting.pendingOperations = s.inFlight
  first : (s.accounting.firstError, s.accounting.firstErrorIsExpected) = firstErrorOf s.log s.runs
  past : ∀ e ∈ s.log, e.run ≤ s.runs
  decided : ∀ d ∈ s.deciding, d.run ≤ s.runs
  terminal : ∀ d ∈ s.deciding, d.terminal = true → d.run = s.runs ∧
    (d.firstError, d.firstErrorIsExpected) = firstErrorOf s.log s.runs
  taken : s.accounting.terminalTaken = true → s.inFlight = 0 ∧ s.accounting.closing = true
  winner : s.deciding.countP (·.terminal) + s.log.countP (Event.isReady s.runs)
    = s.accounting.terminalTaken.toNat
  busy : s.running = true → s.log.countP (Event.isReady s.runs) = 0
  idle : s.running = false → s.inFlight = 0 ∧ s.deciding.countP (·.terminal) = 0 ∧
    (s.runs ≠ 0 → s.log.countP (Event.isReady s.runs) = 1)
  once : ∀ run, s.log.countP (Event.isReady run) ≤ 1
  reports : ∀ run eptr x, .notifyReady run eptr x ∈ s.log → (eptr, x) = firstErrorOf s.log run

theorem Inv.initial : Inv (State.initial : State ε) where
  pending := rfl
  first := rfl
  past := forall_mem_nil _
  decided := forall_mem_nil _
  terminal := forall_mem_nil _
  taken := nofun
  winner := rfl
  busy := fun _ => rfl
  idle := fun _ => ⟨rfl, rfl, fun h => absurd rfl h⟩
  once := fun _ => Nat.zero_le _
  reports := nofun

/-- No thread holds the terminal path while an operation is in flight. -/
theorem Inv.no_terminal {s : State ε} (h : Inv s) (hflight : s.inFlight ≠ 0) :
    s.accounting.terminalTaken = false ∧ ∀ d ∈ s.deciding, d.terminal = false := by
  have htaken : s.accounting.terminalTaken = false :=
    Bool.eq_false_iff.mpr fun htaken => hflight (h.taken htaken).1
  refine ⟨htaken, fun d hd => Bool.eq_false_iff.mpr fun hterminal => ?_⟩
  have hcount : 0 < s.deciding.countP (·.terminal) :=
    countP_pos_iff.mpr ⟨d, hd, hterminal⟩
  have hwinner := h.winner
  rw [htaken, Bool.toNat_false] at hwinner
  omega

variable {s : State ε}

theorem Inv.scheduleNothrow (h : Inv s) (hidle : s.running = false) (operations : Nat) :
    Inv (s.scheduleNothrow operations) := by
  obtain ⟨-, hterminal, -⟩ := h.idle hidle
  have hfresh : ∀ e ∈ s.log, e.run ≠ s.runs + 1 := fun e he heq => by
    have := h.past e he
    omega
  have hnone : ∀ d ∈ s.deciding, ¬ d.terminal = true := countP_eq_zero.mp hterminal
  exact {
    pending := rfl
    first := (firstErrorOf_fresh hfresh).symm
    past := fun e he => Nat.le_succ_of_le (h.past e he)
    decided := fun d hd => Nat.le_succ_of_le (h.decided d hd)
    terminal := fun d hd ht => absurd ht (hnone d hd)
    taken := nofun
    winner := by
      show s.deciding.countP _ + s.log.countP (Event.isReady (s.runs + 1)) = 0
      rw [hterminal, countP_isReady_fresh hfresh]
    busy := fun _ => countP_isReady_fresh hfresh
    idle := nofun
    once := h.once
    reports := h.reports }

theorem Inv.beginOperation (h : Inv s) (hflight : s.inFlight ≠ 0) : Inv s.beginOperation :=
  { h with
    pending := congrArg (· + 1) h.pending
    taken := fun ht => absurd (h.taken ht).1 hflight
    idle := fun hr => absurd (h.idle hr).1 hflight }

theorem Inv.beginClose (h : Inv s) : Inv s.beginClose :=
  { h with taken := fun ht => ⟨(h.taken ht).1, rfl⟩ }

theorem Inv.onOperationCompleted (h : Inv s) (hflight : s.inFlight ≠ 0) (eptr : Option ε)
    (x : Bool) : Inv (s.onOperationCompleted eptr x) := by
  obtain ⟨htaken, hnone⟩ := h.no_terminal hflight
  have hrunning : s.running = true := by
    by_contra hr
    exact hflight (h.idle (Bool.eq_false_iff.mpr hr)).1
  obtain ⟨d, a, hdecision⟩ : ∃ d a, s.accounting.onOperationCompleted s.runs eptr x = (d, a) :=
    ⟨_, _, rfl⟩
  obtain ⟨hrun, herror, hclose, hterminal, ha⟩ := onOperationCompleted_spec _ _ _ _ hdecision
  have hs' : s.onOperationCompleted eptr x =
      { s with
        accounting := a
        inFlight := s.inFlight - 1
        deciding := s.deciding ++ [d]
        log := s.log ++ [.completed s.runs eptr x] } := by
    unfold State.onOperationCompleted
    rw [hdecision]
  have hready : ∀ run, (s.log ++ [Event.completed s.runs eptr x]).countP (Event.isReady run)
      = s.log.countP (Event.isReady run) := fun run => by
    rw [countP_append]
    rfl
  -- the exception is recorded exactly when it is the first of the run
  have hfirst : (a.firstError, a.firstErrorIsExpected)
      = firstErrorOf (s.log ++ [.completed s.runs eptr x]) s.runs := by
    have hold := h.first
    rw [ha]
    cases heptr : eptr with
    | none =>
      rw [firstErrorOf_append (.inl rfl), ← hold]
      rfl
    | some e =>
      cases hprev : s.accounting.firstError with
      | none =>
        rw [hprev] at hold
        rw [firstErrorOf_record (congrArg Prod.fst hold).symm]
        simp [Accounting.isFirst, hprev]
      | some e' =>
        rw [hprev] at hold
        rw [firstErrorOf_append (.inr (by rw [← hold]; rfl)), ← hold]
        simp [Accounting.isFirst, hprev]
  have htaken' : a.terminalTaken = d.terminal := by
    rw [ha]
    simp [htaken]
  rw [hs']
  exact {
    pending := by
      rw [ha]
      exact congrArg (· - 1) h.pending
    first := hfirst
    past := fun e he => by
      obtain he | he := mem_append.mp he
      · exact h.past e he
      · cases mem_singleton.mp he
        exact Nat.le_refl _
    decided := fun d' hd' => by
      obtain hd' | hd' := mem_append.mp hd'
      · exact h.decided d' hd'
      · cases mem_singleton.mp hd'
        exact Nat.le_of_eq hrun
    terminal := fun d' hd' ht => by
      obtain hd' | hd' := mem_append.mp hd'
      · exact absurd ht (by simp [hnone d' hd'])
      · cases mem_singleton.mp hd'
        exact ⟨hrun, herror.trans hfirst⟩
    taken := fun ht => by
      rw [htaken', hterminal] at ht
      simp only [Bool.and_eq_true, beq_iff_eq] at ht
      rw [ha] at ht
      have hcount : s.accounting.pendingOperations - 1 = 0 := ht.2
      refine ⟨by rw [← h.pending]; exact hcount, ?_⟩
      rw [ha]
      exact ht.1.2
    winner := by
      have hzero : s.deciding.countP (·.terminal) = 0 :=
        countP_eq_zero.mpr fun d' hd' => by simp [hnone d' hd']
      rw [hready, h.busy hrunning, countP_append, hzero, htaken']
      cases hd : d.terminal <;> simp [hd]
    busy := fun hr => (hready _).trans (h.busy hr)
    idle := fun hr => by cases hrunning.symm.trans hr
    once := fun run => Nat.le_trans (Nat.le_of_eq (hready run)) (h.once run)
    reports := fun run eptr' x' hmem => by
      obtain hmem | hmem := mem_append.mp hmem
      · -- the run which is going on has not been reported
        have hne : run ≠ s.runs := fun heq => by
          have hpos := countP_pos_iff.mpr
            ⟨_, hmem, (by simp [Event.isReady] : Event.isReady run (.notifyReady run eptr' x') = true)⟩
          rw [heq, h.busy hrunning] at hpos
          exact absurd hpos (Nat.lt_irrefl 0)
        rw [h.reports run eptr' x' hmem]
        exact (firstErrorOf_append (.inl (Event.error_of_run_ne (Ne.symm hne)))).symm
      · cases mem_singleton.mp hmem }

/-- Taking a thread out of the threads, and putting it back changed. -/
theorem thread_perm {α : Type} {l : List α} {i : Nat} {d : α} (h : l[i]? = some d) :
    l.Perm (d :: l.eraseIdx i) ∧ ∀ d', (l.set i d').Perm (d' :: l.eraseIdx i) := by
  obtain ⟨hi, rfl⟩ := List.getElem?_eq_some_iff.mp h
  exact ⟨(getElem_cons_eraseIdx_perm hi).symm, set_perm_cons_eraseIdx hi⟩

theorem Inv.initiateClose (h : Inv s) {thread : Nat} {d : Decision ε}
    (hd : s.deciding[thread]? = some d) : Inv (s.initiateClose thread d) := by
  obtain ⟨hperm, hset⟩ := thread_perm hd
  have hmem := mem_of_getElem? hd
  have hready : ∀ run, (s.log ++ [Event.initiateClose d.run]).countP (Event.isReady run)
      = s.log.countP (Event.isReady run) := fun run => by
    rw [countP_append]
    rfl
  have hfirst : ∀ run, firstErrorOf (s.log ++ [.initiateClose d.run]) run
      = firstErrorOf s.log run := fun run => firstErrorOf_append (.inl rfl)
  have hcount : (s.deciding.set thread { d with close := false }).countP (·.terminal)
      = s.deciding.countP (·.terminal) := by
    rw [(hset _).countP_eq, hperm.countP_eq]
    rfl
  have hback : ∀ d' ∈ s.deciding.set thread { d with close := false },
      d' ∈ s.deciding ∨ d' = { d with close := false } := fun d' hd' =>
    mem_or_eq_of_mem_set hd'
  exact {
    pending := h.pending
    first := h.first.trans (hfirst _).symm
    past := fun e he => by
      obtain he | he := mem_append.mp he
      · exact h.past e he
      · cases mem_singleton.mp he
        exact h.decided d hmem
    decided := fun d' hd' => by
      obtain hd' | rfl := hback d' hd'
      · exact h.decided d' hd'
      · exact h.decided d hmem
    terminal := fun d' hd' ht => by
      refine Eq.symm (hfirst s.runs) ▸ ?_
      obtain hd' | rfl := hback d' hd'
      · exact h.terminal d' hd' ht
      · exact h.terminal d hmem ht
    taken := h.taken
    winner := by
      show (s.deciding.set thread _).countP _ + _ = _
      rw [hcount]
      exact (congrArg _ (hready _)).trans h.winner
    busy := fun hr => (hready _).trans (h.busy hr)
    idle := fun hr => by
      obtain ⟨hflight, hzero, hreported⟩ := h.idle hr
      exact ⟨hflight, hcount.trans hzero, fun hruns => (hready _).trans (hreported hruns)⟩
    once := fun run => Nat.le_trans (Nat.le_of_eq (hready run)) (h.once run)
    reports := fun run eptr x he => by
      obtain he | he := mem_append.mp he
      · exact (h.reports run eptr x he).trans (hfirst run).symm
      · cases mem_singleton.mp he }

theorem Inv.notifyReady (h : Inv s) {thread : Nat} {d : Decision ε}
    (hd : s.deciding[thread]? = some d) (hterminal : d.terminal = true) :
    Inv (s.notifyReady thread d) := by
  obtain ⟨hperm, hset⟩ := thread_perm hd
  have hmem := mem_of_getElem? hd
  obtain ⟨hrun, herror⟩ := h.terminal d hmem hterminal
  have hcount : s.deciding.countP (·.terminal) = 1 + (s.deciding.eraseIdx thread).countP (·.terminal) := by
    rw [hperm.countP_eq, countP_cons_of_pos hterminal, Nat.add_comm]
  have hwinner := h.winner
  have htoNat := Bool.toNat_le s.accounting.terminalTaken
  have htaken : s.accounting.terminalTaken = true := by
    cases ht : s.accounting.terminalTaken with
    | true => rfl
    | false =>
      rw [ht, Bool.toNat_false] at hwinner
      omega
  have hzero : (s.deciding.set thread { d with terminal := false }).countP (·.terminal) = 0 := by
    rw [(hset _).countP_eq, countP_cons_of_neg (by simp)]
    omega
  have hunreported : s.log.countP (Event.isReady s.runs) = 0 := by omega
  have hready : ∀ run, (s.log ++
      [Event.notifyReady d.run d.firstError d.firstErrorIsExpected]).countP (Event.isReady run)
      = s.log.countP (Event.isReady run) + if run = s.runs then 1 else 0 := fun run => by
    rw [countP_append, hrun]
    by_cases heq : run = s.runs
    · simp [Event.isReady, heq]
    · simp [Event.isReady, heq, Ne.symm heq]
  have hnow : (s.log ++
      [Event.notifyReady d.run d.firstError d.firstErrorIsExpected]).countP
      (Event.isReady s.runs) = 1 := by rw [hready, if_pos rfl, hunreported]
  have hfirst : ∀ run, firstErrorOf (s.log ++
      [Event.notifyReady d.run d.firstError d.firstErrorIsExpected]) run
      = firstErrorOf s.log run := fun run => firstErrorOf_append (.inl rfl)
  exact {
    pending := h.pending
    first := h.first.trans (hfirst _).symm
    past := fun e he => by
      obtain he | he := mem_append.mp he
      · exact h.past e he
      · cases mem_singleton.mp he
        exact h.decided d hmem
    decided := fun d' hd' => by
      obtain hd' | rfl := mem_or_eq_of_mem_set hd'
      · exact h.decided d' hd'
      · exact h.decided d hmem
    terminal := fun d' hd' ht => absurd ht (countP_eq_zero.mp hzero d' hd')
    taken := h.taken
    winner := (congrArg₂ (· + ·) hzero hnow).trans (congrArg Bool.toNat htaken).symm
    busy := nofun
    idle := fun _ => ⟨(h.taken htaken).1, hzero, fun _ => hnow⟩
    once := fun run => by
      refine Nat.le_trans (Nat.le_of_eq (hready run)) ?_
      by_cases heq : run = s.runs
      · refine Nat.le_of_eq ?_
        rw [if_pos heq, heq, hunreported]
      · rw [if_neg heq]
        exact h.once run
    reports := fun run eptr x he => by
      obtain he | he := mem_append.mp he
      · exact (h.reports run eptr x he).trans (hfirst run).symm
      · cases mem_singleton.mp he
        exact (herror.trans (hrun ▸ rfl)).trans (hfirst _).symm }

theorem Inv.applied (h : Inv s) {thread : Nat} {d : Decision ε}
    (hd : s.deciding[thread]? = some d) (hterminal : d.terminal = false) :
    Inv { s with deciding := s.deciding.eraseIdx thread } := by
  have hcount : (s.deciding.eraseIdx thread).countP (·.terminal)
      = s.deciding.countP (·.terminal) := by
    rw [(thread_perm hd).1.countP_eq, countP_cons_of_neg (by simp [hterminal])]
  exact { h with
    decided := fun d' hd' => h.decided d' (mem_of_mem_eraseIdx hd')
    terminal := fun d' hd' => h.terminal d' (mem_of_mem_eraseIdx hd')
    winner := (congrArg (· + _) hcount).trans h.winner
    idle := fun hr => ⟨(h.idle hr).1, hcount.trans (h.idle hr).2.1, (h.idle hr).2.2⟩ }

/-- What a section is, label by label. -/
theorem step_cases {l : Label ε} {s' : State ε} (h : step s l = some s') :
    (∃ n, l = .scheduleNothrow n ∧ s.running = false ∧ s' = s.scheduleNothrow n) ∨
    (l = .beginOperation ∧ s.inFlight ≠ 0 ∧ s' = s.beginOperation) ∨
    (l = .beginClose ∧ s' = s.beginClose) ∨
    (∃ eptr x, l = .operationCompleted eptr x ∧ s.inFlight ≠ 0 ∧
      s' = s.onOperationCompleted eptr x) ∨
    ∃ thread d, s.deciding[thread]? = some d ∧
      ((l = .initiateClose thread ∧ d.close = true ∧ s' = s.initiateClose thread d) ∨
      (l = .notifyReady thread ∧ d.close = false ∧ d.terminal = true ∧
        s' = s.notifyReady thread d) ∨
      (l = .applied thread ∧ d.close = false ∧ d.terminal = false ∧
        s' = { s with deciding := s.deciding.eraseIdx thread })) := by
  cases l with
  | scheduleNothrow n =>
    dsimp only [step] at h
    split at h
    · cases h
    · rename_i hr
      exact .inl ⟨n, rfl, Bool.eq_false_iff.mpr hr, (Option.some.inj h).symm⟩
  | beginOperation =>
    dsimp only [step] at h
    split at h
    · cases h
    · rename_i hflight
      exact .inr (.inl ⟨rfl, hflight, (Option.some.inj h).symm⟩)
  | beginClose => exact .inr (.inr (.inl ⟨rfl, (Option.some.inj h).symm⟩))
  | operationCompleted eptr x =>
    dsimp only [step] at h
    split at h
    · cases h
    · rename_i hflight
      exact .inr (.inr (.inr (.inl ⟨eptr, x, rfl, hflight, (Option.some.inj h).symm⟩)))
  | initiateClose thread =>
    obtain ⟨d, hd, h⟩ := Option.bind_eq_some_iff.mp h
    split at h
    · rename_i hclose
      exact .inr (.inr (.inr (.inr ⟨thread, d, hd, .inl ⟨rfl, hclose, (Option.some.inj h).symm⟩⟩)))
    · cases h
  | notifyReady thread =>
    obtain ⟨d, hd, h⟩ := Option.bind_eq_some_iff.mp h
    split at h
    · rename_i hboth
      simp only [Bool.and_eq_true, Bool.not_eq_true'] at hboth
      exact .inr (.inr (.inr (.inr
        ⟨thread, d, hd, .inr (.inl ⟨rfl, hboth.1, hboth.2, (Option.some.inj h).symm⟩)⟩)))
    · cases h
  | applied thread =>
    obtain ⟨d, hd, h⟩ := Option.bind_eq_some_iff.mp h
    split at h
    · rename_i hboth
      simp only [Bool.and_eq_true, Bool.not_eq_true'] at hboth
      exact .inr (.inr (.inr (.inr
        ⟨thread, d, hd, .inr (.inr ⟨rfl, hboth.1, hboth.2, (Option.some.inj h).symm⟩)⟩)))
    · cases h

theorem step_inv {l : Label ε} {s' : State ε} (h : Inv s) (hstep : step s l = some s') :
    Inv s' := by
  obtain ⟨n, -, hr, rfl⟩ | ⟨-, hflight, rfl⟩ | ⟨-, rfl⟩ | ⟨eptr, x, -, hflight, rfl⟩ |
    ⟨thread, d, hd, hthread⟩ := step_cases hstep
  · exact h.scheduleNothrow hr n
  · exact h.beginOperation hflight
  · exact h.beginClose
  · exact h.onOperationCompleted hflight eptr x
  · obtain ⟨-, -, rfl⟩ | ⟨-, -, hterminal, rfl⟩ | ⟨-, -, hterminal, rfl⟩ := hthread
    · exact h.initiateClose hd
    · exact h.notifyReady hd hterminal
    · exact h.applied hd hterminal

theorem run_inv {ls : List (Label ε)} (hrun : Transition.run step .initial ls = some s) :
    Inv s :=
  Transition.run_invariant (fun _ _ _ h _ hstep => step_inv h hstep) Inv.initial
    Transition.along_true hrun

/-- A close is requested while an operation is in flight, or of a task
which is not running. -/
def CloseInFlight (s : State ε) : Label ε → Prop
  | .beginClose => s.running = true → s.inFlight ≠ 0
  | _ => True

instance (s : State ε) : ∀ l : Label ε, Decidable (CloseInFlight s l)
  | .beginClose => inferInstanceAs (Decidable (s.running = true → s.inFlight ≠ 0))
  | .scheduleNothrow _ => isTrue trivial
  | .beginOperation => isTrue trivial
  | .operationCompleted _ _ => isTrue trivial
  | .initiateClose _ => isTrue trivial
  | .notifyReady _ => isTrue trivial
  | .applied _ => isTrue trivial

/-- Once nothing is in flight any more and the task is closing, some
thread has the terminal path. -/
def Claimed (s : State ε) : Prop :=
  s.running = true → s.accounting.closing = true → s.inFlight = 0 →
    s.accounting.terminalTaken = true

theorem step_claimed {l : Label ε} {s' : State ε} (hinv : Inv s) (h : Claimed s)
    (hl : CloseInFlight s l) (hstep : step s l = some s') : Claimed s' := by
  obtain ⟨n, -, hr, rfl⟩ | ⟨-, hflight, rfl⟩ | ⟨rfl, rfl⟩ | ⟨eptr, x, -, hflight, rfl⟩ |
    ⟨thread, d, hd, hthread⟩ := step_cases hstep
  · exact nofun
  · exact nofun
  · exact fun hr _ hzero => absurd hzero (hl hr)
  · intro _ hclosing hzero
    obtain ⟨d, a, hdecision⟩ : ∃ d a, s.accounting.onOperationCompleted s.runs eptr x = (d, a) :=
      ⟨_, _, rfl⟩
    obtain ⟨-, -, -, hterminal, ha⟩ := onOperationCompleted_spec _ _ _ _ hdecision
    unfold State.onOperationCompleted at hclosing hzero ⊢
    rw [hdecision] at hclosing hzero ⊢
    have hcount : a.pendingOperations = 0 := by
      rw [ha]
      exact (congrArg (· - 1) hinv.pending).trans hzero
    rw [(hinv.no_terminal hflight).1, hclosing, hcount] at hterminal
    rw [ha]
    exact Bool.or_eq_true_iff.mpr (.inr hterminal)
  · obtain ⟨-, -, rfl⟩ | ⟨-, -, -, rfl⟩ | ⟨-, -, -, rfl⟩ := hthread
    · exact h
    · exact nofun
    · exact h

/-- In every run of the sections, over any number of runs of the task:
each run is reported at most once, with the first error recorded for it,
when nothing is in flight and the task is closing; and it has been
reported once all its operations have completed and the task is closing,
if closes are requested while an operation is in flight. -/
theorem run_terminal (ls : List (Label ε)) (s : State ε)
    (hrun : Transition.run step .initial ls = some s) :
    (∀ run, s.log.countP (Event.isReady run) ≤ 1) ∧
    (∀ run eptr x, .notifyReady run eptr x ∈ s.log → (eptr, x) = firstErrorOf s.log run) ∧
    (∀ thread s', step s (.notifyReady thread) = some s' →
      s.inFlight = 0 ∧ s.accounting.pendingOperations = 0 ∧ s.accounting.closing = true) ∧
    (Transition.Along step CloseInFlight .initial ls → s.runs ≠ 0 → s.inFlight = 0 →
      s.accounting.closing = true → (∀ d ∈ s.deciding, d.run ≠ s.runs) →
      ∃ eptr x, .notifyReady s.runs eptr x ∈ s.log) := by
  have h := run_inv hrun
  refine ⟨h.once, h.reports, fun thread s' hstep => ?_, fun hclose hruns hzero hclosing hdone => ?_⟩
  · obtain ⟨d, hd, hnotify⟩ := Option.bind_eq_some_iff.mp hstep
    split at hnotify
    · rename_i hboth
      have hterminal : d.terminal = true := (Bool.and_eq_true_iff.mp hboth).2
      have htaken : s.accounting.terminalTaken = true := by
        by_contra htaken
        have hcount : 0 < s.deciding.countP (·.terminal) :=
          List.countP_pos_iff.mpr ⟨d, List.mem_of_getElem? hd, hterminal⟩
        have hwinner := h.winner
        rw [Bool.eq_false_iff.mpr htaken, Bool.toNat_false] at hwinner
        omega
      exact ⟨(h.taken htaken).1, h.pending.trans (h.taken htaken).1, (h.taken htaken).2⟩
    · cases hnotify
  · have hcount : s.log.countP (Event.isReady s.runs) = 1 := by
      cases hr : s.running with
      | false => exact (h.idle hr).2.2 hruns
      | true =>
        have hclaimed := Transition.run_invariant (P := fun s => Inv s ∧ Claimed s)
          (fun _ _ _ hs hl hstep => ⟨step_inv hs.1 hstep, step_claimed hs.1 hs.2 hl hstep⟩)
          ⟨Inv.initial, nofun⟩ hclose hrun
        have hwinner := h.winner
        rw [hclaimed.2 hr hclosing hzero, Bool.toNat_true] at hwinner
        have hnone : s.deciding.countP (·.terminal) = 0 :=
          List.countP_eq_zero.mpr fun d hd hterminal => hdone d hd (h.terminal d hd hterminal).1
        omega
    have hpos : 0 < s.log.countP (Event.isReady s.runs) := by omega
    obtain ⟨e, he, hready⟩ := List.countP_pos_iff.mp hpos
    cases e with
    | notifyReady run eptr x =>
      have heq : run = s.runs := of_decide_eq_true hready
      exact ⟨eptr, x, heq ▸ he⟩
    | completed => cases hready
    | initiateClose => cases hready

/-- Two operations of which one fails and the other is cancelled. -/
def twoOperations : List (Label Nat) :=
  [.scheduleNothrow 2, .operationCompleted (some 7) false, .initiateClose 0, .applied 0,
    .operationCompleted (some 8) true, .notifyReady 0, .applied 0]

theorem run_terminal_twoOperations :
    ∃ s, Transition.run step .initial twoOperations = some s ∧
      s.log.countP (Event.isReady 1) ≤ 1 ∧
      ∃ eptr x, .notifyReady 1 eptr x ∈ s.log ∧ (eptr, x) = (some 7, false) := by
  obtain ⟨s, hs⟩ := Option.isSome_iff_exists.mp
    (show (Transition.run step .initial twoOperations).isSome = true by decide)
  have hstate : (Transition.run step .initial twoOperations).map
      (fun s => (s.runs, s.inFlight, s.accounting.closing, s.deciding, firstErrorOf s.log 1))
      = some (1, 0, true, [], some 7, false) := rfl
  rw [hs] at hstate
  obtain ⟨hruns, hflight, hclosing, hdeciding, hfirst⟩ : s.runs = 1 ∧ s.inFlight = 0 ∧
      s.accounting.closing = true ∧ s.deciding = [] ∧ firstErrorOf s.log 1 = (some 7, false) := by
    simpa using hstate
  obtain ⟨honce, hreports, -, hcalled⟩ := run_terminal twoOperations s hs
  obtain ⟨eptr, x, hmem⟩ := hcalled (by decide) (by rw [hruns]; decide) hflight hclosing
    (by rw [hdeciding]; exact List.forall_mem_nil _)
  rw [hruns] at hmem
  exact ⟨s, hs, honce 1, eptr, x, hmem, (hreports 1 eptr x hmem).trans hfirst⟩

/-- The only operation completes, and then a close is requested. -/
def closedTooLate : List (Label Nat) :=
  [.scheduleNothrow 1, .operationCompleted none false, .applied 0, .beginClose]

/-- Nobody is left to report the task. -/
theorem run_closedTooLate :
    ∃ s, Transition.run step .initial closedTooLate = some s ∧ s.runs = 1 ∧ s.inFlight = 0 ∧
      s.accounting.closing = true ∧ s.deciding = [] ∧
      s.log.countP (Event.isReady 1) = 0 :=
  ⟨_, rfl, rfl, rfl, rfl, rfl, rfl⟩

/-! ## The close and its run -/

/-- No close is carried out for a run which has been reported. -/
def ClosesBeforeReady (log : List (Event ε)) : Prop :=
  log.Pairwise fun earlier later =>
    ∀ run, earlier.isReady run = true → later.isClose run = false

/-- No close was late, and none will be if a thread carries its close out
now. -/
def ClosesInTime (s : State ε) : Prop :=
  ClosesBeforeReady s.log ∧
    ∀ thread s', step s (.initiateClose thread) = some s' → ClosesBeforeReady s'.log

/-- The run is reported when every thread has carried out the close it
has decided for it. -/
def ClosesCarriedOut (s : State ε) : Label ε → Prop
  | .notifyReady _ => ∀ d ∈ s.deciding, d.close = true → d.run ≠ s.runs
  | _ => True

instance (s : State ε) : ∀ l : Label ε, Decidable (ClosesCarriedOut s l)
  | .notifyReady _ =>
    inferInstanceAs (Decidable (∀ d ∈ s.deciding, d.close = true → d.run ≠ s.runs))
  | .scheduleNothrow _ => isTrue trivial
  | .beginOperation => isTrue trivial
  | .beginClose => isTrue trivial
  | .operationCompleted _ _ => isTrue trivial
  | .initiateClose _ => isTrue trivial
  | .applied _ => isTrue trivial

theorem ClosesBeforeReady.append_iff {e : Event ε} :
    ClosesBeforeReady (log ++ [e]) ↔ ClosesBeforeReady log ∧
      ∀ run, e.isClose run = true → ∀ e' ∈ log, e'.isReady run = false := by
  unfold ClosesBeforeReady
  rw [pairwise_append]
  simp only [pairwise_singleton, mem_singleton, forall_eq, true_and]
  refine and_congr_right fun _ => ⟨fun h run hclose e' he' => ?_, fun h e' he' run hready => ?_⟩
  · by_contra hready
    have := h e' he' run (by simpa using hready)
    rw [hclose] at this
    cases this
  · by_contra hclose
    have := h run (by simpa using hclose) e' he'
    rw [hready] at this
    cases this

theorem closesInTime_iff : ClosesInTime s ↔ ClosesBeforeReady s.log ∧
    ∀ d ∈ s.deciding, d.close = true → ∀ e ∈ s.log, e.isReady d.run = false := by
  refine and_congr_right fun hlog => ⟨fun h d hd hclose => ?_, fun h thread s' hstep => ?_⟩
  · obtain ⟨thread, hthread⟩ := mem_iff_getElem?.mp hd
    have hstep : step s (.initiateClose thread) = some (s.initiateClose thread d) := by
      dsimp only [step]
      rw [hthread, Option.bind_some, if_pos hclose]
    exact (ClosesBeforeReady.append_iff.mp (h thread _ hstep)).2 d.run (decide_eq_true rfl)
  · obtain ⟨d, hd, hclose⟩ := Option.bind_eq_some_iff.mp hstep
    split at hclose
    · rename_i hd'
      cases hclose
      refine ClosesBeforeReady.append_iff.mpr ⟨hlog, fun run hrun => ?_⟩
      have heq : d.run = run := of_decide_eq_true hrun
      exact heq ▸ h d (mem_of_getElem? hd) hd'
    · cases hclose

theorem Inv.unreported (h : Inv s) (hr : s.running = true) :
    ∀ e ∈ s.log, e.isReady s.runs = false := fun e he => by
  have := countP_eq_zero.mp (h.busy hr) e he
  simpa using this

theorem mem_append_ready {e : Event ε} {run : Nat}
    (h : ∀ e' ∈ log, e'.isReady run = false) (he : e.isReady run = false) :
    ∀ e' ∈ log ++ [e], e'.isReady run = false := fun e' he' => by
  obtain he' | he' := mem_append.mp he'
  · exact h e' he'
  · exact mem_singleton.mp he' ▸ he

/-- A section keeps the closes in time exactly under its condition. -/
theorem step_closesInTime {l : Label ε} {s' : State ε} (hinv : Inv s) (h : ClosesInTime s)
    (hstep : step s l = some s') : ClosesInTime s' ↔ ClosesCarriedOut s l := by
  obtain ⟨hbefore, hpending⟩ := closesInTime_iff.mp h
  rw [closesInTime_iff]
  obtain ⟨n, rfl, -, rfl⟩ | ⟨rfl, -, rfl⟩ | ⟨rfl, rfl⟩ | ⟨eptr, x, rfl, hflight, rfl⟩ |
    ⟨thread, d, hd, hthread⟩ := step_cases hstep
  · exact iff_of_true ⟨hbefore, hpending⟩ trivial
  · exact iff_of_true ⟨hbefore, hpending⟩ trivial
  · exact iff_of_true ⟨hbefore, hpending⟩ trivial
  · refine iff_of_true ⟨ClosesBeforeReady.append_iff.mpr ⟨hbefore, nofun⟩,
      fun d hd hclose => mem_append_ready ?_ rfl⟩ trivial
    -- the new thread is one of the run which is going on
    have hrunning : s.running = true := by
      by_contra hr
      exact hflight (hinv.idle (Bool.eq_false_iff.mpr hr)).1
    obtain hd | hd := mem_append.mp hd
    · exact hpending d hd hclose
    · obtain ⟨hrun, -⟩ := onOperationCompleted_spec s.accounting s.runs eptr x rfl
      rw [mem_singleton.mp hd, hrun]
      exact hinv.unreported hrunning
  · have hmem := mem_of_getElem? hd
    obtain ⟨rfl, hclose, rfl⟩ | ⟨rfl, hclose, hterminal, rfl⟩ | ⟨rfl, -, -, rfl⟩ := hthread
    · refine iff_of_true ⟨h.2 thread _ hstep, fun d' hd' hclose' => mem_append_ready ?_ rfl⟩ trivial
      obtain hd' | rfl := mem_or_eq_of_mem_set hd'
      · exact hpending d' hd' hclose'
      · cases hclose'
    · have hrun := (hinv.terminal d hmem hterminal).1
      refine ⟨fun hs' d' hd' hclose' heq => ?_, fun hothers => ⟨ClosesBeforeReady.append_iff.mpr
        ⟨hbefore, nofun⟩, fun d' hd' hclose' => mem_append_ready ?_ ?_⟩⟩
      · -- a thread which has still to close is not the one that reports
        have hstays : d' ∈ s.deciding.set thread { d with terminal := false } := by
          obtain ⟨i, hi⟩ := mem_iff_getElem?.mp hd'
          refine mem_iff_getElem?.mpr ⟨i, ?_⟩
          rw [getElem?_set_ne (fun hthread => ?_), hi]
          rw [← hthread, hd] at hi
          rw [← Option.some.inj hi, hclose] at hclose'
          cases hclose'
        have hready := hs'.2 d' hstays hclose' _ (mem_append_right _ mem_cons_self)
        rw [heq, ← hrun] at hready
        exact absurd hready (by simp [Event.isReady])
      · obtain hd' | rfl := mem_or_eq_of_mem_set hd'
        · exact hpending d' hd' hclose'
        · exact absurd hclose' (by simp [hclose])
      · obtain hd' | rfl := mem_or_eq_of_mem_set hd'
        · exact decide_eq_false fun heq => hothers d' hd' hclose' (heq.symm.trans hrun)
        · exact absurd hclose' (by simp [hclose])
    · exact iff_of_true ⟨hbefore, fun d' hd' => hpending d' (mem_of_mem_eraseIdx hd')⟩ trivial

/-- Over any number of runs of the task: no close is carried out after
its run has been reported, and none is about to be, exactly if no run is
reported while another thread has its close still to carry out. -/
theorem run_closes_iff (ls : List (Label ε)) (s : State ε)
    (hrun : Transition.run step .initial ls = some s) :
    Transition.Throughout step ClosesInTime .initial ls ↔
      Transition.Along step ClosesCarriedOut .initial ls :=
  Transition.throughout_iff_along (fun _ _ _ h hstep => step_inv h hstep)
    (fun _ _ _ hinv h hstep => step_closesInTime hinv h hstep) Inv.initial
    ⟨List.Pairwise.nil, nofun⟩ hrun

theorem run_closes_twoOperations :
    Transition.Throughout step ClosesInTime .initial twoOperations := by
  obtain ⟨s, hs⟩ := Option.isSome_iff_exists.mp
    (show (Transition.run step .initial twoOperations).isSome = true by decide)
  exact (run_closes_iff twoOperations s hs).mpr (by decide)

/-- The first operation to complete fails and decides to close; the
second one reports the task, which is scheduled again; only then does the
first one close. -/
def lateClose : List (Label Nat) :=
  [.scheduleNothrow 2, .operationCompleted (some 7) false, .operationCompleted none false,
    .notifyReady 1, .scheduleNothrow 1, .initiateClose 0]

theorem run_closes_late :
    ∃ s, Transition.run step .initial lateClose = some s ∧ s.runs = 2 ∧ s.running = true ∧
      s.log.getLast? = some (.initiateClose 1) ∧ ¬ ClosesBeforeReady s.log := by
  refine ⟨_, rfl, rfl, rfl, rfl, fun h => ?_⟩
  have hlog : ClosesBeforeReady ([.completed 1 (some 7) false, .completed 1 none false,
      .notifyReady 1 (some 7) false] ++ [.initiateClose 1]) := h
  have hready := (ClosesBeforeReady.append_iff.mp hlog).2 1 rfl
    (.notifyReady 1 (some 7) false) (by decide)
  cases hready

end Baselib.Tasks.MultiOperationTask
