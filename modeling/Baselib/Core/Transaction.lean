/-
Baselib.Core.Transaction — `TransactionT`: the commands of a transaction,
run in order, and the rollbacks of those which had completed when one
throws.

A callback is what it throws, if anything, and the state it leaves. Only
exceptions derived from `std::exception` start the rollbacks and are
caught in them; any other which leaves a rollback ends the process, as
`doRollbacks` may not throw.
-/
import Mathlib.Data.List.Basic

namespace Baselib.Core.Transaction

variable {σ ε : Type*}

/-! ## The transaction -/

abbrev Callback (σ ε : Type*) := σ → Option ε × σ

/-- An element of `m_commands`: `doIt` and `rollbackIt`, either of which
may be empty. -/
structure Command (σ ε : Type*) where
  doIt : Option (Callback σ ε)
  rollbackIt : Option (Callback σ ε)

/-- A callback is called unless it is empty. -/
def call (callback : Option (Callback σ ε)) (s : σ) : Option ε × σ :=
  callback.elim (none, s) (· s)

inductive Outcome (ε : Type*)
  | returned
  | threw (e : ε)
  | terminated

variable (isStd : ε → Bool)

/-- `done` has the commands from the one before `current` back to `begin`. -/
def doRollbacks (outcome : Outcome ε) : List (Command σ ε) → σ → Outcome ε × σ
  | [], s => (outcome, s)
  | command :: done, s =>
    match call command.rollbackIt s with
    | (none, s) => doRollbacks outcome done s
    | (some e, s) => if isStd e then doRollbacks outcome done s else (.terminated, s)

def runFrom (done : List (Command σ ε)) : List (Command σ ε) → σ → Outcome ε × σ
  | [], s => (.returned, s)
  | command :: commands, s =>
    match call command.doIt s with
    | (none, s) => runFrom (command :: done) commands s
    | (some e, s) => if isStd e then doRollbacks isStd (.threw e) done s else (.threw e, s)

def run (commands : List (Command σ ε)) (s : σ) : Outcome ε × σ :=
  runFrom isStd [] commands s

/-! ## All or nothing -/

/-- The state after the commands, when none of them throws. -/
def complete : List (Command σ ε) → σ → Option σ
  | [], s => some s
  | command :: commands, s =>
    match call command.doIt s with
    | (none, s) => complete commands s
    | (some _, _) => none

/-- The command changes nothing when it throws, and its rollback takes back
what it did, whether the rollback throws then or not. -/
structure Command.Reversible (command : Command σ ε) : Prop where
  failed : ∀ {s e s'}, call command.doIt s = (some e, s') → isStd e = true → s' = s
  undone : ∀ {s s'}, call command.doIt s = (none, s') →
    (call command.rollbackIt s').2 = s ∧ ∀ e ∈ (call command.rollbackIt s').1, isStd e = true

variable {isStd}

theorem doRollbacks_cons {command : Command σ ε} (h : command.Reversible isStd) {s s' : σ}
    (hdone : call command.doIt s = (none, s')) (outcome : Outcome ε) (done : List (Command σ ε)) :
    doRollbacks isStd outcome (command :: done) s' = doRollbacks isStd outcome done s := by
  obtain ⟨hstate, hstd⟩ := h.undone hdone
  rw [doRollbacks]
  cases hcall : call command.rollbackIt s' with
  | mk thrown left =>
    rw [hcall] at hstate hstd
    cases hstate
    cases thrown with
    | none => rfl
    | some e => exact if_pos (hstd e rfl)

/-- `back` is where the rollbacks of the completed commands lead from `s`. -/
theorem runFrom_cases {commands : List (Command σ ε)}
    (h : ∀ command ∈ commands, command.Reversible isStd) :
    ∀ {done : List (Command σ ε)} {s back : σ},
      (∀ e, doRollbacks isStd (.threw e) done s = (.threw e, back)) →
      (∃ s', runFrom isStd done commands s = (.returned, s') ∧ complete commands s = some s') ∨
      ∃ before command after m e s', commands = before ++ command :: after ∧
        complete before s = some m ∧ call command.doIt m = (some e, s') ∧
        runFrom isStd done commands s = (.threw e, if isStd e then back else s') := by
  induction commands with
  | nil => exact fun _ => .inl ⟨_, rfl, rfl⟩
  | cons command commands ih =>
    obtain ⟨hcommand, hcommands⟩ := List.forall_mem_cons.mp h
    intro done s back hback
    cases hcall : call command.doIt s with
    | mk thrown s' =>
      cases thrown with
      | none =>
        have hrun : runFrom isStd done (command :: commands) s =
            runFrom isStd (command :: done) commands s' := by rw [runFrom, hcall]
        have hundone : ∀ e, doRollbacks isStd (.threw e) (command :: done) s' =
            (.threw e, back) := by
          intro e
          rw [doRollbacks_cons hcommand hcall, hback]
        have hnext := ih hcommands hundone
        rw [hrun]
        obtain ⟨s₁, hreturned, hcomplete⟩ | ⟨before, c, after, m, e, s₁, rfl, hcomplete, hrest⟩ :=
          hnext
        · exact .inl ⟨s₁, hreturned, by simpa only [complete, hcall] using hcomplete⟩
        · exact .inr ⟨command :: before, c, after, m, e, s₁, rfl,
            by simpa only [complete, hcall] using hcomplete, hrest⟩
      | some e =>
        refine .inr ⟨[], command, commands, s, e, s', rfl, rfl, hcall, ?_⟩
        rw [runFrom, hcall]
        dsimp only
        split_ifs with hstd
        · rw [hcommand.failed hcall hstd, hback]
        · rfl

/-- A transaction of reversible commands completes all of them, or stops at
the first which throws: then the exception goes on to the caller, and what
was done before is taken back, unless the exception is a foreign one. -/
theorem run_all_or_nothing {commands : List (Command σ ε)}
    (h : ∀ command ∈ commands, command.Reversible isStd) (s : σ) :
    (∃ s', run isStd commands s = (.returned, s') ∧ complete commands s = some s') ∨
      ∃ before command after m e s', commands = before ++ command :: after ∧
        complete before s = some m ∧ call command.doIt m = (some e, s') ∧
        run isStd commands s = (.threw e, if isStd e then s else s') :=
  runFrom_cases h fun _ => rfl

/-- Two numbers are pushed, then a command throws. -/
def pushes : List (Command (List Nat) String) :=
  [1, 2].map (fun n => ⟨some fun s => (none, n :: s), some fun s => (none, s.tail)⟩) ++
    [⟨some fun s => (some "full", s), none⟩]

theorem pushes_reversible : ∀ command ∈ pushes, command.Reversible fun _ => true := by
  intro command hcommand
  simp only [pushes, List.map_cons, List.map_nil, List.cons_append, List.nil_append, List.mem_cons,
    List.not_mem_nil, or_false] at hcommand
  obtain rfl | rfl | rfl := hcommand <;> exact ⟨by simp [call], by simp +contextual [call]⟩

theorem pushes_all_or_nothing :
    (∃ s', run (fun _ => true) pushes [0] = (.returned, s') ∧ complete pushes [0] = some s') ∨
      ∃ before command after m e s', pushes = before ++ command :: after ∧
        complete before [0] = some m ∧ call command.doIt m = (some e, s') ∧
        run (fun _ => true) pushes [0] = (.threw e, if true then [0] else s') :=
  run_all_or_nothing pushes_reversible [0]

end Baselib.Core.Transaction
