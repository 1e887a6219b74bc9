/-
Baselib.Messaging.AsyncSharedStateBlocks — the blocks which the async blocks
backend hands out: `AsyncSharedStateBlocksT` of
`messaging/AsyncExecutorWrapperBlocks.h`.

`allocateBlock` compares the counter with the maximum, obtains a block and
raises the counter; `deallocateBlock` puts the block into the pool and lowers
the counter in a compare exchange loop. Each access to the counter and to the
pool is one label, made by one of the calls in progress. A thread is not
named: any number of calls is in progress at once, in every order of their
labels.

A block is its identity. The counter is a number: there are never 2 ^ 64
blocks. A maximum of zero means that there is none.
-/
import Baselib.Lib.Slots
import Baselib.Lib.Transition

namespace Baselib.Messaging.AsyncSharedStateBlocks

open Lib Lib.Transition Lib.Slots List

abbrev DataBlock := Nat

/-- Where a call of `allocateBlock` is. -/
inductive Allocation where
  /-- The counter was below the maximum. -/
  | checked
  | obtained (newBlock : DataBlock)
  deriving DecidableEq, Repr

/-- Where a call of `deallocateBlock` is. -/
inductive Deallocation where
  | begun (block : DataBlock)
  /-- The block is in the pool. -/
  | put
  /-- The loop, with the value it takes the counter for. -/
  | lowering (outstanding : Nat)
  deriving DecidableEq, Repr

structure State where
  outstandingBlocks : Nat
  /-- The last block which was put comes first. -/
  dataBlocksPool : List DataBlock
  /-- How many blocks were made. -/
  created : Nat
  allocations : List Allocation
  deallocations : List Deallocation
  /-- The blocks the calls of `allocateBlock` have returned, less those which
  were given to a call of `deallocateBlock`. -/
  handedOut : List DataBlock
  deriving DecidableEq, Repr

def State.init : State := ⟨0, [], 0, [], [], []⟩

inductive Label where
  /-- `allocateBlock` is called. -/
  | check
  | tryGet (i : Nat)
  /-- The pool is empty and no block can be made. -/
  | throwBadAlloc (i : Nat)
  /-- The counter is raised, and the block returned. -/
  | raise (i : Nat)
  /-- `deallocateBlock` is called. -/
  | deallocate (block : DataBlock)
  | put (i : Nat)
  | load (i : Nat)
  /-- A compare exchange, which can fail for no reason. -/
  | compareExchange (i : Nat) (spurious : Bool)
  deriving DecidableEq, Repr

/-- The call of `allocateBlock` throws, with `errc::no_buffer_space`. -/
def isExhausted (maxOutstandingBlocks : Nat) (s : State) : Bool :=
  maxOutstandingBlocks ≠ 0 ∧ s.outstandingBlocks ≥ maxOutstandingBlocks

def tryGet (i : Nat) (s : State) : State :=
  match s.dataBlocksPool with
  | newBlock :: dataBlocksPool =>
    { s with
      dataBlocksPool := dataBlocksPool
      allocations := s.allocations.set i (.obtained newBlock) }
  | [] =>
    { s with
      created := s.created + 1
      allocations := s.allocations.set i (.obtained s.created) }

/-- The test of the loop: it ends at zero, or when the counter still is what
the loop takes it for. -/
def compareExchange (i outstanding : Nat) (spurious : Bool) (s : State) : State :=
  if outstanding = 0 then { s with deallocations := s.deallocations.eraseIdx i }
  else if s.outstandingBlocks = outstanding ∧ ¬ spurious then
    { s with
      outstandingBlocks := outstanding - 1
      deallocations := s.deallocations.eraseIdx i }
  else { s with deallocations := s.deallocations.set i (.lowering s.outstandingBlocks) }

def step (maxOutstandingBlocks : Nat) (s : State) : Label → Option State
  | .check =>
    if isExhausted maxOutstandingBlocks s then some s
    else some { s with allocations := s.allocations ++ [.checked] }
  | .tryGet i =>
    match s.allocations[i]? with
    | some .checked => some (tryGet i s)
    | _ => none
  | .throwBadAlloc i =>
    match s.allocations[i]? with
    | some .checked =>
      if s.dataBlocksPool = [] then some { s with allocations := s.allocations.eraseIdx i }
      else none
    | _ => none
  | .raise i =>
    match s.allocations[i]? with
    | some (.obtained newBlock) =>
      some
        { s with
          outstandingBlocks := s.outstandingBlocks + 1
          allocations := s.allocations.eraseIdx i
          handedOut := newBlock :: s.handedOut }
    | _ => none
  | .deallocate block =>
    if block ∈ s.handedOut then
      some
        { s with
          deallocations := s.deallocations ++ [.begun block]
          handedOut := s.handedOut.erase block }
    else none
  | .put i =>
    match s.deallocations[i]? with
    | some (.begun block) =>
      some
        { s with
          dataBlocksPool := block :: s.dataBlocksPool
          deallocations := s.deallocations.set i .put }
    | _ => none
  | .load i =>
    match s.deallocations[i]? with
    | some .put =>
      some { s with deallocations := s.deallocations.set i (.lowering s.outstandingBlocks) }
    | _ => none
  | .compareExchange i spurious =>
    match s.deallocations[i]? with
    | some (.lowering outstanding) => some (compareExchange i outstanding spurious s)
    | _ => none

variable {maxOutstandingBlocks : Nat} {s s' : State}

/-! ## The blocks there are -/

def Allocation.block? : Allocation → Option DataBlock
  | .checked => none
  | .obtained newBlock => some newBlock

def Deallocation.block? : Deallocation → Option DataBlock
  | .begun block => some block
  | .put => none
  | .lowering _ => none

/-- Every block, where it is. -/
def State.blocks (s : State) : List DataBlock :=
  s.dataBlocksPool ++ (s.allocations.filterMap Allocation.block? ++
    (s.deallocations.filterMap Deallocation.block? ++ s.handedOut))

theorem filterMap_of_getElem? {α : Type} {f : α → Option DataBlock} {l : List α} {i : Nat} {a : α}
    (h : l[i]? = some a) :
    (l.filterMap f).Perm ((f a).toList ++ (l.eraseIdx i).filterMap f) := by
  have hperm := (perm_cons_eraseIdx h).filterMap f
  rw [filterMap_cons] at hperm
  cases hfa : f a with
  | none | some _ => simpa [hfa] using hperm

theorem filterMap_set {α : Type} {f : α → Option DataBlock} {l : List α} {i : Nat} {a : α}
    (h : l[i]? = some a) (b : α) :
    ((l.set i b).filterMap f).Perm ((f b).toList ++ (l.eraseIdx i).filterMap f) := by
  have hperm := (set_perm h b).filterMap f
  rw [filterMap_cons] at hperm
  cases hfb : f b with
  | none | some _ => simpa [hfb] using hperm

theorem count_blocks (s : State) (block : DataBlock) :
    s.blocks.count block = s.dataBlocksPool.count block +
      ((s.allocations.filterMap Allocation.block?).count block +
        ((s.deallocations.filterMap Deallocation.block?).count block +
          s.handedOut.count block)) := by
  rw [State.blocks, count_append, count_append, count_append]

/-! ## The invariant -/

/-- No block is in two places, and the counter counts the blocks which were
handed out and those on their way back. -/
structure Inv (s : State) : Prop where
  nodup : s.blocks.Nodup
  created : ∀ block ∈ s.blocks, block < s.created
  counter : s.outstandingBlocks = s.handedOut.length + s.deallocations.length
  lowering : ∀ outstanding, .lowering outstanding ∈ s.deallocations → outstanding ≠ 0

theorem init_inv : Inv State.init :=
  ⟨nodup_nil, fun _ h => absurd h not_mem_nil, rfl,
    fun _ h => absurd h not_mem_nil⟩

/-- The blocks are the same, in other places. -/
theorem Inv.of_perm (h : Inv s) (hblocks : s'.blocks.Perm s.blocks) (hcreated : s.created = s'.created)
    (hcounter : s'.outstandingBlocks = s'.handedOut.length + s'.deallocations.length)
    (hlowering : ∀ outstanding, .lowering outstanding ∈ s'.deallocations → outstanding ≠ 0) :
    Inv s' where
  nodup := hblocks.nodup_iff.mpr h.nodup
  created block hblock := hcreated ▸ h.created block (hblocks.mem_iff.mp hblock)
  counter := hcounter
  lowering := hlowering

/-! ## Steps of an allocation -/

theorem Inv.check (h : Inv s) : Inv { s with allocations := s.allocations ++ [.checked] } := by
  refine h.of_perm (perm_iff_count.mpr fun block => ?_) rfl h.counter h.lowering
  rw [count_blocks, count_blocks, filterMap_append, count_append]
  rfl

theorem Inv.tryGet (h : Inv s) {i : Nat} (hi : s.allocations[i]? = some .checked) :
    Inv (tryGet i s) := by
  have hbefore := filterMap_of_getElem? (f := Allocation.block?) hi
  unfold AsyncSharedStateBlocks.tryGet
  split
  next newBlock dataBlocksPool hpool =>
    have hafter := filterMap_set (f := Allocation.block?) hi (.obtained newBlock)
    refine h.of_perm (perm_iff_count.mpr fun block => ?_) rfl h.counter h.lowering
    rw [count_blocks, count_blocks, hbefore.count_eq, hafter.count_eq, hpool]
    simp only [Allocation.block?, Option.toList, count_cons, count_append,
      count_nil]
    omega
  next hpool =>
    have hafter := filterMap_set (f := Allocation.block?) hi (.obtained s.created)
    have hperm : ({ s with
        created := s.created + 1
        allocations := s.allocations.set i (.obtained s.created) } : State).blocks.Perm
          (s.created :: s.blocks) := perm_iff_count.mpr fun block => by
      rw [count_cons, count_blocks, count_blocks, hbefore.count_eq, hafter.count_eq]
      simp only [Allocation.block?, Option.toList, count_cons, count_append,
        count_nil]
      omega
    have hfresh : s.created ∉ s.blocks := fun hmem => Nat.lt_irrefl _ (h.created _ hmem)
    refine ⟨hperm.nodup_iff.mpr (nodup_cons.mpr ⟨hfresh, h.nodup⟩), fun block hblock => ?_,
      h.counter, h.lowering⟩
    rcases mem_cons.mp (hperm.mem_iff.mp hblock) with rfl | hblock
    · exact Nat.lt_succ_self _
    · exact Nat.lt_succ_of_lt (h.created block hblock)

theorem Inv.throwBadAlloc (h : Inv s) {i : Nat} (hi : s.allocations[i]? = some .checked) :
    Inv { s with allocations := s.allocations.eraseIdx i } := by
  have hbefore := filterMap_of_getElem? (f := Allocation.block?) hi
  refine h.of_perm (perm_iff_count.mpr fun block => ?_) rfl h.counter h.lowering
  rw [count_blocks, count_blocks, hbefore.count_eq]
  simp [Allocation.block?]

theorem Inv.raise (h : Inv s) {i : Nat} {newBlock : DataBlock}
    (hi : s.allocations[i]? = some (.obtained newBlock)) :
    Inv { s with
      outstandingBlocks := s.outstandingBlocks + 1
      allocations := s.allocations.eraseIdx i
      handedOut := newBlock :: s.handedOut } := by
  have hbefore := filterMap_of_getElem? (f := Allocation.block?) hi
  have hcounter := h.counter
  refine h.of_perm (perm_iff_count.mpr fun block => ?_) rfl ?_ h.lowering
  · rw [count_blocks, count_blocks, hbefore.count_eq]
    simp only [Allocation.block?, Option.toList, count_cons, count_append,
      count_nil]
    omega
  · simp only [length_cons]
    omega

/-! ## Steps of a deallocation -/

theorem Inv.deallocate (h : Inv s) {block : DataBlock} (hblock : block ∈ s.handedOut) :
    Inv { s with
      deallocations := s.deallocations ++ [.begun block]
      handedOut := s.handedOut.erase block } := by
  have hcounter := h.counter
  have herase := perm_cons_erase hblock
  refine h.of_perm (perm_iff_count.mpr fun b => ?_) rfl ?_ fun outstanding hmem => ?_
  · rw [count_blocks, count_blocks, herase.count_eq, filterMap_append]
    simp only [Deallocation.block?, filterMap_cons, filterMap_nil, count_cons,
      count_append, count_nil]
    omega
  · have hlength := herase.length_eq
    rw [length_cons] at hlength
    dsimp only
    rw [length_append, length_singleton]
    omega
  · rcases mem_append.mp hmem with hmem | hmem
    · exact h.lowering outstanding hmem
    · cases mem_singleton.mp hmem

/-- A call which goes on has its own lowering value, and the others theirs. -/
theorem lowering_set {i : Nat} {d : Deallocation}
    (h : ∀ outstanding, .lowering outstanding ∈ s.deallocations → outstanding ≠ 0)
    (hd : ∀ outstanding, d = .lowering outstanding → outstanding ≠ 0) (outstanding : Nat)
    (hmem : .lowering outstanding ∈ s.deallocations.set i d) : outstanding ≠ 0 := by
  rcases mem_or_eq_of_mem_set hmem with hmem | rfl
  · exact h outstanding hmem
  · exact hd outstanding rfl

theorem Inv.put (h : Inv s) {i : Nat} {block : DataBlock}
    (hi : s.deallocations[i]? = some (.begun block)) :
    Inv { s with
      dataBlocksPool := block :: s.dataBlocksPool
      deallocations := s.deallocations.set i .put } := by
  have hbefore := filterMap_of_getElem? (f := Deallocation.block?) hi
  have hafter := filterMap_set (f := Deallocation.block?) hi .put
  refine h.of_perm (perm_iff_count.mpr fun b => ?_) rfl ?_
    (lowering_set h.lowering nofun)
  · rw [count_blocks, count_blocks, hbefore.count_eq, hafter.count_eq]
    simp only [Deallocation.block?, Option.toList, count_cons, count_append,
      count_nil]
    omega
  · rw [length_set]
    exact h.counter

/-- A call which has put its block, or lowers the counter, and takes the
counter for what it is. -/
theorem Inv.lower (h : Inv s) {i : Nat} {d : Deallocation} (hi : s.deallocations[i]? = some d)
    (hd : d.block? = none) :
    Inv { s with deallocations := s.deallocations.set i (.lowering s.outstandingBlocks) } := by
  have hbefore := filterMap_of_getElem? (f := Deallocation.block?) hi
  have hafter := filterMap_set (f := Deallocation.block?) hi (.lowering s.outstandingBlocks)
  have hpos : 0 < s.deallocations.length := length_pos_of_mem (mem_of_getElem? hi)
  have hcounter := h.counter
  refine h.of_perm (perm_iff_count.mpr fun b => ?_) rfl ?_
    (lowering_set h.lowering fun outstanding heq => ?_)
  · rw [count_blocks, count_blocks, hbefore.count_eq, hafter.count_eq, hd]
    rfl
  · rw [length_set]
    exact h.counter
  · cases heq
    omega

theorem Inv.compareExchange (h : Inv s) {i outstanding : Nat}
    (hi : s.deallocations[i]? = some (.lowering outstanding)) (spurious : Bool) :
    Inv (compareExchange i outstanding spurious s) := by
  have hne := h.lowering outstanding (mem_of_getElem? hi)
  unfold AsyncSharedStateBlocks.compareExchange
  rw [if_neg hne]
  split
  next hsame =>
    obtain ⟨rfl, -⟩ := hsame
    have hbefore := filterMap_of_getElem? (f := Deallocation.block?) hi
    have hcounter := h.counter
    have hlength := (perm_cons_eraseIdx hi).length_eq
    rw [length_cons] at hlength
    refine h.of_perm (perm_iff_count.mpr fun b => ?_) rfl ?_ fun outstanding hmem =>
      h.lowering outstanding (mem_of_mem_eraseIdx hmem)
    · rw [count_blocks, count_blocks, hbefore.count_eq]
      rfl
    · dsimp only
      omega
  next => exact h.lower hi rfl

theorem step_inv {l : Label} (h : Inv s) (hstep : step maxOutstandingBlocks s l = some s') :
    Inv s' := by
  cases l with
  | check =>
    rw [step] at hstep
    split at hstep
    · cases hstep
      exact h
    · cases hstep
      exact h.check
  | tryGet i =>
    rw [step] at hstep
    split at hstep
    next hi =>
      cases hstep
      exact h.tryGet hi
    next => cases hstep
  | throwBadAlloc i =>
    rw [step] at hstep
    split at hstep
    next hi =>
      obtain ⟨-, hs⟩ := Option.ite_none_right_eq_some.mp hstep
      cases hs
      exact h.throwBadAlloc hi
    next => cases hstep
  | raise i =>
    rw [step] at hstep
    split at hstep
    next newBlock hi =>
      cases hstep
      exact h.raise hi
    next => cases hstep
  | deallocate block =>
    obtain ⟨hblock, hs⟩ := Option.ite_none_right_eq_some.mp hstep
    cases hs
    exact h.deallocate hblock
  | put i =>
    rw [step] at hstep
    split at hstep
    next block hi =>
      cases hstep
      exact h.put hi
    next => cases hstep
  | load i =>
    rw [step] at hstep
    split at hstep
    next hi =>
      cases hstep
      exact h.lower hi rfl
    next => cases hstep
  | compareExchange i spurious =>
    rw [step] at hstep
    split at hstep
    next outstanding hi =>
      cases hstep
      exact h.compareExchange hi spurious
    next => cases hstep

theorem run_inv {labels : List Label}
    (hrun : run (step maxOutstandingBlocks) State.init labels = some s) : Inv s :=
  run_invariant (fun _ _ _ hinv _ hstep => step_inv hinv hstep) init_inv along_true hrun

/-! ## The maximum -/

/-- There is room for the calls which have passed the check already, and for
one more, when a call passes it. -/
def Admitted (maxOutstandingBlocks : Nat) (s : State) (l : Label) : Prop :=
  l = .check → isExhausted maxOutstandingBlocks s = false → maxOutstandingBlocks ≠ 0 →
    s.outstandingBlocks + s.allocations.length < maxOutstandingBlocks

/-- The calls which have passed the check leave the counter below the
maximum. -/
def Bounded (maxOutstandingBlocks : Nat) (s : State) : Prop :=
  maxOutstandingBlocks ≠ 0 → s.outstandingBlocks + s.allocations.length ≤ maxOutstandingBlocks

theorem outstandingBlocks_compareExchange (i outstanding : Nat) (spurious : Bool) (s : State) :
    (compareExchange i outstanding spurious s).outstandingBlocks ≤ s.outstandingBlocks := by
  unfold compareExchange
  split
  · exact Nat.le_refl _
  · split
    next hsame =>
      rw [hsame.1]
      exact Nat.sub_le outstanding 1
    next => exact Nat.le_refl _

theorem allocations_compareExchange (i outstanding : Nat) (spurious : Bool) (s : State) :
    (compareExchange i outstanding spurious s).allocations = s.allocations := by
  unfold compareExchange
  split_ifs <;> rfl

/-- Only a check takes up room. -/
theorem room_of_step {l : Label} (hstep : step maxOutstandingBlocks s l = some s') :
    s'.outstandingBlocks + s'.allocations.length ≤ s.outstandingBlocks + s.allocations.length ∨
      l = .check ∧ isExhausted maxOutstandingBlocks s = false ∧
        s' = { s with allocations := s.allocations ++ [.checked] } := by
  cases l with
  | check =>
    rw [step] at hstep
    split at hstep
    · cases hstep
      exact .inl (Nat.le_refl _)
    next hroom =>
      exact .inr ⟨rfl, Bool.eq_false_iff.mpr hroom, (Option.some.inj hstep).symm⟩
  | tryGet i =>
    rw [step] at hstep
    split at hstep
    next hi =>
      cases hstep
      unfold tryGet
      split
      · rw [length_set]
        exact .inl (Nat.le_refl _)
      · rw [length_set]
        exact .inl (Nat.le_refl _)
    next => cases hstep
  | throwBadAlloc i =>
    rw [step] at hstep
    split at hstep
    next hi =>
      obtain ⟨-, hs⟩ := Option.ite_none_right_eq_some.mp hstep
      cases hs
      exact .inl (Nat.add_le_add_left (length_eraseIdx_le s.allocations i) _)
    next => cases hstep
  | raise i =>
    rw [step] at hstep
    split at hstep
    next newBlock hi =>
      have hlength := (perm_cons_eraseIdx hi).length_eq
      rw [length_cons] at hlength
      cases hstep
      dsimp only
      exact .inl (by omega)
    next => cases hstep
  | deallocate block =>
    obtain ⟨-, hs⟩ := Option.ite_none_right_eq_some.mp hstep
    cases hs
    exact .inl (Nat.le_refl _)
  | put i =>
    rw [step] at hstep
    split at hstep
    next block hi =>
      cases hstep
      exact .inl (Nat.le_refl _)
    next => cases hstep
  | load i =>
    rw [step] at hstep
    split at hstep
    next hi =>
      cases hstep
      exact .inl (Nat.le_refl _)
    next => cases hstep
  | compareExchange i spurious =>
    rw [step] at hstep
    split at hstep
    next outstanding hi =>
      cases hstep
      rw [allocations_compareExchange]
      exact .inl (Nat.add_le_add_right (outstandingBlocks_compareExchange _ _ _ _) _)
    next => cases hstep

theorem step_bounded {l : Label} (h : Bounded maxOutstandingBlocks s)
    (hadmitted : Admitted maxOutstandingBlocks s l)
    (hstep : step maxOutstandingBlocks s l = some s') : Bounded maxOutstandingBlocks s' := by
  intro hmax
  rcases room_of_step hstep with hroom | ⟨rfl, hroom, rfl⟩
  · exact Nat.le_trans hroom (h hmax)
  · have hlt := hadmitted rfl hroom hmax
    rwa [length_append, length_singleton]

/-- At every moment the blocks which were handed out are distinct, and the
counter counts them and the blocks on their way back, so between calls it
counts what was handed out. They stay within the maximum in every run in
which a call only passes the check while the counter leaves room for the
calls which have passed it before. -/
theorem outstandingBlocks_capped (maxOutstandingBlocks : Nat) (labels : List Label) (s : State)
    (hrun : run (step maxOutstandingBlocks) State.init labels = some s) :
    s.handedOut.Nodup ∧
    s.outstandingBlocks = s.handedOut.length + s.deallocations.length ∧
    (s.allocations = [] → s.deallocations = [] → s.outstandingBlocks = s.handedOut.length) ∧
    (Along (step maxOutstandingBlocks) (Admitted maxOutstandingBlocks) State.init labels →
      maxOutstandingBlocks ≠ 0 → s.handedOut.length ≤ maxOutstandingBlocks) := by
  have hinv := run_inv hrun
  have hcounter := hinv.counter
  refine ⟨?_, hcounter, fun _ hidle => ?_, fun hadmitted hmax => ?_⟩
  · exact (List.nodup_append.mp
      (List.nodup_append.mp (List.nodup_append.mp hinv.nodup).2.1).2.1).2.1
  · rw [hcounter, hidle]
    rfl
  · have hbounded : Bounded maxOutstandingBlocks s :=
      run_invariant (fun _ _ _ h hC hstep => step_bounded h hC hstep)
        (fun _ => Nat.zero_le _) hadmitted hrun
    have hroom := hbounded hmax
    omega

/-- Two calls of `allocateBlock`, one after the other, and a block which is
returned. -/
def oneByOne : List Label :=
  [.check, .tryGet 0, .raise 0, .deallocate 0, .put 0, .load 0, .compareExchange 0 true,
    .compareExchange 0 false, .check, .tryGet 0, .raise 0]

theorem outstandingBlocks_oneByOne :
    ∃ s, run (step 1) State.init oneByOne = some s ∧ s.outstandingBlocks = 1 ∧
      s.handedOut.length ≤ 1 :=
  have h := outstandingBlocks_capped 1 oneByOne _ rfl
  have hadmitted : Along (step 1) (Admitted 1) State.init oneByOne := by
    unfold Admitted
    decide
  ⟨_, rfl, rfl, h.2.2.2 hadmitted (by decide)⟩

/-- Two threads pass the check one after the other, and then both take a
block. -/
theorem checked_twice :
    ∃ s, run (step 1) State.init
        [.check, .check, .tryGet 0, .tryGet 1, .raise 0, .raise 0] = some s ∧
      s.allocations = [] ∧ s.deallocations = [] ∧ s.outstandingBlocks = 2 ∧
      ¬ s.handedOut.length ≤ 1 :=
  ⟨_, rfl, rfl, rfl, rfl, by decide⟩

end Baselib.Messaging.AsyncSharedStateBlocks
