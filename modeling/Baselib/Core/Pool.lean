/-
Baselib.Core.Pool — `SimplePool` and `TaggedPool`: the vectors of pooled
objects, the two checkers, and what any sequence of calls gets from the
pools.

The naive checker keeps a set of cookies in each pool, the intrusive one a
flag in each object, which all the pools of a tagged pool read. An
assertion which fails ends the process: the answer is `none`.
-/
import Mathlib.Data.Finset.Basic

namespace Baselib.Core.Pool

open List
open Function (update)

variable {κ ℓ σ α : Type*}

/-! ## The pools -/

/-- What a checker does with what it keeps for one pool and what it keeps
in the objects. -/
structure Checker (ℓ σ α : Type*) where
  create : ℓ
  markFreed : α → ℓ × σ → Option (ℓ × σ)
  markAllocated : α → ℓ × σ → Option (ℓ × σ)

def naive [DecidableEq α] : Checker (Finset α) Unit α where
  create := ∅
  markFreed value marks :=
    if value ∈ marks.1 then none else some (insert value marks.1, ())
  markAllocated value marks :=
    if value ∈ marks.1 then some (marks.1.erase value, ()) else none

def intrusive [DecidableEq α] : Checker Unit (α → Bool) α where
  create := ()
  markFreed value marks :=
    if !marks.2 value then some ((), update marks.2 value true) else none
  markAllocated value marks :=
    if marks.2 value then some ((), update marks.2 value false) else none

structure SimplePool (ℓ α : Type*) where
  checker : ℓ
  impl : List α

namespace SimplePool

variable (c : Checker ℓ σ α)

def create : SimplePool ℓ α := { checker := c.create, impl := [] }

def tryGet (pool : SimplePool ℓ α) (objects : σ) : Option (Option α × SimplePool ℓ α × σ) :=
  match pool.impl.getLast? with
  | some value => (c.markAllocated value (pool.checker, objects)).map fun marks =>
      (some value, { checker := marks.1, impl := pool.impl.dropLast }, marks.2)
  | none => some (none, pool, objects)

def put (value : α) (pool : SimplePool ℓ α) (objects : σ) : Option (SimplePool ℓ α × σ) :=
  (c.markFreed value (pool.checker, objects)).map fun marks =>
    ({ checker := marks.1, impl := pool.impl ++ [value] }, marks.2)

end SimplePool

structure TaggedPool (κ ℓ σ α : Type*) where
  impl : κ → Option (SimplePool ℓ α)
  objects : σ

/-- A call of a tagged pool. -/
inductive Call (κ α : Type*)
  | tryGet (tag : κ)
  | put (tag : κ) (value : α)

namespace TaggedPool

variable [DecidableEq κ] (c : Checker ℓ σ α)

def create (objects : σ) : TaggedPool κ ℓ σ α := { impl := fun _ => none, objects }

def tryGet (tag : κ) (p : TaggedPool κ ℓ σ α) : Option (Option α × TaggedPool κ ℓ σ α) :=
  match p.impl tag with
  | some pool => (pool.tryGet c p.objects).map fun r =>
      (r.1, { impl := update p.impl tag (some r.2.1), objects := r.2.2 })
  | none => some (none, p)

def put (tag : κ) (value : α) (p : TaggedPool κ ℓ σ α) : Option (TaggedPool κ ℓ σ α) :=
  (((p.impl tag).getD (.create c)).put c value p.objects).map fun r =>
    { impl := update p.impl tag (some r.1), objects := r.2 }

def call (p : TaggedPool κ ℓ σ α) : Call κ α → Option (Option α × TaggedPool κ ℓ σ α)
  | .tryGet tag => p.tryGet c tag
  | .put tag value => (p.put c tag value).map (none, ·)

/-- The answers to the calls and what they leave, if no assertion fails. -/
def run (p : TaggedPool κ ℓ σ α) : List (Call κ α) → Option (List (Option α) × TaggedPool κ ℓ σ α)
  | [] => some ([], p)
  | k :: ks => (p.call c k).bind fun r => (run r.2 ks).map fun r' => (r.1 :: r'.1, r'.2)

end TaggedPool

/-! ## Stacks -/

/-- What the pools are for: a stack of objects for each tag. -/
abbrev Stacks (κ α : Type*) := κ → List α

namespace Stacks

/-- The object is in the stack of the tag, or, if all stacks count, in any. -/
def Holds (all : Prop) (s : Stacks κ α) (tag : κ) (value : α) : Prop :=
  ∃ tag', (all ∨ tag' = tag) ∧ value ∈ s tag'

variable [DecidableEq κ] (all : Prop)

open Classical in
noncomputable def call (s : Stacks κ α) : Call κ α → Option (Option α × Stacks κ α)
  | .tryGet tag => some ((s tag).getLast?, update s tag (s tag).dropLast)
  | .put tag value => if Holds all s tag value then none
      else some (none, update s tag (s tag ++ [value]))

noncomputable def run (s : Stacks κ α) : List (Call κ α) → Option (List (Option α) × Stacks κ α)
  | [] => some ([], s)
  | k :: ks => (call all s k).bind fun r => (run r.2 ks).map fun r' => (r.1 :: r'.1, r'.2)

end Stacks

/-! ## The marks and the stacks -/

/-- The object alone is marked or unmarked, in the pool or, if `all`, in
all pools. -/
structure Sets (all : Prop) (freed : ℓ × σ → α → Prop) (b : Prop) (value : α)
    (marks marks' : ℓ × σ) : Prop where
  own : ∀ w, freed marks' w ↔ w = value ∧ b ∨ w ≠ value ∧ freed marks w
  other : ∀ m w, freed (m, marks'.2) w ↔
    (all ∧ w = value) ∧ b ∨ ¬(all ∧ w = value) ∧ freed (m, marks.2) w

/-- `freed` tells which objects a checker holds as freed. -/
structure Checker.Lawful (c : Checker ℓ σ α) (all : Prop) (freed : ℓ × σ → α → Prop) : Prop where
  refuses : ∀ {value marks}, freed marks value → c.markFreed value marks = none
  markFreed : ∀ {value marks}, ¬freed marks value →
    ∃ marks', c.markFreed value marks = some marks' ∧ Sets all freed True value marks marks'
  markAllocated : ∀ {value marks}, freed marks value →
    ∃ marks', c.markAllocated value marks = some marks' ∧ Sets all freed False value marks marks'

theorem naive_lawful [DecidableEq α] :
    (naive (α := α)).Lawful False fun marks value => value ∈ marks.1 where
  refuses h := if_pos h
  markFreed h := ⟨_, if_neg h, by grind, by simp⟩
  markAllocated h := ⟨_, if_pos h, by grind, by simp⟩

theorem intrusive_lawful [DecidableEq α] :
    (intrusive (α := α)).Lawful True fun marks value => marks.2 value = true where
  refuses h := by simp [intrusive, h]
  markFreed h := ⟨_, if_pos (by simpa using h), by grind, by grind⟩
  markAllocated h := ⟨_, if_pos h, by grind, by grind⟩

namespace TaggedPool

variable (c : Checker ℓ σ α) (p : TaggedPool κ ℓ σ α)

def pool (tag : κ) : SimplePool ℓ α := (p.impl tag).getD (.create c)

def stock : Stacks κ α := fun tag => (p.pool c tag).impl

end TaggedPool

/-- The marks are those of the objects in the stacks, none of which is in
two places. -/
structure Inv (c : Checker ℓ σ α) (all : Prop) (freed : ℓ × σ → α → Prop)
    (p : TaggedPool κ ℓ σ α) : Prop where
  freed : ∀ tag value,
    freed ((p.pool c tag).checker, p.objects) value ↔ (p.stock c).Holds all tag value
  nodup : ∀ tag, (p.stock c tag).Nodup
  apart : all → ∀ {tag tag' value}, value ∈ p.stock c tag → value ∈ p.stock c tag' → tag = tag'

variable [DecidableEq κ] {c : Checker ℓ σ α} {all b : Prop} {freed : ℓ × σ → α → Prop}
  {p : TaggedPool κ ℓ σ α} {tag : κ} {value : α}

theorem pool_update (tag tag' : κ) (pool : SimplePool ℓ α) (objects : σ) :
    TaggedPool.pool c { impl := update p.impl tag (some pool), objects } tag' =
      if tag' = tag then pool else p.pool c tag' := by
  unfold TaggedPool.pool
  split_ifs with h <;> simp [h]

theorem stock_update (tag : κ) (pool : SimplePool ℓ α) (objects : σ) :
    TaggedPool.stock c { impl := update p.impl tag (some pool), objects } =
      update (p.stock c) tag pool.impl := by
  funext tag'
  rw [TaggedPool.stock, pool_update, Function.update_apply]
  split_ifs <;> rfl

/-- An object goes in or out of one pool together with its mark. -/
theorem Inv.edit (h : Inv c all freed p) {marks : ℓ × σ} {stack : List α}
    (hmarks : Sets all freed b value ((p.pool c tag).checker, p.objects) marks)
    (hmem : ∀ w, w ∈ stack ↔ w = value ∧ b ∨ w ≠ value ∧ w ∈ p.stock c tag)
    (hnodup : stack.Nodup) (hone : all → ∀ tag', value ∈ p.stock c tag' → tag' = tag) :
    Inv c all freed
      { impl := update p.impl tag (some ⟨marks.1, stack⟩), objects := marks.2 } where
  freed tag' w := by
    have hfreed := h.freed tag' w
    have hfreed' := h.freed tag w
    have hown := hmarks.own w
    have hother := hmarks.other (p.pool c tag').checker w
    simp only [stock_update, pool_update, Stacks.Holds, Function.update_apply] at hfreed hfreed' ⊢
    grind
  nodup tag' := by
    rw [stock_update, Function.update_apply]
    split_ifs
    · exact hnodup
    · exact h.nodup tag'
  apart hall tag₁ tag₂ w h₁ h₂ := by
    have hapart := @h.apart hall
    have hone' := hone hall
    simp only [stock_update, Function.update_apply] at h₁ h₂
    grind

/-- An object on top of its stack is taken off. -/
theorem Inv.tryGet (hc : c.Lawful all freed) (h : Inv c all freed p)
    (htop : (p.stock c tag).getLast? = some value) :
    ∃ p', p.tryGet c tag = some (some value, p') ∧
      p'.stock c = update (p.stock c) tag (p.stock c tag).dropLast ∧ Inv c all freed p' := by
  have hmem : value ∈ p.stock c tag := mem_of_getLast? htop
  obtain ⟨marks, hmarks, hsets⟩ := hc.markAllocated ((h.freed tag value).mpr ⟨tag, .inr rfl, hmem⟩)
  have hsplit := dropLast_append_getLast? value htop
  have hnodup := h.nodup tag
  rw [← hsplit, nodup_append] at hnodup
  refine ⟨{ impl := update p.impl tag (some ⟨marks.1, (p.stock c tag).dropLast⟩)
            objects := marks.2 }, ?_, stock_update .., h.edit hsets (fun w => ?_) hnodup.1
    fun hall tag' hmem' => h.apart hall hmem' hmem⟩
  · cases hpool : p.impl tag with
    | none => simp [TaggedPool.stock, TaggedPool.pool, hpool, SimplePool.create] at hmem
    | some pool =>
      have heq : p.pool c tag = pool := by rw [TaggedPool.pool, hpool, Option.getD_some]
      rw [TaggedPool.stock, heq] at htop
      rw [heq] at hmarks
      simp [TaggedPool.tryGet, TaggedPool.stock, SimplePool.tryGet, hpool, heq, htop, hmarks]
  · grind

/-- An object goes on the stack unless it is held already. -/
theorem Inv.put (hc : c.Lawful all freed) (h : Inv c all freed p)
    (hnot : ¬(p.stock c).Holds all tag value) :
    ∃ p', p.put c tag value = some p' ∧
      p'.stock c = update (p.stock c) tag (p.stock c tag ++ [value]) ∧ Inv c all freed p' := by
  obtain ⟨marks, hmarks, hsets⟩ := hc.markFreed (mt (h.freed tag value).mp hnot)
  have hfresh : value ∉ p.stock c tag := fun hmem => hnot ⟨tag, .inr rfl, hmem⟩
  refine ⟨{ impl := update p.impl tag (some ⟨marks.1, p.stock c tag ++ [value]⟩)
            objects := marks.2 }, ?_, stock_update .., h.edit hsets (fun w => ?_) ?_
    fun hall tag' hmem => absurd ⟨tag', .inl hall, hmem⟩ hnot⟩
  · unfold TaggedPool.pool at hmarks
    simp [TaggedPool.put, SimplePool.put, TaggedPool.stock, TaggedPool.pool, hmarks]
  · grind
  · exact nodup_append.mpr ⟨h.nodup tag, nodup_singleton _, by grind⟩

/-- A call of the pools is a call of the stacks. -/
theorem Inv.call (hc : c.Lawful all freed) (h : Inv c all freed p) (k : Call κ α) :
    (p.call c k).map (Prod.map id (·.stock c)) = (p.stock c).call all k ∧
      ∀ r, p.call c k = some r → Inv c all freed r.2 := by
  cases k with
  | tryGet tag =>
    cases htop : (p.stock c tag).getLast? with
    | some value =>
      obtain ⟨p', hget, hstock, hinv⟩ := h.tryGet hc htop
      simp [TaggedPool.call, Stacks.call, hget, hstock, htop, hinv]
    | none =>
      have hempty : p.stock c tag = [] := getLast?_eq_none_iff.mp htop
      have hget : p.tryGet c tag = some (none, p) := by
        cases hpool : p.impl tag with
        | none => simp [TaggedPool.tryGet, hpool]
        | some pool =>
          have himpl : pool.impl = [] := by
            simpa [TaggedPool.stock, TaggedPool.pool, hpool] using hempty
          have hsame : update p.impl tag (some pool) = p.impl := by
            rw [← hpool, Function.update_eq_self]
          simp [TaggedPool.tryGet, hpool, SimplePool.tryGet, himpl, hsame]
      simp [TaggedPool.call, Stacks.call, hget, hempty, h]
  | put tag value =>
    by_cases hheld : (p.stock c).Holds all tag value
    · have hput : p.put c tag value = none := by
        have := hc.refuses ((h.freed tag value).mpr hheld)
        unfold TaggedPool.pool at this
        simp [TaggedPool.put, SimplePool.put, this]
      simp [TaggedPool.call, Stacks.call, hput, hheld]
    · obtain ⟨p', hput, hstock, hinv⟩ := h.put hc hheld
      simp [TaggedPool.call, Stacks.call, hput, hstock, hheld, hinv]

theorem Inv.run (hc : c.Lawful all freed) (h : Inv c all freed p) (ks : List (Call κ α)) :
    (p.run c ks).map (Prod.map id (·.stock c)) = (p.stock c).run all ks ∧
      ∀ r, p.run c ks = some r → Inv c all freed r.2 := by
  induction ks generalizing p with
  | nil => simp [TaggedPool.run, Stacks.run, h]
  | cons k ks ih =>
    obtain ⟨hcall, hinv⟩ := h.call hc k
    rw [TaggedPool.run, Stacks.run, ← hcall]
    cases hr : p.call c k with
    | none => simp
    | some r =>
      obtain ⟨hrun, hrest⟩ := ih (hinv r hr)
      refine ⟨?_, fun r' hr' => ?_⟩
      · simp [← hrun, Function.comp_def]
      · obtain ⟨q, hq, rfl⟩ := Option.map_eq_some_iff.mp hr'
        exact hrest q hq

/-! ## Any sequence of calls -/

variable [DecidableEq α]

omit [DecidableEq κ] in
theorem inv_naive : Inv naive False (fun marks value => value ∈ marks.1)
    (.create () : TaggedPool κ _ _ α) where
  freed := by simp [TaggedPool.pool, TaggedPool.stock, TaggedPool.create, SimplePool.create,
    naive, Stacks.Holds]
  nodup _ := nodup_nil
  apart := nofun

omit [DecidableEq κ] in
theorem inv_intrusive : Inv intrusive True (fun marks value => marks.2 value = true)
    (.create fun _ => false : TaggedPool κ _ _ α) where
  freed := by simp [TaggedPool.pool, TaggedPool.stock, TaggedPool.create, SimplePool.create,
    Stacks.Holds]
  nodup _ := nodup_nil
  apart _ _ _ _ hmem := by cases hmem

/-- With either checker the pools are stacks: what is asked for is never
refused, and what is put is refused exactly when it is held already, by the
pool of the tag or, with the flag in the object, by any pool. -/
theorem run_eq_stacks (ks : List (Call κ α)) :
    ((TaggedPool.create ()).run naive ks).map (Prod.map id (·.stock naive)) =
        Stacks.run False (fun _ => []) ks ∧
      ((TaggedPool.create fun _ => false).run intrusive ks).map (Prod.map id (·.stock intrusive)) =
        Stacks.run True (fun _ => []) ks :=
  ⟨(inv_naive.run naive_lawful ks).1, (inv_intrusive.run intrusive_lawful ks).1⟩

omit [DecidableEq α] in
/-- An object which no stack has is not answered before it is put. -/
theorem Stacks.run_absent {ks : List (Call κ α)} :
    ∀ {s : Stacks κ α} {r}, (∀ tag, value ∉ s tag) → (∀ tag, Call.put tag value ∉ ks) →
      s.run all ks = some r → some value ∉ r.1 ∧ ∀ tag, value ∉ r.2 tag := by
  induction ks with
  | nil =>
    intro s r habsent _ hrun
    cases hrun
    exact ⟨not_mem_nil, habsent⟩
  | cons k ks ih =>
    intro s r habsent hputs hrun
    obtain ⟨q, hq, hrun⟩ := Option.bind_eq_some_iff.mp hrun
    obtain ⟨r, hr, rfl⟩ := Option.map_eq_some_iff.mp hrun
    have hstep : q.1 ≠ some value ∧ ∀ tag, value ∉ q.2 tag := by
      cases k with
      | tryGet tag =>
        cases hq
        refine ⟨fun htop => habsent tag (mem_of_getLast? htop), fun tag' => ?_⟩
        dsimp only
        rw [Function.update_apply]
        split_ifs
        · exact mt mem_of_mem_dropLast (habsent tag)
        · exact habsent tag'
      | put tag w =>
        obtain ⟨-, hq⟩ := Option.ite_none_left_eq_some.mp hq
        cases hq
        refine ⟨nofun, fun tag' => ?_⟩
        have hne : value ≠ w := fun heq => hputs tag (heq ▸ mem_cons_self)
        dsimp only
        rw [Function.update_apply]
        split_ifs
        · simp [habsent tag, hne]
        · exact habsent tag'
    obtain ⟨hanswers, hstock⟩ := ih hstep.2 (fun tag => mt (mem_cons_of_mem k) (hputs tag)) hr
    exact ⟨by simp [hanswers, hstep.1.symm], hstock⟩

/-- An object which was taken is in no pool, and no call gets it again,
until it is put back. -/
theorem taken_until_put {before after : List (Call κ α)} {tag : κ} {answers answers'}
    {p p₁ p' : TaggedPool κ Unit (α → Bool) α}
    (hbefore : (TaggedPool.create fun _ => false).run intrusive before = some (answers, p))
    (hget : p.tryGet intrusive tag = some (some value, p₁))
    (hputs : ∀ tag, Call.put tag value ∉ after)
    (hafter : p₁.run intrusive after = some (answers', p')) :
    some value ∉ answers' ∧ ∀ tag, value ∉ p'.stock intrusive tag := by
  have hinv := (inv_intrusive.run intrusive_lawful before).2 _ hbefore
  obtain ⟨hcall, hinv₁⟩ := hinv.call intrusive_lawful (.tryGet tag)
  rw [TaggedPool.call, hget] at hcall
  obtain ⟨htop, hstock⟩ : some value = (p.stock intrusive tag).getLast? ∧
      p₁.stock intrusive = update (p.stock intrusive) tag (p.stock intrusive tag).dropLast := by
    simpa [Stacks.call] using hcall
  have hsplit := dropLast_append_getLast? value htop.symm
  have hnodup := hinv.nodup tag
  rw [← hsplit, nodup_append] at hnodup
  have habsent : ∀ tag', value ∉ p₁.stock intrusive tag' := by
    intro tag' hmem
    rw [hstock, Function.update_apply] at hmem
    split_ifs at hmem with ht
    · exact hnodup.2.2 value hmem value (mem_singleton_self _) rfl
    · exact ht (hinv.apart trivial hmem (mem_of_getLast? htop.symm))
  have hrun := ((hinv₁ _ hget).run intrusive_lawful after).1
  rw [hafter] at hrun
  exact Stacks.run_absent habsent hputs hrun.symm

/-- An object in the pool of a tag, and the pools once it was taken. -/
def stocked : TaggedPool Nat Unit (Nat → Bool) Nat :=
  { impl := update (fun _ => none) 0 (some ⟨(), [7]⟩), objects := update (fun _ => false) 7 true }

def emptied : TaggedPool Nat Unit (Nat → Bool) Nat :=
  { impl := update stocked.impl 0 (some ⟨(), []⟩), objects := update stocked.objects 7 false }

theorem taken_until_put_emptied :
    some 7 ∉ [(none : Option Nat)] ∧ ∀ tag, 7 ∉ emptied.stock intrusive tag :=
  @taken_until_put Nat Nat _ 7 _ [.put 0 7] [.tryGet 1] 0 _ _ stocked emptied emptied rfl rfl
    (by simp) rfl

end Baselib.Core.Pool
