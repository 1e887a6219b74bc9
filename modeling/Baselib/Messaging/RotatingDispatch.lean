/-
Baselib.Messaging.RotatingDispatch — a dispatcher which rotates through its
targets, `RotatingMessagingClientDispatchBase` of
`messaging/MessagingUtils.h`.

A dispatch goes around the targets from the stored index until it comes to
one which is connected. The index moves on with every target it looks at, so
what it is afterwards is the position behind the target that was taken. The
lock is held throughout, and `isConnected` is asked of each target once.

The result is given as its position in the list. What the callback does with
the target is left out.
-/
import Baselib.Lib.Rotation

namespace Baselib.Messaging.RotatingDispatch

open Lib (rotation rotation_succ rotation_zero count_rotation)

/-- `m_targets` and `m_targetIndex`. The index is within the list until
`dispose` takes the targets. -/
structure Dispatch (δ : Type) where
  targets : List δ
  targetIndex : Nat
  index_lt : targets = [] ∨ targetIndex < targets.length

section

variable {δ : Type}

/-- The loop of `invokeImpl`: what is left of it, and the index. -/
def search (size : Nat) (isConnected : Nat → Bool) : Nat → Nat → Option Nat × Nat
  | 0, targetIndex => (none, targetIndex)
  | n + 1, targetIndex =>
    if isConnected targetIndex then (some targetIndex, (targetIndex + 1) % size)
    else search size isConnected n ((targetIndex + 1) % size)

theorem search_lt {size : Nat} {isConnected : Nat → Bool} {n i : Nat} (h : i < size) :
    (search size isConnected n i).2 < size := by
  have hpos : 0 < size := Nat.zero_lt_of_lt h
  induction n generalizing i with
  | zero => exact h
  | succ n ih =>
    rw [search]
    split_ifs
    · exact Nat.mod_lt _ hpos
    · exact ih (Nat.mod_lt _ hpos)

/-- A dispatch: the position of the target which is invoked. Without one,
`NotSupportedException` is thrown. -/
def invokeImpl (isConnected : Nat → Bool) (d : Dispatch δ) : Option Nat × Dispatch δ :=
  let found := search d.targets.length isConnected d.targets.length d.targetIndex
  (found.1,
    { d with
      targetIndex := found.2
      index_lt := d.index_lt.elim Or.inl fun h => .inr (search_lt h) })

def dispose (d : Dispatch δ) : Dispatch δ := ⟨[], d.targetIndex, .inl rfl⟩

/-- The constructor; the index is random, among those of the list. -/
def create (targets : List δ) (targetIndex : Fin targets.length) : Dispatch δ :=
  ⟨targets, targetIndex, .inr targetIndex.isLt⟩

/-- Dispatches one after the other, with what each finds connected. -/
def dispatches : List (Nat → Bool) → Dispatch δ → List (Option Nat) × Dispatch δ
  | [], d => ([], d)
  | isConnected :: later, d =>
    let first := invokeImpl isConnected d
    let rest := dispatches later first.2
    (first.1 :: rest.1, rest.2)

end

/-! ## The search -/

section

variable {size : Nat} {isConnected : Nat → Bool}

/-- The target which is found is the first one connected in turn, and the
index is behind it. -/
theorem search_eq_some {n i t : Nat} (hi : i < size)
    (h : (search size isConnected n i).1 = some t) :
    t < size ∧ isConnected t = true ∧ (search size isConnected n i).2 = (t + 1) % size ∧
      ∃ m < n, t = (i + m) % size ∧
        ∀ m' < m, isConnected ((i + m') % size) = false := by
  have hpos : 0 < size := Nat.zero_lt_of_lt hi
  induction n generalizing i with
  | zero => cases h
  | succ n ih =>
    rw [search] at h ⊢
    split_ifs at h ⊢ with hconnected
    · cases h
      exact ⟨hi, hconnected, rfl, 0, Nat.succ_pos n, (Nat.mod_eq_of_lt hi).symm, by simp⟩
    · obtain ⟨hlt, ht, hindex, m, hm, hplace, hbefore⟩ := ih (Nat.mod_lt (i + 1) hpos) h
      refine ⟨hlt, ht, hindex, m + 1, Nat.succ_lt_succ hm, ?_, ?_⟩
      · rw [hplace, Nat.mod_add_mod, Nat.add_right_comm, Nat.add_assoc]
      · intro m' hm'
        cases m' with
        | zero => simpa [Nat.mod_eq_of_lt hi] using hconnected
        | succ m' =>
          have hearlier := hbefore m' (Nat.lt_of_succ_lt_succ hm')
          rwa [Nat.mod_add_mod, Nat.add_right_comm, Nat.add_assoc] at hearlier

theorem search_connected {n i : Nat} (hn : 0 < n) (h : isConnected i = true) :
    search size isConnected n i = (some i, (i + 1) % size) := by
  cases n with
  | zero => cases hn
  | succ n => rw [search, if_pos h]

/-- The search fails when every position it comes to is disconnected. -/
theorem search_eq_none_iff {n i : Nat} (hi : i < size) :
    (search size isConnected n i).1 = none ↔ ∀ t ∈ rotation size i n, isConnected t = false := by
  have hpos : 0 < size := Nat.zero_lt_of_lt hi
  induction n generalizing i with
  | zero => simp [search, rotation_zero]
  | succ n ih =>
    rw [search, rotation_succ hi]
    split_ifs with hconnected
    · simp [hconnected]
    · exact (ih (Nat.mod_lt (i + 1) hpos)).trans (by simp [hconnected])

end

/-! ## Dispatches -/

section

variable {δ : Type} {d : Dispatch δ} {isConnected : Nat → Bool}

@[simp] theorem invokeImpl_targets : (invokeImpl isConnected d).2.targets = d.targets := rfl

theorem invokeImpl_eq_none_iff (hne : d.targets ≠ []) :
    (invokeImpl isConnected d).1 = none ↔
      ∀ t < d.targets.length, isConnected t = false := by
  have hi := d.index_lt.resolve_left hne
  refine (search_eq_none_iff (n := d.targets.length) hi).trans ⟨?_, ?_⟩
  · intro h t ht
    exact h t (Baselib.Lib.mem_rotation_self _ ht)
  · intro h t ht
    obtain ⟨m, -, rfl⟩ := List.mem_map.mp ht
    exact h _ (Nat.mod_lt _ (Nat.zero_lt_of_lt hi))

theorem invokeImpl_eq_some (hne : d.targets ≠ []) {t : Nat}
    (h : (invokeImpl isConnected d).1 = some t) :
    t < d.targets.length ∧ isConnected t = true ∧
      (invokeImpl isConnected d).2.targetIndex = (t + 1) % d.targets.length := by
  obtain ⟨hlt, ht, hindex, -⟩ := search_eq_some (d.index_lt.resolve_left hne) h
  exact ⟨hlt, ht, hindex⟩

/-- With every target connected, the one at the index is taken. -/
theorem invokeImpl_connected (hne : d.targets ≠ [])
    (h : ∀ t < d.targets.length, isConnected t = true) :
    (invokeImpl isConnected d).1 = some d.targetIndex ∧
      (invokeImpl isConnected d).2.targetIndex = (d.targetIndex + 1) % d.targets.length := by
  have hi := d.index_lt.resolve_left hne
  have hsearch : search d.targets.length isConnected d.targets.length d.targetIndex =
      (some d.targetIndex, (d.targetIndex + 1) % d.targets.length) :=
    search_connected (Nat.zero_lt_of_lt hi) (h _ hi)
  exact ⟨congrArg Prod.fst hsearch, congrArg Prod.snd hsearch⟩

/-- Then the targets are taken in turn. -/
theorem dispatches_connected {patterns : List (Nat → Bool)} (hne : d.targets ≠ [])
    (h : ∀ isConnected ∈ patterns, ∀ t < d.targets.length, isConnected t = true) :
    (dispatches patterns d).1 =
      (rotation d.targets.length d.targetIndex patterns.length).map some := by
  induction patterns generalizing d with
  | nil => rfl
  | cons isConnected later ih =>
    obtain ⟨hfirst, hindex⟩ := invokeImpl_connected hne (h isConnected (by simp))
    have hrest := ih (d := (invokeImpl isConnected d).2) hne
      (fun other hother => h other (by simp [hother]))
    rw [dispatches, List.length_cons, rotation_succ (d.index_lt.resolve_left hne)]
    simp only [List.map_cons, hfirst]
    rw [hrest, invokeImpl_targets, hindex]

/-- A dispatch invokes a connected target if there is one and fails
otherwise, and whole rounds over connected targets use each of them equally
often. -/
theorem dispatch_finds_target (hne : d.targets ≠ []) :
    (∀ isConnected : Nat → Bool,
      ((∃ t < d.targets.length, isConnected t = true) →
        ∃ t < d.targets.length, isConnected t = true ∧ (invokeImpl isConnected d).1 = some t) ∧
      ((∀ t < d.targets.length, isConnected t = false) → (invokeImpl isConnected d).1 = none) ∧
      (invokeImpl isConnected d).2.targets = d.targets ∧
      (invokeImpl isConnected d).2.targetIndex < d.targets.length) ∧
    ∀ (k : Nat) (patterns : List (Nat → Bool)), patterns.length = k * d.targets.length →
      (∀ isConnected ∈ patterns, ∀ t < d.targets.length, isConnected t = true) →
        ∀ t < d.targets.length, (dispatches patterns d).1.count (some t) = k := by
  constructor
  · intro isConnected
    refine ⟨?_, (invokeImpl_eq_none_iff hne).mpr, rfl,
      (invokeImpl isConnected d).2.index_lt.resolve_left hne⟩
    rintro ⟨t, ht, hconnected⟩
    rcases hresult : (invokeImpl isConnected d).1 with - | t'
    · have hnone := (invokeImpl_eq_none_iff hne).mp hresult t ht
      simp [hconnected] at hnone
    · obtain ⟨hlt, hconnected', -⟩ := invokeImpl_eq_some hne hresult
      exact ⟨t', hlt, hconnected', rfl⟩
  · intro k patterns hlength hconnected t ht
    rw [dispatches_connected hne hconnected, hlength,
      List.count_map_of_injective _ _ (Option.some_injective Nat), count_rotation _ _ ht]

theorem dispatch_finds_target_three :
    (dispatches (List.replicate 6 fun _ => true) (create ["a", "b", "c"] 2)).1.count (some 1) = 2 :=
  (dispatch_finds_target (d := create ["a", "b", "c"] 2) (by simp [create])).2 2 _ rfl
    (fun _ hc _ _ => by rw [List.eq_of_mem_replicate hc]) 1 (by decide)

/-- The first target is down: the dispatch which starts at the last goes
around to the second. -/
example : (invokeImpl (fun t => t == 1) (create ["a", "b", "c"] 2)).1 = some 1 := by decide

end

end Baselib.Messaging.RotatingDispatch
