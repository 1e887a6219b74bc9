/-
Baselib.Lib.Memory — an allocated piece of memory, copied into and out of.

A copy which leaves the allocated octets is not a value of any kind: `store`
and `load` have none. What a store changes is what it covers, so what stands
before it is still there and a load of what it covered gives it back.
-/
import Baselib.Lib.Octets

namespace Baselib.Lib.Memory

open List

/-- The first `n` octets of a source. -/
def firstOctets (source : Nat → UInt8) (n : Nat) : Octets := (List.range n).map source

/-- The source which is these octets and then whatever follows them. -/
def sourceOf (l : Octets) : Nat → UInt8 := fun i => l.getD i 0

@[simp] theorem length_firstOctets (source : Nat → UInt8) (n : Nat) :
    (firstOctets source n).length = n := by
  simp [firstOctets]

@[simp] theorem firstOctets_sourceOf (l : Octets) : firstOctets (sourceOf l) l.length = l := by
  apply ext_getElem
  · simp
  · intro i hi hi'
    simp [firstOctets, sourceOf, getD, getElem?_eq_getElem hi']

/-- `std::memcpy` of `n` octets into the memory. -/
def store (memory : Octets) (offset : Nat) (source : Nat → UInt8) (n : Nat) : Option Octets :=
  if offset + n ≤ memory.length then
    some (memory.take offset ++ firstOctets source n ++ memory.drop (offset + n))
  else none

/-- `std::memcpy` of `n` octets out of the memory. -/
def load (memory : Octets) (offset n : Nat) : Option Octets :=
  if offset + n ≤ memory.length then some ((memory.drop offset).take n) else none

section

variable {memory memory' : Octets} {offset n : Nat} {source : Nat → UInt8}

theorem store_eq_some_iff :
    store memory offset source n = some memory' ↔ offset + n ≤ memory.length ∧
      memory' = memory.take offset ++ firstOctets source n ++ memory.drop (offset + n) := by
  rw [store]
  split_ifs with h
  · rw [Option.some_inj, eq_comm]
    simp [h]
  · simp [h]

theorem length_of_store (h : store memory offset source n = some memory') :
    memory'.length = memory.length := by
  obtain ⟨hle, rfl⟩ := store_eq_some_iff.mp h
  simp only [length_append, length_take, length_firstOctets, length_drop]
  omega

/-- What stands in the memory up to the end of a store. -/
theorem take_of_store (h : store memory offset source n = some memory') :
    memory'.take (offset + n) = memory.take offset ++ firstOctets source n := by
  obtain ⟨hle, rfl⟩ := store_eq_some_iff.mp h
  refine take_left' ?_
  simp only [length_append, length_take, length_firstOctets]
  omega

theorem load_eq_some (h : offset + n ≤ memory.length) :
    load memory offset n = some ((memory.drop offset).take n) := if_pos h

theorem store_eq_some (h : offset + n ≤ memory.length) :
    store memory offset source n =
      some (memory.take offset ++ firstOctets source n ++ memory.drop (offset + n)) := if_pos h

/-- A load gives what stands at its place in the memory. -/
theorem load_of_take {a l b : Octets} {size : Nat} (hsize : size ≤ memory.length)
    (h : memory.take size = a ++ l ++ b) : load memory a.length l.length = some l := by
  have hlength : (memory.take size).length = a.length + l.length + b.length := by
    rw [h, length_append, length_append]
  rw [length_take] at hlength
  rw [load_eq_some (by omega)]
  have hmemory : memory = a ++ l ++ b ++ memory.drop size := by
    rw [← h, take_append_drop]
  rw [hmemory, append_assoc, append_assoc, drop_left, take_left]

end

end Baselib.Lib.Memory
