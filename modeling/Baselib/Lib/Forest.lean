/-
Baselib.Lib.Forest — what is collected below an item of a forest of finite
height.

An item gives some results itself and has children of a smaller height.
`collected` is what the items below give. Who works through a list of items
in any order, replacing an item by its children, collects the same up to the
order, and `collected_eq` is the one step of that.
-/
import Mathlib.Data.List.Basic
import Mathlib.Logic.Relation

namespace Baselib.Lib

/-- A forest of finite height. -/
structure Forest (α : Type*) where
  children : α → List α
  height : α → Nat
  descends : ∀ a, ∀ b ∈ children a, height b < height a

namespace Forest

variable {α β : Type*} (F : Forest α) (emit : α → List β)

/-- The results of an item and of the items below it, down to a depth. -/
def collect : Nat → α → List β
  | 0, _ => []
  | n + 1, a => emit a ++ (F.children a).flatMap (collect n)

def collected (a : α) : List β := F.collect emit (F.height a + 1) a

/-- Any depth beyond the height will do. -/
theorem collect_eq {n m : Nat} : ∀ {a : α}, F.height a < n → F.height a < m →
    F.collect emit n a = F.collect emit m a := by
  induction n generalizing m with
  | zero => exact fun h => absurd h (Nat.not_lt_zero _)
  | succ n ih =>
    intro a hn hm
    cases m with
    | zero => exact absurd hm (Nat.not_lt_zero _)
    | succ m =>
      have hbelow : ∀ b ∈ F.children a, F.collect emit n b = F.collect emit m b := by
        intro b hb
        have hlt := F.descends a b hb
        exact ih (by omega) (by omega)
      rw [collect, collect, List.flatMap_congr hbelow]

/-- What is collected below an item is what it gives itself and what is
collected below its children. -/
theorem collected_eq (a : α) :
    F.collected emit a = emit a ++ (F.children a).flatMap (F.collected emit) := by
  have hbelow : ∀ b ∈ F.children a, F.collect emit (F.height a) b = F.collected emit b := by
    intro b hb
    have hlt := F.descends a b hb
    exact F.collect_eq emit hlt (Nat.lt_succ_self _)
  rw [collected, collect, List.flatMap_congr hbelow]

/-- `b` is below `a`, or is `a`. -/
def Below : α → α → Prop := Relation.ReflTransGen fun a b => b ∈ F.children a

/-- The rule for what holds below an item: it holds of the item when it
holds below each of its children. -/
theorem children_induction {P : α → Prop} (h : ∀ a, (∀ b ∈ F.children a, P b) → P a) (a : α) : P a := by
  induction hn : F.height a using Nat.strongRecOn generalizing a with
  | ind n ih =>
    subst hn
    exact h a fun b hb => ih _ (F.descends a b hb) b rfl

theorem mem_collected {a : α} {x : β} :
    x ∈ F.collected emit a ↔ ∃ b, F.Below a b ∧ x ∈ emit b := by
  induction a using F.children_induction with
  | h a ih =>
    rw [collected_eq, List.mem_append, List.mem_flatMap]
    constructor
    · rintro (hx | ⟨b, hb, hx⟩)
      · exact ⟨a, .refl, hx⟩
      · obtain ⟨c, hc, hx⟩ := (ih b hb).mp hx
        exact ⟨c, .head hb hc, hx⟩
    · rintro ⟨c, hc, hx⟩
      rcases hc.cases_head with rfl | ⟨b, hb, hc⟩
      · exact .inl hx
      · exact .inr ⟨b, hb, (ih b hb).mpr ⟨c, hc, hx⟩⟩

end Forest

end Baselib.Lib
