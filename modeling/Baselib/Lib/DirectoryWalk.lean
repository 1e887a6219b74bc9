/-
Baselib.Lib.DirectoryWalk — following the components of a path from a
directory.

A directory is the stack of the names that lead to it from the root, the
innermost first. "." and an empty component stay, ".." leaves the
directory, a name enters one. A walk which would leave the root has no
result. Whether that happens depends on the depth of the directory the
walk starts from and on one number of the components: how far they
`climb` above their start.
-/
import Baselib.Lib.DotSegments

namespace Baselib.Lib

section

variable {α : Type} (kind : α → SegmentKind)

/-! ## Walks -/

/-- The directory the components lead to, unless one of them leaves the
root. -/
def follow : List α → List α → Option (List α)
  | dir, [] => some dir
  | dir, c :: cs =>
    match kind c with
    | .current => follow dir cs
    | .empty => follow dir cs
    | .parent => if dir = [] then none else follow dir.tail cs
    | .name => follow (c :: dir) cs

/-- How many levels above its start the walk gets, where it gets
furthest. -/
def climb : List α → Nat
  | [] => 0
  | c :: cs =>
    match kind c with
    | .current => climb cs
    | .empty => climb cs
    | .parent => climb cs + 1
    | .name => climb cs - 1

/-- A walk stays below the root when it starts at least as deep as it
climbs. -/
theorem follow_isSome_iff (cs : List α) : ∀ dir : List α,
    (follow kind dir cs).isSome ↔ climb kind cs ≤ dir.length := by
  induction cs with
  | nil => intro dir; simp [follow, climb]
  | cons c cs ih =>
    intro dir
    unfold follow climb
    cases hk : kind c with
    | current => exact ih dir
    | empty => exact ih dir
    | parent =>
      cases dir with
      | nil => simp
      | cons d dir => simpa using ih dir
    | name =>
      have h := ih (c :: dir)
      simp only [List.length_cons] at h
      show (follow kind (c :: dir) cs).isSome ↔ climb kind cs - 1 ≤ dir.length
      rw [h]
      omega

/-! ## Components which stay -/

/-- The component stays where it is. -/
def SegmentKind.stays : SegmentKind → Bool
  | .current => true
  | .empty => true
  | .parent => false
  | .name => false

theorem climb_append (cs : List α) : ∀ ds : List α, (∀ d ∈ ds, (kind d).stays = true) →
    climb kind (cs ++ ds) = climb kind cs := by
  induction cs with
  | nil =>
    intro ds
    induction ds with
    | nil => intro _; rfl
    | cons d ds ih =>
      intro h
      have hd := h d (by simp)
      have hds := ih fun x hx => h x (by simp [hx])
      rw [List.nil_append] at hds ⊢
      unfold climb
      cases hk : kind d <;> simp [hk, SegmentKind.stays] at hd <;> exact hds
  | cons c cs ih =>
    intro ds h
    rw [List.cons_append]
    unfold climb
    rw [ih ds h]

/-- The components which stay make no difference to how far a walk
climbs. -/
theorem climb_filter (p : α → Bool) (cs : List α) (h : ∀ c ∈ cs, p c = false → (kind c).stays = true) :
    climb kind (cs.filter p) = climb kind cs := by
  induction cs with
  | nil => rfl
  | cons c cs ih =>
    have hcs := ih fun x hx => h x (by simp [hx])
    by_cases hp : p c = true
    · rw [List.filter_cons_of_pos hp]
      unfold climb
      rw [hcs]
    · rw [List.filter_cons_of_neg hp, hcs]
      have hc := h c (by simp) (by simpa using hp)
      conv_rhs => unfold climb
      cases hk : kind c <;> simp [hk, SegmentKind.stays] at hc <;> rfl

/-- The names a walk without ".." leaves on the stack. -/
theorem follow_of_no_parent (cs : List α) : ∀ dir : List α, (∀ c ∈ cs, kind c ≠ .parent) →
    follow kind dir cs = some ((cs.filter fun c => !(kind c).stays).reverse ++ dir) := by
  induction cs with
  | nil => intro dir _; rfl
  | cons c cs ih =>
    intro dir h
    have hc := h c (by simp)
    have hcs : ∀ x ∈ cs, kind x ≠ .parent := fun x hx => h x (by simp [hx])
    unfold follow
    cases hk : kind c <;> simp [hk] at hc <;> simp [ih _ hcs, hk, SegmentKind.stays]

end

end Baselib.Lib
