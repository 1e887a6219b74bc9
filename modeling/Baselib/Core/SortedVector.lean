/-
Baselib.Core.SortedVector — `cpp::SortedVectorHelper`, a vector which is
kept sorted.

`std::lower_bound` asks for a sorted vector, and answers the first
element that is not less than the value. The iterator it answers is the
cut of the vector there. On a sorted vector `insert` is an insertion
without duplicates and `erase` takes the value out.
-/
import Mathlib.Data.List.Sort

namespace Baselib.Core.SortedVector

open List

variable {α : Type*} [LinearOrder α]

/-! ## The members -/

/-- `std::lower_bound`: what stands before the position, and the rest. -/
def lowerBound (vector : List α) (value : α) : List α × List α :=
  (vector.takeWhile (· < value), vector.dropWhile (· < value))

/-- The vector afterwards, and whether the value was inserted. -/
def insert (vector : List α) (value : α) : List α × Bool :=
  match lowerBound vector value with
  | (before, []) => (before ++ [value], true)
  | (before, x :: rest) =>
    if value < x then (before ++ value :: x :: rest, true) else (vector, false)

/-- The cut at the value: what stands before it and behind it. -/
def find (vector : List α) (value : α) : Option (List α × List α) :=
  match lowerBound vector value with
  | (_, []) => none
  | (before, x :: rest) => if value < x then none else some (before, rest)

def erase (vector : List α) (value : α) : List α × Bool :=
  match find vector value with
  | some (before, rest) => (before ++ rest, true)
  | none => (vector, false)

/-! ## On a sorted vector -/

/-- Ascending, without duplicates. -/
def Ascending (vector : List α) : Prop := vector.Pairwise (· < ·)

variable {vector : List α} {value : α}

theorem Ascending.nodup (h : Ascending vector) : vector.Nodup :=
  h.imp fun hlt => ne_of_lt hlt

/-- Where the cut is: what stands before it is less than the value, and
nothing in the rest is. -/
theorem lowerBound_spec (h : Ascending vector) :
    ∃ before rest, lowerBound vector value = (before, rest) ∧ vector = before ++ rest ∧
      (∀ x ∈ before, x < value) ∧ ∀ x ∈ rest, value ≤ x := by
  induction vector with
  | nil => exact ⟨[], [], rfl, rfl, forall_mem_nil _, forall_mem_nil _⟩
  | cons y ys ih =>
    obtain ⟨hy, hys⟩ := pairwise_cons.mp h
    by_cases hlt : y < value
    · obtain ⟨before, rest, heq, hsplit, hbefore, hrest⟩ := ih hys
      refine ⟨y :: before, rest, ?_, congrArg _ hsplit,
        forall_mem_cons.mpr ⟨hlt, hbefore⟩, hrest⟩
      obtain ⟨htake, hdrop⟩ := Prod.mk.inj heq
      simp [lowerBound, hlt, htake, hdrop]
    · have hle : value ≤ y := not_lt.mp hlt
      refine ⟨[], y :: ys, ?_, rfl, forall_mem_nil _,
        forall_mem_cons.mpr ⟨hle, fun x hx => hle.trans (le_of_lt (hy x hx))⟩⟩
      simp [lowerBound, hlt]

theorem find_of_mem (h : Ascending vector) (hmem : value ∈ vector) :
    ∃ before rest, find vector value = some (before, rest) ∧
      vector = before ++ value :: rest := by
  obtain ⟨before, rest, heq, hsplit, hbefore, hrest⟩ := @lowerBound_spec _ _ vector value h
  have hin : value ∈ rest := by
    rw [hsplit] at hmem
    exact (mem_append.mp hmem).resolve_left fun hb => lt_irrefl _ (hbefore _ hb)
  cases rest with
  | nil => cases hin
  | cons x rest =>
    have hx : value = x := by
      obtain heq | hin := mem_cons.mp hin
      · exact heq
      · have hlt := (pairwise_cons.mp (pairwise_append.mp (hsplit ▸ h)).2.1).1
        exact absurd (hlt _ hin) (not_lt.mpr (hrest x mem_cons_self))
    subst hx
    refine ⟨before, rest, ?_, hsplit⟩
    unfold find
    rw [heq]
    exact if_neg (lt_irrefl _)

theorem find_some (h : Ascending vector) {before rest : List α}
    (hfind : find vector value = some (before, rest)) :
    vector = before ++ value :: rest := by
  obtain ⟨before', rest', heq, hsplit, -, hrest⟩ := @lowerBound_spec _ _ vector value h
  unfold find at hfind
  rw [heq] at hfind
  cases rest' with
  | nil => cases hfind
  | cons x rest' =>
    dsimp only at hfind
    split at hfind
    · cases hfind
    · rename_i hlt
      obtain ⟨rfl, rfl⟩ := Prod.mk.inj (Option.some.inj hfind)
      rw [hsplit, le_antisymm (hrest x mem_cons_self) (not_lt.mp hlt)]

theorem find_of_not_mem (h : Ascending vector) (hmem : value ∉ vector) :
    find vector value = none := by
  obtain ⟨before, rest, heq, hsplit, -, hrest⟩ := @lowerBound_spec _ _ vector value h
  unfold find
  rw [heq]
  cases rest with
  | nil => rfl
  | cons x rest =>
    refine if_pos (lt_of_le_of_ne (hrest x mem_cons_self) fun hx => hmem ?_)
    rw [hsplit, hx]
    exact mem_append_right _ mem_cons_self

theorem insert_of_mem (h : Ascending vector) (hmem : value ∈ vector) :
    insert vector value = (vector, false) := by
  obtain ⟨before, rest, hfind, -⟩ := find_of_mem h hmem
  unfold find at hfind
  unfold insert
  split at hfind
  · cases hfind
  · rename_i b x r heq
    split at hfind
    · cases hfind
    · rename_i hlt
      exact if_neg hlt

theorem insert_of_not_mem (h : Ascending vector) (hmem : value ∉ vector) :
    ∃ before rest, vector = before ++ rest ∧
      insert vector value = (before ++ value :: rest, true) ∧
      Ascending (before ++ value :: rest) := by
  obtain ⟨before, rest, heq, hsplit, hbefore, hrest⟩ := @lowerBound_spec _ _ vector value h
  have hlt : ∀ x ∈ rest, value < x := fun x hx =>
    lt_of_le_of_ne (hrest x hx) fun hx' => hmem (by
      rw [hsplit, hx']
      exact mem_append_right _ hx)
  refine ⟨before, rest, hsplit, ?_, ?_⟩
  · unfold insert
    rw [heq]
    cases rest with
    | nil => rfl
    | cons x rest => exact if_pos (hlt x mem_cons_self)
  · rw [Ascending, hsplit, pairwise_append] at h
    exact pairwise_append.mpr ⟨h.1, pairwise_cons.mpr ⟨hlt, h.2.1⟩,
      fun x hx y hy => by
        obtain rfl | hy := mem_cons.mp hy
        · exact hbefore x hx
        · exact h.2.2 x hx y hy⟩

theorem mem_insert (h : Ascending vector) {x : α} :
    x ∈ (insert vector value).1 ↔ x = value ∨ x ∈ vector := by
  by_cases hmem : value ∈ vector
  · rw [insert_of_mem h hmem]
    exact ⟨.inr, fun hx => hx.elim (fun heq => heq ▸ hmem) id⟩
  · obtain ⟨before, rest, hsplit, hinsert, -⟩ := insert_of_not_mem h hmem
    rw [hinsert, hsplit]
    simp [or_left_comm]

theorem ascending_insert (h : Ascending vector) : Ascending (insert vector value).1 := by
  by_cases hmem : value ∈ vector
  · rwa [insert_of_mem h hmem]
  · obtain ⟨before, rest, -, hinsert, hsorted⟩ := insert_of_not_mem h hmem
    rwa [hinsert]

theorem insert_inserted (h : Ascending vector) :
    (insert vector value).2 = true ↔ value ∉ vector := by
  by_cases hmem : value ∈ vector
  · rw [insert_of_mem h hmem]
    simp [hmem]
  · obtain ⟨before, rest, -, hinsert, -⟩ := insert_of_not_mem h hmem
    rw [hinsert]
    simp [hmem]

theorem ascending_cut {before rest : List α} (h : Ascending (before ++ value :: rest)) :
    Ascending (before ++ rest) ∧ value ∉ before ++ rest := by
  refine ⟨List.Pairwise.sublist (List.Sublist.append_left (sublist_cons_self _ _) _) h, ?_⟩
  have hnodup := (perm_middle.nodup_iff).mp h.nodup
  exact (nodup_cons.mp hnodup).1

theorem erase_eq (h : Ascending vector) : (erase vector value).1 = vector.erase value := by
  unfold erase
  by_cases hmem : value ∈ vector
  · obtain ⟨before, rest, hfind, hsplit⟩ := find_of_mem h hmem
    have hcut := (ascending_cut (hsplit ▸ h)).2
    rw [hfind, hsplit, erase_append_right _ fun hb => hcut (mem_append_left _ hb),
      erase_cons_head]
  · rw [find_of_not_mem h hmem, erase_of_not_mem hmem]

end Baselib.Core.SortedVector
