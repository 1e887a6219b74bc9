/-
Baselib.Lib.Respelling — the spellings of one place, as sequences of
components.

Three changes of a sequence leave the place it names: a component which
stays may be dropped, a name may be dropped together with the ".." behind
it, and so may a ".." at the start, since there is nothing above the root.
Two sequences are spellings of one place when such changes, back and
forth, lead from one to the other. The stack of `DotSegments` decides
this (`respelled_iff`).
-/
import Mathlib.Logic.Relation
import Baselib.Lib.DotSegments

namespace Baselib.Lib

open List

section

variable {α : Type} (kind : α → SegmentKind)

/-- One change of the spelling. -/
inductive Respell : List α → List α → Prop where
  | stay {c : α} (as bs : List α) (h : kind c = .current) : Respell (as ++ c :: bs) (as ++ bs)
  | back {n c : α} (as bs : List α) (hn : (kind n).kept = true) (h : kind c = .parent) :
      Respell (as ++ n :: c :: bs) (as ++ bs)
  | root {c : α} (bs : List α) (h : kind c = .parent) : Respell (c :: bs) bs

def Respelled : List α → List α → Prop := Relation.EqvGen (Respell kind)

variable {kind}

theorem pushSegment_of_kept {s : α} (h : (kind s).kept = true) (stack : List α) :
    pushSegment kind stack s = s :: stack := by
  cases hk : kind s <;> simp [hk, SegmentKind.kept] at h <;> simp [pushSegment, hk]

theorem foldl_pushSegment_of_kept (es : List α) : ∀ stack : List α,
    (∀ e ∈ es, (kind e).kept = true) →
      es.foldl (pushSegment kind) stack = es.reverse ++ stack := by
  induction es with
  | nil => exact fun _ _ => rfl
  | cons e es ih =>
    intro stack h
    obtain ⟨he, hes⟩ := forall_mem_cons.mp h
    rw [foldl_cons, pushSegment_of_kept he, ih _ hes]
    simp

/-- A change leaves the stack. -/
theorem Respell.foldl_eq {as bs : List α} (h : Respell kind as bs) :
    as.foldl (pushSegment kind) [] = bs.foldl (pushSegment kind) [] := by
  cases h with
  | stay _ _ h | root _ h => simp [pushSegment, h]
  | back as bs hn h =>
    rw [foldl_append, foldl_cons, foldl_cons, pushSegment_of_kept hn]
    simp [pushSegment, h]

/-- A change may be made in front of whatever follows. -/
theorem Respell.append_right {as bs : List α} (h : Respell kind as bs) (cs : List α) :
    Respell kind (as ++ cs) (bs ++ cs) := by
  cases h with
  | stay as bs h => simpa using Respell.stay as (bs ++ cs) h
  | back as bs hn h => simpa using Respell.back as (bs ++ cs) hn h
  | root bs h => exact Respell.root (bs ++ cs) h

theorem Respelled.append_right {as bs : List α} (h : Respelled kind as bs) (cs : List α) :
    Respelled kind (as ++ cs) (bs ++ cs) := by
  induction h with
  | rel _ _ h => exact .rel _ _ (h.append_right cs)
  | refl _ => exact .refl _
  | symm _ _ _ ih => exact ih.symm
  | trans _ _ _ _ _ ih₁ ih₂ => exact ih₁.trans _ _ _ ih₂

/-- What is kept on the stack. -/
theorem foldl_pushSegment_kept (es : List α) : ∀ stack : List α,
    (∀ s ∈ stack, (kind s).kept = true) →
      ∀ s ∈ es.foldl (pushSegment kind) stack, (kind s).kept = true ∧ (s ∈ es ∨ s ∈ stack) := by
  induction es with
  | nil => exact fun stack h s hs => ⟨h s hs, .inr hs⟩
  | cons e es ih =>
    intro stack h s hs
    rw [foldl_cons] at hs
    have hpush : ∀ x ∈ pushSegment kind stack e, (kind x).kept = true ∧ (x = e ∨ x ∈ stack) := by
      intro x hx
      cases hk : kind e with
      | current =>
        simp only [pushSegment, hk] at hx
        exact ⟨h x hx, .inr hx⟩
      | parent =>
        simp only [pushSegment, hk] at hx
        exact ⟨h x (mem_of_mem_tail hx), .inr (mem_of_mem_tail hx)⟩
      | empty | name =>
        simp only [pushSegment, hk, mem_cons] at hx
        rcases hx with rfl | hx
        · exact ⟨by simp [hk, SegmentKind.kept], .inl rfl⟩
        · exact ⟨h x hx, .inr hx⟩
    obtain ⟨hkept, hes | hstack⟩ := ih _ (fun x hx => (hpush x hx).1) s hs
    · exact ⟨hkept, .inl (mem_cons_of_mem _ hes)⟩
    · refine ⟨hkept, (hpush s hstack).2.imp (fun heq => ?_) id⟩
      exact heq ▸ mem_cons_self

/-- Every sequence can be changed into the stack it leaves. -/
theorem respelled_foldl (es : List α) :
    Respelled kind es (es.foldl (pushSegment kind) []).reverse := by
  induction es using reverseRecOn with
  | nil => exact .refl _
  | append_singleton es s ih =>
    have hes := ih.append_right [s]
    refine hes.trans _ _ _ ?_
    rw [foldl_append, foldl_cons, foldl_nil]
    have hkept := @foldl_pushSegment_kept _ kind es [] (by simp)
    generalize es.foldl (pushSegment kind) [] = stack at hkept ⊢
    cases hk : kind s with
    | current =>
      rw [pushSegment, hk]
      simpa using Relation.EqvGen.rel _ _ (Respell.stay stack.reverse [] hk)
    | empty | name =>
      rw [pushSegment_of_kept (by simp [hk, SegmentKind.kept]), reverse_cons]
      exact .refl _
    | parent =>
      rw [pushSegment, hk]
      cases stack with
      | nil => exact .rel _ _ (Respell.root [] hk)
      | cons n stack =>
        have hn := (hkept n mem_cons_self).1
        simpa using Relation.EqvGen.rel _ _ (Respell.back stack.reverse [] hn hk)

/-- Spellings of one place are those with one stack. -/
theorem respelled_iff (as bs : List α) :
    Respelled kind as bs ↔ as.foldl (pushSegment kind) [] = bs.foldl (pushSegment kind) [] := by
  constructor
  · intro h
    induction h with
    | rel _ _ h => exact h.foldl_eq
    | refl _ => rfl
    | symm _ _ _ ih => exact ih.symm
    | trans _ _ _ _ _ ih₁ ih₂ => exact ih₁.trans ih₂
  · intro h
    have has := @respelled_foldl _ kind as
    rw [h] at has
    exact has.trans _ _ _ (respelled_foldl bs).symm

end

end Baselib.Lib
