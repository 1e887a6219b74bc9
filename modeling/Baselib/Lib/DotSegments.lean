/-
Baselib.Lib.DotSegments — the removal of dot segments as a stack.

A path is read segment by segment: "." leaves the stack alone, ".." pops
it if it can, every other segment is pushed, and a dot segment at the
end leaves an empty segment behind. `EmptyFirst` says of the kinds of
the segments alone when the result starts with an empty segment which is
not its only one; such a path, written with its separators, starts with
two of them.
-/
import Mathlib.Data.List.Count
import Mathlib.Data.List.Infix

namespace Baselib.Lib

open List

/-- What the removal does with a segment. -/
inductive SegmentKind where
  | current
  | parent
  | empty
  | name
  deriving DecidableEq, Repr

namespace SegmentKind

/-- The segments which are kept. -/
def kept : SegmentKind → Bool
  | .current => false
  | .parent => false
  | .empty => true
  | .name => true

end SegmentKind

section

variable {α : Type} (kind : α → SegmentKind) (blank : α)

/-! ## The stack -/

/-- A segment with another one behind it; the top of the stack is first. -/
def pushSegment (stack : List α) (s : α) : List α :=
  match kind s with
  | .current => stack
  | .parent => stack.tail
  | .empty => s :: stack
  | .name => s :: stack

/-- The last segment. -/
def pushLastSegment (stack : List α) (s : α) : List α :=
  match kind s with
  | .current => blank :: stack
  | .parent => blank :: stack.tail
  | .empty => s :: stack
  | .name => s :: stack

def resolveSegments : List α → List α → List α
  | stack, [] => stack
  | stack, [s] => pushLastSegment kind blank stack s
  | stack, s :: t :: rest => resolveSegments (pushSegment kind stack s) (t :: rest)

theorem resolveSegments_append_singleton (s : α) : ∀ (l stack : List α),
    resolveSegments kind blank stack (l ++ [s])
      = pushLastSegment kind blank (l.foldl (pushSegment kind) stack) s
  | [], stack => rfl
  | t :: l, stack => by
      have hstep : resolveSegments kind blank stack (t :: (l ++ [s]))
          = resolveSegments kind blank (pushSegment kind stack t) (l ++ [s]) := by
        cases l <;> rfl
      rw [cons_append, hstep, resolveSegments_append_singleton s l, foldl_cons]

/-- Segments which are all kept end up on the stack as they are. -/
theorem resolveSegments_of_kept : ∀ (l stack : List α), (∀ s ∈ l, (kind s).kept = true) →
    resolveSegments kind blank stack l = l.reverse ++ stack
  | [], stack, _ => rfl
  | [s], stack, h => by
      have hs := h s (by simp)
      cases hk : kind s <;> simp [hk, SegmentKind.kept] at hs <;>
        simp [resolveSegments, pushLastSegment, hk]
  | s :: t :: l, stack, h => by
      have hs := h s (by simp)
      have ih := resolveSegments_of_kept (t :: l) (s :: stack) fun u hu => h u (by simp [hu])
      cases hk : kind s <;> simp [hk, SegmentKind.kept] at hs <;>
        simp [resolveSegments, pushSegment, hk, ih]

/-- What the segments keep of a property of the stack. -/
theorem resolveSegments_forall {P : α → Prop} (hblank : P blank) :
    ∀ (l stack : List α), (∀ s ∈ stack, P s) → (∀ s ∈ l, (kind s).kept = true → P s) →
      ∀ s ∈ resolveSegments kind blank stack l, P s
  | [], stack, hstack, _ => hstack
  | [s], stack, hstack, hl => by
      have hs := hl s (by simp)
      have htail : ∀ t ∈ stack.tail, P t := fun t ht => hstack t (mem_of_mem_tail ht)
      cases hk : kind s <;>
        simp_all [resolveSegments, pushLastSegment, SegmentKind.kept]
  | s :: t :: l, stack, hstack, hl => by
      refine resolveSegments_forall hblank (t :: l) _ ?_ fun u hu => hl u (by simp [hu])
      have hs := hl s (by simp)
      have htail : ∀ t ∈ stack.tail, P t := fun t ht => hstack t (mem_of_mem_tail ht)
      cases hk : kind s <;> simp_all [pushSegment, SegmentKind.kept]

/-! ## The bottom of the stack -/

/-- The height of the stack after the segments, from height `n`. -/
def heightAfter (n : Nat) (ks : List SegmentKind) : Nat :=
  ks.foldl (fun n k => match k with
    | .current => n
    | .parent => n - 1
    | .empty => n + 1
    | .name => n + 1) n

/-- No run from the start has more ".." than segments to remove. -/
def Covered (ks : List SegmentKind) : Prop :=
  ∀ run, run <+: ks → run.count .parent ≤ run.countP SegmentKind.kept

/-- An empty segment on an empty stack which stays there, with another
segment after it. -/
def EmptyFirst (ks : List SegmentKind) : Prop :=
  ∃ a b, ks = a ++ .empty :: b ∧ b ≠ [] ∧ heightAfter 0 a = 0 ∧ Covered b

theorem foldl_pushSegment_length (l : List α) : ∀ stack : List α,
    (l.foldl (pushSegment kind) stack).length = heightAfter stack.length (l.map kind) := by
  induction l with
  | nil => exact fun _ => rfl
  | cons s l ih =>
    intro stack
    rw [foldl_cons, ih]
    cases hk : kind s <;> simp [pushSegment, heightAfter, hk]

theorem Covered.append_singleton {ks : List SegmentKind} {k : SegmentKind} (h : Covered ks)
    (hlast : (ks ++ [k]).count .parent ≤ (ks ++ [k]).countP SegmentKind.kept) :
    Covered (ks ++ [k]) := by
  intro run hrun
  rcases prefix_concat_iff.mp hrun with rfl | hrun
  · exact hlast
  · exact h run hrun

theorem Covered.of_append {ks ls : List SegmentKind} (h : Covered (ks ++ ls)) : Covered ks :=
  fun run hrun => h run (hrun.trans (prefix_append ks ls))

/-- One segment more: what it adds to either count. -/
theorem count_append_singleton (ks : List SegmentKind) (k : SegmentKind) :
    (ks ++ [k]).count .parent = ks.count .parent + (if k = .parent then 1 else 0) ∧
      (ks ++ [k]).countP SegmentKind.kept
        = ks.countP SegmentKind.kept + (if k.kept then 1 else 0) := by
  simp only [count_append, countP_append, count_singleton, countP_singleton,
    beq_iff_eq, and_self]

/-- What is above a stack which is never popped. -/
theorem foldl_covered (stack : List α) (l : List α) (h : Covered (l.map kind)) :
    ∃ t, l.foldl (pushSegment kind) stack = t ++ stack ∧
      t.length + (l.map kind).count .parent = (l.map kind).countP SegmentKind.kept := by
  induction l using reverseRecOn with
  | nil => exact ⟨[], rfl, rfl⟩
  | append_singleton l s ih =>
    simp only [map_append, map_cons, map_nil] at h ⊢
    obtain ⟨t, ht, hlen⟩ := ih h.of_append
    have hfull := h _ (prefix_refl _)
    obtain ⟨hparent, hkept⟩ := count_append_singleton (l.map kind) (kind s)
    rw [hparent, hkept] at hfull ⊢
    rw [foldl_append, ht, foldl_cons, foldl_nil]
    cases hk : kind s with
    | current => exact ⟨t, by simp [pushSegment, hk], by simpa [SegmentKind.kept] using hlen⟩
    | parent =>
      simp only [hk, SegmentKind.kept, if_true, Bool.false_eq_true, if_false] at hfull
      cases t with
      | nil =>
        simp only [length_nil] at hlen
        omega
      | cons u t =>
        refine ⟨t, by simp [pushSegment, hk], ?_⟩
        simp only [SegmentKind.kept, if_true, Bool.false_eq_true, if_false]
        simp only [length_cons] at hlen
        omega
    | empty | name =>
      refine ⟨s :: t, by simp [pushSegment, hk], ?_⟩
      simp only [SegmentKind.kept, if_true, reduceCtorEq, if_false, length_cons]
      omega

/-- Where the bottom of the stack comes from, when it is an empty segment. -/
theorem exists_of_foldl_bottom (l : List α) : ∀ {t : List α} {bottom : α},
    l.foldl (pushSegment kind) [] = t ++ [bottom] → kind bottom = .empty →
      ∃ a b, l.map kind = a ++ .empty :: b ∧ heightAfter 0 a = 0 ∧ Covered b ∧
        t.length + b.count .parent = b.countP SegmentKind.kept := by
  induction l using reverseRecOn with
  | nil => simp
  | append_singleton l s ih =>
    intro t bottom hfold hbottom
    rw [foldl_append, foldl_cons, foldl_nil] at hfold
    simp only [map_append, map_cons, map_nil]
    -- one more segment which does not reach the bottom
    have extend : ∀ t' : List α, l.foldl (pushSegment kind) [] = t' ++ [bottom] →
        t.length + (if kind s = .parent then 1 else 0)
          = t'.length + (if (kind s).kept then 1 else 0) →
        ∃ a b, l.map kind ++ [kind s] = a ++ .empty :: b ∧ heightAfter 0 a = 0 ∧ Covered b ∧
          t.length + b.count .parent = b.countP SegmentKind.kept := by
      intro t' hl hlen
      obtain ⟨a, b, hmap, ha, hb, hcount⟩ := ih hl hbottom
      obtain ⟨hparent, hkept⟩ := count_append_singleton b (kind s)
      refine ⟨a, b ++ [kind s], by simp [hmap], ha, hb.append_singleton ?_, ?_⟩
      · rw [hparent, hkept]
        omega
      · rw [hparent, hkept]
        omega
    cases hk : kind s with
    | current =>
      rw [hk] at extend
      exact extend t (by simpa [pushSegment, hk] using hfold) (by simp [SegmentKind.kept])
    | parent =>
      rw [hk] at extend
      simp only [pushSegment, hk] at hfold
      cases hl : l.foldl (pushSegment kind) [] with
      | nil => simp [hl] at hfold
      | cons u stack =>
        rw [hl, tail_cons] at hfold
        exact extend (u :: t) (by rw [hl, hfold]; rfl) (by simp [SegmentKind.kept])
    | empty | name =>
      rw [hk] at extend
      simp only [pushSegment, hk] at hfold
      cases t with
      | cons u t =>
        simp only [cons_append, List.cons.injEq] at hfold
        exact extend t hfold.2 (by simp [SegmentKind.kept])
      | nil =>
        simp only [nil_append, List.cons.injEq] at hfold
        obtain ⟨rfl, hl⟩ := hfold
        rw [hk] at hbottom
        have hzero := foldl_pushSegment_length kind l []
        rw [hl] at hzero
        refine ⟨l.map kind, [], by simp [hbottom], hzero.symm, ?_, rfl⟩
        intro run hrun
        rw [prefix_nil.mp hrun]
        simp

/-- The result starts with an empty segment which is not its only one
exactly when the kinds of the segments say so. -/
theorem emptyFirst_iff (l : List α) :
    EmptyFirst (l.map kind) ↔ ∃ t bottom,
      resolveSegments kind blank [] l = t ++ [bottom] ∧ t ≠ [] ∧ kind bottom = .empty := by
  induction l using reverseRecOn with
  | nil => simp [EmptyFirst, resolveSegments]
  | append_singleton l s _ =>
    rw [resolveSegments_append_singleton]
    constructor
    · rintro ⟨a, b, hmap, hne, ha, hb⟩
      obtain ⟨b, k, rfl⟩ := (eq_nil_or_concat' b).resolve_left hne
      rw [map_append, ← cons_append, ← append_assoc] at hmap
      obtain ⟨hinit, hlast⟩ := append_inj' hmap rfl
      obtain rfl : kind s = k := by simpa using hlast
      obtain ⟨la, lb, rfl, rfl, hlb⟩ := map_eq_append_iff.mp hinit
      obtain ⟨e, lb, rfl, he, rfl⟩ := map_eq_cons_iff.mp hlb
      have hla : la.foldl (pushSegment kind) [] = [] := by
        rwa [← length_eq_zero_iff, foldl_pushSegment_length]
      obtain ⟨t, ht, hlen⟩ := foldl_covered kind [e] lb hb.of_append
      have hpush : pushSegment kind [] e = [e] := by simp [pushSegment, he]
      rw [foldl_append, hla, foldl_cons, hpush, ht]
      have hfull := hb _ (prefix_refl _)
      obtain ⟨hparent, hkept⟩ := count_append_singleton (lb.map kind) (kind s)
      rw [hparent, hkept] at hfull
      cases hk : kind s with
      | current => exact ⟨blank :: t, e, by simp [pushLastSegment, hk], by simp, he⟩
      | parent =>
        simp only [hk, SegmentKind.kept, if_true, Bool.false_eq_true, if_false] at hfull
        cases t with
        | nil =>
          simp only [length_nil] at hlen
          omega
        | cons u t => exact ⟨blank :: t, e, by simp [pushLastSegment, hk], by simp, he⟩
      | empty | name => exact ⟨s :: t, e, by simp [pushLastSegment, hk], by simp, he⟩
    · rintro ⟨t, bottom, hresolve, hne, hbottom⟩
      obtain ⟨x, t, rfl⟩ := exists_cons_of_ne_nil hne
      have extend : ∀ t' : List α, l.foldl (pushSegment kind) [] = t' ++ [bottom] →
          (kind s = .parent → t' ≠ []) → EmptyFirst ((l ++ [s]).map kind) := by
        intro t' hl hpos
        obtain ⟨a, b, hmap, ha, hb, hcount⟩ := exists_of_foldl_bottom kind l hl hbottom
        obtain ⟨hparent, hkept⟩ := count_append_singleton b (kind s)
        refine ⟨a, b ++ [kind s], by simp [hmap], by simp, ha, hb.append_singleton ?_⟩
        rw [hparent, hkept]
        by_cases hk : kind s = .parent
        · have := length_pos_iff.mpr (hpos hk)
          simp only [hk, SegmentKind.kept, if_true, Bool.false_eq_true, if_false]
          omega
        · rw [if_neg hk]
          omega
      cases hk : kind s with
      | current | empty | name =>
        simp only [pushLastSegment, hk, cons_append, List.cons.injEq] at hresolve
        exact extend t hresolve.2 (by simp [hk])
      | parent =>
        simp only [pushLastSegment, hk, cons_append, List.cons.injEq] at hresolve
        cases hl : l.foldl (pushSegment kind) [] with
        | nil => simp [hl] at hresolve
        | cons u stack =>
          rw [hl, tail_cons] at hresolve
          exact extend (u :: t) (by rw [hl, hresolve.2]; rfl) (by simp)

end

end Baselib.Lib
