/-
Baselib.Lib.Loop — loops which run until their body answers.

A body takes the state to the next state, or it answers. A number of rounds
bounds the loop; `none` is a loop which has not answered within them. More
rounds do not change an answer, a measure which drops in every round gives
enough of them, and an invariant of the rounds is what the answer is proved
from.
-/
import Mathlib.Data.Nat.Notation

namespace Baselib.Lib

variable {σ β : Type} {body : σ → σ ⊕ β}

/-- The answer of the loop, if it comes within `n` rounds. -/
def loop (body : σ → σ ⊕ β) : Nat → σ → Option β
  | 0, _ => none
  | n + 1, s =>
    match body s with
    | .inl s' => loop body n s'
    | .inr b => some b

theorem loop_next {s s' : σ} (h : body s = .inl s') (n : Nat) :
    loop body (n + 1) s = loop body n s' := by
  simp [loop, h]

theorem loop_answer {s : σ} {b : β} (h : body s = .inr b) (n : Nat) :
    loop body (n + 1) s = some b := by
  simp [loop, h]

/-- A loop which takes something off the measure in every round answers. -/
theorem loop_terminates (measure : σ → Nat)
    (hmeasure : ∀ s s', body s = .inl s' → measure s' < measure s) {n : Nat} :
    ∀ {s : σ}, measure s < n → ∃ b, loop body n s = some b := by
  induction n with
  | zero => intro s h; omega
  | succ n ih =>
    intro s h
    cases hbody : body s with
    | inl s' =>
      rw [loop_next hbody]
      have hless := hmeasure s s' hbody
      exact ih (by omega)
    | inr b => exact ⟨b, loop_answer hbody n⟩

/-- What holds in every round and of every answer it gives. -/
theorem loop_invariant {I : σ → Prop} {Q : β → Prop}
    (hround : ∀ s s', I s → body s = .inl s' → I s') (hanswer : ∀ s b, I s → body s = .inr b → Q b)
    {n : Nat} {b : β} : ∀ {s : σ}, I s → loop body n s = some b → Q b := by
  induction n with
  | zero => intro s _ h; cases h
  | succ n ih =>
    intro s hI h
    cases hbody : body s with
    | inl s' =>
      rw [loop_next hbody] at h
      exact ih (hround s s' hI hbody) h
    | inr b' =>
      rw [loop_answer hbody] at h
      obtain rfl := Option.some.inj h
      exact hanswer s b' hI hbody

end Baselib.Lib
