/-
Baselib.Lib.Transition — runs of a machine whose step is a partial
function of the state and a label.

A component whose critical sections are serialised by one lock is such a
machine: a label names a section together with everything the
environment decides in it, and an interleaving is a list of labels.
-/
import Mathlib.Algebra.GroupWithZero.Nat
import Mathlib.Data.List.Basic

namespace Baselib.Lib.Transition

variable {σ α : Type*} {step : σ → α → Option σ}

/-- A step which a condition refuses. -/
theorem ite_none_some_eq_some {p : Prop} [Decidable p] {s s' : σ} :
    (if p then none else some s) = some s' ↔ ¬p ∧ s = s' := by
  simp

/-! ## Runs -/

/-- The state after the labels, when every one of them is enabled. -/
def run (step : σ → α → Option σ) : σ → List α → Option σ
  | s, [] => some s
  | s, l :: ls => (step s l).bind fun s' => run step s' ls

@[simp] theorem run_nil (s : σ) : run step s [] = some s := rfl

theorem run_cons_eq_some {s s' : σ} {l : α} {ls : List α} :
    run step s (l :: ls) = some s' ↔ ∃ m, step s l = some m ∧ run step m ls = some s' := by
  rw [run, Option.bind_eq_some_iff]

theorem run_append (s : σ) (ls ls' : List α) :
    run step s (ls ++ ls') = (run step s ls).bind fun m => run step m ls' := by
  induction ls generalizing s with
  | nil => rfl
  | cons l ls ih =>
    rw [List.cons_append, run, run, Option.bind_assoc]
    exact congrArg _ (funext ih)

theorem run_append_eq_some {s s' : σ} {ls ls' : List α} :
    run step s (ls ++ ls') = some s' ↔
      ∃ m, run step s ls = some m ∧ run step m ls' = some s' := by
  rw [run_append, Option.bind_eq_some_iff]

theorem run_singleton (s : σ) (l : α) : run step s [l] = step s l := by
  rw [run]
  exact Option.bind_fun_some _

/-! ## Conditions along a run -/

/-- `C` holds of every step of the run, in the state before it. -/
def Along (step : σ → α → Option σ) (C : σ → α → Prop) : σ → List α → Prop
  | _, [] => True
  | s, l :: ls => C s l ∧ ∀ s', step s l = some s' → Along step C s' ls

/-- `P` holds in every state the run passes through after its first. -/
def Throughout (step : σ → α → Option σ) (P : σ → Prop) : σ → List α → Prop
  | _, [] => True
  | s, l :: ls => ∀ s', step s l = some s' → P s' ∧ Throughout step P s' ls

theorem Along.mono {C D : σ → α → Prop} (h : ∀ s l, C s l → D s l) {ls : List α} :
    ∀ {s : σ}, Along step C s ls → Along step D s ls := by
  induction ls with
  | nil => intros; trivial
  | cons l ls ih => exact fun hc => ⟨h _ _ hc.1, fun s' hs' => ih (hc.2 s' hs')⟩

/-- A condition which holds at every place of the run. -/
theorem along_of_splits {C : σ → α → Prop} {ls : List α} :
    ∀ {s : σ}, (∀ ls₁ l ls₂ m, ls = ls₁ ++ l :: ls₂ → run step s ls₁ = some m → C m l) →
      Along step C s ls := by
  induction ls with
  | nil => intros; trivial
  | cons l ls ih =>
    intro s h
    refine ⟨h [] l ls s rfl rfl, fun s' hs' => ih fun ls₁ l' ls₂ m hls hrun => ?_⟩
    refine h (l :: ls₁) l' ls₂ m (congrArg (List.cons l) hls) ?_
    exact run_cons_eq_some.mpr ⟨s', hs', hrun⟩

theorem Along.and {C D : σ → α → Prop} {ls : List α} :
    ∀ {s : σ}, Along step C s ls → Along step D s ls →
      Along step (fun s l => C s l ∧ D s l) s ls := by
  induction ls with
  | nil => intros; trivial
  | cons l ls ih =>
    exact fun hc hd => ⟨⟨hc.1, hd.1⟩, fun s' hs' => ih (hc.2 s' hs') (hd.2 s' hs')⟩

/-- A condition along a run is one along its two parts. -/
theorem along_append {C : σ → α → Prop} {ls ls' : List α} :
    ∀ {s : σ}, Along step C s (ls ++ ls') ↔
      Along step C s ls ∧ ∀ m, run step s ls = some m → Along step C m ls' := by
  induction ls with
  | nil =>
    intro s
    simp only [List.nil_append, Along, true_and, run_nil, Option.some.injEq, forall_eq']
  | cons l ls ih =>
    intro s
    simp only [List.cons_append, Along, ih, run_cons_eq_some, forall_and, and_assoc,
      forall_exists_index, and_imp]
    refine and_congr_right fun _ => and_congr_right fun _ => ⟨?_, ?_⟩
    · exact fun h m m' hm' hrun => h m' hm' m hrun
    · exact fun h m' hm' m hrun => h m m' hm' hrun

/-- The invariant rule: what every step keeps, under a condition on the
step, holds at the end of a run whose steps meet the condition. -/
theorem run_invariant {P : σ → Prop} {C : σ → α → Prop}
    (hstep : ∀ s l s', P s → C s l → step s l = some s' → P s') {ls : List α} :
    ∀ {s s' : σ}, P s → Along step C s ls → run step s ls = some s' → P s' := by
  induction ls with
  | nil =>
    intro s s' hs _ hrun
    cases hrun
    exact hs
  | cons l ls ih =>
    intro s s' hs hC hrun
    obtain ⟨m, hm, hrun⟩ := run_cons_eq_some.mp hrun
    exact ih (hstep s l m hs hC.1 hm) (hC.2 m hm) hrun

/-- The invariant rule for a state beside what was observed of the labels so
far. -/
theorem run_observed {η : Type*} {observe : η → α → η} {P : η → σ → Prop}
    (hstep : ∀ h s l s', P h s → step s l = some s' → P (observe h l) s') {ls : List α} :
    ∀ {h : η} {s s' : σ}, P h s → run step s ls = some s' → P (ls.foldl observe h) s' := by
  induction ls with
  | nil =>
    intro h s s' hs hrun
    cases hrun
    exact hs
  | cons l ls ih =>
    intro h s s' hs hrun
    obtain ⟨m, hm, hrun⟩ := run_cons_eq_some.mp hrun
    exact ih (hstep h s l m hs hm) hrun

/-- Every step pays for its cost out of the potential, or gains some: over
a run the costs are covered by what was there and what came in. -/
theorem run_potential {I : σ → Prop} {potential : σ → Nat} {cost gain : α → Nat}
    (hinv : ∀ s l s', I s → step s l = some s' → I s')
    (hstep : ∀ s l s', I s → step s l = some s' →
      potential s' + cost l ≤ potential s + gain l) {ls : List α} :
    ∀ {s s' : σ}, I s → run step s ls = some s' →
      potential s' + (ls.map cost).sum ≤ potential s + (ls.map gain).sum := by
  induction ls with
  | nil =>
    intro s s' _ hrun
    cases hrun
    exact Nat.le_refl _
  | cons l ls ih =>
    intro s s' hI hrun
    obtain ⟨m, hm, hrun⟩ := run_cons_eq_some.mp hrun
    have hone := hstep s l m hI hm
    have hrest := ih (hinv s l m hI hm) hrun
    rw [List.map_cons, List.sum_cons, List.map_cons, List.sum_cons]
    omega

theorem along_true {ls : List α} : ∀ {s : σ}, Along step (fun _ _ => True) s ls := by
  induction ls with
  | nil => intros; trivial
  | cons l ls ih => exact ⟨trivial, fun _ _ => ih⟩

/-- When a step keeps the invariant and reaches `P` exactly under its
condition, the run stays in `P` exactly when its steps meet theirs. -/
theorem throughout_iff_along {I P : σ → Prop} {C : σ → α → Prop}
    (hinv : ∀ s l s', I s → step s l = some s' → I s')
    (hstep : ∀ s l s', I s → P s → step s l = some s' → (P s' ↔ C s l)) {ls : List α} :
    ∀ {s s' : σ}, I s → P s → run step s ls = some s' →
      (Throughout step P s ls ↔ Along step C s ls) := by
  induction ls with
  | nil => intros; exact Iff.rfl
  | cons l ls ih =>
    intro s s' hI hP hrun
    obtain ⟨m, hm, hrun⟩ := run_cons_eq_some.mp hrun
    have hone : ∀ s', step s l = some s' ↔ s' = m := by
      intro s'
      rw [hm, Option.some_inj, eq_comm]
    simp only [Throughout, Along, hone, forall_eq]
    rw [← hstep s l m hI hP hm]
    exact and_congr_right fun hPm => ih (hinv s l m hI hm) hPm hrun

/-- A condition which can be decided at each step can be decided along a
run. -/
instance decidableAlong {C : σ → α → Prop} [∀ s l, Decidable (C s l)] :
    ∀ (s : σ) (ls : List α), Decidable (Along step C s ls)
  | _, [] => isTrue trivial
  | s, l :: ls =>
    have : Decidable (∀ s', step s l = some s' → Along step C s' ls) :=
      match step s l with
      | none => isTrue fun _ h => nomatch h
      | some m =>
        have := decidableAlong (C := C) m ls
        decidable_of_iff (Along step C m ls)
          ⟨fun h _ hs' => Option.some.inj hs' ▸ h, fun h => h m rfl⟩
    inferInstanceAs (Decidable (C s l ∧ _))

/-! ## Reachability -/

/-- Some run leads from an initial state to `s`. -/
def Reachable (step : σ → α → Option σ) (init : σ → Prop) (s : σ) : Prop :=
  ∃ s₀ ls, init s₀ ∧ run step s₀ ls = some s

/-- What holds initially and is kept by every step holds in every
reachable state. -/
theorem Reachable.invariant {init P : σ → Prop} (hinit : ∀ s, init s → P s)
    (hstep : ∀ s l s', P s → step s l = some s' → P s') {s : σ} (h : Reachable step init s) :
    P s := by
  obtain ⟨s₀, ls, h₀, hrun⟩ := h
  exact run_invariant (fun s l s' hs _ hstep' => hstep s l s' hs hstep') (hinit s₀ h₀)
    along_true hrun

end Baselib.Lib.Transition
