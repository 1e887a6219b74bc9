/-
Baselib.Lib.Checked — computations which may fail, `Except`: what is known of
the parts of one which succeeded.
-/
import Mathlib.Data.List.Forall2

namespace Baselib.Lib.Checked

universe u

variable {ε α β : Type u}

theorem bind_eq_ok {x : Except ε α} {f : α → Except ε β} {b : β} :
    (x >>= f) = .ok b ↔ ∃ a, x = .ok a ∧ f a = .ok b := by
  cases x with
  | error e => exact ⟨nofun, fun ⟨_, h, _⟩ => (by cases h)⟩
  | ok a =>
    constructor
    · exact fun h => ⟨a, rfl, h⟩
    · rintro ⟨_, h, hf⟩
      cases h
      exact hf

/-- A list is converted when every item of it is. -/
theorem mapM_eq_ok {f : α → Except ε β} {l : List α} : ∀ {r : List β},
    l.mapM f = .ok r ↔ List.Forall₂ (fun a b => f a = .ok b) l r := by
  induction l with
  | nil =>
    intro r
    rw [List.mapM_nil]
    constructor
    · intro h
      cases h
      exact .nil
    · intro h
      cases h
      rfl
  | cons a l ih =>
    intro r
    rw [List.mapM_cons, bind_eq_ok]
    constructor
    · rintro ⟨b, hb, h⟩
      obtain ⟨bs, hbs, hr⟩ := bind_eq_ok.mp h
      cases hr
      exact .cons hb (ih.mp hbs)
    · intro h
      cases h with
      | cons hb hbs => exact ⟨_, hb, bind_eq_ok.mpr ⟨_, ih.mpr hbs, rfl⟩⟩

/-! ## Two lists item by item -/

section

variable {γ : Type u} {R : α → β → Prop} {S : β → γ → Prop} {T : α → γ → Prop}

theorem forall₂_exists {l : List α} {l' : List β} (h : List.Forall₂ R l l')
    (hstep : ∀ a ∈ l, ∀ b, R a b → ∃ c, S b c ∧ T a c) :
    ∃ l'' : List γ, List.Forall₂ S l' l'' ∧ List.Forall₂ T l l'' := by
  induction h with
  | nil => exact ⟨[], .nil, .nil⟩
  | @cons a b l l' hab _ ih =>
    obtain ⟨c, hbc, hac⟩ := hstep a List.mem_cons_self b hab
    obtain ⟨l'', hS, hT⟩ := ih fun a ha => hstep a (List.mem_cons_of_mem _ ha)
    exact ⟨c :: l'', .cons hbc hS, .cons hac hT⟩

theorem getElem?_of_forall₂ {l : List α} {l' : List β} (h : List.Forall₂ R l l') {index : Nat}
    {a : α} (ha : l[index]? = some a) : ∃ b, l'[index]? = some b ∧ R a b := by
  induction h generalizing index with
  | nil => cases ha
  | @cons _ b l l' hab _ ih =>
    cases index with
    | zero =>
      cases ha
      exact ⟨b, rfl, hab⟩
    | succ index => exact ih ha

theorem exists_of_mem_right {l : List α} {l' : List β} (h : List.Forall₂ R l l') {b : β}
    (hb : b ∈ l') : ∃ a ∈ l, R a b := by
  obtain ⟨index, hindex⟩ := List.mem_iff_getElem?.mp hb
  obtain ⟨a, ha, hab⟩ := getElem?_of_forall₂ h.flip hindex
  exact ⟨a, List.mem_of_getElem? ha, hab⟩

theorem map_eq_of_forall₂ {f : α → γ} {g : β → γ} {l : List α} {l' : List β}
    (h : List.Forall₂ R l l') (heq : ∀ a b, R a b → g b = f a) : l'.map g = l.map f := by
  induction h with
  | nil => rfl
  | cons hab _ ih => rw [List.map_cons, List.map_cons, ih, heq _ _ hab]

end

end Baselib.Lib.Checked
