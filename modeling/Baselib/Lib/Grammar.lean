/-
Baselib.Lib.Grammar — the operators of ABNF over `Language`, and the
rules a proof about a recogniser needs of them.

A terminal is a class of letters (`single`), alternation is `+`,
concatenation is `*`, repetition is `∗`, `n` copies are `^ n`, an
option is `opt` and "at most `n`" is `upTo n`. `Over P L` says that
every letter of every word of `L` satisfies `P`; it is closed under all
the operators, so the alphabet of a production is read off its
definition.
-/
import Baselib.Lib.Octets
import Mathlib.Computability.Language

namespace Baselib.Lib

open Computability List
open Language (append_mem_mul mem_add mem_mul mem_one nil_mem_kstar)

variable {α : Type}

/-! ## Operators -/

/-- One letter of a class. -/
def single (p : α → Bool) : Language α := {w | ∃ c, p c = true ∧ w = [c]}

/-- `[ l ]`. -/
def opt (l : Language α) : Language α := 1 + l

/-- `*n( l )`, at most `n` copies. -/
def upTo (n : Nat) (l : Language α) : Language α := opt l ^ n

variable {l : Language α} {p : α → Bool} {w : List α}

theorem mem_single : w ∈ single p ↔ ∃ c, p c = true ∧ w = [c] := Iff.rfl

theorem mem_opt : w ∈ opt l ↔ w = [] ∨ w ∈ l := by
  rw [opt, mem_add, mem_one]

@[simp] theorem nil_not_mem_single : [] ∉ single p := by
  simp [mem_single]

@[simp] theorem singleton_mem_single {c : α} : [c] ∈ single p ↔ p c = true := by
  simp [mem_single]

@[simp] theorem cons_cons_not_mem_single {c d : α} : c :: d :: w ∉ single p := by
  simp [mem_single]

theorem single_add (p q : α → Bool) : single p + single q = single fun c => p c || q c := by
  ext w
  simp only [mem_add, mem_single, Bool.or_eq_true]
  constructor
  · rintro (⟨c, h, rfl⟩ | ⟨c, h, rfl⟩)
    · exact ⟨c, .inl h, rfl⟩
    · exact ⟨c, .inr h, rfl⟩
  · rintro ⟨c, h | h, rfl⟩
    · exact .inl ⟨c, h, rfl⟩
    · exact .inr ⟨c, h, rfl⟩

@[simp] theorem cons_mem_single_mul {c : α} : c :: w ∈ single p * l ↔ p c = true ∧ w ∈ l := by
  rw [mem_mul]
  constructor
  · rintro ⟨_, ⟨d, hd, rfl⟩, v, hv, h⟩
    simp only [cons_append, nil_append, List.cons.injEq] at h
    obtain ⟨rfl, rfl⟩ := h
    exact ⟨hd, hv⟩
  · rintro ⟨hc, hw⟩
    exact ⟨[c], ⟨c, hc, rfl⟩, w, hw, rfl⟩

@[simp] theorem not_nil_mem_single_mul : [] ∉ single p * l := by
  rw [mem_mul]
  rintro ⟨_, ⟨d, -, rfl⟩, v, -, h⟩
  simp at h

theorem nil_mem_mul {m : Language α} : [] ∈ l * m ↔ [] ∈ l ∧ [] ∈ m := by
  rw [mem_mul]
  constructor
  · rintro ⟨a, ha, b, hb, h⟩
    obtain ⟨rfl, rfl⟩ := append_eq_nil_iff.mp h
    exact ⟨ha, hb⟩
  · rintro ⟨ha, hb⟩
    exact ⟨[], ha, [], hb, rfl⟩

/-! ## Repetition -/

/-- A word of `l∗` is empty or starts with a word of `l`. -/
theorem mem_kstar_cases : w ∈ l∗ ↔ w = [] ∨ w ∈ l * l∗ := by
  rw [← mem_one, ← mem_add, Language.one_add_self_mul_kstar_eq_kstar]

theorem mem_kstar_of_mem (h : w ∈ l) : w ∈ l∗ :=
  Language.mem_kstar.mpr ⟨[w], by simp, by simpa using h⟩

theorem append_mem_kstar {v : List α} (hv : v ∈ l∗) (hw : w ∈ l∗) : v ++ w ∈ l∗ := by
  obtain ⟨L, rfl, hL⟩ := Language.mem_kstar.mp hv
  obtain ⟨M, rfl, hM⟩ := Language.mem_kstar.mp hw
  exact Language.mem_kstar.mpr ⟨L ++ M, by simp, by
    intro y hy
    rcases mem_append.mp hy with hy | hy
    · exact hL y hy
    · exact hM y hy⟩

theorem kstar_mono {m : Language α} (h : ∀ w ∈ l, w ∈ m) (hw : w ∈ l∗) : w ∈ m∗ := by
  obtain ⟨L, rfl, hL⟩ := Language.mem_kstar.mp hw
  exact Language.mem_kstar.mpr ⟨L, rfl, fun y hy => h y (hL y hy)⟩

/-- Words of `l∗` by adding one word of `l` in front at a time. -/
theorem kstar_induction {P : List α → Prop} (nil : P [])
    (cons : ∀ v ∈ l, ∀ w ∈ l∗, P w → P (v ++ w)) : ∀ w ∈ l∗, P w := by
  intro w hw
  obtain ⟨L, rfl, hL⟩ := Language.mem_kstar.mp hw
  clear hw
  induction L with
  | nil => exact nil
  | cons v L ih =>
    have hL' : ∀ y ∈ L, y ∈ l := fun y hy => hL y (by simp [hy])
    rw [flatten_cons]
    exact cons v (hL v (by simp)) _ (Language.join_mem_kstar hL') (ih hL')

/-- One or more words, none of them empty. -/
theorem mem_mul_kstar (hl : [] ∉ l) : w ∈ l * l∗ ↔ w ∈ l∗ ∧ w ≠ [] := by
  rw [mem_kstar_cases]
  constructor
  · intro h
    refine ⟨.inr h, ?_⟩
    rintro rfl
    exact hl (nil_mem_mul.mp h).1
  · exact fun h => h.1.resolve_left h.2

/-- A repetition in which one alternative, a single letter, was not used. -/
theorem mem_kstar_of_mem_add (hw : w ∈ (l + single p)∗) (hp : ∀ c ∈ w, p c = false) : w ∈ l∗ := by
  revert hp
  refine kstar_induction (P := fun w => (∀ c ∈ w, p c = false) → w ∈ l∗) ?_ ?_ w hw
  · exact fun _ => nil_mem_kstar _
  · intro v hv w _ ih hp
    have hw := ih fun c hc => hp c (mem_append_right _ hc)
    rcases (mem_add _ _ _).mp hv with hv | ⟨c, hc, rfl⟩
    · exact append_mem_kstar (mem_kstar_of_mem hv) hw
    · exact absurd (hp c (by simp)) (by simp [hc])

/-- Repetitions of a letter class are the words over it. -/
theorem mem_single_kstar : w ∈ (single p)∗ ↔ w.all p = true := by
  induction w with
  | nil => simp [nil_mem_kstar]
  | cons c w ih =>
    rw [mem_kstar_cases, cons_mem_single_mul, ih]
    simp

/-- One or more letters of a class. -/
theorem mem_single_plus : w ∈ single p * (single p)∗ ↔ w ≠ [] ∧ w.all p = true := by
  cases w with
  | nil => simp
  | cons c w => simp [mem_single_kstar]

/-- A mixed repetition is a block of the one, then blocks of the other
each followed by a block of the one. -/
theorem mem_add_kstar {m : Language α} : w ∈ (l + m)∗ ↔ w ∈ l∗ * (m * l∗)∗ := by
  constructor
  · refine kstar_induction ?_ ?_ w
    · exact append_mem_mul (nil_mem_kstar _) (nil_mem_kstar _)
    · intro v hv w _ ih
      obtain ⟨a, ha, b, hb, rfl⟩ := mem_mul.mp ih
      rcases (mem_add _ _ _).mp hv with hv | hv
      · rw [← append_assoc]
        exact append_mem_mul (append_mem_kstar (mem_kstar_of_mem hv) ha) hb
      · refine mem_mul.mpr ⟨[], nil_mem_kstar _, v ++ a ++ b, ?_, by simp⟩
        exact append_mem_kstar (mem_kstar_of_mem (append_mem_mul hv ha)) hb
  · intro h
    obtain ⟨a, ha, b, hb, rfl⟩ := mem_mul.mp h
    have left : ∀ v ∈ l∗, v ∈ (l + m)∗ := fun v hv =>
      kstar_mono (fun w hw => (mem_add _ _ _).mpr (.inl hw)) hv
    refine append_mem_kstar (left a ha) (kstar_induction ?_ ?_ b hb)
    · exact nil_mem_kstar _
    · intro v hv w _ ih
      obtain ⟨x, hx, y, hy, rfl⟩ := mem_mul.mp hv
      have hx' : x ∈ (l + m)∗ :=
        mem_kstar_of_mem ((mem_add _ _ _).mpr (.inr hx))
      exact append_mem_kstar (append_mem_kstar hx' (left y hy)) ih

/-! ## Alphabets -/

/-- Every letter of every word satisfies `P`. -/
def Over (P : α → Prop) (l : Language α) : Prop := ∀ w ∈ l, ∀ c ∈ w, P c

namespace Over

variable {P : α → Prop} {l m : Language α}

theorem single (h : ∀ c, p c = true → P c) : Over P (Lib.single p) := by
  rintro _ ⟨c, hc, rfl⟩ d hd
  rw [mem_singleton.mp hd]
  exact h c hc

theorem one : Over P (1 : Language α) := by
  intro w hw c hc
  rw [(mem_one w).mp hw] at hc
  simp at hc

theorem add (hl : Over P l) (hm : Over P m) : Over P (l + m) := by
  intro w hw
  rcases (mem_add _ _ _).mp hw with hw | hw
  · exact hl w hw
  · exact hm w hw

theorem mul (hl : Over P l) (hm : Over P m) : Over P (l * m) := by
  intro w hw c hc
  obtain ⟨a, ha, b, hb, rfl⟩ := mem_mul.mp hw
  rcases mem_append.mp hc with hc | hc
  · exact hl a ha c hc
  · exact hm b hb c hc

theorem opt (hl : Over P l) : Over P (Lib.opt l) := one.add hl

theorem pow (hl : Over P l) : ∀ n : Nat, Over P (l ^ n)
  | 0 => by rw [pow_zero]; exact one
  | n + 1 => by rw [pow_succ]; exact (pow hl n).mul hl

theorem upTo (hl : Over P l) (n : Nat) : Over P (Lib.upTo n l) := hl.opt.pow n

theorem kstar (hl : Over P l) : Over P l∗ := by
  intro w hw c hc
  obtain ⟨L, rfl, hL⟩ := Language.mem_kstar.mp hw
  obtain ⟨v, hv, hcv⟩ := mem_flatten.mp hc
  exact hl v (hL v hv) c hcv

end Over

/-! ## Renamings of letters -/

/-- Every word stays a word when its letters are renamed. -/
def Closed (f : α → α) (l : Language α) : Prop := ∀ w ∈ l, w.map f ∈ l

namespace Closed

variable {f : α → α} {l m : Language α}

theorem single (h : ∀ c, p c = true → p (f c) = true) : Closed f (Lib.single p) := by
  rintro _ ⟨c, hc, rfl⟩
  exact ⟨f c, h c hc, rfl⟩

theorem one : Closed f (1 : Language α) := by
  intro w hw
  rw [(mem_one w).mp hw]
  exact Language.nil_mem_one

theorem add (hl : Closed f l) (hm : Closed f m) : Closed f (l + m) := by
  intro w hw
  rcases (mem_add _ _ _).mp hw with hw | hw
  · exact (mem_add _ _ _).mpr (.inl (hl w hw))
  · exact (mem_add _ _ _).mpr (.inr (hm w hw))

theorem mul (hl : Closed f l) (hm : Closed f m) : Closed f (l * m) := by
  intro w hw
  obtain ⟨a, ha, b, hb, rfl⟩ := mem_mul.mp hw
  rw [map_append]
  exact append_mem_mul (hl a ha) (hm b hb)

theorem pow (hl : Closed f l) : ∀ n : Nat, Closed f (l ^ n)
  | 0 => by rw [pow_zero]; exact one
  | n + 1 => by rw [pow_succ]; exact (pow hl n).mul hl

theorem upTo (hl : Closed f l) (n : Nat) : Closed f (Lib.upTo n l) := (one.add hl).pow n

theorem kstar (hl : Closed f l) : Closed f l∗ := by
  refine kstar_induction (nil_mem_kstar _) ?_
  intro v hv w _ ih
  rw [map_append]
  exact append_mem_kstar (mem_kstar_of_mem (hl v hv)) ih

/-- Nothing happens to letters which are not renamed. -/
theorem of_fixed (h : ∀ w ∈ l, ∀ c ∈ w, f c = c) : Closed f l := by
  intro w hw
  have hmap : w.map f = w.map id := map_congr_left (h w hw)
  rwa [hmap, map_id]

end Closed

/-! ## Bounded repetition -/

/-- At most `n` copies is `k` copies for some `k ≤ n`. -/
theorem mem_upTo : ∀ {n : Nat} {w : List α}, w ∈ upTo n l ↔ ∃ k, k ≤ n ∧ w ∈ l ^ k
  | 0, w => by simp [upTo]
  | n + 1, w => by
      rw [upTo, pow_succ', ← upTo, opt, add_mul, one_mul, mem_add]
      constructor
      · rintro (h | h)
        · obtain ⟨k, hk, h⟩ := mem_upTo.mp h
          exact ⟨k, by omega, h⟩
        · obtain ⟨a, ha, b, hb, rfl⟩ := mem_mul.mp h
          obtain ⟨k, hk, hb⟩ := mem_upTo.mp hb
          refine ⟨k + 1, by omega, ?_⟩
          rw [pow_succ']
          exact append_mem_mul ha hb
      · rintro ⟨k, hk, h⟩
        cases k with
        | zero => exact .inl (mem_upTo.mpr ⟨0, by omega, h⟩)
        | succ k =>
          rw [pow_succ'] at h
          obtain ⟨a, ha, b, hb, rfl⟩ := mem_mul.mp h
          exact .inr (append_mem_mul ha (mem_upTo.mpr ⟨k, by omega, hb⟩))

/-- `n` letters of a class. -/
theorem mem_single_pow : ∀ {n : Nat} {w : List α}, w ∈ single p ^ n ↔ w.length = n ∧ w.all p = true
  | 0, w => by
      rw [pow_zero, mem_one, length_eq_zero_iff]
      constructor
      · rintro rfl; simp
      · exact fun h => h.1
  | n + 1, [] => by
      rw [pow_succ']
      simp [not_nil_mem_single_mul]
  | n + 1, c :: w => by
      rw [pow_succ', cons_mem_single_mul, mem_single_pow]
      simp only [length_cons, Nat.add_right_cancel_iff, all_cons, Bool.and_eq_true]
      tauto

/-! ## Delimiters

A part which cannot contain the delimiter after it is the text before
the first occurrence of that delimiter. -/

section

variable [DecidableEq α] {l m : Language α} {c : α} {a b : List α}

theorem mem_mul_delimiter (hl : ∀ w ∈ l, c ∉ w) (ha : c ∉ a) :
    a ++ c :: b ∈ l * (single (c == ·) * m) ↔ a ∈ l ∧ b ∈ m := by
  rw [mem_mul]
  constructor
  · rintro ⟨v, hv, _, hcw, h⟩
    obtain ⟨_, ⟨d, hd, rfl⟩, w, hw, rfl⟩ := mem_mul.mp hcw
    obtain rfl := eq_of_beq hd
    obtain ⟨rfl, rfl⟩ := (append_cons_inj (hl v hv) ha).mp h
    exact ⟨hv, hw⟩
  · rintro ⟨hv, hw⟩
    exact ⟨a, hv, c :: b, cons_mem_single_mul.mpr ⟨beq_self_eq_true c, hw⟩, rfl⟩

/-- Without the delimiter there is no second part. -/
theorem not_mem_mul_delimiter (ha : c ∉ a) : a ∉ l * (single (c == ·) * m) := by
  rw [mem_mul]
  rintro ⟨v, -, _, hw, rfl⟩
  obtain ⟨_, ⟨d, hd, rfl⟩, w, -, rfl⟩ := mem_mul.mp hw
  obtain rfl := eq_of_beq hd
  exact ha (by simp)

theorem mem_mul_opt_delimiter (hl : ∀ w ∈ l, c ∉ w) (ha : c ∉ a) :
    a ++ c :: b ∈ l * opt (single (c == ·) * m) ↔ a ∈ l ∧ b ∈ m := by
  rw [opt, mul_add, mul_one, mem_add, mem_mul_delimiter hl ha]
  constructor
  · rintro (h | h)
    · exact absurd (by simp) (hl _ h)
    · exact h
  · exact .inr

theorem mem_mul_opt_delimiter_of_not_mem (ha : c ∉ a) :
    a ∈ l * opt (single (c == ·) * m) ↔ a ∈ l := by
  rw [opt, mul_add, mul_one, mem_add]
  exact ⟨fun h => h.resolve_right (not_mem_mul_delimiter ha), .inl⟩

/-- An optional first part with its delimiter. -/
theorem mem_opt_delimiter_mul (hl : ∀ w ∈ l, c ∉ w) (hm : ∀ w ∈ m, c ∉ w) (ha : c ∉ a) :
    a ++ c :: b ∈ opt (l * single (c == ·)) * m ↔ a ∈ l ∧ b ∈ m := by
  rw [opt, add_mul, one_mul, mul_assoc, mem_add, mem_mul_delimiter hl ha]
  exact or_iff_right fun h => hm _ h (by simp)

theorem mem_opt_delimiter_mul_of_not_mem (ha : c ∉ a) :
    a ∈ opt (l * single (c == ·)) * m ↔ a ∈ m := by
  rw [opt, add_mul, one_mul, mul_assoc, mem_add]
  exact or_iff_left (not_mem_mul_delimiter ha)

/-- A list of parts is what its delimiters cut it into. -/
theorem mem_delimited (hl : ∀ w ∈ l, c ∉ w) (hm : ∀ w ∈ m, c ∉ w) : ∀ {n : Nat} {w : List α},
    w ∈ (l * single (c == ·)) ^ n * m ↔
      ∃ ps p, w.splitOn c = ps ++ [p] ∧ ps.length = n ∧ (∀ q ∈ ps, q ∈ l) ∧ p ∈ m
  | 0, w => by
      rw [pow_zero, one_mul]
      constructor
      · exact fun h => ⟨[], w, splitOn_eq_singleton (hm w h), rfl, by simp, h⟩
      · rintro ⟨ps, p, hsplit, hps, -, hp⟩
        rw [length_eq_zero_iff.mp hps] at hsplit
        have hw : [c].intercalate (w.splitOn c) = w := intercalate_splitOn c
        rw [hsplit] at hw
        simpa [← hw] using hp
  | n + 1, w => by
      rw [pow_succ', mul_assoc, mul_assoc]
      obtain ⟨a, ha, rfl | ⟨b, rfl⟩⟩ := exists_cut c w
      · rw [splitOn_eq_singleton ha]
        refine iff_of_false (not_mem_mul_delimiter ha) ?_
        rintro ⟨ps, p, hsplit, hps, -⟩
        have := congrArg List.length hsplit
        simp only [length_singleton, length_append] at this
        omega
      · rw [splitOn_append_cons_self_of_not_mem ha, mem_mul_delimiter hl ha,
          mem_delimited hl hm]
        constructor
        · rintro ⟨hal, ps, p, hsplit, hps, hq, hp⟩
          refine ⟨a :: ps, p, by rw [hsplit]; rfl, by simp [hps], ?_, hp⟩
          simpa using ⟨hal, hq⟩
        · rintro ⟨ps, p, hsplit, hps, hq, hp⟩
          obtain ⟨q, ps, rfl⟩ := exists_cons_of_length_eq_add_one hps
          simp only [cons_append, List.cons.injEq] at hsplit
          obtain ⟨rfl, hsplit⟩ := hsplit
          exact ⟨hq a (by simp), ps, p, hsplit, by simpa using hps,
            fun q hmem => hq q (by simp [hmem]), hp⟩

end

end Baselib.Lib
