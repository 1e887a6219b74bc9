/-
Baselib.Core.UriHost — the host checks against their productions:
dotted quads, the nine alternatives of `IPv6address`, `IPvFuture`.

The nine alternatives count groups. `groups n` is `n` groups with a ':'
between them and `tailGroups n` is the same with the last two groups as
a dotted quad allowed. An address is eight of the latter, or at most
seven with one "::" among them (`mem_ipv6address_iff`), which is what
`chkIpv6Address` counts.
-/
import Baselib.Core.UriTerminals
import Mathlib.Tactic.IntervalCases

namespace Baselib.Core.UriGrammar

open Lib Uri Computability List

/-! ## Dotted quads -/

theorem digit_codes :
    '0'.toNat = 48 ∧ ('0'.toUInt8).toNat = 48 ∧ ('1'.toUInt8).toNat = 49 ∧
      ('2'.toUInt8).toNat = 50 ∧ ('4'.toUInt8).toNat = 52 ∧ ('5'.toUInt8).toNat = 53 ∧
      ('9'.toUInt8).toNat = 57 := by
  decide

theorem digit_bounds {ch : UInt8} : isDigit ch = true ↔ 48 ≤ ch.toNat ∧ ch.toNat ≤ 57 := by
  revert ch; decide +kernel

theorem isDecOctet_iff (w : Octets) : isDecOctet w = true ↔ w ∈ decOctet := by
  obtain ⟨hz, h0, h1, h2, h4, h5, h9⟩ := digit_codes
  simp only [decOctet, digit_eq, range, lit, pow_two, mul_assoc, Language.mem_add]
  rcases w with _ | ⟨a, _ | ⟨b, _ | ⟨c, _ | ⟨d, w⟩⟩⟩⟩
  · simp [isDecOctet]
  · have hle : isDigit a = true → digitsValue [a] ≤ 255 := by
      rw [digit_bounds]
      simp only [digitsValue, foldl_cons, foldl_nil, hz]
      omega
    simpa [isDecOctet] using hle
  · simp only [isDecOctet, digitsValue]
    simp [digit_bounds, UInt8.le_iff_toNat_le, ← UInt8.toNat_inj, hz, h0, h1, h9]
    omega
  · simp only [isDecOctet, digitsValue]
    simp [digit_bounds, UInt8.le_iff_toNat_le, ← UInt8.toNat_inj, hz, h0, h1, h2, h4, h5]
    omega
  · simp [isDecOctet]

/-- Neither a group nor a dotted quad has a delimiter of the other. -/
theorem decOctet_not_mem (ch : UInt8) (hch : isDigit ch = false) : ∀ w ∈ decOctet, ch ∉ w := by
  intro w hw hmem
  rw [← isDecOctet_iff, isDecOctet] at hw
  split at hw
  · simp at hw
  · split at hw
    · simp at hw
    · simp only [Bool.and_eq_true, all_eq_true] at hw
      simp [hw.1 ch hmem] at hch

theorem isIpv4Address_iff (w : Octets) : isIpv4Address w = true ↔ w ∈ ipv4address := by
  have hquad : ipv4address = (decOctet * lit '.') ^ 3 * decOctet := by
    simp only [ipv4address, pow_succ, pow_zero, one_mul, mul_assoc]
  have hdot := decOctet_not_mem '.'.toUInt8 (by decide)
  rw [hquad, lit, mem_delimited hdot hdot]
  simp only [isIpv4Address, Bool.and_eq_true, all_eq_true, isDecOctet_iff, beq_iff_eq]
  constructor
  · rintro ⟨hall, hlen⟩
    obtain ⟨ps, p, hsplit⟩ := exists_splitOn '.'.toUInt8 w
    rw [hsplit] at hall hlen ⊢
    simp only [length_append, length_singleton] at hlen
    exact ⟨ps, p, rfl, by omega, fun q hq => hall q (by simp [hq]), hall p (by simp)⟩
  · rintro ⟨ps, p, hsplit, hps, hall, hp⟩
    rw [hsplit]
    refine ⟨?_, by simp [hps]⟩
    intro q hq
    rcases mem_append.mp hq with hq | hq
    · exact hall q hq
    · rwa [mem_singleton.mp hq]

/-! ## Groups -/

theorem isIpv6Group_iff (w : Octets) : isIpv6Group w = true ↔ w ∈ h16 := by
  rw [h16, hexdig_eq]
  cases w with
  | nil => simp [isIpv6Group]
  | cons c w =>
    rw [cons_mem_single_mul, mem_upTo]
    simp only [mem_single_pow, isIpv6Group, isEmpty_cons, length_cons]
    constructor
    · intro h
      split at h
      · simp at h
      · rename_i hlen
        simp only [all_cons, Bool.and_eq_true] at h
        have hk : w.length ≤ 3 := by
          rw [Bool.false_or, decide_eq_true_iff] at hlen
          omega
        exact ⟨h.1, w.length, hk, rfl, h.2⟩
    · rintro ⟨hc, k, hk, rfl, hall⟩
      have hlen : ¬ w.length + 1 > 4 := by omega
      rw [if_neg (by rwa [Bool.false_or, decide_eq_true_iff])]
      simp [hc, hall]

/-- `n` groups. -/
def groups : Nat → Language UInt8
  | 0 => 1
  | n + 1 => h16Colon ^ n * h16

/-- `n` groups, of which the last two may be a dotted quad. -/
def tailGroups : Nat → Language UInt8
  | 0 => 1
  | 1 => h16
  | n + 2 => h16Colon ^ n * ls32

theorem tailGroups_add_two (n : Nat) :
    tailGroups (n + 2) = groups (n + 2) + h16Colon ^ n * ipv4address := by
  simp only [tailGroups, groups, ls32, mul_add, pow_succ, h16Colon, mul_assoc]

theorem h16_not_mem (ch : UInt8) (hch : isHexDigit ch = false) : ∀ w ∈ h16, ch ∉ w := by
  intro w hw hmem
  rw [← isIpv6Group_iff, isIpv6Group] at hw
  split at hw
  · simp at hw
  · simp [all_eq_true.mp hw ch hmem] at hch

theorem ipv4address_not_mem (ch : UInt8) (hdigit : isDigit ch = false) (hdot : ch ≠ '.'.toUInt8) :
    ∀ w ∈ ipv4address, ch ∉ w := by
  have hd : Over (· ≠ ch) decOctet := fun w hw c hc e => decOctet_not_mem _ hdigit w hw (e ▸ hc)
  have hl : Over (· ≠ ch) (lit '.') := Over.single fun c hc e =>
    hdot (by rw [← e]; exact (eq_of_beq hc).symm)
  have hover : Over (· ≠ ch) ipv4address := (((((hd.mul hl).mul hd).mul hl).mul hd).mul hl).mul hd
  exact fun w hw hmem => hover w hw ch hmem rfl

theorem ipv4address_dot {w : Octets} (hw : w ∈ ipv4address) : '.'.toUInt8 ∈ w := by
  by_contra hno
  rw [← isIpv4Address_iff, isIpv4Address, splitOn_eq_singleton hno] at hw
  simp at hw

theorem countPieces_singleton (tail : Bool) (p : Octets) (k : Nat) :
    countPieces tail [p] = some k ↔
      (1 = k ∧ p ∈ h16) ∨ (2 = k ∧ tail = true ∧ p ∈ ipv4address) := by
  rw [← isIpv6Group_iff, ← isIpv4Address_iff]
  by_cases hdot : '.'.toUInt8 ∈ p
  · have h6 : isIpv6Group p = false := by
      by_contra h
      exact h16_not_mem _ (by decide) p ((isIpv6Group_iff p).mp (by simpa using h)) hdot
    cases tail <;> simp [countPieces, hdot, h6, and_comm]
  · have h4 : isIpv4Address p = false := by
      by_contra h
      exact hdot (ipv4address_dot ((isIpv4Address_iff p).mp (by simpa using h)))
    simp [countPieces, hdot, h4, and_comm]

theorem countPieces_append (tail : Bool) (p : Octets) : ∀ ps : List Octets,
    countPieces tail (ps ++ [p])
      = if ps.all isIpv6Group then (countPieces tail [p]).map (· + ps.length) else none
  | [] => by simp
  | q :: ps => by
      have hstep : countPieces tail (q :: (ps ++ [p]))
          = if isIpv6Group q then (countPieces tail (ps ++ [p])).map (· + 1) else none := by
        cases ps <;> rfl
      rw [cons_append, hstep, countPieces_append tail p ps, all_cons]
      cases isIpv6Group q with
      | false => simp
      | true =>
        cases ps.all isIpv6Group with
        | false => simp
        | true => simp [Function.comp_def, Nat.add_assoc]

theorem nil_not_mem_h16 : [] ∉ h16 := by rw [← isIpv6Group_iff]; decide

/-- What the count of the pieces says about them. -/
theorem countIpv6Groups_some {tail : Bool} {w : Octets} {n : Nat} (hw : w ≠ []) :
    countIpv6Groups w tail = some n ↔
      (∃ k, k + 1 = n ∧ w ∈ h16Colon ^ k * h16) ∨
      (tail = true ∧ ∃ k, k + 2 = n ∧ w ∈ h16Colon ^ k * ipv4address) := by
  have hcolon := h16_not_mem ':'.toUInt8 (by decide)
  have hquad := ipv4address_not_mem ':'.toUInt8 (by decide) (by decide)
  obtain ⟨ps, p, hsplit⟩ := exists_splitOn ':'.toUInt8 w
  have hlast : ∀ {m : Language UInt8} {k : Nat},
      (∃ qs q, ps ++ [p] = qs ++ [q] ∧ qs.length = k ∧ (∀ g ∈ qs, g ∈ h16) ∧ q ∈ m) ↔
        ps.length = k ∧ (∀ g ∈ ps, g ∈ h16) ∧ p ∈ m := by
    intro m k
    constructor
    · rintro ⟨qs, q, e, h⟩
      obtain ⟨rfl, elast⟩ := append_inj' e rfl
      obtain rfl := singleton_inj.mp elast
      exact h
    · exact fun h => ⟨ps, p, rfl, h⟩
  have hall : ps.all isIpv6Group = true ↔ ∀ g ∈ ps, g ∈ h16 := by
    simp only [all_eq_true, isIpv6Group_iff]
  simp only [h16Colon, lit, mem_delimited hcolon hcolon, mem_delimited hcolon hquad, hsplit, hlast,
    countIpv6Groups, isEmpty_eq_false_iff.mpr hw, countPieces_append, ← hall,
    Bool.false_eq_true, if_false]
  cases ps.all isIpv6Group with
  | false => simp
  | true =>
    simp only [if_true, Option.map_eq_some_iff, countPieces_singleton, true_and]
    constructor
    · rintro ⟨k, ⟨rfl, hp⟩ | ⟨rfl, ht, hp⟩, rfl⟩
      · exact .inl ⟨ps.length, by omega, rfl, hp⟩
      · exact .inr ⟨ht, ps.length, by omega, rfl, hp⟩
    · rintro (⟨k, rfl, rfl, hp⟩ | ⟨ht, k, rfl, rfl, hp⟩)
      · exact ⟨1, .inl ⟨rfl, hp⟩, by omega⟩
      · exact ⟨2, .inr ⟨rfl, ht, hp⟩, by omega⟩

/-- No production which ends in one of these is empty. -/
theorem nil_not_mem_mul {l m : Language UInt8} (hm : [] ∉ m) : [] ∉ l * m := fun h =>
  hm (nil_mem_mul.mp h).2

theorem nil_not_mem_ipv4address : [] ∉ ipv4address := by rw [← isIpv4Address_iff]; decide

theorem mem_groups_iff {w : Octets} {n : Nat} :
    w ∈ groups n ↔ countIpv6Groups w false = some n := by
  by_cases hw : w = []
  · subst hw
    cases n with
    | zero => simp [groups, countIpv6Groups]
    | succ n => simp [groups, countIpv6Groups, nil_not_mem_mul nil_not_mem_h16]
  · rw [countIpv6Groups_some hw]
    cases n with
    | zero => simp [groups, hw]
    | succ n => simp [groups]

theorem mem_tailGroups_iff {w : Octets} {n : Nat} :
    w ∈ tailGroups n ↔ countIpv6Groups w true = some n := by
  by_cases hw : w = []
  · subst hw
    match n with
    | 0 => simp [tailGroups, countIpv6Groups]
    | 1 => simp [tailGroups, countIpv6Groups, nil_not_mem_h16]
    | n + 2 =>
      rw [tailGroups_add_two, Language.mem_add]
      simp [groups, countIpv6Groups, nil_not_mem_mul nil_not_mem_h16,
        nil_not_mem_mul nil_not_mem_ipv4address]
  · rw [countIpv6Groups_some hw]
    match n with
    | 0 => simp [tailGroups, hw]
    | 1 => simp [tailGroups]
    | n + 2 =>
      rw [tailGroups_add_two, Language.mem_add]
      simp [groups]

/-! ## IPv6 addresses -/

/-- At most `n` groups. -/
def upToGroups (n : Nat) : Language UInt8 := {w | ∃ h, h ≤ n ∧ w ∈ groups h}

theorem upToGroups_zero : upToGroups 0 = 1 := by
  ext w
  constructor
  · rintro ⟨h, hh, hw⟩
    obtain rfl : h = 0 := by omega
    exact hw
  · exact fun hw => ⟨0, le_rfl, hw⟩

theorem opt_groups (n : Nat) : opt (upTo n h16Colon * h16) = upToGroups (n + 1) := by
  ext w
  rw [mem_opt, Language.mem_mul]
  constructor
  · rintro (rfl | ⟨a, ha, b, hb, rfl⟩)
    · exact ⟨0, by omega, (Language.mem_one _).mpr rfl⟩
    · obtain ⟨k, hk, ha⟩ := mem_upTo.mp ha
      exact ⟨k + 1, by omega, Language.append_mem_mul ha hb⟩
  · rintro ⟨h, hh, hw⟩
    cases h with
    | zero => exact .inl hw
    | succ k =>
      obtain ⟨a, ha, b, hb, rfl⟩ := Language.mem_mul.mp hw
      exact .inr ⟨a, mem_upTo.mpr ⟨k, by omega, ha⟩, b, hb, rfl⟩

theorem opt_h16 : opt h16 = upToGroups 1 := by
  have := opt_groups 0
  rwa [upTo, pow_zero, one_mul] at this

/-- One alternative with a "::". -/
def compressed (h t : Nat) : Language UInt8 := upToGroups h * (colons * tailGroups t)

theorem ipv6address_eq :
    ipv6address = tailGroups 8 + compressed 0 7 + compressed 1 6 + compressed 2 5 +
      compressed 3 4 + compressed 4 3 + compressed 5 2 + compressed 6 1 + compressed 7 0 := by
  have hthree : tailGroups 3 = h16 * (lit ':' * ls32) := by
    simp only [tailGroups, h16Colon, pow_one, mul_assoc]
  simp only [ipv6address, compressed, opt_groups, opt_h16, upToGroups_zero, hthree, mul_assoc,
    one_mul]
  simp only [tailGroups, Nat.reduceAdd, pow_zero, one_mul, mul_one]

theorem mem_compressed {h t : Nat} {w : Octets} :
    w ∈ compressed h t ↔ ∃ a b, w = a ++ ':'.toUInt8 :: ':'.toUInt8 :: b ∧
      a ∈ upToGroups h ∧ b ∈ tailGroups t := by
  rw [compressed, Language.mem_mul]
  constructor
  · rintro ⟨a, ha, _, hcb, rfl⟩
    rw [colons, mul_assoc, lit] at hcb
    obtain ⟨_, ⟨c, hc, rfl⟩, _, hdb, rfl⟩ := Language.mem_mul.mp hcb
    obtain ⟨_, ⟨d, hd, rfl⟩, b, hb, rfl⟩ := Language.mem_mul.mp hdb
    obtain rfl := eq_of_beq hc
    obtain rfl := eq_of_beq hd
    exact ⟨a, b, rfl, ha, hb⟩
  · rintro ⟨a, b, rfl, ha, hb⟩
    refine ⟨a, ha, _, ?_, rfl⟩
    rw [colons, mul_assoc, lit, cons_mem_single_mul, cons_mem_single_mul]
    exact ⟨by simp, by simp, hb⟩

/-- The nine alternatives: eight groups, or a "::" among at most seven. -/
theorem mem_ipv6address_iff {w : Octets} :
    w ∈ ipv6address ↔ w ∈ tailGroups 8 ∨
      ∃ a b h t, w = a ++ ':'.toUInt8 :: ':'.toUInt8 :: b ∧
        a ∈ groups h ∧ b ∈ tailGroups t ∧ h + t ≤ 7 := by
  have hcompressed : (∃ a b h t, w = a ++ ':'.toUInt8 :: ':'.toUInt8 :: b ∧
      a ∈ groups h ∧ b ∈ tailGroups t ∧ h + t ≤ 7) ↔ ∃ t, t ≤ 7 ∧ w ∈ compressed (7 - t) t := by
    simp only [mem_compressed]
    constructor
    · rintro ⟨a, b, h, t, e, ha, hb, hle⟩
      exact ⟨t, by omega, a, b, e, ⟨h, by omega, ha⟩, hb⟩
    · rintro ⟨t, ht, a, b, e, ⟨h, hh, ha⟩, hb⟩
      exact ⟨a, b, h, t, e, ha, hb, by omega⟩
  rw [hcompressed, ipv6address_eq]
  simp only [Language.mem_add, or_assoc]
  refine or_congr Iff.rfl ⟨?_, ?_⟩
  · rintro (h | h | h | h | h | h | h | h)
    · exact ⟨7, by omega, h⟩
    · exact ⟨6, by omega, h⟩
    · exact ⟨5, by omega, h⟩
    · exact ⟨4, by omega, h⟩
    · exact ⟨3, by omega, h⟩
    · exact ⟨2, by omega, h⟩
    · exact ⟨1, by omega, h⟩
    · exact ⟨0, by omega, h⟩
  · rintro ⟨t, ht, h⟩
    interval_cases t
    · exact .inr (.inr (.inr (.inr (.inr (.inr (.inr h))))))
    · exact .inr (.inr (.inr (.inr (.inr (.inr (.inl h))))))
    · exact .inr (.inr (.inr (.inr (.inr (.inl h)))))
    · exact .inr (.inr (.inr (.inr (.inl h))))
    · exact .inr (.inr (.inr (.inl h)))
    · exact .inr (.inr (.inl h))
    · exact .inr (.inl h)
    · exact .inl h

/-! ## The search for "::" -/

/-- No "::", neither inside nor with a ':' in front. -/
def Tight (s : Octets) : Prop :=
  s.head? ≠ some ':'.toUInt8 ∧ findText doubleColonText s = none

theorem doubleColonText_prefix_iff {c : UInt8} {s : Octets} :
    doubleColonText <+: c :: s ↔ c = ':'.toUInt8 ∧ s.head? = some ':'.toUInt8 := by
  have hdc : doubleColonText = [':'.toUInt8, ':'.toUInt8] := rfl
  rw [hdc, cons_prefix_cons, eq_comm]
  cases s <;> simp [eq_comm]

theorem findText_cons_none {c : UInt8} {s : Octets} :
    findText doubleColonText (c :: s) = none ↔
      (c = ':'.toUInt8 → s.head? ≠ some ':'.toUInt8) ∧ findText doubleColonText s = none := by
  rw [findText]
  split_ifs with h
  · rw [doubleColonText_prefix_iff] at h
    simp [h.1, h.2]
  · rw [doubleColonText_prefix_iff, not_and] at h
    simpa using fun _ => h

theorem findText_append_none {w s : Octets} (hw : ':'.toUInt8 ∉ w) :
    findText doubleColonText (w ++ s) = none ↔ findText doubleColonText s = none := by
  induction w with
  | nil => rfl
  | cons c w ih =>
    simp only [mem_cons, not_or] at hw
    rw [cons_append, findText_cons_none, ih hw.2]
    exact ⟨fun h => h.2, fun h => ⟨fun e => absurd e.symm hw.1, h⟩⟩

theorem tight_append {m : Language UInt8} (hm : ∀ w ∈ m, ':'.toUInt8 ∉ w) (hnil : [] ∉ m)
    {t : Octets} (ht : findText doubleColonText t = none) :
    ∀ {k : Nat} {w : Octets}, w ∈ h16Colon ^ k * m → Tight (w ++ t) := by
  have hhead : ∀ {g u : Octets}, g ≠ [] → ':'.toUInt8 ∉ g →
      (g ++ u).head? ≠ some ':'.toUInt8 := by
    intro g u hne hg
    cases g with
    | nil => exact absurd rfl hne
    | cons c g =>
      simp only [mem_cons, not_or] at hg
      simpa using fun e => hg.1 e.symm
  intro k
  induction k with
  | zero =>
    intro w hw
    rw [pow_zero, one_mul] at hw
    have hne : w ≠ [] := by rintro rfl; exact hnil hw
    exact ⟨hhead hne (hm w hw), (findText_append_none (hm w hw)).mpr ht⟩
  | succ k ih =>
    intro w hw
    rw [pow_succ', mul_assoc] at hw
    change w ∈ h16 * lit ':' * (h16Colon ^ k * m) at hw
    rw [mul_assoc, lit] at hw
    obtain ⟨g, hg, _, hcw, rfl⟩ := Language.mem_mul.mp hw
    obtain ⟨_, ⟨c, hc, rfl⟩, w, hrest, rfl⟩ := Language.mem_mul.mp hcw
    obtain rfl := eq_of_beq hc
    have hcolon := h16_not_mem ':'.toUInt8 (by decide) g hg
    have hne : g ≠ [] := by rintro rfl; exact nil_not_mem_h16 hg
    obtain ⟨htight, hnone⟩ := ih hrest
    rw [append_assoc]
    refine ⟨hhead hne hcolon, (findText_append_none hcolon).mpr ?_⟩
    exact findText_cons_none.mpr ⟨fun _ => htight, hnone⟩

theorem groups_colon {a : Octets} {h : Nat} (ha : a ∈ groups h) :
    findText doubleColonText (a ++ [':'.toUInt8]) = none := by
  cases h with
  | zero =>
    obtain rfl := (Language.mem_one _).mp ha
    decide
  | succ k =>
    exact (tight_append (h16_not_mem _ (by decide)) nil_not_mem_h16 (by decide) ha).2

theorem tailGroups_tight {b : Octets} {t : Nat} (hb : b ∈ tailGroups t) : Tight b := by
  have h16_tight : ∀ {k : Nat} {w : Octets}, w ∈ h16Colon ^ k * h16 → Tight w := by
    intro k w hw
    simpa using tight_append (t := []) (h16_not_mem _ (by decide)) nil_not_mem_h16 (by decide) hw
  match t, hb with
  | 0, hb =>
    obtain rfl := (Language.mem_one _).mp hb
    exact ⟨by simp, by decide⟩
  | 1, hb => exact h16_tight (k := 0) (by rwa [pow_zero, one_mul])
  | k + 2, hb =>
    rw [tailGroups_add_two] at hb
    rcases (Language.mem_add _ _ _).mp hb with hb | hb
    · exact h16_tight hb
    · simpa using tight_append (t := []) (ipv4address_not_mem _ (by decide) (by decide))
        nil_not_mem_ipv4address (by decide) hb

/-- The first "::" is the one with no other before it. -/
theorem findText_append_doubleColon {a : Octets} (b : Octets)
    (ha : findText doubleColonText (a ++ [':'.toUInt8]) = none) :
    findText doubleColonText (a ++ ':'.toUInt8 :: ':'.toUInt8 :: b) = some a.length := by
  induction a with
  | nil => rw [nil_append, findText, if_pos (doubleColonText_prefix_iff.mpr ⟨rfl, rfl⟩)]; rfl
  | cons c a ih =>
    rw [cons_append, findText_cons_none] at ha
    rw [cons_append, findText, if_neg, ih ha.2]
    · rfl
    · rw [doubleColonText_prefix_iff, not_and]
      intro hc
      have hne := ha.1 hc
      cases a with
      | nil => simp at hne
      | cons d a => exact hne

theorem exists_of_findText {s : Octets} {n : Nat} (h : findText doubleColonText s = some n) :
    ∃ a b, s = a ++ ':'.toUInt8 :: ':'.toUInt8 :: b ∧ a.length = n := by
  induction s generalizing n with
  | nil => simp [findText, doubleColonText, octets] at h
  | cons c s ih =>
    rw [findText] at h
    split at h
    · rename_i hpre
      obtain ⟨b, hb⟩ := hpre
      exact ⟨[], b, hb.symm, by simpa using h⟩
    · obtain ⟨k, hk, rfl⟩ := Option.map_eq_some_iff.mp h
      obtain ⟨a, b, rfl, rfl⟩ := ih hk
      exact ⟨c :: a, b, rfl, rfl⟩

theorem chkIpv6Address_acceptsIff (address : Octets) :
    AcceptsIff (chkIpv6Address address) (address ∈ ipv6address) := by
  rw [chkIpv6Address]
  cases hfind : findText doubleColonText address with
  | none =>
    have hmem : address ∈ ipv6address ↔ countIpv6Groups address true = some 8 := by
      rw [mem_ipv6address_iff, mem_tailGroups_iff]
      refine or_iff_left ?_
      rintro ⟨a, b, h, t, rfl, ha, -⟩
      rw [findText_append_doubleColon b (groups_colon ha)] at hfind
      simp at hfind
    rw [hmem]
    by_cases h8 : countIpv6Groups address true = some 8 <;> simp [h8]
  | some n =>
    obtain ⟨a, b, rfl, rfl⟩ := exists_of_findText hfind
    have hmem : a ++ ':'.toUInt8 :: ':'.toUInt8 :: b ∈ ipv6address ↔
        findText doubleColonText (':'.toUInt8 :: b) = none ∧
          ∃ h t, countIpv6Groups a false = some h ∧ countIpv6Groups b true = some t ∧
            h + t ≤ 7 := by
      rw [mem_ipv6address_iff]
      constructor
      · rintro (hmem | ⟨a', b', h, t, e, ha, hb, hle⟩)
        · rw [(tailGroups_tight hmem).2] at hfind
          simp at hfind
        · rw [e, findText_append_doubleColon b' (groups_colon ha)] at hfind
          obtain ⟨rfl, hrest⟩ := append_inj e (Option.some.inj hfind).symm
          obtain rfl : b = b' := by simpa using hrest
          exact ⟨findText_cons_none.mpr ⟨fun _ => (tailGroups_tight hb).1, (tailGroups_tight hb).2⟩,
            h, t, mem_groups_iff.mp ha, mem_tailGroups_iff.mp hb, hle⟩
      · rintro ⟨-, h, t, ha, hb, hle⟩
        exact .inr ⟨a, b, h, t, rfl, mem_groups_iff.mpr ha, mem_tailGroups_iff.mpr hb, hle⟩
    have hdrop : (a ++ ':'.toUInt8 :: ':'.toUInt8 :: b).drop (a.length + 1) = ':'.toUInt8 :: b := by
      simp
    have hsubstr : substrFrom (a ++ ':'.toUInt8 :: ':'.toUInt8 :: b) (a.length + 2) = some b := by
      simp [substrFrom]
    rw [hmem]
    simp only [hdrop, hsubstr, substr_append, orOutOfRange, ok_bind]
    cases findText doubleColonText (':'.toUInt8 :: b) with
    | some _ => simp
    | none =>
      cases countIpv6Groups a false with
      | none => simp
      | some h =>
        cases countIpv6Groups b true with
        | none => simp
        | some t =>
          by_cases hgt : 7 < h + t
          · simp [hgt, Nat.not_le.mpr hgt]
          · simp [hgt, Nat.not_lt.mp hgt]

/-! ## IP literals -/

theorem chkIpvFutureTail_acceptsIff (tail : Octets) :
    AcceptsIff (chkIpvFutureTail tail)
      (tail ∈ (unreserved + subDelims + lit ':') * (unreserved + subDelims + lit ':')∗) := by
  simp only [unreserved_eq, subDelims_eq, lit, single_add, mem_single_plus, chkIpvFutureTail]
  cases tail with
  | nil => simp
  | cons c tail =>
    split
    · simp_all
    · split_ifs with hall
      · exact ⟨by simp, hall⟩
      · exact fun h => hall h.2

theorem cons_mem_ipvFuture {ch : UInt8} {rest : Octets} :
    ch :: rest ∈ ipvFuture ↔ ('v'.toUInt8 == ch || 'V'.toUInt8 == ch) = true ∧
      ∃ version tail, rest = version ++ '.'.toUInt8 :: tail ∧
        version ≠ [] ∧ version.all isHexDigit = true ∧
        tail ∈ (unreserved + subDelims + lit ':') * (unreserved + subDelims + lit ':')∗ := by
  have hform : ipvFuture = single (fun ch => 'v'.toUInt8 == ch || 'V'.toUInt8 == ch) *
      ((single isHexDigit * (single isHexDigit)∗) * (single ('.'.toUInt8 == ·) *
        ((unreserved + subDelims + lit ':') * (unreserved + subDelims + lit ':')∗))) := by
    simp only [ipvFuture, hexdig_eq, lit, single_add, mul_assoc]
  rw [hform, cons_mem_single_mul]
  refine and_congr Iff.rfl ⟨?_, ?_⟩
  · intro h
    obtain ⟨version, hversion, _, hdot, rfl⟩ := Language.mem_mul.mp h
    obtain ⟨_, ⟨c, hc, rfl⟩, tail, htail, rfl⟩ := Language.mem_mul.mp hdot
    obtain rfl := eq_of_beq hc
    exact ⟨version, tail, rfl, (mem_single_plus.mp hversion).1, (mem_single_plus.mp hversion).2,
      htail⟩
  · rintro ⟨version, tail, rfl, hne, hall, htail⟩
    exact Language.append_mem_mul (mem_single_plus.mpr ⟨hne, hall⟩)
      (cons_mem_single_mul.mpr ⟨beq_self_eq_true _, htail⟩)

theorem chkIpvFuture_acceptsIff {ch : UInt8} {rest : Octets}
    (hch : ('v'.toUInt8 == ch || 'V'.toUInt8 == ch) = true) :
    AcceptsIff (chkIpvFuture (ch :: rest)) (ch :: rest ∈ ipvFuture) := by
  rw [cons_mem_ipvFuture]
  simp only [hch, true_and, chkIpvFuture, drop_one, tail_cons]
  have hscan : ∀ {version tail : Octets}, version.all isHexDigit = true →
      (version ++ '.'.toUInt8 :: tail).takeWhile isHexDigit = version ∧
      (version ++ '.'.toUInt8 :: tail).dropWhile isHexDigit = '.'.toUInt8 :: tail := by
    intro version tail hall
    have hpos := all_eq_true.mp hall
    have hdot : ¬ isHexDigit '.'.toUInt8 = true := by decide
    rw [takeWhile_append_of_pos hpos, dropWhile_append_of_pos hpos,
      takeWhile_cons_of_neg hdot, dropWhile_cons_of_neg hdot]
    simp
  have hsplit := takeWhile_append_dropWhile (p := isHexDigit) (l := rest)
  cases hrest : rest.dropWhile isHexDigit with
  | nil =>
    rw [acceptsIff_throwInvalidUri]
    rintro ⟨version, tail, rfl, -, hall, -⟩
    rw [(hscan hall).2] at hrest
    simp at hrest
  | cons c tail =>
    by_cases hbad : ((rest.takeWhile isHexDigit).isEmpty || '.'.toUInt8 != c) = true
    · simp only [hbad, if_true, acceptsIff_throwInvalidUri]
      rintro ⟨version, tail', rfl, hne, hall, -⟩
      rw [(hscan hall).2] at hrest
      rw [(hscan hall).1, ← (List.cons.inj hrest).1] at hbad
      simp [hne] at hbad
    · simp only [hbad, if_false, Bool.false_eq_true]
      simp only [Bool.or_eq_true, List.isEmpty_iff, bne_iff_ne, ne_eq, not_or, not_not] at hbad
      obtain ⟨hne, rfl⟩ := hbad
      refine (chkIpvFutureTail_acceptsIff tail).congr ⟨fun h => ?_, ?_⟩
      · refine ⟨_, tail, ?_, hne, List.all_takeWhile, h⟩
        rw [← hrest, hsplit]
      · rintro ⟨version, tail', rfl, -, hall, h⟩
        rw [(hscan hall).2] at hrest
        rwa [← (List.cons.inj hrest).2]

theorem over_lit {P : UInt8 → Prop} {ch : Char} (h : P ch.toUInt8) : Over P (lit ch) :=
  Over.single fun c hc => by rwa [← eq_of_beq hc]

/-- The letters of an address. -/
theorem ipv6address_over {P : UInt8 → Prop} (hhex : ∀ c, isHexDigit c = true → P c)
    (hcolon : P ':'.toUInt8) (hdot : P '.'.toUInt8) : Over P ipv6address := by
  have h16_over : Over P h16 := by
    rw [h16, hexdig_eq]
    exact (Over.single hhex).mul ((Over.single hhex).upTo 3)
  have hd : Over P decOctet := by
    intro w hw c hc
    by_contra hno
    refine decOctet_not_mem c ?_ w hw hc
    by_contra hdig
    exact hno (hhex c (by simp only [Bool.not_eq_false] at hdig; simp [isHexDigit, hdig]))
  have hl := over_lit hdot
  have hc := over_lit hcolon
  have hquad : Over P ipv4address := (((((hd.mul hl).mul hd).mul hl).mul hd).mul hl).mul hd
  have hcol : Over P h16Colon := h16_over.mul hc
  have hls : Over P ls32 := ((h16_over.mul hc).mul h16_over).add hquad
  have htail : ∀ t, Over P (tailGroups t)
    | 0 => Over.one
    | 1 => h16_over
    | n + 2 => (hcol.pow n).mul hls
  have hgroups : ∀ t, Over P (groups t)
    | 0 => Over.one
    | n + 1 => (hcol.pow n).mul h16_over
  have hcomp : ∀ h t, Over P (compressed h t) := fun h t =>
    (show Over P (upToGroups h) from fun w ⟨k, _, hw⟩ => hgroups k w hw).mul
      ((hc.mul hc).mul (htail t))
  rw [ipv6address_eq]
  exact ((((((((htail 8).add (hcomp 0 7)).add (hcomp 1 6)).add (hcomp 2 5)).add
    (hcomp 3 4)).add (hcomp 4 3)).add (hcomp 5 2)).add (hcomp 6 1)).add (hcomp 7 0)

theorem chkIpLiteral_acceptsIff (literal : Octets) :
    AcceptsIff (chkIpLiteral literal) (literal ∈ ipv6address + ipvFuture) := by
  cases literal with
  | nil =>
    rw [chkIpLiteral, acceptsIff_throwInvalidUri, Language.mem_add]
    have hnil : [] ∉ ipvFuture := by simp [ipvFuture, nil_mem_mul, lit]
    have h6 := chkIpv6Address_acceptsIff []
    exact fun h => h.elim (fun h => by exact h6 h) hnil
  | cons ch rest =>
    rw [chkIpLiteral, Language.mem_add]
    by_cases hv : ('v'.toUInt8 == ch || 'V'.toUInt8 == ch) = true
    · rw [if_pos hv]
      refine (chkIpvFuture_acceptsIff hv).congr (or_iff_right ?_).symm
      intro h6
      have := ipv6address_over (P := fun c => ('v'.toUInt8 == c || 'V'.toUInt8 == c) = false)
        (by decide +kernel) (by decide) (by decide) _ h6 ch (by simp)
      simp [hv] at this
    · rw [if_neg hv]
      refine (chkIpv6Address_acceptsIff _).congr (or_iff_left ?_).symm
      rw [cons_mem_ipvFuture]
      exact fun h => hv h.1

end Baselib.Core.UriGrammar
