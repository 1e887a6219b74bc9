/-
Baselib.Core.UriTerminals — the character classes of the parser are the
terminals of the grammar, and its component check accepts exactly the
repetitions of a class and of `pct-encoded`.

`AcceptsIff x p` is the form every statement about a check takes: the
check succeeds exactly when `p`, and its only other outcome is an
`InvalidDataFormatException`. It passes through `bind`, so the
acceptance of a parser is put together in the order of its source.
-/
import Baselib.Core.Uri
import Baselib.Core.UriGrammar

namespace Baselib.Core.UriGrammar

open Lib Uri Computability

/-! ## Acceptance -/

/-- Succeeds exactly when `p`, and throws nothing but
`InvalidDataFormatException`. -/
def AcceptsIff {α : Type} (x : Except UriException α) (p : Prop) : Prop :=
  match x with
  | .ok _ => p
  | .error (.invalidDataFormat _) => ¬p
  | .error .outOfRange => False

section

variable {α β : Type} {x : Except UriException α} {p q : Prop}

@[simp] theorem acceptsIff_ok {a : α} : AcceptsIff (.ok a) p ↔ p := Iff.rfl

@[simp] theorem acceptsIff_throwInvalidUri {component reason : String} :
    AcceptsIff (throwInvalidUri component reason : Except UriException α) p ↔ ¬p := Iff.rfl

theorem AcceptsIff.congr (h : AcceptsIff x p) (hpq : p ↔ q) : AcceptsIff x q := by
  rwa [← propext hpq]

theorem AcceptsIff.bind {f : α → Except UriException β} (hx : AcceptsIff x p)
    (hf : ∀ a, x = .ok a → AcceptsIff (f a) q) : AcceptsIff (x >>= f) (p ∧ q) := by
  cases x with
  | ok a => exact (hf a rfl).congr ⟨fun h => ⟨hx, h⟩, fun h => h.2⟩
  | error e =>
    cases e with
    | invalidDataFormat m => exact fun h => hx h.1
    | outOfRange => exact hx

theorem AcceptsIff.map {f : α → β} (hx : AcceptsIff x p) : AcceptsIff (x.map f) p := by
  cases x with
  | ok a => exact hx
  | error e => cases e <;> exact hx

theorem AcceptsIff.mapM {f : α → Except UriException β} {P : α → Prop}
    (hf : ∀ a, AcceptsIff (f a) (P a)) : ∀ o : Option α,
    AcceptsIff (o.mapM f) (∀ a ∈ o, P a)
  | none => by simp [AcceptsIff, pure, Except.pure]
  | some a => by
      have h := (hf a).map (f := some)
      refine AcceptsIff.congr (x := (some a).mapM f) ?_ (by simp : P a ↔ _)
      rw [Option.mapM_some]
      cases hx : f a <;> rw [hx] at h <;> exact h

theorem AcceptsIff.isOk (h : AcceptsIff x p) : (∃ a, x = .ok a) ↔ p := by
  cases x with
  | ok a => exact ⟨fun _ => h, fun _ => ⟨a, rfl⟩⟩
  | error e =>
    cases e with
    | invalidDataFormat m => exact ⟨fun ⟨_, h⟩ => by simp at h, fun hp => absurd hp h⟩
    | outOfRange => exact h.elim

theorem AcceptsIff.error (h : AcceptsIff x p) (hp : ¬p) :
    ∃ m, x = .error (.invalidDataFormat m) := by
  cases x with
  | ok a => exact absurd h hp
  | error e =>
    cases e with
    | invalidDataFormat m => exact ⟨m, rfl⟩
    | outOfRange => exact h.elim

end

/-! ## Character classes -/

theorem alpha_eq : alpha = single isAlpha := by
  simp only [alpha, range, single_add]; rfl

theorem digit_eq : digit = single isDigit := rfl

theorem hexdig_eq : hexdig = single isHexDigit := by
  simp only [hexdig, digit, range, single_add]; rfl

theorem unreserved_eq : unreserved = single isUnreserved := by
  simp only [unreserved, alpha_eq, digit_eq, lit, single_add]; rfl

theorem subDelims_eq : subDelims = single isSubDelim := by
  simp only [subDelims, lit, single_add]; rfl

theorem userinfo_eq : userinfo = (single isUserInfoChar + pctEncoded)∗ := by
  rw [userinfo, add_right_comm unreserved pctEncoded, add_right_comm _ pctEncoded]
  simp only [unreserved_eq, subDelims_eq, lit, single_add]; rfl

theorem regName_eq : regName = (single isRegNameChar + pctEncoded)∗ := by
  rw [regName, add_right_comm unreserved pctEncoded]
  simp only [unreserved_eq, subDelims_eq, single_add]; rfl

theorem path_eq : (pchar + lit '/')∗ = (single isPathChar + pctEncoded)∗ := by
  rw [pchar]
  simp only [add_right_comm _ pctEncoded]
  simp only [unreserved_eq, subDelims_eq, lit, single_add]; rfl

theorem query_eq : query = (single isQueryOrFragmentChar + pctEncoded)∗ := by
  rw [query, pchar]
  simp only [add_right_comm _ pctEncoded]
  simp only [unreserved_eq, subDelims_eq, lit, single_add]; rfl

/-! ## Component check -/

theorem mem_pctEncoded {w : Octets} :
    w ∈ pctEncoded ↔
      ∃ h1 h2, w = ['%'.toUInt8, h1, h2] ∧ isHexDigit h1 = true ∧ isHexDigit h2 = true := by
  rw [pctEncoded, hexdig_eq, lit, mul_assoc]
  constructor
  · intro h
    obtain ⟨_, ⟨c, hc, rfl⟩, _, htwo, rfl⟩ := Language.mem_mul.mp h
    obtain ⟨_, ⟨h1, hh1, rfl⟩, _, ⟨h2, hh2, rfl⟩, rfl⟩ := Language.mem_mul.mp htwo
    exact ⟨h1, h2, by rw [eq_of_beq hc]; rfl, hh1, hh2⟩
  · rintro ⟨h1, h2, rfl, hh1, hh2⟩
    rw [cons_mem_single_mul, cons_mem_single_mul]
    exact ⟨by simp, hh1, h2, hh2, rfl⟩

section

variable {isAllowed : UInt8 → Bool}

/-- A repetition which starts with a plain character. -/
theorem cons_mem_component {ch : UInt8} {rest : Octets} (hch : ch ≠ '%'.toUInt8) :
    ch :: rest ∈ (single isAllowed + pctEncoded)∗ ↔
      isAllowed ch = true ∧ rest ∈ (single isAllowed + pctEncoded)∗ := by
  conv_lhs => rw [mem_kstar_cases, add_mul, Language.mem_add, cons_mem_single_mul]
  constructor
  · rintro (h | h | h)
    · simp at h
    · exact h
    · obtain ⟨_, h, w, -, e⟩ := Language.mem_mul.mp h
      obtain ⟨h1, h2, rfl, -⟩ := mem_pctEncoded.mp h
      exact absurd (List.cons.inj e).1.symm hch
  · exact fun h => .inr (.inl h)

/-- A repetition which starts with an encoded octet. -/
theorem pct_mem_component (hpct : isAllowed '%'.toUInt8 = false) {rest : Octets} :
    '%'.toUInt8 :: rest ∈ (single isAllowed + pctEncoded)∗ ↔
      ∃ h1 h2 rest', rest = h1 :: h2 :: rest' ∧ isHexDigit h1 = true ∧ isHexDigit h2 = true ∧
        rest' ∈ (single isAllowed + pctEncoded)∗ := by
  rw [mem_kstar_cases, add_mul, Language.mem_add, cons_mem_single_mul]
  constructor
  · rintro (h | h | h)
    · simp at h
    · simp [hpct] at h
    · obtain ⟨_, h, w, hw, e⟩ := Language.mem_mul.mp h
      obtain ⟨h1, h2, rfl, hh1, hh2⟩ := mem_pctEncoded.mp h
      exact ⟨h1, h2, w, (List.cons.inj e).2.symm, hh1, hh2, hw⟩
  · rintro ⟨h1, h2, rest', rfl, hh1, hh2, hrest⟩
    refine .inr (.inr (Language.mem_mul.mpr ⟨_, mem_pctEncoded.mpr ⟨h1, h2, rfl, hh1, hh2⟩, ?_⟩))
    exact ⟨rest', hrest, rfl⟩

theorem normalizeComponent_acceptsIff (hpct : isAllowed '%'.toUInt8 = false)
    (component : String) (toLowerCase : Bool) (s : Octets) :
    AcceptsIff (normalizeComponent isAllowed component toLowerCase s)
      (s ∈ (single isAllowed + pctEncoded)∗) := by
  fun_induction normalizeComponent isAllowed component toLowerCase s with
  | case1 => exact Language.nil_mem_kstar _
  | case2 ch rest hne hbad =>
    rw [acceptsIff_throwInvalidUri, cons_mem_component (by rintro rfl; simp at hne)]
    simp only [Bool.not_eq_true'] at hbad
    simp [hbad]
  | case3 ch rest hne hgood ih =>
    refine AcceptsIff.congr (ih.bind (q := True) fun _ _ => trivial) ?_
    rw [cons_mem_component (by rintro rfl; simp at hne)]
    simp only [Bool.not_eq_true', Bool.not_eq_false] at hgood
    simp [hgood]
  | case4 ch heq h1 h2 rest' hbad =>
    obtain rfl : '%'.toUInt8 = ch := by simpa using heq
    rw [acceptsIff_throwInvalidUri, pct_mem_component hpct]
    rintro ⟨_, _, _, ⟨⟩, hh1, hh2, -⟩
    simp [hh1, hh2] at hbad
  | case5 ch heq h1 h2 rest' hgood ih =>
    obtain rfl : '%'.toUInt8 = ch := by simpa using heq
    refine AcceptsIff.congr (ih.bind (q := True) fun _ _ => trivial) ?_
    rw [pct_mem_component hpct]
    simp only [Bool.or_eq_true, Bool.not_eq_true', not_or, Bool.not_eq_false] at hgood
    constructor
    · exact fun h => ⟨h1, h2, rest', rfl, hgood.1, hgood.2, h.1⟩
    · rintro ⟨_, _, _, ⟨⟩, -, -, h⟩
      exact ⟨h, trivial⟩
  | case6 ch rest heq hshort =>
    obtain rfl : '%'.toUInt8 = ch := by simpa using heq
    rw [acceptsIff_throwInvalidUri, pct_mem_component hpct]
    rintro ⟨h1, h2, rest', rfl, -⟩
    exact hshort h1 h2 rest' rfl

end

end Baselib.Core.UriGrammar
