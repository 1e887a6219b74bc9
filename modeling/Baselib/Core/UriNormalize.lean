/-
Baselib.Core.UriNormalize — component normalisation is idempotent and
works segment by segment.

A normalised component is a fixed point (`normalizeComponent_idem`),
since a decoded octet is an allowed character and an octet which stays
encoded is written in upper case already. No separator can be part of an
encoded octet, so the normal form of a path is the path of the normal
forms of its segments (`normalizeComponent_joinPath`).
-/
import Baselib.Core.UriGrammarTheorems
import Baselib.Core.UriDotSegments

namespace Baselib.Core.Uri

open Lib List

/-! ## Encoded octets -/

theorem hexValue_lt {h : UInt8} : isHexDigit h = true → hexValue h < 16 := by
  revert h; decide +kernel

/-- The two digits of an octet. -/
theorem nibbles {a b : Nat} (ha : a < 16) (hb : b < 16) :
    (((a <<< 4) ||| b) >>> 4) &&& 0x0F = a ∧ ((a <<< 4) ||| b) &&& 0x0F = b := by
  have key : ∀ a b : Fin 16, (((a.val <<< 4) ||| b.val) >>> 4) &&& 0x0F = a.val ∧
      ((a.val <<< 4) ||| b.val) &&& 0x0F = b.val := by
    decide +kernel
  exact key ⟨a, ha⟩ ⟨b, hb⟩

theorem hexDigit_spec {n : Nat} (hn : n < 16) :
    isHexDigit (hexDigit n) = true ∧ hexValue (hexDigit n) = n := by
  have key : ∀ n : Fin 16, isHexDigit (hexDigit n.val) = true ∧
      hexValue (hexDigit n.val) = n.val := by
    decide +kernel
  exact key ⟨n, hn⟩

/-- What is left of an encoded octet. -/
theorem normalizeOctet_eq {h1 h2 : UInt8} (hh1 : isHexDigit h1 = true) (hh2 : isHexDigit h2 = true)
    (toLowerCase : Bool) :
    normalizeOctet toLowerCase h1 h2 =
      if isUnreserved (UInt8.ofNat ((hexValue h1 <<< 4) ||| hexValue h2)) then
        [if toLowerCase then toLowerAscii (UInt8.ofNat ((hexValue h1 <<< 4) ||| hexValue h2))
          else UInt8.ofNat ((hexValue h1 <<< 4) ||| hexValue h2)]
      else ['%'.toUInt8, hexDigit (hexValue h1), hexDigit (hexValue h2)] := by
  obtain ⟨hhigh, hlow⟩ := nibbles (hexValue_lt hh1) (hexValue_lt hh2)
  simp only [normalizeOctet, hhigh, hlow]

theorem normalizeOctet_false {h1 h2 : UInt8} (hh1 : isHexDigit h1 = true)
    (hh2 : isHexDigit h2 = true) :
    normalizeOctet false h1 h2 =
      if isUnreserved (UInt8.ofNat ((hexValue h1 <<< 4) ||| hexValue h2)) then
        [UInt8.ofNat ((hexValue h1 <<< 4) ||| hexValue h2)]
      else ['%'.toUInt8, hexDigit (hexValue h1), hexDigit (hexValue h2)] :=
  normalizeOctet_eq hh1 hh2 false

/-! ## The normal form as a relation -/

/-- The normal form of a component, one character or one encoded octet at a
time. -/
inductive Normalizes (isAllowed : UInt8 → Bool) (toLowerCase : Bool) : Octets → Octets → Prop
  | nil : Normalizes isAllowed toLowerCase [] []
  | plain {ch : UInt8} {rest result : Octets} (hne : ch ≠ '%'.toUInt8)
      (hch : isAllowed ch = true) (h : Normalizes isAllowed toLowerCase rest result) :
      Normalizes isAllowed toLowerCase (ch :: rest)
        ((if toLowerCase then toLowerAscii ch else ch) :: result)
  | encoded {h1 h2 : UInt8} {rest result : Octets} (hh1 : isHexDigit h1 = true)
      (hh2 : isHexDigit h2 = true) (h : Normalizes isAllowed toLowerCase rest result) :
      Normalizes isAllowed toLowerCase ('%'.toUInt8 :: h1 :: h2 :: rest)
        (normalizeOctet toLowerCase h1 h2 ++ result)

section

variable {isAllowed : UInt8 → Bool} {component : String} {toLowerCase : Bool} {s r : Octets}

theorem Normalizes.of_ok : ∀ {s r : Octets},
    normalizeComponent isAllowed component toLowerCase s = .ok r →
      Normalizes isAllowed toLowerCase s r := by
  intro s
  fun_induction normalizeComponent isAllowed component toLowerCase s with
  | case1 =>
    intro r h
    cases h
    exact .nil
  | case2 ch rest hne hbad => intro r h; simp [throwInvalidUri] at h
  | case3 ch rest hne hgood ih =>
    intro r h
    cases hrest : normalizeComponent isAllowed component toLowerCase rest with
    | error e => rw [hrest] at h; simp [bind, Except.bind] at h
    | ok result =>
      rw [hrest] at h
      cases h
      exact .plain (by rintro rfl; simp at hne) (by simpa using hgood) (ih hrest)
  | case4 ch heq h1 h2 rest' hbad => intro r h; simp [throwInvalidUri] at h
  | case5 ch heq h1 h2 rest' hgood ih =>
    intro r h
    obtain rfl : '%'.toUInt8 = ch := by simpa using heq
    simp only [Bool.or_eq_true, Bool.not_eq_true', not_or, Bool.not_eq_false] at hgood
    cases hrest : normalizeComponent isAllowed component toLowerCase rest' with
    | error e => rw [hrest] at h; simp [bind, Except.bind] at h
    | ok result =>
      rw [hrest] at h
      cases h
      exact .encoded hgood.1 hgood.2 (ih hrest)
  | case6 ch rest heq hshort => intro r h; simp [throwInvalidUri] at h

theorem Normalizes.ok (h : Normalizes isAllowed toLowerCase s r) (component : String) :
    normalizeComponent isAllowed component toLowerCase s = .ok r := by
  induction h with
  | nil => rfl
  | @plain ch rest result hne hch _ ih =>
    have hbeq : ('%'.toUInt8 != ch) = true := by simpa using fun e => hne e.symm
    rw [normalizeComponent.eq_def]
    simp only [hbeq, hch, ih, if_true, Bool.not_true, Bool.false_eq_true, if_false, ok_bind]
    rfl
  | @encoded h1 h2 rest result hh1 hh2 _ ih =>
    rw [normalizeComponent.eq_2]
    simp only [bne_self_eq_false, Bool.false_eq_true, if_false, hh1, hh2, Bool.not_true,
      Bool.or_self, ih, ok_bind]
    rfl

theorem normalizeComponent_ok_iff :
    normalizeComponent isAllowed component toLowerCase s = .ok r ↔
      Normalizes isAllowed toLowerCase s r :=
  ⟨Normalizes.of_ok, fun h => h.ok component⟩

theorem Normalizes.unique {r' : Octets} (h : Normalizes isAllowed toLowerCase s r)
    (h' : Normalizes isAllowed toLowerCase s r') : r = r' :=
  Except.ok.inj ((h.ok "").symm.trans (h'.ok ""))

theorem Normalizes.append {a a' b b' : Octets} (ha : Normalizes isAllowed toLowerCase a a')
    (hb : Normalizes isAllowed toLowerCase b b') :
    Normalizes isAllowed toLowerCase (a ++ b) (a' ++ b') := by
  induction ha with
  | nil => exact hb
  | plain hne hch _ ih => exact .plain hne hch ih
  | encoded hh1 hh2 _ ih => simpa using Normalizes.encoded hh1 hh2 ih

theorem Normalizes.eq_nil_iff (h : Normalizes isAllowed toLowerCase s r) : r = [] ↔ s = [] := by
  cases h with
  | nil => simp
  | plain => simp
  | encoded hh1 hh2 =>
    rw [normalizeOctet_eq hh1 hh2]
    split_ifs <;> simp

end

/-! ## Idempotence -/

/-- What a character class has to be for its normal forms to be stable. -/
structure Stable (isAllowed : UInt8 → Bool) (toLowerCase : Bool) : Prop where
  pct : isAllowed '%'.toUInt8 = false
  unreserved : ∀ ch, isUnreserved ch = true → isAllowed ch = true
  lower : toLowerCase = true → ∀ ch, isAllowed ch = true → isAllowed (toLowerAscii ch) = true

theorem toLowerAscii_idem (ch : UInt8) : toLowerAscii (toLowerAscii ch) = toLowerAscii ch := by
  revert ch; decide +kernel

section

variable {isAllowed : UInt8 → Bool} {toLowerCase : Bool} {s r : Octets}

/-- One allowed character, in the case it ends up in. -/
theorem Stable.plain (hst : Stable isAllowed toLowerCase) {ch : UInt8} (hch : isAllowed ch = true)
    (h : Normalizes isAllowed toLowerCase r r) :
    Normalizes isAllowed toLowerCase ((if toLowerCase then toLowerAscii ch else ch) :: r)
      ((if toLowerCase then toLowerAscii ch else ch) :: r) := by
  have hne : ∀ c, isAllowed c = true → c ≠ '%'.toUInt8 := by
    rintro c hc rfl
    simp [hst.pct] at hc
  cases htl : toLowerCase with
  | false =>
    subst htl
    exact .plain (hne ch hch) hch h
  | true =>
    subst htl
    have hl := hst.lower rfl ch hch
    simpa [toLowerAscii_idem] using Normalizes.plain (hne _ hl) hl h

theorem Normalizes.idem (hst : Stable isAllowed toLowerCase)
    (h : Normalizes isAllowed toLowerCase s r) : Normalizes isAllowed toLowerCase r r := by
  induction h with
  | nil => exact .nil
  | plain _ hch _ ih => exact hst.plain hch ih
  | @encoded h1 h2 rest result hh1 hh2 _ ih =>
    rw [normalizeOctet_eq hh1 hh2]
    split_ifs with hun hlow
    · simpa [hlow] using hst.plain (hst.unreserved _ hun) ih
    · simpa [hlow] using hst.plain (hst.unreserved _ hun) ih
    · obtain ⟨hd1, hv1⟩ := hexDigit_spec (hexValue_lt hh1)
      obtain ⟨hd2, hv2⟩ := hexDigit_spec (hexValue_lt hh2)
      have hoctet : normalizeOctet toLowerCase (hexDigit (hexValue h1)) (hexDigit (hexValue h2))
          = ['%'.toUInt8, hexDigit (hexValue h1), hexDigit (hexValue h2)] := by
        rw [normalizeOctet_eq hd1 hd2, hv1, hv2, if_neg hun]
      have := Normalizes.encoded hd1 hd2 ih
      rwa [hoctet] at this

theorem Normalizes.not_mem (hst : Stable isAllowed toLowerCase)
    (h : Normalizes isAllowed toLowerCase s r) (c : UInt8)
    (hc : isAllowed c = false ∧ isHexDigit c = false ∧ c ≠ '%'.toUInt8) : c ∉ r := by
  have hok : normalizeComponent isAllowed "" toLowerCase r = .ok r := (h.idem hst).ok ""
  refine UriGrammar.component_not_mem c hc r ?_
  exact (UriGrammar.normalizeComponent_acceptsIff hst.pct "" toLowerCase r).isOk.mp ⟨r, hok⟩

/-! ## Separators -/

/-- No delimiter which is no hexadecimal digit is part of an encoded octet. -/
theorem Normalizes.split {c : UInt8} (hhex : isHexDigit c = false) (hpct : c ≠ '%'.toUInt8)
    (hlower : toLowerAscii c = c) {b : Octets} (h : Normalizes isAllowed toLowerCase s r) :
    ∀ {a : Octets}, s = a ++ c :: b →
      ∃ a' b', Normalizes isAllowed toLowerCase a a' ∧ Normalizes isAllowed toLowerCase b b' ∧
        r = a' ++ c :: b' := by
  induction h with
  | nil => simp
  | @plain ch rest result hne hch h ih =>
    intro a e
    cases a with
    | nil =>
      obtain ⟨rfl, rfl⟩ := List.cons.inj e
      exact ⟨[], result, .nil, h, by simp [hlower]⟩
    | cons d a =>
      obtain ⟨rfl, rfl⟩ := List.cons.inj e
      obtain ⟨a', b', ha, hb, rfl⟩ := ih rfl
      exact ⟨_, b', .plain hne hch ha, hb, rfl⟩
  | @encoded h1 h2 rest result hh1 hh2 h ih =>
    intro a e
    match a with
    | [] => exact absurd (List.cons.inj e).1.symm hpct
    | [_] =>
      obtain ⟨-, rfl, -⟩ : _ ∧ h1 = c ∧ _ := by simpa using e
      simp [hhex] at hh1
    | [_, _] =>
      obtain ⟨-, -, rfl, -⟩ : _ ∧ _ ∧ h2 = c ∧ _ := by simpa using e
      simp [hhex] at hh2
    | _ :: _ :: _ :: a =>
      simp only [cons_append, List.cons.injEq] at e
      obtain ⟨rfl, rfl, rfl, rfl⟩ := e
      obtain ⟨a', b', ha, hb, rfl⟩ := ih rfl
      exact ⟨_, b', .encoded hh1 hh2 ha, hb, by simp⟩

end

/-! ## Paths -/

theorem isPathChar_stable : Stable isPathChar false where
  pct := by decide
  unreserved ch hch := by simp [isPathChar, hch]
  lower := by simp

/-- The normal form of a segment. -/
abbrev NormalSegment (x y : Octets) : Prop := Normalizes isPathChar false x y

theorem NormalSegment.slash {a a' b b' : Octets} (ha : NormalSegment a a')
    (hb : NormalSegment b b') : NormalSegment (a ++ '/'.toUInt8 :: b) (a' ++ '/'.toUInt8 :: b') :=
  ha.append (.plain (by decide) (by decide) hb)

theorem normalSegment_joinPath {first f : Octets} {segments segs : List Octets}
    (hfirst : NormalSegment first f) (hsegs : List.Forall₂ NormalSegment segments segs) :
    NormalSegment (joinPath first segments) (joinPath f segs) := by
  induction hsegs generalizing first f with
  | nil => simpa [joinPath] using hfirst
  | cons hy _ ih => exact hfirst.slash (ih hy)

theorem NormalSegment.not_mem {x y : Octets} {c : UInt8}
    (hc : isUnreserved c = false ∧ isHexDigit c = false ∧ c ≠ '%'.toUInt8)
    (h : NormalSegment x y) (hx : c ∉ x) : c ∉ y := by
  induction h with
  | nil => simp
  | plain hne hch _ ih =>
    simp only [mem_cons, not_or] at hx
    simp only [Bool.false_eq_true, if_false, mem_cons, not_or]
    exact ⟨hx.1, ih hx.2⟩
  | @encoded h1 h2 rest result hh1 hh2 _ ih =>
    simp only [mem_cons, not_or] at hx
    rw [normalizeOctet_false hh1 hh2, mem_append, not_or]
    refine ⟨?_, ih hx.2.2.2⟩
    have hhex : ∀ {n : Nat}, n < 16 → c ≠ hexDigit n := by
      intro n hn e
      have := (hexDigit_spec hn).1
      rw [← e, hc.2.1] at this
      exact absurd this (by decide)
    split_ifs with hun
    · rw [mem_singleton]
      rintro rfl
      rw [hc.1] at hun
      exact absurd hun (by decide)
    · simp only [mem_cons, not_mem_nil, or_false, not_or]
      exact ⟨hc.2.2, hhex (hexValue_lt hh1), hhex (hexValue_lt hh2)⟩

theorem Normalizes.slash_not_mem {x y : Octets} (h : NormalSegment x y)
    (hx : '/'.toUInt8 ∉ x) : '/'.toUInt8 ∉ y :=
  NormalSegment.not_mem (by decide) h hx

theorem normalSegment_slash_cons {x r : Octets} (h : NormalSegment x ('/'.toUInt8 :: r)) :
    ∃ x', x = '/'.toUInt8 :: x' ∧ NormalSegment x' r := by
  obtain ⟨a, ha, rfl | ⟨b, rfl⟩⟩ := exists_cut '/'.toUInt8 x
  · exact absurd (by simp) (h.slash_not_mem ha)
  · obtain ⟨a', b', ha', hb', e⟩ := h.split (by decide) (by decide) (by decide) rfl
    have ha'' := ha'.slash_not_mem ha
    obtain ⟨rfl, rfl⟩ := (append_cons_inj (show '/'.toUInt8 ∉ [] by simp) ha'').mp e
    rw [ha'.eq_nil_iff.mp rfl]
    exact ⟨b, rfl, hb'⟩

theorem normalSegment_splitOn {path p : Octets} (h : NormalSegment path p) :
    List.Forall₂ NormalSegment (path.splitOn '/'.toUInt8) (p.splitOn '/'.toUInt8) := by
  obtain ⟨a, ha, hpath | ⟨b, hpath⟩⟩ := exists_cut '/'.toUInt8 path
  · subst hpath
    rw [splitOn_eq_singleton ha, splitOn_eq_singleton (h.slash_not_mem ha)]
    exact .cons h .nil
  · obtain ⟨a', b', ha', hb', rfl⟩ := h.split (by decide) (by decide) (by decide) hpath
    rw [hpath, splitOn_append_cons_self_of_not_mem ha,
      splitOn_append_cons_self_of_not_mem (Normalizes.slash_not_mem ha' ha)]
    exact .cons ha' (normalSegment_splitOn hb')
termination_by path.length
decreasing_by
  rw [hpath]
  simp only [length_append, length_cons]
  omega

theorem normalSegment_removeDotSegments {p : Octets} (h : NormalSegment p p) :
    NormalSegment (removeDotSegments p) (removeDotSegments p) := by
  obtain ⟨first, segments, hsplit, hjoin, hfirst, hsegs⟩ := splitOn_slash p
  obtain ⟨f, segs, hremove, -, hf, hmem, -⟩ := removeDotSegments_dotFree hfirst hsegs
  have hall := normalSegment_splitOn h
  rw [hsplit, forall₂_same] at hall
  rw [hjoin, hremove]
  refine normalSegment_joinPath ?_ (forall₂_same.mpr fun x hx => ?_)
  · rcases hf with rfl | hf
    · exact .nil
    · exact hall f hf
  · rcases hmem x hx with rfl | hx
    · exact .nil
    · exact hall x (mem_cons_of_mem _ hx)

/-! ## Dot segments as written -/

/-- The encodings of a "." -/
theorem decoded_dot {h1 h2 : UInt8} (hh1 : isHexDigit h1 = true) (hh2 : isHexDigit h2 = true)
    (h : UInt8.ofNat ((hexValue h1 <<< 4) ||| hexValue h2) = '.'.toUInt8) :
    h1 = '2'.toUInt8 ∧ (h2 = 'E'.toUInt8 ∨ h2 = 'e'.toUInt8) := by
  have hoctet : ∀ a b : Fin 16, UInt8.ofNat ((a.val <<< 4) ||| b.val) = '.'.toUInt8 →
      a.val = 2 ∧ b.val = 14 := by
    decide +kernel
  have htwo : ∀ ch, isHexDigit ch = true → hexValue ch = 2 → ch = '2'.toUInt8 := by
    decide +kernel
  have he : ∀ ch, isHexDigit ch = true → hexValue ch = 14 → ch = 'E'.toUInt8 ∨ ch = 'e'.toUInt8 := by
    decide +kernel
  obtain ⟨hv1, hv2⟩ := hoctet ⟨_, hexValue_lt hh1⟩ ⟨_, hexValue_lt hh2⟩ h
  exact ⟨htwo h1 hh1 hv1, he h2 hh2 hv2⟩

/-- A normal form starts with a "." when the text starts with one as written. -/
theorem normalSegment_dot_cons {x r : Octets} :
    NormalSegment x ('.'.toUInt8 :: r) ↔ ∃ d ∈ writtenDots, ∃ x', x = d ++ x' ∧ NormalSegment x' r := by
  constructor
  · intro h
    generalize hy : '.'.toUInt8 :: r = y at h
    cases h with
    | nil => simp at hy
    | @plain ch rest result hne hch h =>
      simp only [Bool.false_eq_true, if_false, List.cons.injEq] at hy
      obtain ⟨rfl, rfl⟩ := hy
      exact ⟨octets ".", by simp [writtenDots], rest, rfl, h⟩
    | @encoded h1 h2 rest result hh1 hh2 h =>
      rw [normalizeOctet_false hh1 hh2] at hy
      split_ifs at hy with hun
      · simp only [cons_append, nil_append, List.cons.injEq] at hy
        obtain ⟨hdot, rfl⟩ := hy
        obtain ⟨rfl, rfl | rfl⟩ := decoded_dot hh1 hh2 hdot.symm
        · exact ⟨octets "%2E", by simp [writtenDots], rest, rfl, h⟩
        · exact ⟨octets "%2e", by simp [writtenDots], rest, rfl, h⟩
      · exact absurd (List.cons.inj hy).1 (by decide)
  · rintro ⟨d, hd, x', rfl, h⟩
    have hwritten : ∀ d ∈ writtenDots, NormalSegment d ['.'.toUInt8] := by
      intro d hd
      simp only [writtenDots, mem_cons, not_mem_nil, or_false] at hd
      rcases hd with rfl | rfl | rfl
      · exact .plain (by decide) (by decide) .nil
      · exact .encoded (by decide) (by decide) .nil
      · exact .encoded (by decide) (by decide) .nil
    exact (hwritten d hd).append h

theorem normalSegment_nil_iff {x : Octets} : NormalSegment x [] ↔ x = [] :=
  ⟨fun h => h.eq_nil_iff.mp rfl, by rintro rfl; exact .nil⟩

/-- What a segment is can be read off the text as written. -/
theorem plainKind_normal {x y : Octets} (h : NormalSegment x y) :
    plainKind y = segmentKind x := by
  have hdot : ∀ {z w : Octets}, w = ['.'.toUInt8] → (NormalSegment z w ↔ z ∈ writtenDots) := by
    rintro z _ rfl
    rw [normalSegment_dot_cons]
    constructor
    · rintro ⟨d, hd, z', rfl, hz⟩
      rw [normalSegment_nil_iff] at hz
      simpa [hz] using hd
    · exact fun hz => ⟨z, hz, [], by simp, .nil⟩
  have hcurrent : y = dot ↔ writtenDots.contains x = true := by
    rw [contains_iff_mem]
    constructor
    · exact fun hy => (hdot hy).mp h
    · exact fun hx => Normalizes.unique h ((hdot rfl).mpr hx)
  have hparent : y = dotDot ↔
      (writtenDots.any fun d => writtenDots.any fun e => x == d ++ e) = true := by
    have hwritten : NormalSegment x dotDot ↔
        ∃ d ∈ writtenDots, ∃ x', x = d ++ x' ∧ x' ∈ writtenDots := by
      change NormalSegment x ('.'.toUInt8 :: ['.'.toUInt8]) ↔ _
      rw [normalSegment_dot_cons]
      simp only [hdot rfl]
    simp only [any_eq_true, beq_iff_eq]
    constructor
    · rintro rfl
      obtain ⟨d, hd, e, rfl, he⟩ := hwritten.mp h
      exact ⟨d, hd, e, he, rfl⟩
    · rintro ⟨d, hd, e, he, rfl⟩
      exact Normalizes.unique h (hwritten.mpr ⟨d, hd, e, rfl, he⟩)
  rw [plainKind, segmentKind]
  simp only [h.eq_nil_iff, hcurrent, hparent]

/-- The normal form of a path, after the removal, starts with two separators
exactly when the path as written says so. -/
theorem removeDotSegments_normal_slashes_iff {path p : Octets} (h : NormalSegment path p) :
    octets "//" <+: removeDotSegments p ↔ EmptyFirst (pathKinds path) := by
  have hkinds : (p.splitOn '/'.toUInt8).map plainKind
      = (path.splitOn '/'.toUInt8).map segmentKind := by
    have hall := normalSegment_splitOn h
    generalize path.splitOn '/'.toUInt8 = xs at hall
    generalize p.splitOn '/'.toUInt8 = ys at hall
    induction hall with
    | nil => rfl
    | cons hxy _ ih => rw [map_cons, map_cons, plainKind_normal hxy, ih]
  rw [removeDotSegments_slashes_iff, hkinds, pathKinds]

end Baselib.Core.Uri
