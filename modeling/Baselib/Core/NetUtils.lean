/-
Baselib.Core.NetUtils — endpoints in "host:port" form.

`tryParseEndpoint` leaves the port to `std::stoul`, and does not ask how
much of it was read. A host and a port of one to five digits are read as
they stand, and so is what `formatEndpointId` writes. But white space and a
sign before the digits and any text behind them are let through as well:
`Tolerated` is the form of those texts, and they are the only ones for
which the answer is not that of the documented form.

The two results are set together with the answer `true`, so the model
returns them with it.
-/
import Baselib.Core.InputStream
import Baselib.Core.UriRoundTrip

namespace Baselib.Core.Net

open Lib List
open Core.Uri (isDigit digitsValue toDecimal toDecimal_spec)
open Core.Str (isSpace)
open Core.InputStream (cutSign IsNumber)

def colon : UInt8 := ':'.toUInt8

/-- `formatEndpointId`. -/
def formatEndpointId (host : Octets) (port : UInt16) : Octets :=
  host ++ colon :: toDecimal port.toNat

inductive StoulError where
  | invalidArgument
  | outOfRange
  deriving DecidableEq

/-- `std::stoul` in base ten, for an `unsigned long` of 64 bits: blanks are
skipped, a sign is read, and the digits up to anything else. -/
def stoul (text : Octets) : Except StoulError Nat :=
  let (sign, rest) := cutSign (text.dropWhile isSpace)
  let digits := rest.takeWhile isDigit
  if digits = [] then .error .invalidArgument
  else if 2 ^ 64 ≤ digitsValue digits then .error .outOfRange
  else if sign = ['-'.toUInt8] then .ok ((2 ^ 64 - digitsValue digits) % 2 ^ 64)
  else .ok (digitsValue digits)

def tryParseEndpoint (endpoint : Octets) : Except StoulError (Option (Octets × UInt16)) :=
  match find endpoint colon 0 with
  | none => .ok none
  | some pos =>
    if pos = 0 ∨ pos + 1 = endpoint.length then .ok none
    else if pos + 6 < endpoint.length then .ok none
    else
      match stoul (endpoint.drop (pos + 1)) with
      | .error .invalidArgument => .ok none
      | .error .outOfRange => .error .outOfRange
      | .ok value =>
        if value > 65535 then .ok none
        else .ok (some (endpoint.take pos, value.toUInt16))

/-! ## Digits -/

theorem toNat_sub_of_isDigit {ch : UInt8} (h : isDigit ch = true) : ch.toNat - '0'.toNat ≤ 9 := by
  revert ch
  decide +kernel

theorem digitsValue_concat (digits : Octets) (ch : UInt8) :
    digitsValue (digits ++ [ch]) = digitsValue digits * 10 + (ch.toNat - '0'.toNat) := by
  simp [digitsValue]

theorem digitsValue_lt {digits : Octets} (h : ∀ ch ∈ digits, isDigit ch = true) :
    digitsValue digits < 10 ^ digits.length := by
  induction digits using reverseRecOn with
  | nil => decide
  | append_singleton digits ch ih =>
    have hch := toNat_sub_of_isDigit (h ch (by simp))
    have hlt := ih fun c hc => h c (by simp [hc])
    rw [digitsValue_concat, length_append, length_singleton, pow_succ]
    omega

theorem length_toDecimal_le {k : Nat} : ∀ {n : Nat}, n < 10 ^ (k + 1) →
    (toDecimal n).length ≤ k + 1 := by
  induction k with
  | zero =>
    intro n h
    rw [Uri.toDecimal_eq, if_pos (by omega)]
    simp
  | succ k ih =>
    intro n h
    rw [Uri.toDecimal_eq]
    split
    · simp
    · have hlt : n / 10 < 10 ^ (k + 1) := by
        rw [pow_succ] at h
        omega
      have := ih hlt
      rw [length_append, length_singleton]
      omega

/-! ## What `std::stoul` reads -/

/-- A text which `std::stoul` reads as a number that a port may be. -/
structure Reads (text blank sign digits rest : Octets) (port : UInt16) : Prop where
  text : text = blank ++ (sign ++ (digits ++ rest))
  blank : ∀ ch ∈ blank, isSpace ch = true
  number : IsNumber sign digits rest
  nonempty : digits ≠ []
  value : digitsValue digits = port.toNat
  /-- A number with a minus is a port for zero only. -/
  negative : sign = ['-'.toUInt8] → port = 0

theorem stoul_of_number {blank sign digits rest : Octets}
    (hblank : ∀ ch ∈ blank, isSpace ch = true) (hnumber : IsNumber sign digits rest)
    (hne : digits ≠ []) :
    stoul (blank ++ (sign ++ (digits ++ rest))) =
      if 2 ^ 64 ≤ digitsValue digits then .error .outOfRange
      else if sign = ['-'.toUInt8] then .ok ((2 ^ 64 - digitsValue digits) % 2 ^ 64)
      else .ok (digitsValue digits) := by
  have hskip := (InputStream.takeWhile_run hblank (hnumber.head hne)).2
  have hrun := (InputStream.takeWhile_run hnumber.digits hnumber.rest).1
  simp only [stoul, hskip, InputStream.cutSign_number hnumber hne, hrun, if_neg hne]

/-- Every text has the form of a number, with digits or without. -/
theorem exists_number (text : Octets) :
    ∃ blank sign digits rest, text = blank ++ (sign ++ (digits ++ rest)) ∧
      (∀ ch ∈ blank, isSpace ch = true) ∧ IsNumber sign digits rest ∧
      (digits = [] → stoul text = .error .invalidArgument) := by
  obtain ⟨hcut, hsign⟩ := InputStream.cutSign_spec (text.dropWhile isSpace)
  refine ⟨text.takeWhile isSpace, (cutSign (text.dropWhile isSpace)).1,
    (cutSign (text.dropWhile isSpace)).2.takeWhile isDigit,
    (cutSign (text.dropWhile isSpace)).2.dropWhile isDigit, ?_, fun ch => mem_takeWhile_imp,
    ⟨hsign, fun ch => mem_takeWhile_imp, InputStream.head?_dropWhile _⟩, fun hnil => ?_⟩
  · rw [takeWhile_append_dropWhile, ← hcut, takeWhile_append_dropWhile]
  · simp only [stoul, hnil, if_true]

theorem Reads.stoul {text blank sign digits rest : Octets} {port : UInt16}
    (h : Reads text blank sign digits rest port) : stoul text = .ok port.toNat := by
  have hlt := port.toNat_lt
  rw [h.text, stoul_of_number h.blank h.number h.nonempty, h.value, if_neg (by omega)]
  split
  case isTrue hminus =>
      rw [h.negative hminus]
      rfl
  case isFalse => rfl

/-- Five octets are below the range of the type. -/
theorem stoul_ne_outOfRange {text : Octets} (hlen : text.length ≤ 5) :
    stoul text ≠ .error .outOfRange := by
  obtain ⟨blank, sign, digits, rest, rfl, hblank, hnumber, hnone⟩ := exists_number text
  by_cases hne : digits = []
  · rw [hnone hne]
    decide
  · have hsmall := digitsValue_lt hnumber.digits
    have hpow : 10 ^ digits.length ≤ 10 ^ 5 := by
      apply Nat.pow_le_pow_right (by decide)
      simp only [length_append] at hlen
      omega
    rw [stoul_of_number hblank hnumber hne, if_neg (by omega)]
    split <;> simp

/-- A number above zero with a minus is negated to a number which is no
port. -/
theorem exists_reads {text : Octets} (hlen : text.length ≤ 5) {value : Nat}
    (hread : Net.stoul text = .ok value) (hport : value ≤ 65535) :
    ∃ blank sign digits rest, Reads text blank sign digits rest value.toUInt16 := by
  obtain ⟨blank, sign, digits, rest, rfl, hblank, hnumber, hnone⟩ := exists_number text
  have hne : digits ≠ [] := by
    intro hnil
    simp [hnone hnil] at hread
  have hsmall := digitsValue_lt hnumber.digits
  have hpow : 10 ^ digits.length ≤ 10 ^ 5 := by
    apply Nat.pow_le_pow_right (by decide)
    simp only [length_append] at hlen
    omega
  have htoNat : value.toUInt16.toNat = value := UInt16.toNat_ofNat_of_lt' (Nat.lt_of_le_of_lt hport (by decide))
  rw [stoul_of_number hblank hnumber hne, if_neg (by omega)] at hread
  split at hread
  case isTrue hminus =>
      have hvalue := Except.ok.inj hread
      have hzero : digitsValue digits = 0 ∧ value = 0 := by omega
      refine ⟨blank, sign, digits, rest, rfl, hblank, hnumber, hne, ?_, fun _ => ?_⟩
      · rw [htoNat, hzero.1, hzero.2]
      · rw [hzero.2]
        rfl
  case isFalse hminus =>
      refine ⟨blank, sign, digits, rest, rfl, hblank, hnumber, hne, ?_, fun h => absurd h hminus⟩
      rw [htoNat]
      exact Except.ok.inj hread

/-! ## What `tryParseEndpoint` accepts -/

theorem tryParseEndpoint_append {host text : Octets} (hhost : colon ∉ host) :
    tryParseEndpoint (host ++ colon :: text) =
      if host = [] ∨ text = [] then .ok none
      else if 5 < text.length then .ok none
      else
        match stoul text with
        | .error .invalidArgument => .ok none
        | .error .outOfRange => .error .outOfRange
        | .ok value => if value > 65535 then .ok none else .ok (some (host, value.toUInt16)) := by
  have hdrop : (host ++ colon :: text).drop (host.length + 1) = text := by simp
  have hends : (host.length = 0 ∨ host.length + 1 = (host ++ colon :: text).length)
      ↔ host = [] ∨ text = [] := by
    simp [length_eq_zero_iff]
  have hlong : host.length + 6 < (host ++ colon :: text).length ↔ 5 < text.length := by
    simp only [length_append, length_cons]
    omega
  rw [tryParseEndpoint, find_append_cons text hhost]
  simp only [hends, hlong, hdrop, take_left]

theorem tryParseEndpoint_of_not_mem {endpoint : Octets} (h : colon ∉ endpoint) :
    tryParseEndpoint endpoint = .ok none := by
  rw [tryParseEndpoint, find_eq_none.mpr h]

theorem tryParseEndpoint_returns (endpoint : Octets) :
    ∃ result, tryParseEndpoint endpoint = .ok result := by
  obtain ⟨host, hhost, rfl | ⟨text, rfl⟩⟩ := exists_cut colon endpoint
  · exact ⟨none, tryParseEndpoint_of_not_mem hhost⟩
  · rw [tryParseEndpoint_append hhost]
    split
    · exact ⟨none, rfl⟩
    · split
      · exact ⟨none, rfl⟩
      · next hlen =>
          have hrange := @stoul_ne_outOfRange text (by omega)
          split
          · exact ⟨none, rfl⟩
          · contradiction
          · split
            · exact ⟨none, rfl⟩
            · exact ⟨_, rfl⟩

theorem tryParseEndpoint_eq_some {endpoint host : Octets} {port : UInt16} :
    tryParseEndpoint endpoint = .ok (some (host, port)) ↔
      ∃ text, endpoint = host ++ colon :: text ∧ host ≠ [] ∧ colon ∉ host ∧ text.length ≤ 5 ∧
        ∃ blank sign digits rest, Reads text blank sign digits rest port := by
  constructor
  · intro h
    obtain ⟨host', hhost, rfl | ⟨text, rfl⟩⟩ := exists_cut colon endpoint
    · simp [tryParseEndpoint_of_not_mem hhost] at h
    · rw [tryParseEndpoint_append hhost] at h
      split at h
      · cases h
      next hends =>
        split at h
        · cases h
        next hlen =>
          split at h
          · cases h
          · cases h
          next value hread =>
            split at h
            · cases h
            next hport =>
              cases h
              push Not at hends
              exact ⟨text, rfl, hends.1, hhost, by omega, exists_reads (by omega) hread (by omega)⟩
  · rintro ⟨text, rfl, hne, hhost, hlen, blank, sign, digits, rest, hreads⟩
    have htext : text ≠ [] := by
      rintro rfl
      have := congrArg List.length hreads.text
      have := length_pos_iff.mpr hreads.nonempty
      simp only [length_nil, length_append] at *
      omega
    have hlt := port.toNat_lt
    rw [tryParseEndpoint_append hhost, if_neg (by simp [hne, htext]), if_neg (by omega),
      hreads.stoul]
    simp only
    rw [if_neg (by omega)]
    simp

/-! ## Endpoints -/

/-- The documented form: a host without a colon, a colon, and one to five
digits whose value is the port. -/
structure IsEndpoint (endpoint host : Octets) (port : UInt16) : Prop where
  host_ne_nil : host ≠ []
  host_colon : colon ∉ host
  digits : ∃ digits : Octets, endpoint = host ++ colon :: digits ∧ 1 ≤ digits.length ∧
    digits.length ≤ 5 ∧ (∀ ch ∈ digits, isDigit ch = true) ∧ digitsValue digits = port.toNat

/-- What the answer is to be for an endpoint: that of the documented form,
and what was read is read again from the text formed of it. -/
structure ReadsEndpoint (endpoint : Octets) : Prop where
  returns : ∃ result, tryParseEndpoint endpoint = .ok result
  accepts : ∀ host port,
    tryParseEndpoint endpoint = .ok (some (host, port)) ↔ IsEndpoint endpoint host port
  again : ∀ host port, tryParseEndpoint endpoint = .ok (some (host, port)) →
    tryParseEndpoint (formatEndpointId host port) = .ok (some (host, port))

/-- The texts let through beside the documented form: white space or a sign
before the digits, or a text which starts with no digit behind them. -/
def Tolerated (endpoint : Octets) : Prop :=
  ∃ host text blank sign digits rest port, endpoint = host ++ colon :: text ∧ host ≠ [] ∧
    colon ∉ host ∧ text.length ≤ 5 ∧ Reads text blank sign digits rest port ∧
    (blank ≠ [] ∨ sign ≠ [] ∨ rest ≠ [])

theorem reads_digits {digits : Octets} {port : UInt16} (hne : digits ≠ [])
    (hdigits : ∀ ch ∈ digits, isDigit ch = true) (hvalue : digitsValue digits = port.toNat) :
    Reads digits [] [] digits [] port where
  text := by simp
  blank := by simp
  number := ⟨.inl rfl, hdigits, by simp⟩
  nonempty := hne
  value := hvalue
  negative h := by cases h

theorem IsEndpoint.accepted {endpoint host : Octets} {port : UInt16}
    (h : IsEndpoint endpoint host port) :
    tryParseEndpoint endpoint = .ok (some (host, port)) := by
  obtain ⟨digits, rfl, hpos, hlen, hdigits, hvalue⟩ := h.digits
  have hne : digits ≠ [] := length_pos_iff.mp hpos
  exact tryParseEndpoint_eq_some.mpr ⟨digits, rfl, h.host_ne_nil, h.host_colon, hlen,
    [], [], digits, [], reads_digits hne hdigits hvalue⟩

/-- The text formed of a host and a port is in the documented form. -/
theorem isEndpoint_formatEndpointId {host : Octets} (hne : host ≠ []) (hhost : colon ∉ host)
    (port : UInt16) : IsEndpoint (formatEndpointId host port) host port := by
  obtain ⟨htext, hall, hvalue⟩ := toDecimal_spec port.toNat
  have hlt := port.toNat_lt
  exact ⟨hne, hhost, toDecimal port.toNat, rfl, length_pos_iff.mpr htext,
    length_toDecimal_le (by omega), by simpa using hall, hvalue⟩

/-- Text which is all digits has no white space, no sign and nothing behind
the digits. -/
theorem Reads.of_digits {text blank sign digits rest : Octets} {port : UInt16}
    (h : Reads text blank sign digits rest port) (htext : ∀ ch ∈ text, isDigit ch = true) :
    blank = [] ∧ sign = [] ∧ rest = [] := by
  have hdigit : ∀ ch, ch ∈ blank ∨ ch ∈ sign ∨ ch ∈ rest → isDigit ch = true := by
    intro ch hch
    apply htext
    rw [h.text]
    simp only [mem_append]
    tauto
  refine ⟨eq_nil_iff_forall_not_mem.mpr fun ch hch => ?_, ?_, ?_⟩
  · have hspace := InputStream.isSpace_of_isDigit (hdigit ch (.inl hch))
    simp [h.blank ch hch] at hspace
  · rcases h.number.sign with hsign | hsign | hsign
    · exact hsign
    · have hminus := hdigit '-'.toUInt8 (.inr (.inl (by simp [hsign])))
      cases hminus
    · have hplus := hdigit '+'.toUInt8 (.inr (.inl (by simp [hsign])))
      cases hplus
  · cases hrest : rest with
    | nil => rfl
    | cons ch tail =>
      have hnot := h.number.rest ch (by simp [hrest])
      rw [hdigit ch (.inr (.inr (by simp [hrest])))] at hnot
      cases hnot

/-- The answer is that of the documented form for every text but those let
through beside it. -/
theorem readsEndpoint_iff (endpoint : Octets) :
    ReadsEndpoint endpoint ↔ ¬ Tolerated endpoint := by
  constructor
  · rintro h ⟨host, text, blank, sign, digits, rest, port, rfl, hne, hhost, hlen, hreads, hextra⟩
    have haccepted : tryParseEndpoint (host ++ colon :: text) = .ok (some (host, port)) :=
      tryParseEndpoint_eq_some.mpr
        ⟨text, rfl, hne, hhost, hlen, blank, sign, digits, rest, hreads⟩
    obtain ⟨digits', heq, -, -, hdigits, -⟩ := ((h.accepts host port).mp haccepted).digits
    obtain rfl := ((append_cons_inj hhost hhost).mp heq).2
    obtain ⟨hblank, hsign, hrest⟩ := hreads.of_digits hdigits
    simp [hblank, hsign, hrest] at hextra
  · intro h
    refine ⟨tryParseEndpoint_returns endpoint, fun host port => ⟨fun haccepted => ?_,
      IsEndpoint.accepted⟩, fun host port haccepted => ?_⟩
    · obtain ⟨text, rfl, hne, hhost, hlen, blank, sign, digits, rest, hreads⟩ :=
        tryParseEndpoint_eq_some.mp haccepted
      have hextra : ¬ (blank ≠ [] ∨ sign ≠ [] ∨ rest ≠ []) := fun hextra =>
        h ⟨host, text, blank, sign, digits, rest, port, rfl, hne, hhost, hlen, hreads, hextra⟩
      push Not at hextra
      obtain ⟨rfl, rfl, rfl⟩ := hextra
      have htext : text = digits := by simpa using hreads.text
      subst htext
      exact ⟨hne, hhost, text, rfl, List.length_pos_iff.mpr hreads.nonempty, hlen,
        hreads.number.digits, hreads.value⟩
    · obtain ⟨-, -, hne, hhost, -⟩ := tryParseEndpoint_eq_some.mp haccepted
      exact (isEndpoint_formatEndpointId hne hhost port).accepted

/-- Text behind the digits is dropped. -/
theorem tryParseEndpoint_tolerates :
    tryParseEndpoint (octets "host:12ab") = .ok (some (octets "host", 12)) ∧
      ¬ IsEndpoint (octets "host:12ab") (octets "host") 12 ∧
      ¬ ReadsEndpoint (octets "host:12ab") := by
  have haccepted : tryParseEndpoint (octets "host:12ab") = .ok (some (octets "host", 12)) := by
    decide +kernel
  have hnot : ¬ IsEndpoint (octets "host:12ab") (octets "host") 12 := by
    rintro ⟨-, hhost, digits, heq, -, -, hdigits, -⟩
    have hsplit : octets "host:12ab" = octets "host" ++ colon :: octets "12ab" := by decide
    rw [hsplit] at heq
    obtain rfl := ((append_cons_inj hhost hhost).mp heq).2
    have ha := hdigits 'a'.toUInt8 (by decide)
    cases ha
  exact ⟨haccepted, hnot, fun h => hnot ((h.accepts _ _).mp haccepted)⟩

end Baselib.Core.Net
