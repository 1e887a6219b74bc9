/-
Baselib.Core.InputStream — the extractions from a `std::istream` which the
HTTP client reads the response with: `>> std::string`, `>> unsigned int`
and `std::getline`.

The locale is the classic one. An extraction which runs to the end of the
buffer sets `eofbit`, and every extraction after it fails. One which leaves
`eofbit` clear has seen where its text ends, so it gives the same on a
longer buffer (`extractString_append`, `extractUnsigned_append`,
`getline_append`).
-/
import Baselib.Core.StringUtils

namespace Baselib.Core

open Lib List
open Core.Uri (isDigit digitsValue)
open Core.Str (isSpace)

/-- What is left to read, and the two bits of the state. -/
structure InputStream where
  rest : Octets
  eofbit : Bool := false
  failbit : Bool := false
  deriving DecidableEq

namespace InputStream

def lineFeed : UInt8 := '\n'.toUInt8

/-- `std::istream::sentry`. -/
def sentry (s : InputStream) (noskipws : Bool) : InputStream :=
  if s.eofbit || s.failbit then { s with failbit := true }
  else if noskipws then s
  else
    let rest := s.rest.dropWhile isSpace
    { rest := rest, eofbit := rest.isEmpty, failbit := rest.isEmpty }

/-- `>> std::string`. -/
def extractString (s : InputStream) : Octets × InputStream :=
  let s := s.sentry false
  if s.failbit then ([], s)
  else
    let text := s.rest.takeWhile (!isSpace ·)
    let rest := s.rest.dropWhile (!isSpace ·)
    (text, { rest := rest, eofbit := rest.isEmpty, failbit := text.isEmpty })

/-- The sign of a number and what follows it. -/
def cutSign (text : Octets) : Octets × Octets :=
  match text with
  | ch :: rest => if ch = '-'.toUInt8 ∨ ch = '+'.toUInt8 then ([ch], rest) else ([], ch :: rest)
  | [] => ([], [])

/-- The number which digits give an `unsigned int` of 32 bits, `none` when
it does not fit. A minus sign negates modulo 2^32. -/
def unsignedValue (sign digits : Octets) : Option Nat :=
  if digits = [] ∨ 2 ^ 32 ≤ digitsValue digits then none
  else if sign = ['-'.toUInt8] then some ((2 ^ 32 - digitsValue digits) % 2 ^ 32)
  else some (digitsValue digits)

/-- `>> unsigned int`; `none` when the extraction fails. -/
def extractUnsigned (s : InputStream) : Option Nat × InputStream :=
  let s := s.sentry false
  if s.failbit then (none, s)
  else
    let sign := (cutSign s.rest).1
    let digits := (cutSign s.rest).2.takeWhile isDigit
    let rest := (cutSign s.rest).2.dropWhile isDigit
    let value := unsignedValue sign digits
    (value, { rest := rest, eofbit := rest.isEmpty, failbit := value.isNone })

/-- `std::getline`. -/
def getline (s : InputStream) : Octets × InputStream :=
  let s := s.sentry true
  if s.failbit then ([], s)
  else
    match cut lineFeed s.rest with
    | (line, some rest) => (line, { s with rest := rest })
    | (line, none) => (line, { rest := [], eofbit := true, failbit := line.isEmpty })

/-- The stream over a buffer to which more is added. -/
def append (s : InputStream) (more : Octets) : InputStream := { s with rest := s.rest ++ more }

@[simp] theorem append_failbit (s : InputStream) (more : Octets) :
    (s.append more).failbit = s.failbit := rfl

@[simp] theorem append_rest (s : InputStream) (more : Octets) :
    (s.append more).rest = s.rest ++ more := rfl

/-! ## Sentries -/

section

variable {p : UInt8 → Bool} {text : Octets} (more : Octets)
  (h : (text.dropWhile p).isEmpty = false)

include h

theorem dropWhile_append_of_isEmpty :
    (text ++ more).dropWhile p = text.dropWhile p ++ more := by
  rw [dropWhile_append, h]
  rfl

theorem isEmpty_append_of_isEmpty : (text.dropWhile p ++ more).isEmpty = false := by
  cases hdrop : text.dropWhile p with
  | nil => simp [hdrop] at h
  | cons ch rest => rfl

theorem takeWhile_append_of_isEmpty : (text ++ more).takeWhile p = text.takeWhile p := by
  have hne : (text.takeWhile p).length ≠ text.length := by
    intro hlen
    have hsplit := congrArg List.length (takeWhile_append_dropWhile (p := p) (l := text))
    rw [length_append, hlen] at hsplit
    have hnil : text.dropWhile p = [] := eq_nil_of_length_eq_zero (by omega)
    simp [hnil] at h
  rw [takeWhile_append, if_neg hne]

end

variable {s : InputStream}

/-- A sentry which lets the extraction go on has passed blanks only. -/
theorem sentry_good {noskipws : Bool}
    (h : (s.sentry noskipws).failbit = false) : s.eofbit = false ∧ s.failbit = false ∧
      (s.sentry noskipws).eofbit = false ∧
      (s.sentry noskipws).rest = if noskipws then s.rest else s.rest.dropWhile isSpace := by
  obtain ⟨rest, eofbit, failbit⟩ := s
  cases eofbit <;> cases failbit <;> cases noskipws <;> simp_all [sentry]

theorem sentry_append {noskipws : Bool} (more : Octets) (h : (s.sentry noskipws).eofbit = false) :
    (s.append more).sentry noskipws = (s.sentry noskipws).append more := by
  obtain ⟨rest, eofbit, failbit⟩ := s
  cases eofbit with
  | true => rfl
  | false =>
    cases failbit with
    | true => rfl
    | false =>
      cases noskipws with
      | true => rfl
      | false =>
        have hrest : (rest.dropWhile isSpace).isEmpty = false := h
        have hdrop := dropWhile_append_of_isEmpty more hrest
        have hlong := isEmpty_append_of_isEmpty more hrest
        simp only [sentry, append, hdrop, hlong, hrest, Bool.or_self, Bool.false_eq_true,
          if_false]

theorem getline_lt (h : s.getline.2.failbit = false) : s.getline.2.rest.length < s.rest.length := by
  unfold getline at *
  cases hfail : (s.sentry true).failbit with
  | true => simp [hfail] at h
  | false =>
    obtain ⟨-, -, -, hrest⟩ := sentry_good hfail
    simp only [hfail, hrest, Bool.false_eq_true, if_false, if_true] at h ⊢
    obtain ⟨line, hline, hcut | ⟨rest, hcut⟩⟩ := exists_cut lineFeed s.rest
    · rw [hcut, cut_of_not_mem hline] at h ⊢
      exact length_pos_iff.mpr (by simpa using h)
    · rw [hcut, cut_append_cons rest hline]
      simp only [length_append, length_cons]
      omega

/-! ## Longer buffers -/

theorem cutSign_append {text : Octets} (more : Octets) (h : text ≠ []) :
    cutSign (text ++ more) = ((cutSign text).1, (cutSign text).2 ++ more) := by
  cases text with
  | nil => exact absurd rfl h
  | cons ch rest =>
    rw [cons_append, cutSign, cutSign]
    split_ifs <;> rfl

theorem extractString_append (more : Octets) (h : s.extractString.2.eofbit = false) :
    (s.append more).extractString = (s.extractString.1, s.extractString.2.append more) := by
  unfold extractString at *
  cases hfail : (s.sentry false).failbit with
  | true =>
    simp only [hfail, if_true] at h ⊢
    simp [sentry_append more h, hfail]
  | false =>
    obtain ⟨-, -, heof, -⟩ := sentry_good hfail
    simp only [hfail, Bool.false_eq_true, if_false] at h ⊢
    simp only [sentry_append more heof, append_failbit, append_rest, hfail, Bool.false_eq_true,
      if_false]
    rw [takeWhile_append_of_isEmpty more h, dropWhile_append_of_isEmpty more h,
      isEmpty_append_of_isEmpty more h, h]
    rfl

theorem extractUnsigned_append (more : Octets) (h : s.extractUnsigned.2.eofbit = false) :
    (s.append more).extractUnsigned =
      (s.extractUnsigned.1, s.extractUnsigned.2.append more) := by
  unfold extractUnsigned at *
  cases hfail : (s.sentry false).failbit with
  | true =>
    simp only [hfail, if_true] at h ⊢
    simp [sentry_append more h, hfail]
  | false =>
    obtain ⟨-, -, heof, -⟩ := sentry_good hfail
    simp only [hfail, Bool.false_eq_true, if_false] at h ⊢
    simp only [sentry_append more heof, append_failbit, append_rest, hfail, Bool.false_eq_true,
      if_false]
    have hne : (s.sentry false).rest ≠ [] := by
      intro hnil
      simp [hnil, cutSign] at h
    rw [cutSign_append more hne]
    rw [takeWhile_append_of_isEmpty more h, dropWhile_append_of_isEmpty more h,
      isEmpty_append_of_isEmpty more h, h]
    rfl

theorem getline_append (more : Octets) (h : s.getline.2.eofbit = false) :
    (s.append more).getline = (s.getline.1, s.getline.2.append more) := by
  unfold getline at *
  cases hfail : (s.sentry true).failbit with
  | true =>
    simp only [hfail, if_true] at h ⊢
    simp [sentry_append more h, hfail]
  | false =>
    obtain ⟨-, -, heof, -⟩ := sentry_good hfail
    simp only [hfail, Bool.false_eq_true, if_false] at h ⊢
    simp only [sentry_append more heof, append_failbit, append_rest, hfail, Bool.false_eq_true,
      if_false]
    obtain ⟨line, hline, hcut | ⟨rest, hcut⟩⟩ := exists_cut lineFeed (s.sentry true).rest
    · rw [hcut, cut_of_not_mem hline] at h
      simp at h
    · rw [hcut, cut_append_cons rest hline, append_assoc, cons_append,
        cut_append_cons _ hline]
      rfl

/-! ## What is taken -/

/-- A run of octets of one kind ends where an octet of another kind is next. -/
theorem takeWhile_run {p : UInt8 → Bool} {run rest : Octets} (hrun : ∀ ch ∈ run, p ch = true)
    (hrest : ∀ ch ∈ rest.head?, p ch = false) :
    (run ++ rest).takeWhile p = run ∧ (run ++ rest).dropWhile p = rest := by
  rw [takeWhile_append_of_pos hrun, dropWhile_append_of_pos hrun]
  cases rest with
  | nil => simp
  | cons ch rest =>
    have hch := hrest ch (by simp)
    simp [hch]

theorem head?_dropWhile {p : UInt8 → Bool} (text : Octets) :
    ∀ ch ∈ (text.dropWhile p).head?, p ch = false := by
  intro ch hch
  have h := head?_dropWhile_not p text
  rw [Option.mem_def] at hch
  simpa [hch] using h

theorem isSpace_of_isDigit {ch : UInt8} (h : isDigit ch = true) : isSpace ch = false := by
  revert ch
  decide +kernel

theorem extractString_word {blank text rest : Octets} (hblank : ∀ ch ∈ blank, isSpace ch = true)
    (hne : text ≠ []) (htext : ∀ ch ∈ text, isSpace ch = false)
    (hrest : ∀ ch ∈ rest.head?, isSpace ch = true) :
    extractString { rest := blank ++ (text ++ rest) } =
      (text, { rest := rest, eofbit := rest.isEmpty }) := by
  have hhead : ∀ ch ∈ (text ++ rest).head?, isSpace ch = false := by
    cases text with
    | nil => exact absurd rfl hne
    | cons ch text => simpa using htext ch mem_cons_self
  have hskip := (takeWhile_run hblank hhead).2
  have hrun : ∀ ch ∈ text, (!isSpace ch) = true := fun ch hch => by rw [htext ch hch]; rfl
  have hafter : ∀ ch ∈ rest.head?, (!isSpace ch) = false := fun ch hch => by
    rw [hrest ch hch]
    rfl
  have hword := takeWhile_run hrun hafter
  have hempty : (text ++ rest).isEmpty = false := by
    cases text with
    | nil => exact absurd rfl hne
    | cons ch text => rfl
  have htextEmpty : text.isEmpty = false := by simpa using hne
  simp only [extractString, sentry, Bool.or_self, Bool.false_eq_true, if_false, hskip, hempty,
    hword, htextEmpty]

theorem extractString_spec {t text : Octets}
    (h : extractString { rest := t } = (text, s)) (hfail : s.failbit = false) :
    ∃ blank, t = blank ++ (text ++ s.rest) ∧ (∀ ch ∈ blank, isSpace ch = true) ∧
      (∀ ch ∈ text, isSpace ch = false) ∧ (∀ ch ∈ s.rest.head?, isSpace ch = true) ∧
      s = { rest := s.rest, eofbit := s.rest.isEmpty } := by
  refine ⟨t.takeWhile isSpace, ?_⟩
  simp only [extractString, sentry, Bool.or_self, Bool.false_eq_true, if_false] at h
  split_ifs at h with hempty
  · cases h
    simp [hempty] at hfail
  · cases h
    refine ⟨?_, fun ch => mem_takeWhile_imp, ?_, ?_, ?_⟩
    · rw [takeWhile_append_dropWhile, takeWhile_append_dropWhile]
    · intro ch hch
      simpa using mem_takeWhile_imp hch
    · intro ch hch
      simpa using head?_dropWhile _ ch hch
    · dsimp only at hfail
      rw [hfail]

/-- The text of a number: a sign or none, and digits up to an octet which is
no digit. -/
structure IsNumber (sign digits rest : Octets) : Prop where
  sign : sign = [] ∨ sign = ['-'.toUInt8] ∨ sign = ['+'.toUInt8]
  digits : ∀ ch ∈ digits, isDigit ch = true
  rest : ∀ ch ∈ rest.head?, isDigit ch = false

theorem IsNumber.head {sign digits rest : Octets} (h : IsNumber sign digits rest)
    (hne : digits ≠ []) : ∀ ch ∈ (sign ++ (digits ++ rest)).head?, isSpace ch = false := by
  obtain ⟨rfl | rfl | rfl, hdigits, -⟩ := h
  · cases digits with
    | nil => exact absurd rfl hne
    | cons ch digits =>
      intro c hc
      obtain rfl : ch = c := by simpa using hc
      exact isSpace_of_isDigit (hdigits ch mem_cons_self)
  · intro ch hch
    obtain rfl : '-'.toUInt8 = ch := by simpa using hch
    decide
  · intro ch hch
    obtain rfl : '+'.toUInt8 = ch := by simpa using hch
    decide

theorem cutSign_number {sign digits rest : Octets} (h : IsNumber sign digits rest)
    (hne : digits ≠ []) : cutSign (sign ++ (digits ++ rest)) = (sign, digits ++ rest) := by
  obtain ⟨rfl | rfl | rfl, hdigits, -⟩ := h
  · cases digits with
    | nil => exact absurd rfl hne
    | cons ch digits =>
      have hch := hdigits ch mem_cons_self
      have hminus : ch ≠ '-'.toUInt8 := by rintro rfl; cases hch
      have hplus : ch ≠ '+'.toUInt8 := by rintro rfl; cases hch
      simp [cutSign, hminus, hplus]
  · rfl
  · rfl

theorem digits_ne_nil {sign digits : Octets} {n : Nat} (h : unsignedValue sign digits = some n) :
    digits ≠ [] := by
  rintro rfl
  cases h

theorem extractUnsigned_number {blank sign digits rest : Octets} {n : Nat}
    (hblank : ∀ ch ∈ blank, isSpace ch = true) (hnumber : IsNumber sign digits rest)
    (hvalue : unsignedValue sign digits = some n) :
    extractUnsigned { rest := blank ++ (sign ++ (digits ++ rest)) } =
      (some n, { rest := rest, eofbit := rest.isEmpty }) := by
  have hne := digits_ne_nil hvalue
  have hskip := (takeWhile_run hblank (hnumber.head hne)).2
  have hrun := takeWhile_run hnumber.digits hnumber.rest
  have hempty : (sign ++ (digits ++ rest)).isEmpty = false := by
    simp [isEmpty_eq_false_iff, hne]
  simp only [extractUnsigned, sentry, Bool.or_self, Bool.false_eq_true, if_false, hskip, hempty,
    cutSign_number hnumber hne, hrun, hvalue, Option.isNone_some]

theorem cutSign_spec (text : Octets) : text = (cutSign text).1 ++ (cutSign text).2 ∧
    ((cutSign text).1 = [] ∨ (cutSign text).1 = ['-'.toUInt8] ∨
      (cutSign text).1 = ['+'.toUInt8]) := by
  cases text with
  | nil => exact ⟨rfl, .inl rfl⟩
  | cons ch rest =>
    rw [cutSign]
    split_ifs with hsign
    · obtain rfl | rfl := hsign
      · exact ⟨rfl, .inr (.inl rfl)⟩
      · exact ⟨rfl, .inr (.inr rfl)⟩
    · exact ⟨rfl, .inl rfl⟩

theorem extractUnsigned_spec {t : Octets} {n : Nat}
    (h : extractUnsigned { rest := t } = (some n, s)) :
    ∃ blank sign digits, t = blank ++ (sign ++ (digits ++ s.rest)) ∧
      (∀ ch ∈ blank, isSpace ch = true) ∧ IsNumber sign digits s.rest ∧
      unsignedValue sign digits = some n ∧ s = { rest := s.rest, eofbit := s.rest.isEmpty } := by
  simp only [extractUnsigned, sentry, Bool.or_self, Bool.false_eq_true, if_false] at h
  split_ifs at h with hempty
  · cases h
  · obtain ⟨hvalue, rfl⟩ := Prod.mk.inj h
    obtain ⟨hcut, hsign⟩ := cutSign_spec (t.dropWhile isSpace)
    refine ⟨t.takeWhile isSpace, (cutSign (t.dropWhile isSpace)).1,
      (cutSign (t.dropWhile isSpace)).2.takeWhile isDigit, ?_, fun ch => mem_takeWhile_imp,
      ⟨hsign, fun ch => mem_takeWhile_imp, head?_dropWhile _⟩, hvalue, ?_⟩
    · rw [takeWhile_append_dropWhile, ← hcut, takeWhile_append_dropWhile]
    · rw [hvalue]
      rfl

theorem extractUnsigned_eof (h : s.eofbit = true) :
    s.extractUnsigned = (none, { s with failbit := true }) := by
  simp [extractUnsigned, sentry, h]

theorem getline_eof (h : s.eofbit = true) : s.getline = ([], { s with failbit := true }) := by
  simp [getline, sentry, h]

theorem getline_line {line : Octets} (rest : Octets) (hline : lineFeed ∉ line) :
    getline { rest := line ++ lineFeed :: rest } = (line, { rest := rest }) := by
  simp only [getline, sentry, Bool.or_self, Bool.false_eq_true, if_false, if_true,
    cut_append_cons rest hline]

theorem getline_last {line : Octets} (hline : lineFeed ∉ line) :
    getline { rest := line } = (line, { rest := [], eofbit := true, failbit := line.isEmpty }) := by
  simp only [getline, sentry, Bool.or_self, Bool.false_eq_true, if_false, if_true,
    cut_of_not_mem hline]

end InputStream

end Baselib.Core
