/-
Baselib.Data.DataBlockTheorems — what a block may do with its memory.

In a sound block the three numbers are in order and the capacity is the
memory it has. Every operation keeps this, except that a raw write and a
growing block take a sum which may wrap (`InRange`): those leave the memory
exactly when it does.
-/
import Baselib.Core.NumberUtilsTheorems
import Baselib.Data.DataBlock
import Baselib.Lib.Transition

namespace Baselib.Data.DataBlock

open List
open Lib (Octets toLittleEndian ofLittleEndian length_toLittleEndian IntType)
open Lib.Memory
open Lib.Transition (run Along Throughout run_cons_eq_some)
open Baselib.Core

variable {ε ε' α β : Type} {b b' : DataBlock} {textSize : IntType.int32.Value} {size : UInt64}

/-! ## Calls -/

theorem call_bind_ok {m : Method ε α} {f : α → Method ε β} {a : α}
    (h : m.call b = some (.ok a, b')) : (m >>= f).call b = (f a).call b' := by
  simp only [Method.call, ExceptT.run_bind, StateT.run_bind] at h ⊢
  rw [h]
  rfl

theorem call_bind_error {m : Method ε α} {f : α → Method ε β} {e : ε}
    (h : m.call b = some (.error e, b')) : (m >>= f).call b = some (.error e, b') := by
  simp only [Method.call, ExceptT.run_bind, StateT.run_bind] at h ⊢
  rw [h]
  rfl

theorem call_bind_none {m : Method ε α} {f : α → Method ε β} (h : m.call b = none) :
    (m >>= f).call b = none := by
  simp only [Method.call, ExceptT.run_bind, StateT.run_bind] at h ⊢
  rw [h]
  rfl

@[simp] theorem call_pure (a : α) : (pure a : Method ε α).call b = some (.ok a, b) := rfl

@[simp] theorem call_throw (e : ε) : (throw e : Method ε α).call b = some (.error e, b) := rfl

@[simp] theorem call_outside (r : Except ε α) : (outside r).call b = some (r, b) := rfl

@[simp] theorem call_get_bind (f : DataBlock → Method ε α) :
    (getThe DataBlock >>= f).call b = (f b).call b := rfl

@[simp] theorem call_set (a : DataBlock) : (set a : Method ε PUnit).call b = some (.ok ⟨⟩, a) := rfl

@[simp] theorem call_access_bind (a : Option α) (f : α → Method ε β) :
    (access a >>= f).call b = a.bind fun x => (f x).call b := by
  cases a <;> rfl

theorem call_ite (p : Prop) [Decidable p] (m m' : Method ε α) :
    (if p then m else m').call b = if p then m.call b else m'.call b := by
  split_ifs <;> rfl

theorem call_adapt (m : Method ε α) (f : ε → ε') :
    (m.adapt f).call b = (m.call b).map fun p => (p.1.mapError f, p.2) := rfl

theorem call_adapt_ok {m : Method ε α} {a : α} (f : ε → ε') (h : m.call b = some (.ok a, b')) :
    (m.adapt f).call b = some (.ok a, b') := by
  rw [call_adapt, h]
  rfl

theorem chkCanWriteText_call (textSize : IntType.int32.Value) :
    (chkCanWriteText textSize).call b =
      if b.size + (4 + toSize textSize) > b.capacity then
        some (.error (b.writeBufferTooSmall (4 + toSize textSize)), b)
      else some (.ok (), b) := by
  rw [chkCanWriteText, call_get_bind, call_ite, call_throw, call_pure]

theorem readEnsureAvailable_call (size : UInt64) :
    (readEnsureAvailable size).call b =
      if b.offset1 ≤ b.size ∧ size ≤ b.size - b.offset1 then some (.ok (), b)
      else some (.error (b.readBufferTooSmall size), b) := by
  rw [readEnsureAvailable, call_get_bind, call_ite, call_throw, call_pure]

theorem write_call (data : Nat → UInt8) (size : UInt64) :
    (write data size).call b =
      if b.size + size ≤ b.capacity then
        (store b.data b.size.toNat data size.toNat).bind fun data =>
          some (.ok (), { b with data, size := b.size + size })
      else some (.error (b.writeBufferTooSmall size), b) := by
  rw [write, call_get_bind, call_ite, call_throw, call_access_bind]
  rfl

theorem setSizeChecked_call (size : UInt64) :
    (setSizeChecked size).call b =
      if size ≤ b.capacity ∧ b.offset1 ≤ size then some (.ok (), { b with size })
      else some (.error (b.invalidSize size), b) := by
  rw [setSizeChecked, call_get_bind, call_ite, call_throw, call_set]

theorem setOffset1Checked_call (offset1 : UInt64) :
    (setOffset1Checked offset1).call b =
      if offset1 ≤ b.size then some (.ok (), { b with offset1 })
      else some (.error (b.invalidOffset1 offset1), b) := by
  rw [setOffset1Checked, call_get_bind, call_ite, call_throw, call_set]

/-! ## Sound blocks -/

structure Sound (b : DataBlock) : Prop where
  offset1_le : b.offset1.toNat ≤ b.size.toNat
  size_le : b.size.toNat ≤ b.capacity.toNat
  length_eq : b.data.length = b.capacity.toNat
  capacity_lt : b.capacity.toNat < 2 ^ 63

/-- The octets which are written. -/
def contents (b : DataBlock) : Octets := b.data.take b.size.toNat

/-- The block after the octets are written at the end of it. -/
structure Appended (b : DataBlock) (octets : Octets) (b' : DataBlock) : Prop where
  contents_eq : b'.contents = b.contents ++ octets
  offset1_eq : b'.offset1 = b.offset1
  capacity_eq : b'.capacity = b.capacity

theorem Appended.trans {b'' : DataBlock} {octets octets' : Octets} (h : Appended b octets b')
    (h' : Appended b' octets' b'') : Appended b (octets ++ octets') b'' where
  contents_eq := by rw [h'.contents_eq, h.contents_eq, append_assoc]
  offset1_eq := h'.offset1_eq.trans h.offset1_eq
  capacity_eq := h'.capacity_eq.trans h.capacity_eq

theorem Sound.length_contents (hb : b.Sound) : b.contents.length = b.size.toNat := by
  have hsize := hb.size_le
  have hlength := hb.length_eq
  simp only [contents, length_take]
  omega

theorem Appended.size_eq {octets : Octets} (h : Appended b octets b') (hb : b.Sound)
    (hb' : b'.Sound) : b'.size.toNat = b.size.toNat + octets.length := by
  rw [← hb'.length_contents, h.contents_eq, length_append, hb.length_contents]

theorem sound_attach (data : Object) : (attach data).Sound := by
  have hlt := data.length_lt
  have hlength : (UInt64.ofNat data.octets.length).toNat = data.octets.length :=
    UInt64.toNat_ofNat_of_lt' (by simp only [UInt64.size]; omega)
  exact ⟨Nat.zero_le _, le_refl _, hlength.symm, by simp only [attach, hlength, hlt]⟩

theorem Sound.get (hb : b.Sound) : b.get.Sound :=
  ⟨le_refl _, Nat.zero_le _, hb.length_eq, hb.capacity_lt⟩

/-! ## Raw writes -/

theorem toNat_add {x y : UInt64} (h : x.toNat + y.toNat < 2 ^ 64) :
    (x + y).toNat = x.toNat + y.toNat := by
  rw [UInt64.toNat_add, Nat.mod_eq_of_lt h]

/-- A write which fits appends what it is given. -/
theorem write_fits (hb : b.Sound) (data : Nat → UInt8)
    (h : b.size.toNat + size.toNat ≤ b.capacity.toNat) :
    ∃ b', (write data size).call b = some (.ok (), b') ∧ b'.Sound ∧
      Appended b (firstOctets data size.toNat) b' := by
  have hcapacity := hb.capacity_lt
  have hsum := toNat_add (x := b.size) (y := size) (by omega)
  have hle : b.size + size ≤ b.capacity := by
    rw [UInt64.le_iff_toNat_le, hsum]
    exact h
  have hstore : store b.data b.size.toNat data size.toNat = some _ :=
    store_eq_some (by rw [hb.length_eq]; exact h)
  refine ⟨_, by rw [write_call, if_pos hle, hstore, Option.bind_some], ?_, ?_⟩
  · have hoffset := hb.offset1_le
    exact ⟨by simp only [hsum]; omega, by simp only [hsum]; exact h,
      (length_of_store hstore).trans hb.length_eq, hcapacity⟩
  · refine ⟨?_, rfl, rfl⟩
    simp only [contents, hsum]
    exact take_of_store hstore

/-- One which does not is refused, unless the sum wraps. -/
theorem write_refused (data : Nat → UInt8) (hrange : b.size.toNat + size.toNat < 2 ^ 64)
    (h : b.capacity.toNat < b.size.toNat + size.toNat) :
    (write data size).call b = some (.error (b.writeBufferTooSmall size), b) := by
  have hlt : ¬b.size + size ≤ b.capacity := by
    rw [UInt64.le_iff_toNat_le, toNat_add hrange]
    omega
  rw [write_call, if_neg hlt]

theorem write_wraps (hb : b.Sound) (data : Nat → UInt8)
    (h : 2 ^ 64 ≤ b.size.toNat + size.toNat) : (write data size).call b = none := by
  have hsize := size.toNat_lt
  have hcapacity := hb.capacity_lt
  have hle := hb.size_le
  have hwrapped : b.size + size ≤ b.capacity := by
    rw [UInt64.le_iff_toNat_le, UInt64.toNat_add]
    omega
  have hlength := hb.length_eq
  rw [write_call, if_pos hwrapped, store, if_neg (by omega), Option.bind_none]

/-! ## Scalars and texts -/

theorem toNat_ofNat {n : Nat} (h : n < 2 ^ 64) : (UInt64.ofNat n).toNat = n :=
  UInt64.toNat_ofNat_of_lt' h

theorem writeScalar_fits (hb : b.Sound) {value : Octets}
    (h : b.size.toNat + value.length ≤ b.capacity.toNat) :
    ∃ b', (writeScalar value).call b = some (.ok (), b') ∧ b'.Sound ∧ Appended b value b' := by
  have hcapacity := hb.capacity_lt
  have hlength := toNat_ofNat (n := value.length) (by omega)
  have hfits : b.size.toNat + (UInt64.ofNat value.length).toNat ≤ b.capacity.toNat := by
    rw [hlength]
    exact h
  obtain ⟨b', hcall, hsound, happended⟩ := write_fits hb (sourceOf value) hfits
  rw [hlength, firstOctets_sourceOf] at happended
  exact ⟨b', hcall, hsound, happended⟩

theorem writeScalar_refused (hb : b.Sound) {value : Octets} (hlt : value.length < 2 ^ 63)
    (h : b.capacity.toNat < b.size.toNat + value.length) :
    (writeScalar value).call b =
      some (.error (b.writeBufferTooSmall (.ofNat value.length)), b) := by
  have hcapacity := hb.capacity_lt
  have hsize := hb.size_le
  have hlength := toNat_ofNat (n := value.length) (by omega)
  exact write_refused _ (by rw [hlength]; omega) (by rw [hlength]; exact h)

theorem half_int32 : IntType.half IntType.int32 = 2 ^ 31 := rfl

theorem half_uint64 : IntType.half IntType.uint64 = 2 ^ 63 := rfl

theorem represents_int32 {n : Int} :
    IntType.int32.Represents n ↔ -(2 : Int) ^ 31 ≤ n ∧ n < 2 ^ 31 := by
  rw [IntType.represents_signed rfl, half_int32]
  norm_num

/-- The size of a text is coerced without loss, or refused. -/
theorem coerceTextSize_cases {length : Nat} (h : length < 2 ^ 63) :
    (length < 2 ^ 31 ∧ ∃ textSize, coerceTextSize length = .ok textSize ∧
        textSize.val = length) ∨
      (2 ^ 31 ≤ length ∧ ∃ e, coerceTextSize length = .error e) := by
  have hrepresents : IntType.uint64.Represents length := by
    rw [IntType.represents_unsigned rfl, half_uint64]
    omega
  have hval : (IntType.uint64.ofInt length).val = length := IntType.ofInt_val hrepresents
  have hrefuses : NumberUtils.Refuses (ε := Empty) none := nofun
  obtain ⟨cs, hruns, -⟩ := NumberUtils.safeCoerceTo_comes false IntType.int32
    (IntType.uint64.ofInt length) hrefuses
  have hevaluate : NumberUtils.evaluate (NumberUtils.safeCoerceTo false IntType.int32
    (IntType.uint64.ofInt length) none) = (_, [] ++ cs) := hruns []
  have hmin : ¬(length : Int) < IntType.int32.min := by
    have hmin := IntType.int32.min_le
    omega
  have hmax : IntType.int32.max = 2 ^ 31 - 1 := rfl
  rw [hval, if_neg hmin, hmax] at hevaluate
  rw [coerceTextSize, hevaluate]
  by_cases hlt : length < 2 ^ 31
  · rw [if_neg (by omega)]
    refine Or.inl ⟨hlt, _, rfl, ?_⟩
    rw [IntType.cast_val (by rw [hval, represents_int32]; omega), hval]
  · rw [if_pos (by omega)]
    exact Or.inr ⟨by omega, _, rfl⟩

theorem toNat_toSize (h : 0 ≤ textSize.val) : (toSize textSize).toNat = textSize.val.toNat := by
  have hlt := (represents_int32.mp textSize.represents).2
  rw [toSize, Int.emod_eq_of_lt h (by omega), toNat_ofNat (by omega)]

@[simp] theorem length_int32Octets (value : IntType.int32.Value) :
    (int32Octets value).length = 4 := length_toLittleEndian _ _

@[simp] theorem int32Of_int32Octets (value : IntType.int32.Value) :
    int32Of (int32Octets value) = value := by
  apply IntType.Value.ext
  have hvalue := represents_int32.mp value.represents
  have hlt : (value.val % 256 ^ 4).toNat < 256 ^ 4 := by omega
  rw [int32Of, int32Octets, Baselib.Lib.ofLittleEndian_toLittleEndian hlt]
  have hwrap : IntType.int32.wrap (value.val % 256 ^ 4) = value.val := by
    rw [IntType.wrap, if_pos (show IntType.int32.isSigned = true from rfl), half_int32]
    exact (Int.emod_bmod value.val (2 * 2 ^ 31)).trans (Int.bmod_eq_of_le (by omega) (by omega))
  rw [Int.toNat_of_nonneg (by omega)]
  exact hwrap

/-! ## Texts -/

/-- The octets of a text in a block: its size and then the text. -/
def textOctets (text : Octets) : Octets := int32Octets (IntType.int32.ofInt text.length) ++ text

@[simp] theorem length_textOctets (text : Octets) : (textOctets text).length = 4 + text.length := by
  simp [textOctets]

theorem int32_eq_ofInt {n : Nat} (h : textSize.val = n) : textSize = IntType.int32.ofInt n := by
  apply IntType.Value.ext
  rw [← h, IntType.ofInt_val textSize.represents]

theorem toNat_totalSize {n : Nat} (h : textSize.val = n) : (4 + toSize textSize).toNat = 4 + n := by
  have hlt := (represents_int32.mp textSize.represents).2
  have hsize : (toSize textSize).toNat = n := by
    rw [toNat_toSize (by omega)]
    omega
  have hfour : (4 : UInt64).toNat = 4 := rfl
  rw [toNat_add (by omega), hfour, hsize]

theorem writeText_fits (hb : b.Sound) {text : Octets} (hlt : text.length < 2 ^ 31)
    (h : b.size.toNat + (4 + text.length) ≤ b.capacity.toNat) :
    ∃ b', (writeText text).call b = some (.ok (), b') ∧ b'.Sound ∧
      Appended b (textOctets text) b' := by
  have hcapacity := hb.capacity_lt
  have hlt' : text.length < 2 ^ 63 := by omega
  rcases coerceTextSize_cases hlt' with ⟨-, textSize, hcoerce, hval⟩ | ⟨hge, -⟩
  · have htotal := toNat_totalSize hval
    have hchk : (chkCanWriteText textSize).call b = some (.ok (), b) := by
      rw [chkCanWriteText_call, if_neg]
      rw [gt_iff_lt, UInt64.lt_iff_toNat_lt, toNat_add (by omega), htotal]
      omega
    have hfits₁ : b.size.toNat + (int32Octets textSize).length ≤ b.capacity.toNat := by
      rw [length_int32Octets]
      omega
    obtain ⟨b₁, hcall₁, hb₁, happended₁⟩ := writeScalar_fits hb hfits₁
    have hsize₁ := happended₁.size_eq hb hb₁
    have htoSize : (toSize textSize).toNat = text.length := by
      rw [toNat_toSize (by omega)]
      omega
    have hfits : b₁.size.toNat + (toSize textSize).toNat ≤ b₁.capacity.toNat := by
      rw [hsize₁, length_int32Octets, htoSize, happended₁.capacity_eq]
      omega
    obtain ⟨b₂, hcall₂, hb₂, happended₂⟩ := write_fits hb₁ (sourceOf text) hfits
    rw [htoSize, firstOctets_sourceOf] at happended₂
    refine ⟨b₂, ?_, hb₂, ?_⟩
    · rw [writeText, hcoerce, call_bind_ok (call_outside _), call_bind_ok hchk,
        call_bind_ok hcall₁, hcall₂]
    · rw [textOctets, ← int32_eq_ofInt hval]
      exact happended₁.trans happended₂
  · omega

/-- One which does not fit, or whose size is no `std::int32_t`, is refused
before its size is written. -/
theorem writeText_refused (hb : b.Sound) {text : Octets} (hlt : text.length < 2 ^ 63)
    (h : 2 ^ 31 ≤ text.length ∨ b.capacity.toNat < b.size.toNat + (4 + text.length)) :
    ∃ e, (writeText text).call b = some (.error e, b) := by
  have hcapacity := hb.capacity_lt
  have hsize := hb.size_le
  rcases coerceTextSize_cases hlt with ⟨hlt', textSize, hcoerce, hval⟩ | ⟨hge, e, hcoerce⟩
  · have htotal := toNat_totalSize hval
    have hover : b.size + (4 + toSize textSize) > b.capacity := by
      rw [gt_iff_lt, UInt64.lt_iff_toNat_lt, toNat_add (by omega), htotal]
      omega
    have hchk := (chkCanWriteText_call (b := b) textSize).trans (if_pos hover)
    exact ⟨_, by rw [writeText, hcoerce, call_bind_ok (call_outside _), call_bind_error hchk]⟩
  · exact ⟨e, by rw [writeText, hcoerce, call_bind_error (call_outside _)]⟩

/-! ## Reads -/

theorem Sound.setOffset1 (hb : b.Sound) {offset1 : UInt64} (h : offset1.toNat ≤ b.size.toNat) :
    Sound { b with offset1 } :=
  ⟨h, hb.size_le, hb.length_eq, hb.capacity_lt⟩

theorem toNat_sub {x y : UInt64} (h : y.toNat ≤ x.toNat) : (x - y).toNat = x.toNat - y.toNat :=
  UInt64.toNat_sub_of_le _ _ (UInt64.le_iff_toNat_le.mpr h)

/-- What is written and not read yet. -/
def unread (b : DataBlock) : Octets := b.contents.drop b.offset1.toNat

theorem Sound.length_unread (hb : b.Sound) : b.unread.length = b.size.toNat - b.offset1.toNat := by
  rw [unread, length_drop, hb.length_contents]

theorem readEnsureAvailable_iff (hb : b.Sound) :
    (b.offset1 ≤ b.size ∧ size ≤ b.size - b.offset1) ↔ size.toNat ≤ b.unread.length := by
  have hoffset := hb.offset1_le
  rw [UInt64.le_iff_toNat_le, UInt64.le_iff_toNat_le, toNat_sub hoffset, hb.length_unread]
  exact and_iff_right hoffset

theorem load_unread (hb : b.Sound) {n : Nat} (h : n ≤ b.unread.length) :
    load b.data b.offset1.toNat n = some (b.unread.take n) := by
  have hlength := hb.length_unread
  have hoffset := hb.offset1_le
  have hsize := hb.size_le
  have hdata := hb.length_eq
  rw [load_eq_some (by omega), unread, contents, drop_take, take_take,
    Nat.min_eq_left (by omega)]

theorem readScalar_available (hb : b.Sound) (h : size.toNat ≤ b.unread.length) :
    (readScalar size).call b =
        some (.ok (b.unread.take size.toNat), { b with offset1 := b.offset1 + size }) ∧
      Sound { b with offset1 := b.offset1 + size } ∧
      unread { b with offset1 := b.offset1 + size } = b.unread.drop size.toNat := by
  have hlength := hb.length_unread
  have hoffset := hb.offset1_le
  have hcapacity := hb.capacity_lt
  have hsize := hb.size_le
  have hsum := toNat_add (x := b.offset1) (y := size) (by omega)
  have hcheck : (readEnsureAvailable size).call b = some (.ok (), b) := by
    rw [readEnsureAvailable_call, if_pos ((readEnsureAvailable_iff hb).mpr h)]
  refine ⟨?_, hb.setOffset1 (by omega), ?_⟩
  · rw [readScalar, call_bind_ok hcheck, call_get_bind, call_access_bind, load_unread hb h]
    rfl
  · rw [unread, unread, hsum, drop_drop]
    rfl

theorem readScalar_refused (hb : b.Sound) (h : b.unread.length < size.toNat) :
    (readScalar size).call b = some (.error (b.readBufferTooSmall size), b) := by
  have hcheck : (readEnsureAvailable size).call b =
      some (.error (b.readBufferTooSmall size), b) := by
    rw [readEnsureAvailable_call, if_neg]
    rw [readEnsureAvailable_iff hb]
    omega
  rw [readScalar, call_bind_error hcheck]

theorem readTextOf_available (hb : b.Sound)
    (hpos : 0 ≤ textSize.val) (h : textSize.val ≤ b.unread.length) :
    ∃ b', (readTextOf textSize).call b = some (.ok (b.unread.take textSize.val.toNat), b') ∧
      b'.Sound ∧ b' = { b with offset1 := b'.offset1 } ∧
      b'.unread = b.unread.drop textSize.val.toNat := by
  have hsize := toNat_toSize hpos
  have havailable : (toSize textSize).toNat ≤ b.unread.length := by
    rw [hsize]
    omega
  obtain ⟨-, hsound, hunread⟩ := readScalar_available hb havailable
  have hcheck : (readEnsureAvailable (toSize textSize)).call b = some (.ok (), b) := by
    rw [readEnsureAvailable_call, if_pos ((readEnsureAvailable_iff hb).mpr havailable)]
  refine ⟨_, ?_, hsound, rfl, hunread.trans (by rw [hsize])⟩
  rw [readTextOf, call_ite, if_pos hpos, call_bind_ok hcheck, call_get_bind, call_access_bind,
    load_unread hb havailable, hsize]
  rfl

theorem readTextOf_refused (hb : b.Sound) (h : textSize.val < 0 ∨ b.unread.length < textSize.val) :
    ∃ e, (readTextOf textSize).call b = some (.error e, b) := by
  rw [readTextOf, call_ite]
  by_cases hpos : textSize.val ≥ 0
  · have hover : b.unread.length < (toSize textSize).toNat := by
      rw [toNat_toSize hpos]
      omega
    have hcheck : (readEnsureAvailable (toSize textSize)).call b =
        some (.error (b.readBufferTooSmall (toSize textSize)), b) := by
      rw [readEnsureAvailable_call, if_neg]
      rw [readEnsureAvailable_iff hb]
      exact not_le.mpr hover
    exact ⟨_, by rw [if_pos hpos, call_bind_error hcheck]⟩
  · exact ⟨_, by rw [if_neg hpos, call_throw]⟩

/-- The size which stands before a text that is to be read. -/
def textPrefix (b : DataBlock) : IntType.int32.Value := int32Of (b.unread.take 4)

/-- The size is there and is negative, or larger than what follows it. -/
def CorruptPrefix (b : DataBlock) : Prop :=
  4 ≤ b.unread.length ∧
    (b.textPrefix.val < 0 ∨ ((b.unread.length - 4 : Nat) : Int) < b.textPrefix.val)

instance (b : DataBlock) : Decidable b.CorruptPrefix := inferInstanceAs (Decidable (_ ∧ _))

theorem readText_short (hb : b.Sound) (h : b.unread.length < 4) :
    ∃ e, readText.call b = some (.error e, b) := by
  have hread : (readScalar 4).call b = some (.error (b.readBufferTooSmall 4), b) :=
    readScalar_refused hb h
  exact ⟨_, by rw [readText, call_bind_error hread]⟩

/-- The size alone is read. -/
theorem readPrefix (hb : b.Sound) (h : 4 ≤ b.unread.length) :
    (readScalar 4).call b = some (.ok (b.unread.take 4), { b with offset1 := b.offset1 + 4 }) ∧
      Sound { b with offset1 := b.offset1 + 4 } ∧
      unread { b with offset1 := b.offset1 + 4 } = b.unread.drop 4 :=
  readScalar_available hb h

theorem readText_corrupt (hb : b.Sound) (h : b.CorruptPrefix) :
    (∃ e, readText.call b = some (.error e, { b with offset1 := b.offset1 + 4 })) ∧
      Sound { b with offset1 := b.offset1 + 4 } := by
  obtain ⟨hread, hsound, hunread⟩ := readPrefix hb h.1
  have hcorrupt := h.2
  rw [← length_drop, ← hunread] at hcorrupt
  obtain ⟨e, hrefused⟩ := readTextOf_refused hsound hcorrupt
  exact ⟨⟨e, by rw [readText, call_bind_ok hread]; exact hrefused⟩, hsound⟩

theorem readText_available (hb : b.Sound) (hfour : 4 ≤ b.unread.length)
    (h : ¬b.CorruptPrefix) :
    ∃ b', readText.call b =
        some (.ok ((b.unread.drop 4).take b.textPrefix.val.toNat), b') ∧
      b'.Sound ∧ b' = { b with offset1 := b'.offset1 } ∧
      b'.unread = b.unread.drop (4 + b.textPrefix.val.toNat) := by
  obtain ⟨hread, hsound, hunread⟩ := readPrefix hb hfour
  simp only [CorruptPrefix, hfour, true_and, not_or, not_lt] at h
  rw [← length_drop, ← hunread] at h
  obtain ⟨b', hcall, hsound', hb', hunread'⟩ := readTextOf_available hsound h.1 h.2
  rw [hunread] at hcall hunread'
  refine ⟨b', ?_, hsound', hb', hunread'.trans drop_drop⟩
  rw [readText, call_bind_ok hread]
  exact hcall

/-! ## Growing -/

theorem le_alignedOf {value alignment : UInt64} (hne : alignment ≠ 0)
    (h : value.toNat + (alignment.toNat - 1) < 2 ^ 64) :
    value.toNat ≤ (alignedOf value alignment).toNat := by
  have hpos : 0 < alignment.toNat := by
    rw [Nat.pos_iff_ne_zero]
    exact fun hzero => hne (UInt64.toNat_inj.mp hzero)
  have hone : (1 : UInt64).toNat = 1 := rfl
  have hsum : (value + alignment - 1).toNat = value.toNat + (alignment.toNat - 1) := by
    rw [UInt64.toNat_sub, UInt64.toNat_add, hone]
    omega
  have hdiv := Nat.div_add_mod (value.toNat + (alignment.toNat - 1)) alignment.toNat
  have hmod := Nat.mod_lt (value.toNat + (alignment.toNat - 1)) hpos
  rw [alignedOf, UInt64.toNat_mul, UInt64.toNat_div, hsum, Nat.mod_eq_of_lt (by omega)]
  omega

/-- When it wraps nothing is left of it. -/
theorem alignedOf_wraps {value alignment : UInt64}
    (h : 2 ^ 64 ≤ value.toNat + (alignment.toNat - 1)) : alignedOf value alignment = 0 := by
  have hvalue := value.toNat_lt
  have halignment := alignment.toNat_lt
  have hone : (1 : UInt64).toNat = 1 := rfl
  have hsum : (value + alignment - 1).toNat < alignment.toNat := by
    rw [UInt64.toNat_sub, UInt64.toNat_add, hone]
    omega
  apply UInt64.toNat_inj.mp
  rw [alignedOf, UInt64.toNat_mul, UInt64.toNat_div, Nat.div_eq_of_lt hsum, Nat.mul_zero]
  rfl

theorem alignmentOf_ne_zero (blockAlignment : UInt64) : alignmentOf blockAlignment ≠ 0 := by
  rw [alignmentOf]
  split_ifs with h
  · exact h
  · decide

theorem grow_refused {allocator : Allocator} {newCapacity : UInt64}
    (h : allocator.allocate newCapacity = none) :
    (grow allocator newCapacity).call b = some (.error .badAlloc, b) := by
  rw [grow, call_get_bind, h]
  rfl

theorem load_contents (hb : b.Sound) : load b.data 0 b.size.toNat = some b.contents := by
  have hsize := hb.size_le
  have hlength := hb.length_eq
  rw [load_eq_some (by omega), drop_zero]
  rfl

/-- A larger block holds what the smaller one did. -/
theorem grow_fits (hb : b.Sound) {allocator : Allocator} {newCapacity : UInt64} {data : Octets}
    (h : allocator.allocate newCapacity = some data) (hle : b.size.toNat ≤ newCapacity.toNat) :
    ∃ b', (grow allocator newCapacity).call b = some (.ok (), b') ∧ b'.Sound ∧
      b'.contents = b.contents ∧ b'.size = b.size ∧ b'.offset1 = b.offset1 ∧
      b'.capacity = newCapacity := by
  have hlength := allocator.length_eq h
  obtain ⟨data', hstore⟩ : ∃ data', store data 0 (sourceOf b.contents) b.size.toNat = some data' :=
    ⟨_, store_eq_some (by rw [hlength]; omega)⟩
  refine ⟨{ b with data := data', capacity := newCapacity }, ?_, ⟨hb.offset1_le, hle,
    (length_of_store hstore).trans hlength, allocator.size_lt h⟩, ?_, rfl, rfl, rfl⟩
  · rw [grow, call_get_bind, h]
    rw [call_access_bind, load_contents hb, Option.bind_some, call_access_bind, hstore]
    rfl
  · have htake := take_of_store hstore
    rw [Nat.zero_add, take_zero, nil_append, ← hb.length_contents,
      firstOctets_sourceOf, hb.length_contents] at htake
    exact htake

/-- Into a smaller one it is copied all the same. -/
theorem grow_overflows (hb : b.Sound) {allocator : Allocator} {newCapacity : UInt64}
    {data : Octets} (h : allocator.allocate newCapacity = some data)
    (hlt : newCapacity.toNat < b.size.toNat) : (grow allocator newCapacity).call b = none := by
  have hlength := allocator.length_eq h
  rw [grow, call_get_bind, h]
  rw [call_access_bind, load_contents hb, Option.bind_some, call_access_bind, store,
    if_neg (by omega), Option.bind_none]

/-! ## Operations -/

/-- The sums which a call takes do not wrap, or nothing comes of it. -/
def InRange (b : DataBlock) : Operation → Prop
  | .write _ size => b.size.toNat + size.toNat < 2 ^ 64
  | .writeEnsureAvailable allocator size blockAlignment =>
    b.size + size ≤ b.capacity ∨
      (b.size + size).toNat + ((alignmentOf blockAlignment).toNat - 1) < 2 ^ 64 ∨
      b.size = 0 ∨ allocator.allocate 0 = none
  | _ => True

/-- The octets which a call is to append. -/
def Operation.written : Operation → Option Octets
  | .write data size => some (firstOctets data size.toNat)
  | .writeScalar value => some value.octets
  | .writeText text => some (textOctets text.octets)
  | .writeCString text => some (textOctets (text.octets.takeWhile (· ≠ 0)))
  | _ => none

/-- A call which is to write appends exactly that or throws. -/
def WritesExactly (b : DataBlock) (operation : Operation) : Prop :=
  ∀ octets, operation.written = some octets →
    (∃ b', operation.method.call b = some (.ok [], b') ∧ Appended b octets b') ∨
      ∃ e, operation.method.call b = some (.error e, b)

theorem call_then_ok {m : Method Exception Unit} (h : m.call b = some (.ok (), b')) :
    (do m; return [] : Method Exception Octets).call b = some (.ok [], b') := by
  rw [call_bind_ok h, call_pure]

theorem call_then_error {m : Method Exception Unit} {e : Exception} (h : m.call b = some (.error e, b')) :
    (do m; return [] : Method Exception Octets).call b = some (.error e, b') :=
  call_bind_error h

/-- A write of some kind: it appends or it throws. -/
theorem writes_cases (hb : b.Sound) {operation : Operation} (h : InRange b operation)
    {octets : Octets} (hwritten : operation.written = some octets) :
    (∃ b', operation.method.call b = some (.ok [], b') ∧ b'.Sound ∧ Appended b octets b') ∨
      ∃ e, operation.method.call b = some (.error e, b) := by
  have htext : ∀ text : Octets, text.length < 2 ^ 63 →
      (∃ b', (do DataBlock.writeText text; return [] : Method Exception Octets).call b =
          some (.ok [], b') ∧ b'.Sound ∧ Appended b (textOctets text) b') ∨
        ∃ e, (do DataBlock.writeText text; return [] : Method Exception Octets).call b =
          some (.error e, b) := by
    intro text hlt
    by_cases hfits : text.length < 2 ^ 31 ∧ b.size.toNat + (4 + text.length) ≤ b.capacity.toNat
    · obtain ⟨b', hcall, hsound, happended⟩ := writeText_fits hb hfits.1 hfits.2
      exact Or.inl ⟨b', call_then_ok hcall, hsound, happended⟩
    · obtain ⟨e, hcall⟩ := writeText_refused hb hlt (by omega)
      exact Or.inr ⟨e, call_then_error hcall⟩
  cases operation with
  | write data size =>
    cases hwritten
    by_cases hfits : b.size.toNat + size.toNat ≤ b.capacity.toNat
    · obtain ⟨b', hcall, hsound, happended⟩ := write_fits hb data hfits
      exact Or.inl ⟨b', call_then_ok hcall, hsound, happended⟩
    · exact Or.inr ⟨_, call_then_error (write_refused data h (not_le.mp hfits))⟩
  | writeScalar value =>
    cases hwritten
    by_cases hfits : b.size.toNat + value.octets.length ≤ b.capacity.toNat
    · obtain ⟨b', hcall, hsound, happended⟩ := writeScalar_fits hb hfits
      exact Or.inl ⟨b', call_then_ok hcall, hsound, happended⟩
    · have hrefused := writeScalar_refused hb value.length_lt (not_le.mp hfits)
      exact Or.inr ⟨_, call_then_error hrefused⟩
  | writeText text =>
    cases hwritten
    exact htext _ text.length_lt
  | writeCString text =>
    cases hwritten
    have hle := (takeWhile_sublist (p := (· ≠ 0)) (l := text.octets)).length_le
    exact htext _ (lt_of_le_of_lt hle text.length_lt)
  | _ => cases hwritten

theorem writeEnsureAvailable_call (allocator : Allocator) (size blockAlignment : UInt64) :
    (writeEnsureAvailable allocator size blockAlignment).call b =
      if b.size + size > b.capacity then
        (grow allocator (alignedOf (b.size + size) (alignmentOf blockAlignment))).call b
      else some (.ok (), b) := by
  rw [writeEnsureAvailable, call_get_bind, call_ite, call_pure]

/-- Growing is fine as long as the rounded size does not wrap. -/
theorem writeEnsureAvailable_sound (hb : b.Sound) {allocator : Allocator}
    {blockAlignment : UInt64}
    (h : InRange b (.writeEnsureAvailable allocator size blockAlignment)) :
    ∃ r b', (writeEnsureAvailable allocator size blockAlignment).call b = some (r, b') ∧
      b'.Sound := by
  rw [writeEnsureAvailable_call]
  by_cases hover : b.size + size > b.capacity
  · rw [if_pos hover]
    rcases hallocate : allocator.allocate (alignedOf (b.size + size) (alignmentOf blockAlignment))
      with - | data
    · exact ⟨_, b, grow_refused hallocate, hb⟩
    · have hle : b.size.toNat ≤
          (alignedOf (b.size + size) (alignmentOf blockAlignment)).toNat := by
        rw [gt_iff_lt, UInt64.lt_iff_toNat_lt] at hover
        have hsize := hb.size_le
        rcases h with hfits | hrange | hempty | hnone
        · rw [UInt64.le_iff_toNat_le] at hfits
          omega
        · have hrounded := le_alignedOf (alignmentOf_ne_zero blockAlignment) hrange
          omega
        · rw [hempty]
          exact Nat.zero_le _
        · by_contra hlt
          have hwraps : alignedOf (b.size + size) (alignmentOf blockAlignment) = 0 := by
            apply alignedOf_wraps
            by_contra hrange
            have hrounded := le_alignedOf (alignmentOf_ne_zero blockAlignment)
              (not_le.mp hrange)
            omega
          simp [hwraps, hnone] at hallocate
      obtain ⟨b', hcall, hsound, -⟩ := grow_fits hb hallocate hle
      exact ⟨_, b', hcall, hsound⟩
  · rw [if_neg hover]
    exact ⟨_, b, rfl, hb⟩

/-- Where it wraps, the block is copied into no memory at all. -/
theorem writeEnsureAvailable_overflows (hb : b.Sound) {allocator : Allocator}
    {blockAlignment : UInt64}
    (h : ¬InRange b (.writeEnsureAvailable allocator size blockAlignment)) :
    (writeEnsureAvailable allocator size blockAlignment).call b = none := by
  simp only [InRange, not_or, not_lt] at h
  obtain ⟨hover, hwraps, hne, hallocate⟩ := h
  obtain ⟨data, hallocate⟩ := Option.ne_none_iff_exists'.mp hallocate
  have hpos : b.size.toNat ≠ 0 := fun hzero => hne (UInt64.toNat_inj.mp hzero)
  rw [writeEnsureAvailable_call, if_pos (UInt64.not_le.mp hover), alignedOf_wraps hwraps]
  exact grow_overflows hb hallocate (Nat.pos_of_ne_zero hpos)

theorem step_of_call {operation : Operation} {r : Except Exception Octets}
    (h : operation.method.call b = some (r, b')) : step b operation = some b' := by
  rw [step, h]
  rfl

theorem readText_sound (hb : b.Sound) : ∃ r b', readText.call b = some (r, b') ∧ b'.Sound := by
  by_cases hfour : 4 ≤ b.unread.length
  · by_cases hcorrupt : b.CorruptPrefix
    · obtain ⟨⟨e, hcall⟩, hsound⟩ := readText_corrupt hb hcorrupt
      exact ⟨_, _, hcall, hsound⟩
    · obtain ⟨b', hcall, hsound, -⟩ := readText_available hb hfour hcorrupt
      exact ⟨_, b', hcall, hsound⟩
  · obtain ⟨e, hcall⟩ := readText_short hb (not_le.mp hfour)
    exact ⟨_, b, hcall, hb⟩

theorem readScalar_sound (hb : b.Sound) (size : UInt64) :
    ∃ r b', (readScalar size).call b = some (r, b') ∧ b'.Sound := by
  by_cases h : size.toNat ≤ b.unread.length
  · obtain ⟨hcall, hsound, -⟩ := readScalar_available hb h
    exact ⟨_, _, hcall, hsound⟩
  · exact ⟨_, b, readScalar_refused hb (not_le.mp h), hb⟩

theorem step_sound (hb : b.Sound) {operation : Operation} (h : InRange b operation) :
    ∃ b', step b operation = some b' ∧ b'.Sound := by
  have hthen : ∀ (m : Method Exception Unit) (r : Except Exception Unit) (b' : DataBlock),
      m.call b = some (r, b') → ∃ r', (do m; return [] : Method Exception Octets).call b = some (r', b') := by
    intro m r b' hcall
    cases r with
    | ok => exact ⟨_, call_then_ok hcall⟩
    | error e => exact ⟨_, call_then_error hcall⟩
  rcases hwritten : operation.written with - | octets
  · cases operation with
    | reset => exact ⟨_, rfl, le_refl _, Nat.zero_le _, hb.length_eq, hb.capacity_lt⟩
    | readEnsureAvailable size =>
      obtain ⟨r, hcall⟩ : ∃ r, (readEnsureAvailable size).call b = some (r, b) := by
        rw [readEnsureAvailable_call]
        split_ifs
        · exact ⟨_, rfl⟩
        · exact ⟨_, rfl⟩
      obtain ⟨r', hcall'⟩ := hthen _ _ _ hcall
      exact ⟨b, step_of_call hcall', hb⟩
    | readScalar size =>
      obtain ⟨r, b', hcall, hsound⟩ := readScalar_sound hb size
      exact ⟨b', step_of_call hcall, hsound⟩
    | readText =>
      obtain ⟨r, b', hcall, hsound⟩ := readText_sound hb
      exact ⟨b', step_of_call hcall, hsound⟩
    | setSizeChecked size =>
      have hcall := setSizeChecked_call (b := b) size
      by_cases hle : size ≤ b.capacity ∧ b.offset1 ≤ size
      · rw [if_pos hle] at hcall
        refine ⟨_, step_of_call (call_then_ok hcall), ?_, ?_, hb.length_eq, hb.capacity_lt⟩
        · exact UInt64.le_iff_toNat_le.mp hle.2
        · exact UInt64.le_iff_toNat_le.mp hle.1
      · rw [if_neg hle] at hcall
        exact ⟨b, step_of_call (call_then_error hcall), hb⟩
    | setOffset1Checked offset1 =>
      have hcall := setOffset1Checked_call (b := b) offset1
      by_cases hle : offset1 ≤ b.size
      · rw [if_pos hle] at hcall
        exact ⟨_, step_of_call (call_then_ok hcall),
          hb.setOffset1 (UInt64.le_iff_toNat_le.mp hle)⟩
      · rw [if_neg hle] at hcall
        exact ⟨b, step_of_call (call_then_error hcall), hb⟩
    | writeEnsureAvailable allocator size blockAlignment =>
      obtain ⟨r, b', hcall, hsound⟩ := writeEnsureAvailable_sound hb h
      obtain ⟨r', hcall'⟩ := hthen _ _ _ hcall
      exact ⟨b', step_of_call hcall', hsound⟩
    | _ => cases hwritten
  · rcases writes_cases hb h hwritten with ⟨b', hcall, hsound, -⟩ | ⟨e, hcall⟩
    · exact ⟨b', step_of_call hcall, hsound⟩
    · exact ⟨b, step_of_call hcall, hb⟩

theorem step_eq_none (hb : b.Sound) {operation : Operation} (h : ¬InRange b operation) :
    step b operation = none := by
  cases operation with
  | write data size =>
    have hnone : (Operation.write data size).method.call b = none :=
      call_bind_none (write_wraps hb data (not_lt.mp h))
    rw [step, hnone]
    rfl
  | writeEnsureAvailable allocator size blockAlignment =>
    have hnone : (Operation.writeEnsureAvailable allocator size blockAlignment).method.call b =
        none := call_bind_none (writeEnsureAvailable_overflows hb h)
    rw [step, hnone]
    rfl
  | _ => exact absurd trivial h

theorem writesExactly (hb : b.Sound) {operation : Operation} (h : InRange b operation) :
    WritesExactly b operation := by
  intro octets hwritten
  rcases writes_cases hb h hwritten with ⟨b', hcall, -, happended⟩ | hthrew
  · exact Or.inl ⟨b', hcall, happended⟩
  · exact Or.inr hthrew

/-! ## Sequences of operations -/

/-- No call leaves the memory, every call leaves the block sound, and every
write appends exactly what it is given or throws. -/
def KeepsToMemory (b : DataBlock) (operations : List Operation) : Prop :=
  (∃ b', run step b operations = some b') ∧ Throughout step Sound b operations ∧
    Along step WritesExactly b operations

/-- A block keeps to its memory exactly as long as the sums it takes do not
wrap. -/
theorem keepsToMemory_iff (hb : b.Sound) (operations : List Operation) :
    KeepsToMemory b operations ↔ Along step InRange b operations := by
  induction operations generalizing b with
  | nil => exact ⟨fun _ => trivial, fun _ => ⟨⟨b, rfl⟩, trivial, trivial⟩⟩
  | cons operation operations ih =>
    constructor
    · rintro ⟨⟨b'', hrun⟩, hthroughout, halong⟩
      obtain ⟨b', hstep, hrun⟩ := run_cons_eq_some.mp hrun
      have hrange : InRange b operation := by
        by_contra hrange
        simp [step_eq_none hb hrange] at hstep
      have hrest := hthroughout b' hstep
      have hlater := (ih hrest.1).mp ⟨⟨b'', hrun⟩, hrest.2, halong.2 b' hstep⟩
      refine ⟨hrange, ?_⟩
      intro b₁ hb₁
      obtain rfl := Option.some.inj (hstep.symm.trans hb₁)
      exact hlater
    · rintro ⟨hrange, hlater⟩
      obtain ⟨b', hstep, hsound⟩ := step_sound hb hrange
      obtain ⟨⟨b'', hrun⟩, hthroughout, halong⟩ := (ih hsound).mpr (hlater b' hstep)
      refine ⟨⟨b'', run_cons_eq_some.mpr ⟨b', hstep, hrun⟩⟩, ?_, writesExactly hb hrange, ?_⟩
      · intro b₁ hb₁
        obtain rfl := Option.some.inj (hstep.symm.trans hb₁)
        exact ⟨hsound, hthroughout⟩
      · intro b₁ hb₁
        obtain rfl := Option.some.inj (hstep.symm.trans hb₁)
        exact halong

/-- Memory which is zero, as long as there is any to be had. -/
def zeroed : Allocator where
  allocate n := if n.toNat < 2 ^ 63 then some (List.replicate n.toNat 0) else none
  length_eq := by
    intro n memory h
    split_ifs at h
    cases h
    exact length_replicate
  size_lt := by
    intro n memory h
    split_ifs at h with hlt
    exact hlt

/-- An empty block of eight octets. -/
def smallBlock : DataBlock := (attach ⟨List.replicate 8 0, by decide⟩).get

theorem keepsToMemory_smallBlock :
    KeepsToMemory smallBlock [.writeText ⟨[104, 105], by decide⟩, .readText, .setSizeChecked 3] :=
  (keepsToMemory_iff (sound_attach _).get _).mpr
    ⟨trivial, fun _ _ => ⟨trivial, fun _ _ => ⟨trivial, fun _ _ => trivial⟩⟩⟩

/-- One octet is written, and room is made for so many that the rounded
capacity is zero. -/
def wrappingOperations : List Operation :=
  [.writeScalar ⟨[7], by decide⟩, .writeEnsureAvailable zeroed 0xFFFFFFFFFFFFFFFE 0]

theorem wrappingOperations_overflow :
    smallBlock.Sound ∧ ¬KeepsToMemory smallBlock wrappingOperations := by
  refine ⟨(sound_attach _).get, ?_⟩
  rintro ⟨⟨b', hrun⟩, -⟩
  have hnone : run step smallBlock wrappingOperations = none := by decide +kernel
  rw [hnone] at hrun
  cases hrun

end Baselib.Data.DataBlock
