/-
Baselib.Data.DataBlockRoundTrip — what is written to a block is read from it,
and what throws leaves it alone.

A sequence of scalars and texts stands in a block as its octets, one value
after the other, and is read in the same order until nothing is left. A call
which throws has changed nothing, with one exception: the size of a text is
read before it is looked at, so a corrupt one is gone when the call throws.
-/
import Baselib.Data.DataBlockTheorems

namespace Baselib.Data.DataBlock

open List
open Lib (Octets IntType)

variable {b b' : DataBlock}

/-- A value which is written to a block, or read from one. -/
inductive Item where
  | scalar (value : Object)
  | text (value : Object)
  | cString (value : Object)

namespace Item

/-- The octets which are read back. -/
def value : Item → Octets
  | .scalar value => value.octets
  | .text value => value.octets
  | .cString value => value.octets.takeWhile (· ≠ 0)

/-- What stands for the value in the block. -/
def octets : Item → Octets
  | .scalar value => value.octets
  | item => textOctets item.value

def write : Item → Method Exception Unit
  | .scalar value => writeScalar value.octets
  | .text value => writeText value.octets
  | .cString value => writeCString value.octets

/-- The read of a value of the same type. -/
def read : Item → Method Exception Octets
  | .scalar value => readScalar (.ofNat value.octets.length)
  | _ => readText

/-- The size of a text is a `std::int32_t`. -/
def Sized : Item → Prop
  | .scalar _ => True
  | item => item.value.length < 2 ^ 31

end Item

def writeAll : List Item → Method Exception Unit
  | [] => return
  | item :: items => do
      item.write
      writeAll items

def readAll : List Item → Method Exception (List Octets)
  | [] => return []
  | item :: items => do
      let value ← item.read
      let values ← readAll items
      return value :: values

def encode (items : List Item) : Octets := (items.map Item.octets).flatten

/-! ## One value -/

theorem Item.length_value_lt (item : Item) : item.value.length < 2 ^ 63 := by
  cases item with
  | scalar value | text value => exact value.length_lt
  | cString value =>
    have hle := (takeWhile_sublist (p := (· ≠ 0)) (l := value.octets)).length_le
    exact lt_of_le_of_lt hle value.length_lt

/-- A value is appended, or the block is as it was. -/
theorem Item.write_cases (hb : b.Sound) (item : Item) :
    (item.Sized ∧ ∃ b', item.write.call b = some (.ok (), b') ∧ b'.Sound ∧
        Appended b item.octets b') ∨
      (¬(item.Sized ∧ b.size.toNat + item.octets.length ≤ b.capacity.toNat) ∧
        ∃ e, item.write.call b = some (.error e, b)) := by
  have htext : ∀ text : Octets, text.length < 2 ^ 63 →
      (text.length < 2 ^ 31 ∧ ∃ b', (writeText text).call b = some (.ok (), b') ∧ b'.Sound ∧
          Appended b (textOctets text) b') ∨
        (¬(text.length < 2 ^ 31 ∧
            b.size.toNat + (textOctets text).length ≤ b.capacity.toNat) ∧
          ∃ e, (writeText text).call b = some (.error e, b)) := by
    intro text hlt
    rw [length_textOctets]
    by_cases hfits : text.length < 2 ^ 31 ∧ b.size.toNat + (4 + text.length) ≤ b.capacity.toNat
    · exact .inl ⟨hfits.1, writeText_fits hb hfits.1 hfits.2⟩
    · exact .inr ⟨hfits, writeText_refused hb hlt (by omega)⟩
  cases item with
  | scalar value =>
    by_cases hfits : b.size.toNat + value.octets.length ≤ b.capacity.toNat
    · exact .inl ⟨trivial, writeScalar_fits hb hfits⟩
    · exact .inr ⟨fun h => hfits h.2, _,
        writeScalar_refused hb value.length_lt (not_le.mp hfits)⟩
  | text value => exact htext _ value.length_lt
  | cString value => exact htext _ (Item.cString value).length_value_lt

/-- A text which stands next is read. -/
theorem readText_next (hb : b.Sound) {text rest : Octets} (hlt : text.length < 2 ^ 31)
    (h : b.unread = textOctets text ++ rest) :
    ∃ b', readText.call b = some (.ok text, b') ∧ b'.Sound ∧
      b' = { b with offset1 := b'.offset1 } ∧ b'.unread = rest := by
  have hfour : 4 ≤ b.unread.length := by
    rw [h, length_append, length_textOctets]
    omega
  have hpre : b.textPrefix = IntType.int32.ofInt text.length := by
    rw [textPrefix, h, textOctets, append_assoc, take_left' (length_int32Octets _),
      int32Of_int32Octets]
  have hval : b.textPrefix.val = text.length := by
    rw [hpre]
    exact IntType.ofInt_val (represents_int32.mpr ⟨by omega, by omega⟩)
  have hsound : ¬b.CorruptPrefix := by
    intro hcorrupt
    have hsize := hcorrupt.2
    rw [hval, h, length_append, length_textOctets] at hsize
    omega
  obtain ⟨b', hcall, hb', hsame, hunread⟩ := readText_available hb hfour hsound
  refine ⟨b', ?_, hb', hsame, ?_⟩
  · rw [hcall, hval, h, textOctets, append_assoc, drop_left' (length_int32Octets _),
      Int.toNat_natCast, take_left]
  · rw [hunread, hval, h, Int.toNat_natCast, drop_left' (length_textOctets _)]

theorem Item.read_next (hb : b.Sound) {item : Item} {rest : Octets} (hsized : item.Sized)
    (h : b.unread = item.octets ++ rest) :
    ∃ b', item.read.call b = some (.ok item.value, b') ∧ b'.Sound ∧
      b' = { b with offset1 := b'.offset1 } ∧ b'.unread = rest := by
  cases item with
  | scalar value =>
    have hlt := value.length_lt
    have hlength : (UInt64.ofNat value.octets.length).toNat = value.octets.length :=
      toNat_ofNat (by omega)
    have hunread : b.unread = value.octets ++ rest := h
    have havailable : (UInt64.ofNat value.octets.length).toNat ≤ b.unread.length := by
      rw [hlength, hunread, length_append]
      omega
    obtain ⟨hcall, hsound, hrest⟩ := readScalar_available hb havailable
    rw [hlength, hunread, take_left] at hcall
    rw [hlength, hunread, drop_left] at hrest
    exact ⟨_, hcall, hsound, rfl, hrest⟩
  | text _ | cString _ => exact readText_next hb hsized h

/-! ## Sequences -/

theorem encode_cons (item : Item) (items : List Item) :
    encode (item :: items) = item.octets ++ encode items := by
  simp [encode]

theorem Appended.refl : Appended b [] b := ⟨(append_nil _).symm, rfl, rfl⟩

/-- What the writes append, when every one of them returns. -/
theorem writeAll_ok (hb : b.Sound) {items : List Item}
    (h : (writeAll items).call b = some (.ok (), b')) :
    b'.Sound ∧ Appended b (encode items) b' ∧ ∀ item ∈ items, item.Sized := by
  induction items generalizing b with
  | nil =>
    cases h
    exact ⟨hb, Appended.refl, by simp⟩
  | cons item items ih =>
    rw [writeAll] at h
    rcases item.write_cases hb with ⟨hsized, b₁, hcall, hb₁, happended⟩ | ⟨-, e, hcall⟩
    · rw [call_bind_ok hcall] at h
      obtain ⟨hb', happended', hitems⟩ := ih hb₁ h
      refine ⟨hb', ?_, ?_⟩
      · rw [encode_cons]
        exact happended.trans happended'
      · intro other hother
        rcases mem_cons.mp hother with rfl | hother
        · exact hsized
        · exact hitems other hother
    · rw [call_bind_error hcall] at h
      cases h

/-- They do where there is room for all of them. -/
theorem writeAll_fits (hb : b.Sound) {items : List Item} (hsized : ∀ item ∈ items, item.Sized)
    (h : b.size.toNat + (encode items).length ≤ b.capacity.toNat) :
    ∃ b', (writeAll items).call b = some (.ok (), b') := by
  induction items generalizing b with
  | nil => exact ⟨b, rfl⟩
  | cons item items ih =>
    rw [encode_cons, length_append] at h
    have hitem := hsized item (by simp)
    rcases item.write_cases hb with ⟨-, b₁, hcall, hb₁, happended⟩ | ⟨hnot, -⟩
    · have hsize := happended.size_eq hb hb₁
      have hroom : b₁.size.toNat + (encode items).length ≤ b₁.capacity.toNat := by
        rw [hsize, happended.capacity_eq]
        omega
      obtain ⟨b', hrest⟩ := ih hb₁ (fun other hother => hsized other (by simp [hother])) hroom
      exact ⟨b', by rw [writeAll, call_bind_ok hcall, hrest]⟩
    · exact absurd ⟨hitem, by omega⟩ hnot

/-- The values which stand in the block are read one after the other. -/
theorem readAll_encode (hb : b.Sound) {items : List Item} (hsized : ∀ item ∈ items, item.Sized)
    (h : b.unread = encode items) :
    ∃ b', (readAll items).call b = some (.ok (items.map Item.value), b') ∧ b'.Sound ∧
      b' = { b with offset1 := b'.offset1 } ∧ b'.unread = [] := by
  induction items generalizing b with
  | nil => exact ⟨b, rfl, hb, rfl, h⟩
  | cons item items ih =>
    rw [encode_cons] at h
    obtain ⟨b₁, hcall, hb₁, hsame, hunread⟩ := item.read_next hb (hsized item (by simp)) h
    obtain ⟨b', hcall', hb', hsame', hunread'⟩ :=
      ih hb₁ (fun other hother => hsized other (by simp [hother])) hunread
    refine ⟨b', ?_, hb', ?_, hunread'⟩
    · rw [readAll, call_bind_ok hcall, call_bind_ok hcall']
      rfl
    · rw [hsame']
      rw [hsame]

/-- Written to an empty block, the sequence is read back and nothing is
left. -/
theorem readAll_writeAll (hb : b.Sound) (hempty : b.size = 0) {items : List Item}
    (h : (writeAll items).call b = some (.ok (), b')) :
    ∃ b'', (readAll items).call b' = some (.ok (items.map Item.value), b'') ∧
      b''.offset1 = b''.size ∧ b''.contents = b'.contents := by
  obtain ⟨hb', happended, hsized⟩ := writeAll_ok hb h
  have hoffset : b.offset1.toNat = 0 := by
    have hle := hb.offset1_le
    rw [hempty] at hle
    exact Nat.le_zero.mp hle
  have hunread : b'.unread = encode items := by
    rw [unread, happended.contents_eq, happended.offset1_eq, hoffset, drop_zero, contents,
      hempty]
    exact nil_append _
  obtain ⟨b'', hcall, hb'', hsame, hdone⟩ := readAll_encode hb' hsized hunread
  refine ⟨b'', hcall, ?_, ?_⟩
  · have hlength := hb''.length_unread
    have hle := hb''.offset1_le
    rw [hdone] at hlength
    apply UInt64.toNat_inj.mp
    simp only [length_nil] at hlength
    omega
  · rw [hsame]
    rfl

/-! ## Calls which throw -/

/-- A scalar or a text is written or read. -/
def Operation.IsValue : Operation → Prop
  | .writeScalar _ | .writeText _ | .writeCString _ | .readScalar _ | .readText => True
  | _ => False

/-- A call which throws leaves the size, the read offset and the octets. -/
def Atomic (b : DataBlock) (operation : Operation) : Prop :=
  ∀ e b', operation.method.call b = some (.error e, b') →
    b'.size = b.size ∧ b'.offset1 = b.offset1 ∧ b'.data = b.data

theorem atomic_of_unchanged {operation : Operation}
    (h : ∀ e b', operation.method.call b = some (.error e, b') → b' = b) :
    Atomic b operation := by
  intro e b' hcall
  rw [h e b' hcall]
  exact ⟨rfl, rfl, rfl⟩

theorem atomic_of_written (hb : b.Sound) {operation : Operation} (hrange : InRange b operation)
    {octets : Octets} (h : operation.written = some octets) : Atomic b operation := by
  apply atomic_of_unchanged
  intro e b' hcall
  rcases writes_cases hb hrange h with ⟨b₁, hok, -⟩ | ⟨e', herror⟩
  · rw [hok] at hcall
    cases hcall
  · rw [herror] at hcall
    cases hcall
    rfl

theorem atomic_readScalar (hb : b.Sound) (size : UInt64) : Atomic b (.readScalar size) := by
  apply atomic_of_unchanged
  intro e b' hcall
  by_cases h : size.toNat ≤ b.unread.length
  · have hok := (readScalar_available hb h).1.symm.trans hcall
    cases hok
  · have herror := (readScalar_refused hb (not_le.mp h)).symm.trans hcall
    cases herror
    rfl

/-- The read of a text takes the size off a block which is corrupt. -/
theorem atomic_readText_iff (hb : b.Sound) : Atomic b .readText ↔ ¬b.CorruptPrefix := by
  constructor
  · intro hatomic hcorrupt
    obtain ⟨⟨e, hcall⟩, hsound⟩ := readText_corrupt hb hcorrupt
    have hsame := (hatomic e _ hcall).2.1
    have hlength := hb.length_unread
    have hfour := hcorrupt.1
    have hsize := hb.size_le
    have hcapacity := hb.capacity_lt
    have hnat : (4 : UInt64).toNat = 4 := rfl
    have hsum := toNat_add (x := b.offset1) (y := 4) (by omega)
    simp only at hsame
    rw [hsame] at hsum
    omega
  · intro hcorrupt
    apply atomic_of_unchanged
    intro e b' hcall
    by_cases hfour : 4 ≤ b.unread.length
    · obtain ⟨b₁, hok, -⟩ := readText_available hb hfour hcorrupt
      have hcontra := hok.symm.trans hcall
      cases hcontra
    · obtain ⟨e', herror⟩ := readText_short hb (not_le.mp hfour)
      have hsame := herror.symm.trans hcall
      cases hsame
      rfl

theorem atomic_iff (hb : b.Sound) {operation : Operation} (h : operation.IsValue) :
    Atomic b operation ↔ ¬(operation = .readText ∧ b.CorruptPrefix) := by
  cases operation with
  | writeScalar _ | writeText _ | writeCString _ =>
    exact iff_of_true (atomic_of_written hb trivial rfl) (by simp)
  | readScalar size => exact iff_of_true (atomic_readScalar hb size) (by simp)
  | readText => simpa using atomic_readText_iff hb
  | _ => exact h.elim

/-- Values written to an empty block are read back, there is no other reason
for a write to throw than the room or the size of a text, and a call which
throws leaves the block as it was, except for the size of a text which is
read and found corrupt. -/
theorem values_roundTrip_atomic (hb : b.Sound) :
    (b.size = 0 → ∀ items b', (writeAll items).call b = some (.ok (), b') →
      ∃ b'', (readAll items).call b' = some (.ok (items.map Item.value), b'') ∧
        b''.offset1 = b''.size) ∧
    (b.size = 0 → ∀ items : List Item, (∀ item ∈ items, item.Sized) →
      (encode items).length ≤ b.capacity.toNat →
        ∃ b', (writeAll items).call b = some (.ok (), b')) ∧
    ∀ operation : Operation, operation.IsValue →
      (Atomic b operation ↔ ¬(operation = .readText ∧ b.CorruptPrefix)) := by
  refine ⟨?_, ?_, ?_⟩
  · intro hempty items b' hwrite
    obtain ⟨b'', hread, hdone, -⟩ := readAll_writeAll hb hempty hwrite
    exact ⟨b'', hread, hdone⟩
  · intro hempty items hsized hroom
    refine writeAll_fits hb hsized ?_
    rw [hempty]
    exact (Nat.zero_add _).trans_le hroom
  · intro operation hvalue
    exact atomic_iff hb hvalue

theorem values_roundTrip_atomic_smallBlock :
    (∃ b'', (readAll [.scalar ⟨[7], by decide⟩, .text ⟨[104], by decide⟩]).call
        ⟨[7, 1, 0, 0, 0, 104, 0, 0], 8, 6, 0⟩ = some (.ok [[7], [104]], b'') ∧
      b''.offset1 = b''.size) ∧
    Atomic smallBlock .readText :=
  ⟨(values_roundTrip_atomic (sound_attach _).get).1 rfl _ _
      (show (writeAll [.scalar ⟨[7], by decide⟩, .text ⟨[104], by decide⟩]).call smallBlock =
        some (.ok (), ⟨[7, 1, 0, 0, 0, 104, 0, 0], 8, 6, 0⟩) by decide +kernel),
    ((values_roundTrip_atomic (sound_attach _).get).2.2 .readText trivial).mpr
      fun h => absurd h.2 (by decide +kernel : ¬smallBlock.CorruptPrefix)⟩

/-- A block which holds the size of a text, and that is minus one. -/
def corruptBlock : DataBlock := attach ⟨[255, 255, 255, 255], by decide⟩

theorem readText_not_atomic :
    corruptBlock.Sound ∧ Operation.readText.IsValue ∧ ¬Atomic corruptBlock .readText := by
  refine ⟨sound_attach _, trivial, ?_⟩
  intro hatomic
  have hcall : Operation.readText.method.call corruptBlock =
      some (.error (negativeLength (IntType.int32.ofInt (-1))),
        { corruptBlock with offset1 := 4 }) := by decide +kernel
  have hsame := (hatomic _ _ hcall).2.1
  cases hsame

end Baselib.Data.DataBlock
