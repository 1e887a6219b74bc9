/-
Baselib.Core.FileEncoding — text files with and without a preamble.

A file is the list of its octets. `writeTextFile` returns what becomes of
the file beside its outcome, so a call which fails shows what it left
behind; `readTextFile` moves a position over the octets, as the calls of
the C library do. The platform decides about UTF-16: on Windows a facet
outside this code converts between UTF-8 and the wide characters, and it is
a parameter here.

The reader guesses the encoding from the preamble. With a preamble in front
the guess is right (`readTextFile_preamble`); without one the file is taken
as ASCII, unless the text itself starts like a preamble.
-/
import Baselib.Lib.Checked
import Baselib.Lib.Octets

namespace Baselib.Core.FileEncoding

open Lib List

/-- The values of the enumeration are those of its underlying type, and a
cast gives any of them. -/
structure TextFileEncoding where
  value : UInt32
  deriving DecidableEq

namespace TextFileEncoding

def preamble : UInt32 := (1 : UInt32) <<< 8

def unknown : TextFileEncoding := ⟨0⟩
def utf8NoPreamble : TextFileEncoding := ⟨1⟩
def utf16LENoPreamble : TextFileEncoding := ⟨2⟩
def utf8 : TextFileEncoding := ⟨utf8NoPreamble.value ||| preamble⟩
def utf16LE : TextFileEncoding := ⟨utf16LENoPreamble.value ||| preamble⟩
def ascii : TextFileEncoding := utf8NoPreamble

end TextFileEncoding

/-- `cpp::wstring_convert_t`; `none` is the exception of the conversion. -/
structure WstringConvert where
  fromBytes : Octets → Option (List UInt16)
  toBytes : List UInt16 → Option Octets

inductive Platform where
  | unix
  | windows (conv : WstringConvert)

/-- The exceptions, one for each place which throws. -/
inductive FileException where
  /-- `NotSupportedException`: "Writing UTF-16LE encoded file ..." -/
  | writingNotSupported
  /-- `UnexpectedException`: "Invalid TextFileEncoding: ..." -/
  | invalidTextFileEncoding (value : UInt32)
  /-- "File ... is too large (... bytes)" -/
  | tooLarge (size : Nat)
  /-- `NotSupportedException`: "Reading UTF-16LE encoded file ..." -/
  | readingNotSupported
  /-- "The size of Unicode file ... is not divisible by wchar_t size 2" -/
  | notDivisible (size : Nat)
  /-- "Reading past the end of file" -/
  | pastEndOfFile
  /-- `std::range_error` of the conversion. -/
  | rangeError
  deriving DecidableEq

def utf8Preamble : Octets := [0xef, 0xbb, 0xbf]

def utf16LEPreamble : Octets := [0xff, 0xfe]

/-! ## Wide characters in memory -/

/-- The octets of `wchar_t` values of 16 bits, the low one first. -/
def wideBytes : List UInt16 → Octets
  | [] => []
  | w :: wide => w.toUInt8 :: (w >>> 8).toUInt8 :: wideBytes wide

def wideOf : Octets → List UInt16
  | low :: high :: rest => (low.toUInt16 + (high.toUInt16 <<< 8)) :: wideOf rest
  | _ => []

/-! ## Writing -/

def chkEncodingSupported (p : Platform) (encoding : TextFileEncoding) :
    Except FileException Unit :=
  if encoding = .utf8 ∨ encoding = .utf8NoPreamble then .ok ()
  else if encoding = .utf16LE ∨ encoding = .utf16LENoPreamble then
    match p with
    | .unix => .error .writingNotSupported
    | .windows _ => .ok ()
  else .error (.invalidTextFileEncoding encoding.value)

/-- The branch for `Utf8_NoPreamble`, into which that for `Utf8` falls. -/
def writeUtf8 (file content : Octets) : Except FileException Unit × Option Octets :=
  if content ≠ [] then (.ok (), some (file ++ content)) else (.ok (), some file)

/-- The branch for `Utf16LE_NoPreamble`, into which that for `Utf16LE` falls. -/
def writeUtf16LE (conv : WstringConvert) (file content : Octets) :
    Except FileException Unit × Option Octets :=
  if content ≠ [] then
    match conv.fromBytes content with
    | none => (.error .rangeError, some file)
    | some wide => (.ok (), some (file ++ wideBytes wide))
  else (.ok (), some file)

/-- The outcome, and the file after the call; `none` is no file. -/
def writeTextFile (p : Platform) (content : Octets) (encoding : TextFileEncoding)
    (file : Option Octets) : Except FileException Unit × Option Octets :=
  match chkEncodingSupported p encoding with
  | .error e => (.error e, file)
  | .ok () =>
    -- From here on the file is open for writing and empty.
    if encoding = .utf8 then writeUtf8 utf8Preamble content
    else if encoding = .utf8NoPreamble then writeUtf8 [] content
    else
      match p with
      | .windows conv =>
        if encoding = .utf16LE then writeUtf16LE conv utf16LEPreamble content
        else if encoding = .utf16LENoPreamble then writeUtf16LE conv [] content
        else (.error (.invalidTextFileEncoding encoding.value), some [])
      | .unix =>
        if encoding = .utf16LE ∨ encoding = .utf16LENoPreamble then
          (.error .writingNotSupported, some [])
        else (.error (.invalidTextFileEncoding encoding.value), some [])

/-! ## Reading -/

/-- An open file. -/
structure StdioFile where
  content : Octets
  position : Nat := 0

namespace StdioFile

def fread (file : StdioFile) (size : Nat) : Except FileException (Octets × StdioFile) :=
  if file.position + size ≤ file.content.length then
    .ok ((file.content.drop file.position).take size,
      { file with position := file.position + size })
  else .error .pastEndOfFile

def fseek (file : StdioFile) (offset : Nat) : StdioFile := { file with position := offset }

def ftell (file : StdioFile) : Nat := file.position

end StdioFile

def checkFilePreamble (file : StdioFile) (size : Nat) (preamble : Octets) :
    Except FileException (Bool × StdioFile) :=
  if preamble.length ≤ size then do
    let (buffer, file) ← file.fread preamble.length
    if buffer = preamble then .ok (true, file)
    else .ok (false, file.fseek (file.ftell - buffer.length))
  else .ok (false, file)

/-- `if( size > 0 )` a buffer of this size is read. -/
def readRest (file : StdioFile) (size : Nat) : Except FileException Octets :=
  if 0 < size then do
    let (result, _) ← file.fread size
    .ok result
  else .ok []

/-- The branch for a file with the preamble of UTF-16, behind that preamble. -/
def readUtf16LE (p : Platform) (file : StdioFile) (size : Nat) : Except FileException Octets :=
  match p with
  | .unix => .error .readingNotSupported
  | .windows conv =>
    if size % 2 = 0 then
      if 0 < size then do
        let (buffer, _) ← file.fread size
        match conv.toBytes (wideOf buffer) with
        | none => .error .rangeError
        | some result => .ok result
      else .ok []
    else .error (.notDivisible size)

/-- The text and the encoding. -/
def readTextFile (p : Platform) (content : Octets) :
    Except FileException (Octets × TextFileEncoding) :=
  let size := content.length
  if size < 2 ^ 64 - 1 then do
    let (isUtf8, file) ← checkFilePreamble { content := content } size utf8Preamble
    if isUtf8 then
      let result ← readRest file (size - utf8Preamble.length)
      .ok (result, .utf8)
    else
      let (isUtf16LE, file) ← checkFilePreamble file size utf16LEPreamble
      if isUtf16LE then
        let result ← readUtf16LE p file (size - utf16LEPreamble.length)
        .ok (result, .utf16LE)
      else
        let result ← readRest file size
        .ok (result, .ascii)
  else .error (.tooLarge size)

/-! ## Wide characters written and read -/

theorem wideOf_wideBytes (wide : List UInt16) : wideOf (wideBytes wide) = wide := by
  induction wide with
  | nil => rfl
  | cons w wide ih =>
    have hw : w.toUInt8.toUInt16 + ((w >>> 8).toUInt8.toUInt16 <<< 8) = w := by
      have hlt := w.toNat_lt
      apply UInt16.toNat.inj
      simp only [UInt16.toNat_add, UInt16.toNat_shiftLeft, UInt8.toNat_toUInt16,
        UInt16.toNat_toUInt8, UInt16.toNat_shiftRight, Nat.shiftLeft_eq,
        Nat.shiftRight_eq_div_pow, UInt16.reduceToNat, Nat.reduceMod, Nat.reducePow]
      omega
    rw [wideBytes, wideOf, hw, ih]

theorem length_wideBytes (wide : List UInt16) : (wideBytes wide).length = 2 * wide.length := by
  induction wide with
  | nil => rfl
  | cons w wide ih =>
    simp only [wideBytes, length_cons, ih]
    omega

/-! ## What the reader sees -/

/-- At the start of a file the check finds the preamble and stays behind it,
or goes back to where it was. -/
theorem checkFilePreamble_start (content preamble : Octets) :
    checkFilePreamble { content := content } content.length preamble =
      if preamble <+: content then .ok (true, { content := content, position := preamble.length })
      else .ok (false, { content := content }) := by
  unfold checkFilePreamble
  by_cases hlen : preamble.length ≤ content.length
  · have hread : StdioFile.fread { content := content } preamble.length =
        .ok (content.take preamble.length,
          { content := content, position := preamble.length }) := by
      simp [StdioFile.fread, hlen]
    have hprefix : content.take preamble.length = preamble ↔ preamble <+: content := by
      rw [prefix_iff_eq_take]
      exact eq_comm
    have hback : (content.take preamble.length).length = preamble.length := by simp [hlen]
    rw [if_pos hlen, hread]
    simp only [bind, Except.bind, hprefix, hback, StdioFile.fseek, StdioFile.ftell, Nat.sub_self]
  · have hnot : ¬ preamble <+: content := fun h => hlen h.length_le
    rw [if_neg hlen, if_neg hnot]

theorem fread_rest (content : Octets) {k : Nat} (hk : k ≤ content.length) :
    StdioFile.fread { content := content, position := k } (content.length - k) =
      .ok (content.drop k, { content := content, position := content.length }) := by
  have hend : k + (content.length - k) = content.length := by omega
  have htake : (content.drop k).take (content.length - k) = content.drop k := by
    apply take_of_length_le
    rw [length_drop]
  simp only [StdioFile.fread, hend, le_refl, if_true, htake]

theorem readRest_eq (content : Octets) {k : Nat} (hk : k ≤ content.length) :
    readRest { content := content, position := k } (content.length - k) =
      .ok (content.drop k) := by
  unfold readRest
  by_cases hpos : 0 < content.length - k
  · rw [if_pos hpos, fread_rest content hk]
    rfl
  · rw [if_neg hpos, drop_eq_nil_of_le (by omega)]

theorem readTextFile_utf8 (p : Platform) {text : Octets}
    (hsize : (utf8Preamble ++ text).length < 2 ^ 64 - 1) :
    readTextFile p (utf8Preamble ++ text) = .ok (text, .utf8) := by
  have hk : utf8Preamble.length ≤ (utf8Preamble ++ text).length := by simp
  simp only [readTextFile, hsize, if_true, checkFilePreamble_start, prefix_append, bind,
    Except.bind, readRest_eq _ hk, drop_left]

theorem readTextFile_utf16LE (p : Platform) {bytes : Octets}
    (hsize : (utf16LEPreamble ++ bytes).length < 2 ^ 64 - 1) :
    readTextFile p (utf16LEPreamble ++ bytes) =
      (readUtf16LE p { content := utf16LEPreamble ++ bytes, position := 2 } bytes.length).bind
        fun result => .ok (result, .utf16LE) := by
  have hnot : ¬ utf8Preamble <+: utf16LEPreamble ++ bytes := by
    simp [utf8Preamble, utf16LEPreamble]
  have hlength : (utf16LEPreamble ++ bytes).length - utf16LEPreamble.length = bytes.length := by
    simp
  simp only [readTextFile, hsize, if_true, checkFilePreamble_start, hnot, if_false,
    prefix_append, bind, Except.bind, hlength, Bool.false_eq_true]
  rfl

theorem readTextFile_ascii (p : Platform) {content : Octets}
    (hsize : content.length < 2 ^ 64 - 1) (h8 : ¬ utf8Preamble <+: content)
    (h16 : ¬ utf16LEPreamble <+: content) :
    readTextFile p content = .ok (content, .ascii) := by
  have hrest := readRest_eq content (k := 0) (Nat.zero_le _)
  rw [Nat.sub_zero, drop_zero] at hrest
  simp only [readTextFile, hsize, if_true, checkFilePreamble_start, h8, h16, if_false, bind,
    Except.bind, Bool.false_eq_true, hrest]

/-! ## What the writer leaves -/

/-- The encodings which `writeTextFile` supports on a platform. -/
def Supported (p : Platform) (encoding : TextFileEncoding) : Prop :=
  (encoding = .utf8 ∨ encoding = .utf8NoPreamble) ∨
    (encoding = .utf16LE ∨ encoding = .utf16LENoPreamble) ∧ ∃ conv, p = .windows conv

/-- The facet converts the text and converts it back. -/
def WstringConvert.Carries (conv : WstringConvert) (text : Octets) : Prop :=
  text ≠ [] →
    ∃ wide, wide ≠ [] ∧ conv.fromBytes text = some wide ∧ conv.toBytes wide = some text

/-- The platform can convert the text, if the encoding asks for it. -/
def Platform.Carries (p : Platform) (encoding : TextFileEncoding) (text : Octets) : Prop :=
  ∀ conv, p = .windows conv → encoding = .utf16LE ∨ encoding = .utf16LENoPreamble →
    conv.Carries text

theorem writeTextFile_of_not_supported {p : Platform} {encoding : TextFileEncoding}
    (h : ¬ Supported p encoding) (content : Octets) (file : Option Octets) :
    ∃ e, writeTextFile p content encoding file = (.error e, file) := by
  have hrefused : ∃ e, chkEncodingSupported p encoding = .error e := by
    unfold chkEncodingSupported
    split
    · next h8 => exact absurd (.inl h8) h
    · split
      · next h16 =>
          cases p with
          | unix => exact ⟨_, rfl⟩
          | windows conv => exact absurd (.inr ⟨h16, conv, rfl⟩) h
      · exact ⟨_, rfl⟩
  obtain ⟨e, he⟩ := hrefused
  refine ⟨e, ?_⟩
  unfold writeTextFile
  rw [he]

theorem writeUtf8_eq (file content : Octets) :
    writeUtf8 file content = (.ok (), some (file ++ content)) := by
  unfold writeUtf8
  split
  · rfl
  · next hempty => rw [not_not.mp hempty, append_nil]

theorem writeTextFile_utf8 (p : Platform) (content : Octets) (file : Option Octets) :
    writeTextFile p content .utf8 file = (.ok (), some (utf8Preamble ++ content)) :=
  writeUtf8_eq utf8Preamble content

theorem writeTextFile_utf8NoPreamble (p : Platform) (content : Octets) (file : Option Octets) :
    writeTextFile p content .utf8NoPreamble file = (.ok (), some content) :=
  writeUtf8_eq [] content

/-- A text which the facet carries is written as wide characters, and they
are read as the text. -/
theorem WstringConvert.Carries.written {conv : WstringConvert} {text : Octets}
    (h : conv.Carries text) :
    ∃ bytes, (∀ file, writeUtf16LE conv file text = (.ok (), some (file ++ bytes))) ∧
      readUtf16LE (.windows conv) { content := utf16LEPreamble ++ bytes, position := 2 }
        bytes.length = .ok text := by
  by_cases hempty : text = []
  · subst hempty
    exact ⟨[], fun file => by simp [writeUtf16LE], rfl⟩
  · obtain ⟨wide, hwide, hfrom, hto⟩ := h hempty
    refine ⟨wideBytes wide, fun file => ?_, ?_⟩
    · rw [writeUtf16LE, if_pos hempty, hfrom]
    · have heven : (wideBytes wide).length % 2 = 0 := by
        rw [length_wideBytes]
        omega
      have hpos : 0 < (wideBytes wide).length := by
        have := length_pos_iff.mpr hwide
        rw [length_wideBytes]
        omega
      have hread := fread_rest (utf16LEPreamble ++ wideBytes wide) (k := 2) (by
        rw [length_append]
        exact Nat.le_add_right _ _)
      have hlength : (utf16LEPreamble ++ wideBytes wide).length - 2 = (wideBytes wide).length := by
        rw [length_append]
        exact Nat.add_sub_cancel_left _ _
      have hdrop : (utf16LEPreamble ++ wideBytes wide).drop 2 = wideBytes wide :=
        @List.drop_left _ utf16LEPreamble _
      rw [hlength, hdrop] at hread
      simp only [readUtf16LE, heven, if_true, hpos, hread, bind, Except.bind, wideOf_wideBytes,
        hto]

/-! ## Round trips -/

/-- What was read of a file writes the same file again, wide characters
apart. -/
theorem writeTextFile_of_read {p : Platform} {content : Octets}
    {result : Octets × TextFileEncoding} (h : readTextFile p content = .ok result)
    (h16 : ¬ utf16LEPreamble <+: content) (file : Option Octets) :
    writeTextFile p result.1 result.2 file = (.ok (), some content) := by
  have hsize : content.length < 2 ^ 64 - 1 := by
    by_contra hlarge
    simp only [readTextFile, hlarge, if_false] at h
    cases h
  by_cases h8 : utf8Preamble <+: content
  · obtain ⟨text, rfl⟩ := h8
    rw [readTextFile_utf8 p hsize] at h
    cases h
    exact writeTextFile_utf8 p text file
  · rw [readTextFile_ascii p hsize h8 h16] at h
    cases h
    exact writeTextFile_utf8NoPreamble p content file

/-- A supported encoding is written, and with a preamble the text and the
encoding are read back. -/
theorem exists_written {p : Platform} {encoding : TextFileEncoding} {text : Octets}
    (hsupported : Supported p encoding) (hcarries : p.Carries encoding text) :
    ∃ written, (∀ file, writeTextFile p text encoding file = (.ok (), some written)) ∧
      (encoding = .utf8NoPreamble → written = text) ∧
      (encoding = .utf8 ∨ encoding = .utf16LE → written.length < 2 ^ 64 - 1 →
        readTextFile p written = .ok (text, encoding)) := by
  rcases hsupported with (rfl | rfl) | ⟨rfl | rfl, conv, rfl⟩
  · exact ⟨_, writeTextFile_utf8 p text, nofun, fun _ => readTextFile_utf8 p⟩
  · exact ⟨_, writeTextFile_utf8NoPreamble p text, fun _ => rfl,
      fun h => (by rcases h with h | h <;> cases h)⟩
  · obtain ⟨bytes, hwrite, hread⟩ := (hcarries conv rfl (.inl rfl)).written
    refine ⟨_, fun file => hwrite utf16LEPreamble, nofun, fun _ hsize => ?_⟩
    rw [readTextFile_utf16LE _ hsize, hread]
    rfl
  · obtain ⟨bytes, hwrite, -⟩ := (hcarries conv rfl (.inr rfl)).written
    exact ⟨_, fun file => hwrite [], nofun,
      fun h => (by rcases h with h | h <;> cases h)⟩

/-- Without a preamble the text is read back just when it does not start
like one. -/
theorem readTextFile_noPreamble_iff (p : Platform) {text : Octets}
    (hsize : text.length < 2 ^ 64 - 1) :
    readTextFile p text = .ok (text, .utf8NoPreamble) ↔
      ¬ utf8Preamble <+: text ∧ ¬ utf16LEPreamble <+: text := by
  constructor
  · intro h
    constructor
    · rintro ⟨rest, rfl⟩
      rw [readTextFile_utf8 p hsize] at h
      obtain ⟨-, hencoding⟩ := Prod.mk.inj (Except.ok.inj h)
      cases hencoding
    · rintro ⟨rest, rfl⟩
      rw [readTextFile_utf16LE p hsize] at h
      obtain ⟨result, -, hresult⟩ := Checked.bind_eq_ok.mp h
      cases hresult
  · exact fun h => readTextFile_ascii p hsize h.1 h.2

/-- A refused call leaves the file. A supported encoding is written; with a
preamble the text and the encoding are read back, UTF-8 without one is read
back just when the text does not start like a preamble, and what is read
writes the same file again, save for a file without a preamble which starts
like one of wide characters. -/
theorem textFile_roundTrip (p : Platform) (text : Octets) (encoding : TextFileEncoding)
    (file : Option Octets) (hcarries : p.Carries encoding text) :
    (¬ Supported p encoding → ∃ e, writeTextFile p text encoding file = (.error e, file)) ∧
    (Supported p encoding → ∃ written,
      writeTextFile p text encoding file = (.ok (), some written) ∧
      (written.length < 2 ^ 64 - 1 →
        (encoding = .utf8 ∨ encoding = .utf16LE →
          readTextFile p written = .ok (text, encoding)) ∧
        (encoding = .utf8NoPreamble →
          (readTextFile p written = .ok (text, encoding) ↔
            ¬ utf8Preamble <+: text ∧ ¬ utf16LEPreamble <+: text)) ∧
        ∀ result, readTextFile p written = .ok result →
          encoding = .utf16LE ∨ ¬ utf16LEPreamble <+: written →
          writeTextFile p result.1 result.2 (some written) = (.ok (), some written))) := by
  refine ⟨fun h => writeTextFile_of_not_supported h text file, fun hsupported => ?_⟩
  obtain ⟨written, hwrite, hplain, hread⟩ := exists_written hsupported hcarries
  refine ⟨written, hwrite file, fun hsize => ⟨fun h => hread h hsize, ?_, ?_⟩⟩
  · rintro rfl
    obtain rfl := hplain rfl
    exact readTextFile_noPreamble_iff p hsize
  · rintro result hresult (rfl | h16)
    · rw [hread (.inr rfl) hsize] at hresult
      cases hresult
      exact hwrite (some written)
    · exact writeTextFile_of_read hresult h16 (some written)

/-- The facet on characters below 128. -/
def asciiConvert : WstringConvert where
  fromBytes text := if text.all (· < 0x80) then some (text.map UInt8.toUInt16) else none
  toBytes wide := if wide.all (· < 0x80) then some (wide.map UInt16.toUInt8) else none

theorem textFile_roundTrip_windows :
    writeTextFile (.windows asciiConvert) (octets "ab") .utf16LE none =
        (.ok (), some [0xff, 0xfe, 0x61, 0, 0x62, 0]) ∧
      readTextFile (.windows asciiConvert) [0xff, 0xfe, 0x61, 0, 0x62, 0] =
        .ok (octets "ab", .utf16LE) := by
  have hcarries : (Platform.windows asciiConvert).Carries .utf16LE (octets "ab") := by
    rintro conv h -
    cases h
    exact fun _ => ⟨[0x61, 0x62], by decide, by decide, by decide⟩
  obtain ⟨written, hwrite, hread⟩ := (textFile_roundTrip (.windows asciiConvert) (octets "ab")
    .utf16LE none hcarries).2 (.inr ⟨.inl rfl, asciiConvert, rfl⟩)
  have hbytes : writeTextFile (.windows asciiConvert) (octets "ab") .utf16LE none =
      (.ok (), some [0xff, 0xfe, 0x61, 0, 0x62, 0]) := by
    decide
  rw [hbytes] at hwrite
  cases hwrite
  exact ⟨hbytes, (hread (by decide)).1 (.inr rfl)⟩

/-- A text which starts like a preamble loses it, and one which starts like
that of UTF-16 is not read at all. -/
theorem textFile_preamble_in_text :
    writeTextFile .unix [0xef, 0xbb, 0xbf, 0x61] .utf8NoPreamble none =
        (.ok (), some [0xef, 0xbb, 0xbf, 0x61]) ∧
      readTextFile .unix [0xef, 0xbb, 0xbf, 0x61] = .ok ([0x61], .utf8) ∧
      writeTextFile .unix [0xff, 0xfe] .utf8NoPreamble none = (.ok (), some [0xff, 0xfe]) ∧
      readTextFile .unix [0xff, 0xfe] = .error .readingNotSupported := by
  refine ⟨by decide, by decide, by decide, by decide⟩

end Baselib.Core.FileEncoding
