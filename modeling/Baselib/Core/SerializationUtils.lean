/-
Baselib.Core.SerializationUtils — base64 and base64url,
`core/SerializationUtils.h`.

The bits are regrouped by the archive iterators of boost, which are given:
`to_base64_iterator_t` makes a character of every six bits and fills up the
last group with zeros, `from_base64_iterator_t` makes an octet of every eight
and drops what is left over. The second is only relied on for characters of
the alphabet, and for texts which do not end in the middle of an octet it has
to begin. Padding characters are the business of the functions here.
-/
import Mathlib.Data.List.DropRight
import Baselib.Lib.BitGroups
import Baselib.Lib.Octets

namespace Baselib.Core.SerializationUtils

open Lib (Octets octets bitsOf ofBits groups padBits)

/-- The characters which stand for six bits each. -/
def alphabet : Octets :=
  octets "ABCDEFGHIJKLMNOPQRSTUVWXYZabcdefghijklmnopqrstuvwxyz0123456789+/"

/-- The character of six bits. -/
def charOf (bits : List Bool) : UInt8 := alphabet.getD (ofBits bits) 0

/-- The six bits of a character. -/
def bitsOfChar (ch : UInt8) : List Bool := bitsOf 6 (alphabet.idxOf ch)

/-- A character for every six bits, the last group filled up with zeros. -/
def regroupedToBase64 (buffer : Octets) : Octets :=
  (groups 6 (padBits 6 (buffer.flatMap fun octet => bitsOf 8 octet.toNat))).map charOf

/-- An octet for every eight bits, the bits left over dropped. -/
def regroupedFromBase64 (text : Octets) : Octets :=
  (groups 8 (text.flatMap bitsOfChar)).map fun bits => .ofNat (ofBits bits)

/-- `to_base64_iterator_t` and `from_base64_iterator_t` over a range. -/
structure Iterators where
  toBase64 : Octets → Octets
  fromBase64 : Octets → Octets
  toBase64_eq : ∀ buffer, toBase64 buffer = regroupedToBase64 buffer
  fromBase64_eq : ∀ text, (∀ ch ∈ text, ch ∈ alphabet) → text.length % 4 ≠ 1 →
    fromBase64 text = regroupedFromBase64 text

/-- The iterators as they are described. -/
def regrouping : Iterators where
  toBase64 := regroupedToBase64
  fromBase64 := regroupedFromBase64
  toBase64_eq _ := rfl
  fromBase64_eq _ _ _ := rfl

/-- `ArgumentException`, from a failed check of an argument or of its own. -/
inductive Exception where
  | argument (size : Nat)
  | invalidBase64Url
  deriving DecidableEq, Repr

/-- `'='` -/
def pad : UInt8 := 61

/-! ## Base64 -/

def base64Encode (it : Iterators) (buffer : Octets) : Octets :=
  if buffer.length = 0 then []
  else
    let paddingCharactersCount := (3 - buffer.length % 3) % 3
    it.toBase64 buffer ++ List.replicate paddingCharactersCount pad

def isValid (ch : UInt8) : Bool :=
  65 ≤ ch && ch ≤ 90 || 97 ≤ ch && ch ≤ 122 || 48 ≤ ch && ch ≤ 57 || 43 == ch || 47 == ch

/-- The loop from the end of the text to the first character which is not
padding. -/
def countPadding : Octets → Nat
  | [] => 0
  | ch :: before => if ch = pad then countPadding before + 1 else 0

def base64Decode (it : Iterators) (encoded : Octets) : Except Exception Octets :=
  if encoded.length = 0 then .ok []
  else
    let paddingCharactersCount := countPadding encoded.reverse
    if 2 < paddingCharactersCount then .error (.argument encoded.length)
    else
      let dataSize := encoded.length - paddingCharactersCount
      if dataSize % 4 = 1 then .error (.argument encoded.length)
      else if (encoded.take dataSize).all isValid then
        .ok (it.fromBase64 (encoded.take dataSize))
      else .error (.argument encoded.length)

/-! ## Base64url -/

/-- `std::replace` -/
def replace (oldValue newValue : UInt8) (l : Octets) : Octets :=
  l.map fun ch => if ch = oldValue then newValue else ch

/-- `'-'` and `'_'` in the place of `'+'` and `'/'`. -/
def base64UrlEncode (it : Iterators) (buffer : Octets) : Octets :=
  let encoded := (base64Encode it buffer).rdropWhile (· == pad)
  replace 47 95 (replace 43 45 encoded)

/-- How many padding characters a text of this length is given. -/
def addedPadding (size : Nat) : Nat := if size % 4 = 2 then 2 else if size % 4 = 3 then 1 else 0

def base64UrlDecode (it : Iterators) (encoded : Octets) : Except Exception Octets :=
  if encoded.length = 0 then .ok []
  else if encoded.length % 4 = 1 then .error .invalidBase64Url
  else
    base64Decode it (replace 95 47 (replace 45 43
      (encoded ++ List.replicate (addedPadding encoded.length) pad)))

end Baselib.Core.SerializationUtils
