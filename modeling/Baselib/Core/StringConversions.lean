/-
Baselib.Core.StringConversions — the percent encoding of `StringUtils.h`
and its conversion of UTF-8 to ISO-8859-1.

The tables are the source's. A pointer into a text is the rest of the
text from there, and reading past the end of it is an error of its own,
so that the conversions never do is a statement about the model.
-/
import Baselib.Lib.Octets

namespace Baselib.Core.Str

open Lib

inductive StringException where
  | argument (message : String)
  | pastTheEnd
  deriving DecidableEq, Repr

/-- `*( src + offset )`. -/
def read (src : Octets) (offset : Nat) : Except StringException UInt8 :=
  match src[offset]? with
  | some ch => .ok ch
  | none => .error .pastTheEnd

/-! ## Tables -/

/-- Safe characters as defined by RFC 1630. -/
def safeChars : List Nat := [
    0, 0, 0, 0, 0, 0, 0, 0, 0, 0, 0, 0, 0, 0, 0, 0,
    0, 0, 0, 0, 0, 0, 0, 0, 0, 0, 0, 0, 0, 0, 0, 0,
    0, 0, 0, 0, 0, 0, 0, 0, 0, 0, 0, 0, 0, 0, 0, 0,
    1, 1, 1, 1, 1, 1, 1, 1, 1, 1, 0, 0, 0, 0, 0, 0,
    0, 1, 1, 1, 1, 1, 1, 1, 1, 1, 1, 1, 1, 1, 1, 1,
    1, 1, 1, 1, 1, 1, 1, 1, 1, 1, 1, 0, 0, 0, 0, 0,
    0, 1, 1, 1, 1, 1, 1, 1, 1, 1, 1, 1, 1, 1, 1, 1,
    1, 1, 1, 1, 1, 1, 1, 1, 1, 1, 1, 0, 0, 0, 0, 0,
    0, 0, 0, 0, 0, 0, 0, 0, 0, 0, 0, 0, 0, 0, 0, 0,
    0, 0, 0, 0, 0, 0, 0, 0, 0, 0, 0, 0, 0, 0, 0, 0,
    0, 0, 0, 0, 0, 0, 0, 0, 0, 0, 0, 0, 0, 0, 0, 0,
    0, 0, 0, 0, 0, 0, 0, 0, 0, 0, 0, 0, 0, 0, 0, 0,
    0, 0, 0, 0, 0, 0, 0, 0, 0, 0, 0, 0, 0, 0, 0, 0,
    0, 0, 0, 0, 0, 0, 0, 0, 0, 0, 0, 0, 0, 0, 0, 0,
    0, 0, 0, 0, 0, 0, 0, 0, 0, 0, 0, 0, 0, 0, 0, 0,
    0, 0, 0, 0, 0, 0, 0, 0, 0, 0, 0, 0, 0, 0, 0, 0]

/-- Unsafe characters as defined by RFC 1738. -/
def unsafeChars : List Nat := [
    0, 0, 0, 0, 0, 0, 0, 0, 0, 0, 0, 0, 0, 0, 0, 0,
    0, 0, 0, 0, 0, 0, 0, 0, 0, 0, 0, 0, 0, 0, 0, 0,
    0, 0, 1, 1, 0, 1, 0, 0, 0, 0, 0, 0, 0, 0, 0, 0,
    0, 0, 0, 0, 0, 0, 0, 0, 0, 0, 0, 0, 1, 0, 1, 0,
    0, 0, 0, 0, 0, 0, 0, 0, 0, 0, 0, 0, 0, 0, 0, 0,
    0, 0, 0, 0, 0, 0, 0, 0, 0, 0, 0, 1, 1, 1, 1, 0,
    1, 0, 0, 0, 0, 0, 0, 0, 0, 0, 0, 0, 0, 0, 0, 0,
    0, 0, 0, 0, 0, 0, 0, 0, 0, 0, 0, 1, 1, 1, 1, 0,
    0, 0, 0, 0, 0, 0, 0, 0, 0, 0, 0, 0, 0, 0, 0, 0,
    0, 0, 0, 0, 0, 0, 0, 0, 0, 0, 0, 0, 0, 0, 0, 0,
    0, 0, 0, 0, 0, 0, 0, 0, 0, 0, 0, 0, 0, 0, 0, 0,
    0, 0, 0, 0, 0, 0, 0, 0, 0, 0, 0, 0, 0, 0, 0, 0,
    0, 0, 0, 0, 0, 0, 0, 0, 0, 0, 0, 0, 0, 0, 0, 0,
    0, 0, 0, 0, 0, 0, 0, 0, 0, 0, 0, 0, 0, 0, 0, 0,
    0, 0, 0, 0, 0, 0, 0, 0, 0, 0, 0, 0, 0, 0, 0, 0,
    0, 0, 0, 0, 0, 0, 0, 0, 0, 0, 0, 0, 0, 0, 0, 0]

/-- `NO`, which is `static_cast< char >( -1 )`. -/
def no : UInt8 := 0xFF

def hex2Dec : List UInt8 := [
    no, no, no, no, no, no, no, no, no, no, no, no, no, no, no, no,
    no, no, no, no, no, no, no, no, no, no, no, no, no, no, no, no,
    no, no, no, no, no, no, no, no, no, no, no, no, no, no, no, no,
    0, 1, 2, 3, 4, 5, 6, 7, 8, 9, no, no, no, no, no, no,
    no, 10, 11, 12, 13, 14, 15, no, no, no, no, no, no, no, no, no,
    no, no, no, no, no, no, no, no, no, no, no, no, no, no, no, no,
    no, 10, 11, 12, 13, 14, 15, no, no, no, no, no, no, no, no, no,
    no, no, no, no, no, no, no, no, no, no, no, no, no, no, no, no,
    no, no, no, no, no, no, no, no, no, no, no, no, no, no, no, no,
    no, no, no, no, no, no, no, no, no, no, no, no, no, no, no, no,
    no, no, no, no, no, no, no, no, no, no, no, no, no, no, no, no,
    no, no, no, no, no, no, no, no, no, no, no, no, no, no, no, no,
    no, no, no, no, no, no, no, no, no, no, no, no, no, no, no, no,
    no, no, no, no, no, no, no, no, no, no, no, no, no, no, no, no,
    no, no, no, no, no, no, no, no, no, no, no, no, no, no, no, no,
    no, no, no, no, no, no, no, no, no, no, no, no, no, no, no, no]

def dec2Hex : Octets := octets "0123456789ABCDEF"

def isSafe (ch : UInt8) : Bool := safeChars.getD ch.toNat 0 != 0

def isUnsafe (ch : UInt8) : Bool := unsafeChars.getD ch.toNat 0 != 0

/-! ## Percent encoding -/

/-- '%' and the two digits. -/
def escape (ch : UInt8) : Octets :=
  ['%'.toUInt8, dec2Hex.getD (ch >>> 4).toNat 0, dec2Hex.getD (ch &&& 0x0F).toNat 0]

def uriEncode (uri excludedChars : Octets) : Octets :=
  uri.flatMap fun ch => if isSafe ch || excludedChars.contains ch then [ch] else escape ch

def uriEncodeUnsafeOnly (uri : Octets) (escapePercent : Bool := false) : Octets :=
  uri.flatMap fun ch =>
    if isUnsafe ch && ('%'.toUInt8 != ch || escapePercent) then escape ch else [ch]

/-- The loops of `uriDecode`: more than two characters are left to the first. -/
def uriDecodeLoop (src out : Octets) : Except StringException Octets :=
  if _h : 2 < src.length then do
    let ch ← read src 0
    if ch = '%'.toUInt8 then
      let dec1 := hex2Dec.getD (← read src 1).toNat 0
      if no ≠ dec1 then
        let dec2 := hex2Dec.getD (← read src 2).toNat 0
        if no ≠ dec2 then uriDecodeLoop (src.drop 3) (out ++ [(dec1 <<< 4) + dec2])
        else uriDecodeLoop (src.drop 1) (out ++ [ch])
      else uriDecodeLoop (src.drop 1) (out ++ [ch])
    else uriDecodeLoop (src.drop 1) (out ++ [ch])
  else .ok (out ++ src)
termination_by src.length
decreasing_by all_goals (simp only [List.length_drop]; omega)

def uriDecode (uri : Octets) : Except StringException Octets :=
  if uri.length < 3 then .ok uri else uriDecodeLoop uri []

/-! ## UTF-8 to ISO-8859-1 -/

def invalidSequence : StringException :=
  .argument "Input cannot be converted to ISO-8859-1. Invalid UTF-8 sequence."

def outsideOfRange : StringException :=
  .argument "Input cannot be converted to ISO-8859-1. Characters outside of ISO-8859-1 range."

def utf8ToIso88591Loop (pos result : Octets) : Except StringException Octets :=
  if _h : pos ≠ [] then do
    let ch ← read pos 0
    if ch ≤ 0x7F then utf8ToIso88591Loop (pos.drop 1) (result ++ [ch])
    else if 0xC2 ≤ ch && ch ≤ 0xC3 then
      if pos.drop 1 ≠ [] then
        let nextChar ← read (pos.drop 1) 0
        if 0x80 ≤ nextChar && nextChar ≤ 0xBF then
          utf8ToIso88591Loop (pos.drop 2)
            (result ++ [((ch &&& 0x03) <<< 6) ||| (nextChar &&& 0x3F)])
        else .error invalidSequence
      else .error invalidSequence
    else .error outsideOfRange
  else .ok result
termination_by pos.length
decreasing_by
  all_goals
    have hpos := List.length_pos_iff.mpr ‹pos ≠ []›
    simp only [List.length_drop]
    omega

def utf8ToIso88591Simple (inputUtf8 : Octets) : Except StringException Octets :=
  utf8ToIso88591Loop inputUtf8 []

end Baselib.Core.Str
