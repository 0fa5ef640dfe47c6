import ChunkScope.Text.Numeral

/-!
# Encodings

Bytes as text and texts as bytes: digits for bytes, the bytes of a text, one character for each
byte, and a text in which some bytes are escaped.
-/

/-! ## Hexadecimal text

Two digits for each byte, the high one first: lower case when written, either case when read. -/

namespace ChunkScope

/-- The payload of a chunk and of everything that is made of bytes. -/
abbrev Bytes := List UInt8

namespace Hex

/-- The two digits of a byte. -/
def encodeByte (b : UInt8) : List Char :=
  [Digit.lower (b.toNat / 16), Digit.lower (b.toNat % 16)]

/-- The digits of some bytes. -/
def encodeChars (bytes : Bytes) : List Char :=
  bytes.flatMap encodeByte

/-- Bytes as text. -/
def encode (bytes : Bytes) : String :=
  String.ofList (encodeChars bytes)

/-- The bytes written by a list of digits: refused when a digit is left over or is none. -/
def decodeChars? : List Char → Option Bytes
  | [] => some []
  | [_] => none
  | hi :: lo :: rest => do
    let h ← Digit.value? 16 hi
    let l ← Digit.value? 16 lo
    let bytes ← decodeChars? rest
    return UInt8.ofNat (h * 16 + l) :: bytes

/-- The bytes that a text writes. -/
def decode? (text : String) : Option Bytes :=
  decodeChars? text.toList

end Hex

end ChunkScope

/-! ## UTF-8

Bytes that are no text may still be read, with something else in the place of every piece that is
ill-formed. Such a piece has as many bytes as there are of a character that begins there, or else a
single one. -/

namespace ChunkScope.Utf8

/-- The bytes of a text. -/
def encode (text : String) : Bytes :=
  text.toUTF8.data.toList

/-- The text of some bytes, if they are well-formed. -/
def decode? (bytes : Bytes) : Option String :=
  String.fromUTF8? ⟨bytes.toArray⟩

/-- The number of bytes of some characters. -/
def size (text : List Char) : Nat :=
  text.foldr (fun c size => c.utf8Size + size) 0

/-- Decoding gives back the text that was encoded. -/
theorem decode_encode (text : String) : decode? (encode text) = some text := by
  unfold decode? encode String.fromUTF8?
  split
  · rfl
  · next h => exact absurd text.isValidUTF8 h

/-! ### Ill-formed bytes -/

/-- The character that stands first, if it is well-formed. -/
def first? (bytes : Bytes) : Option Char :=
  (bytes.take 4).toByteArray.utf8DecodeChar? 0

/-- Whether a byte goes on with a character of three or four bytes behind the first one. -/
def goesOn (first second : UInt8) : Bool :=
  if first = 0xE0 then 0xA0 ≤ second && second ≤ 0xBF
  else if first = 0xED then 0x80 ≤ second && second ≤ 0x9F
  else if first = 0xF0 then 0x90 ≤ second && second ≤ 0xBF
  else if first = 0xF4 then 0x80 ≤ second && second ≤ 0x8F
  else 0xE1 ≤ first && first ≤ 0xF3 && 0x80 ≤ second && second ≤ 0xBF

/-- How many bytes the ill-formed piece has that stands first. -/
def brokenSize : Bytes → Nat
  | first :: second :: rest =>
    if goesOn first second then
      match rest with
      | third :: _ => if 0xF0 ≤ first ∧ 0x80 ≤ third ∧ third ≤ 0xBF then 3 else 2
      | [] => 2
    else 1
  | _ => 1

/-- The characters of some bytes, behind those that have been read, the last one first; those in
`broken` are put in the place of an ill-formed piece. The bytes of what was read last are
skipped. -/
def decodeFrom (broken : List Char) : Nat → List Char → Bytes → List Char
  | _, seen, [] => seen.reverse
  | skip + 1, seen, _ :: rest => decodeFrom broken skip seen rest
  | 0, seen, b :: rest =>
    match first? (b :: rest) with
    | some c => decodeFrom broken (c.utf8Size - 1) (c :: seen) rest
    | none => decodeFrom broken (brokenSize (b :: rest) - 1) (broken.reverse ++ seen) rest

/-- The text of some bytes, with another one in the place of every ill-formed piece. -/
def decodeWith (broken : String) (bytes : Bytes) : String :=
  String.ofList (decodeFrom broken.toList 0 [] bytes)

/-- The text of some bytes as it is shown: each ill-formed piece is a replacement character. -/
def decodeLossy (bytes : Bytes) : String :=
  decodeWith "\uFFFD" bytes

end ChunkScope.Utf8

/-! ## Latin-1

Each byte is one character, the one whose code point it is. -/

namespace ChunkScope.Latin1

/-- The character of a byte. -/
def char (b : UInt8) : Char :=
  Char.ofNat b.toNat

/-- The text of some bytes. -/
def decode (bytes : Bytes) : String :=
  String.ofList (bytes.map char)

end ChunkScope.Latin1

/-! ## Percent encoding

A text whose UTF-8 bytes stand for themselves or are written as `%` and two digits. When decoded, a
`%` without two digits behind it stands for itself. -/

namespace ChunkScope.Percent

/-- A byte as `%` and two upper-case digits. -/
def escape (b : UInt8) : List Char :=
  ['%', Digit.upper (b.toNat / 16), Digit.upper (b.toNat % 16)]

/-- A byte that is a printable character of ASCII, or the space. -/
def isPrintable (b : UInt8) : Bool :=
  0x20 ≤ b.toNat && b.toNat < 0x7F

/-- A text with the bytes escaped that are not to be kept. -/
def encode (keep : UInt8 → Bool) (text : String) : List Char :=
  (Utf8.encode text).flatMap fun b => if keep b then [Char.ofNat b.toNat] else escape b

/-- The byte that two digits write, given as bytes. -/
def byte? (high low : UInt8) : Option UInt8 := do
  let high ← Digit.value? 16 (Char.ofNat high.toNat)
  let low ← Digit.value? 16 (Char.ofNat low.toNat)
  return UInt8.ofNat (high * 16 + low)

/-- Bytes with the escapes in them replaced by what they stand for. -/
def decodeBytes : Bytes → Bytes
  | 0x25 :: high :: low :: rest =>
    match byte? high low with
    | some b => b :: decodeBytes rest
    | none => 0x25 :: decodeBytes (high :: low :: rest)
  | b :: rest => b :: decodeBytes rest
  | [] => []

/-- The text that an encoded text stands for, if its bytes are well-formed. -/
def decode? (text : List Char) : Option String :=
  Utf8.decode? (decodeBytes (Utf8.encode (String.ofList text)))

end ChunkScope.Percent
