import ChunkScope.Proofs.Text.Numerals
import ChunkScope.Text.Encoding

/-!
# Encodings that can be undone

Bytes written as hexadecimal text, and a text written with percent escapes: reading gives back what
was written. Percent encoding can be undone whatever bytes it keeps as they are, as long as they are
ASCII and the percent sign is not among them. The bytes of texts are in the order of the texts, and
a text that is cut at separators can be put together again.
-/

namespace ChunkScope

/-! ## Hexadecimal text -/

namespace Hex

/-- The two digits of a byte are read back as the byte. -/
private theorem decodeChars?_encodeByte (b : UInt8) (cs : List Char) :
    decodeChars? (encodeByte b ++ cs) = (decodeChars? cs).map (b :: ·) := by
  have hb : b.toNat < 256 := b.toNat_lt
  rw [encodeByte, List.cons_append, List.cons_append, List.nil_append, decodeChars?,
    Digit.value?_lower (by omega) (by omega), Digit.value?_lower (by omega) (by omega)]
  have hdigits : b.toNat / 16 * 16 + b.toNat % 16 = b.toNat := by omega
  cases decodeChars? cs with
  | none => rfl
  | some bytes =>
    show some (UInt8.ofNat (b.toNat / 16 * 16 + b.toNat % 16) :: bytes) = _
    rw [hdigits, UInt8.ofNat_toNat]
    rfl

/-- Bytes that were written as hexadecimal text are read back. -/
theorem decode?_encode (bytes : Bytes) : decode? (encode bytes) = some bytes := by
  rw [decode?, encode, String.toList_ofList]
  induction bytes with
  | nil => rfl
  | cons b bytes ih =>
    rw [encodeChars, List.flatMap_cons, decodeChars?_encodeByte, ← encodeChars, ih]
    rfl

/-- Hexadecimal text is made of digits. -/
theorem mem_encodeChars {bytes : Bytes} {c : Char} (h : c ∈ encodeChars bytes) :
    ∃ d < 16, c = Digit.lower d := by
  obtain ⟨b, -, hc⟩ := List.mem_flatMap.mp h
  have hb : b.toNat < 256 := b.toNat_lt
  rcases List.mem_cons.mp hc with hc | hc
  · exact ⟨_, by omega, hc⟩
  · exact ⟨_, by omega, List.mem_singleton.mp hc⟩

/-- There are two digits for each byte. -/
theorem length_encodeChars (bytes : Bytes) : (encodeChars bytes).length = 2 * bytes.length := by
  induction bytes with
  | nil => rfl
  | cons b bytes ih =>
    rw [encodeChars, List.flatMap_cons, List.length_append, ← encodeChars, ih, List.length_cons]
    show 2 + _ = _
    omega

end Hex

/-! ## ASCII -/

namespace Utf8

/-- The byte of an ASCII character. -/
def byte (c : Char) : UInt8 :=
  UInt8.ofNat c.toNat

/-- The character of the byte of an ASCII character is the character. -/
theorem ofNat_byte {c : Char} (h : c.toNat < 128) : Char.ofNat (byte c).toNat = c := by
  rw [byte, UInt8.toNat_ofNat_of_lt' (by rw [UInt8.size]; omega)]
  exact Char.ofNat_toNat c

private theorem toNat_ofNat {n : Nat} (h : n < 128) : (Char.ofNat n).toNat = n := by
  revert n
  decide

/-- The byte of the character of an ASCII byte is the byte. -/
theorem byte_ofNat {b : UInt8} (h : b.toNat < 128) : byte (Char.ofNat b.toNat) = b := by
  rw [byte, toNat_ofNat h, UInt8.ofNat_toNat]

/-- A character of ASCII is one byte. -/
private theorem utf8EncodeChar_of_lt {c : Char} (h : c.toNat < 128) :
    String.utf8EncodeChar c = [byte c] := by
  have hle : c.val ≤ 127 := by
    rw [UInt32.le_iff_toNat_le]
    exact Nat.le_of_lt_succ h
  exact String.utf8EncodeChar_eq_singleton (Char.utf8Size_eq_one_iff.mpr hle)

/-- The bytes of a text are those of its characters one after the other. -/
theorem encode_eq_flatMap (text : String) :
    encode text = text.toList.flatMap String.utf8EncodeChar := by
  show text.toByteArray.data.toList = _
  rw [← String.ofList_toList (s := text), String.toByteArray_ofList, List.utf8Encode,
    List.toList_data_toByteArray, String.toList_ofList]

/-- A character is found where its bytes stand first. -/
theorem first?_append (c : Char) (rest : Bytes) :
    first? (String.utf8EncodeChar c ++ rest) = some c := by
  have hlength : (String.utf8EncodeChar c).length ≤ 4 := by
    rw [String.length_utf8EncodeChar]
    exact c.utf8Size_le_four
  rw [first?, List.take_append, List.take_of_length_le hlength, List.toByteArray_append]
  exact ByteArray.utf8DecodeChar?_utf8EncodeChar_append

/-- As many bytes are skipped as a character that was read still has. -/
private theorem decodeFrom_skip (broken seen : List Char) (front rest : Bytes) :
    decodeFrom broken front.length seen (front ++ rest) = decodeFrom broken 0 seen rest := by
  induction front with
  | nil => rfl
  | cons b front ih => exact ih

/-- The bytes of characters are decoded as these characters. -/
private theorem decodeFrom_encodeChars (broken seen cs : List Char) :
    decodeFrom broken 0 seen (cs.flatMap String.utf8EncodeChar) = seen.reverse ++ cs := by
  induction cs generalizing seen with
  | nil => rw [List.flatMap_nil, decodeFrom, List.append_nil]
  | cons c cs ih =>
    obtain ⟨b, bytes, hbytes⟩ := List.exists_cons_of_ne_nil (String.utf8EncodeChar_ne_nil (c := c))
    have hfirst := first?_append c (cs.flatMap String.utf8EncodeChar)
    have hskip : c.utf8Size - 1 = bytes.length := by
      rw [← String.length_utf8EncodeChar, hbytes, List.length_cons, Nat.add_sub_cancel]
    rw [List.flatMap_cons]
    rw [hbytes, List.cons_append] at hfirst ⊢
    rw [decodeFrom, hfirst]
    dsimp only
    rw [hskip, decodeFrom_skip, ih, List.reverse_cons, List.append_assoc, List.singleton_append]

/-- The bytes of a text have no ill-formed piece, so nothing comes in the place of one. -/
theorem decodeWith_encode (broken text : String) : decodeWith broken (encode text) = text := by
  rw [decodeWith, encode_eq_flatMap, decodeFrom_encodeChars]
  exact String.ofList_toList

/-- An ASCII text has one byte for each character. -/
theorem encode_ofList {cs : List Char} (h : ∀ c ∈ cs, c.toNat < 128) :
    encode (String.ofList cs) = cs.map byte := by
  rw [encode_eq_flatMap, String.toList_ofList]
  induction cs with
  | nil => rfl
  | cons c cs ih =>
    rw [List.flatMap_cons, utf8EncodeChar_of_lt (h c (by simp)),
      ih fun c hc => h c (List.mem_cons_of_mem _ hc)]
    rfl

end Utf8

/-! ## Percent escapes -/

namespace Percent

/-- Bytes that can be kept without being taken for an escape: ASCII, and not the percent sign. -/
def Keepable (keep : UInt8 → Bool) : Prop :=
  ∀ b, keep b → b.toNat < 128 ∧ b ≠ 0x25

/-- How one byte is written. -/
def encodeByte (keep : UInt8 → Bool) (b : UInt8) : List Char :=
  if keep b then [Char.ofNat b.toNat] else escape b

/-- A text is escaped byte by byte. -/
theorem encode_eq_flatMap (keep : UInt8 → Bool) (text : String) :
    encode keep text = (Utf8.encode text).flatMap (encodeByte keep) :=
  rfl

private theorem upper_toNat_lt {d : Nat} (h : d < 16) : (Digit.upper d).toNat < 128 := by
  revert d
  decide

/-- What encoding leaves: a byte that is kept, a percent sign or a digit. -/
theorem mem_encodeByte {keep : UInt8 → Bool} {b : UInt8} {c : Char} (h : c ∈ encodeByte keep b) :
    (keep b ∧ c = Char.ofNat b.toNat) ∨ c = '%' ∨ ∃ d < 16, c = Digit.upper d := by
  have hb : b.toNat < 256 := b.toNat_lt
  rw [encodeByte] at h
  split at h
  · next hkeep => exact .inl ⟨hkeep, List.mem_singleton.mp h⟩
  · rcases List.mem_cons.mp h with h | h
    · exact .inr (.inl h)
    · rcases List.mem_cons.mp h with h | h
      · exact .inr (.inr ⟨_, by omega, h⟩)
      · exact .inr (.inr ⟨_, by omega, List.mem_singleton.mp h⟩)

/-- A text that is escaped is ASCII. -/
private theorem toNat_lt_of_mem_encodeByte {keep : UInt8 → Bool} (hkeep : Keepable keep)
    {b : UInt8} {c : Char} (h : c ∈ encodeByte keep b) : c.toNat < 128 := by
  rcases mem_encodeByte h with ⟨hb, rfl⟩ | rfl | ⟨d, hd, rfl⟩
  · have hlt := (hkeep b hb).1
    revert hlt
    generalize b.toNat = n
    revert n
    decide
  · decide
  · exact upper_toNat_lt hd

/-- A byte that is no percent sign stands for itself. -/
private theorem decodeBytes_cons_of_ne {b : UInt8} (h : b ≠ 0x25) (rest : Bytes) :
    decodeBytes (b :: rest) = b :: decodeBytes rest := by
  rw [decodeBytes]
  intro high low tail heq
  exact absurd heq h

/-- The two digits of an escape are read back as the byte. -/
private theorem byte?_upper {high low : Nat} (hhigh : high < 16) (hlow : low < 16) :
    byte? (Utf8.byte (Digit.upper high)) (Utf8.byte (Digit.upper low)) =
      some (UInt8.ofNat (high * 16 + low)) := by
  rw [byte?, Utf8.ofNat_byte (upper_toNat_lt hhigh), Utf8.ofNat_byte (upper_toNat_lt hlow),
    Digit.value?_upper (by omega) hhigh, Digit.value?_upper (by omega) hlow]
  rfl

/-- Decoding takes one encoded byte from the front. -/
private theorem decodeBytes_encodeByte {keep : UInt8 → Bool} (hkeep : Keepable keep) (b : UInt8)
    (rest : Bytes) :
    decodeBytes ((encodeByte keep b).map Utf8.byte ++ rest) = b :: decodeBytes rest := by
  have hb : b.toNat < 256 := b.toNat_lt
  rw [encodeByte]
  split
  · next h =>
    obtain ⟨hascii, hne⟩ := hkeep b h
    rw [List.map_singleton, Utf8.byte_ofNat hascii, List.singleton_append]
    exact decodeBytes_cons_of_ne hne rest
  · have hdigits : b.toNat / 16 * 16 + b.toNat % 16 = b.toNat := by omega
    show decodeBytes (0x25 :: Utf8.byte (Digit.upper (b.toNat / 16)) ::
      Utf8.byte (Digit.upper (b.toNat % 16)) :: rest) = _
    rw [decodeBytes, byte?_upper (by omega) (by omega), hdigits, UInt8.ofNat_toNat]

/-- An encoded text is ASCII. -/
theorem toNat_lt_of_mem_encode {keep : UInt8 → Bool} (hkeep : Keepable keep) {text : String}
    {c : Char} (h : c ∈ encode keep text) : c.toNat < 128 := by
  obtain ⟨b, -, hc⟩ := List.mem_flatMap.mp h
  exact toNat_lt_of_mem_encodeByte hkeep hc

/-- No character is in an encoded text but those that are kept, the percent sign and digits. -/
theorem not_mem_encode {keep : UInt8 → Bool} {text : String} {c : Char}
    (hkept : ∀ b, keep b → c ≠ Char.ofNat b.toNat) (hpercent : c ≠ '%')
    (hdigit : ∀ d < 16, c ≠ Digit.upper d) : c ∉ encode keep text := by
  intro hmem
  obtain ⟨b, -, hb⟩ := List.mem_flatMap.mp hmem
  rcases mem_encodeByte hb with ⟨hb, h⟩ | h | ⟨d, hd, h⟩
  · exact hkept b hb h
  · exact hpercent h
  · exact hdigit d hd h

/-- A text that was written with escapes is read back. -/
theorem decode?_encode {keep : UInt8 → Bool} (hkeep : Keepable keep) (text : String) :
    decode? (encode keep text) = some text := by
  rw [decode?, Utf8.encode_ofList fun c => toNat_lt_of_mem_encode hkeep, encode_eq_flatMap]
  -- the text is its bytes, so the induction is on any bytes at all
  have hbytes : ∀ bytes : Bytes,
      decodeBytes ((bytes.flatMap (encodeByte keep)).map Utf8.byte) = bytes := by
    intro bytes
    induction bytes with
    | nil => rfl
    | cons b bytes ih =>
      rw [List.flatMap_cons, List.map_append, decodeBytes_encodeByte hkeep, ih]
  rw [hbytes, Utf8.decode_encode]

/-- A text all of whose bytes are kept is written as it is. -/
theorem encode_eq_self {keep : UInt8 → Bool} {cs : List Char}
    (h : ∀ c ∈ cs, c.toNat < 128 ∧ keep (Utf8.byte c)) :
    encode keep (String.ofList cs) = cs := by
  rw [encode_eq_flatMap, Utf8.encode_ofList fun c hc => (h c hc).1]
  induction cs with
  | nil => rfl
  | cons c cs ih =>
    obtain ⟨hascii, hkeep⟩ := h c (by simp)
    rw [List.map_cons, List.flatMap_cons, ih fun c hc => h c (List.mem_cons_of_mem _ hc),
      encodeByte, if_pos hkeep, Utf8.ofNat_byte hascii]
    rfl

/-- Bytes without a percent sign stand for themselves. -/
private theorem decodeBytes_eq_self {bytes : Bytes} (h : ∀ b ∈ bytes, b ≠ 0x25) :
    decodeBytes bytes = bytes := by
  induction bytes with
  | nil => rfl
  | cons b bytes ih =>
    rw [decodeBytes_cons_of_ne (h b (by simp)), ih fun b hb => h b (List.mem_cons_of_mem _ hb)]

/-- An ASCII text without a percent sign stands for itself. -/
theorem decode?_eq_self {text : String} (h : ∀ c ∈ text.toList, c.toNat < 128 ∧ c ≠ '%') :
    decode? text.toList = some text := by
  have hbytes := Utf8.encode_ofList fun c hc => (h c hc).1
  have hplain : ∀ b ∈ text.toList.map Utf8.byte, b ≠ 0x25 := by
    intro b hb hpercent
    obtain ⟨c, hc, rfl⟩ := List.mem_map.mp hb
    have hchar := Utf8.ofNat_byte (h c hc).1
    rw [hpercent] at hchar
    exact (h c hc).2 hchar.symm
  rw [decode?, hbytes, decodeBytes_eq_self hplain, ← hbytes, String.ofList_toList,
    Utf8.decode_encode]

end Percent

end ChunkScope

/-! ## The order of texts and the order of their bytes

Texts are compared by their characters, and the first two that differ decide. The bytes of the texts
compare alike: the first byte in which two characters differ is the smaller one in the smaller
character. -/

namespace ChunkScope.Utf8

/-- Bytes are compared one after the other. -/
private theorem ofNat_cons_lt {x y : Nat} (hx : x < 256) (hy : y < 256) {front back : Bytes}
    (h : x < y ∨ x = y ∧ front < back) : UInt8.ofNat x :: front < UInt8.ofNat y :: back := by
  rw [List.cons_lt_cons_iff, UInt8.ofNat_lt_iff_lt hx hy]
  exact h.imp_right fun ⟨heq, hlt⟩ => ⟨congrArg UInt8.ofNat heq, hlt⟩

/-- The last six bits of two numbers decide when the bits above them do not. -/
private theorem continuation_lt {n m : Nat} {front back : Bytes}
    (h : n < m ∨ n = m ∧ front < back) :
    n / 64 < m / 64 ∨ n / 64 = m / 64 ∧
      UInt8.ofNat (n % 64 + 128) :: front < UInt8.ofNat (m % 64 + 128) :: back := by
  by_cases hhigh : n / 64 < m / 64
  · exact .inl hhigh
  · refine .inr ⟨by omega, ofNat_cons_lt (by omega) (by omega) (h.imp ?_ ?_)⟩
    · omega
    · exact fun ⟨heq, hlt⟩ => ⟨by omega, hlt⟩

/-- The bytes of a smaller character come first, whatever stands behind. -/
theorem utf8EncodeChar_append_lt {c d : Char} (h : c < d) (front back : Bytes) :
    String.utf8EncodeChar c ++ front < String.utf8EncodeChar d ++ back := by
  have hlt : c.val.toNat < d.val.toNat := h
  have hvalid : d.val.toNat < 0x110000 := by
    have hd := d.valid
    rw [UInt32.isValidChar, Nat.isValidChar] at hd
    omega
  rw [String.utf8EncodeChar, String.utf8EncodeChar]
  generalize c.val.toNat = n at hlt ⊢
  generalize d.val.toNat = m at hlt hvalid ⊢
  -- a character of more bytes than another has the larger first byte, and otherwise the bits decide
  have htwo : n / 64 < m / 64 ∨ n / 64 = m / 64 ∧
      UInt8.ofNat (n % 64 + 128) :: front < UInt8.ofNat (m % 64 + 128) :: back :=
    continuation_lt (.inl hlt)
  have hthree := continuation_lt htwo
  have hfour := continuation_lt hthree
  simp only [Nat.div_div_eq_div_mul, Nat.reduceMul] at hthree hfour
  repeat' split
  all_goals try exact ofNat_cons_lt (by omega) (by omega) (.inl (by omega))
  · exact ofNat_cons_lt (by omega) (by omega)
      (htwo.imp (by omega) fun ⟨heq, hback⟩ => ⟨by omega, hback⟩)
  · exact ofNat_cons_lt (by omega) (by omega)
      (hthree.imp (by omega) fun ⟨heq, hback⟩ => ⟨by omega, hback⟩)
  · exact ofNat_cons_lt (by omega) (by omega)
      (hfour.imp (by omega) fun ⟨heq, hback⟩ => ⟨by omega, hback⟩)

/-- A text that comes before another one does so by its bytes. -/
theorem encode_lt_encode {text other : String} (h : text < other) :
    encode text < encode other := by
  have hchars {cs ds : List Char} (h : cs < ds) :
      cs.flatMap String.utf8EncodeChar < ds.flatMap String.utf8EncodeChar := by
    induction cs generalizing ds with
    | nil =>
      cases ds with
      | nil => exact absurd h (List.not_lt_nil _)
      | cons d ds =>
        have hne : String.utf8EncodeChar d ≠ [] := String.utf8EncodeChar_ne_nil
        obtain ⟨b, bytes, hbytes⟩ := List.exists_cons_of_ne_nil hne
        rw [List.flatMap_cons, hbytes]
        exact List.nil_lt_cons _ _
    | cons c cs ih =>
      cases ds with
      | nil => exact absurd h (List.not_lt_nil _)
      | cons d ds =>
        rcases List.cons_lt_cons_iff.mp h with hlt | ⟨rfl, hlt⟩
        · exact utf8EncodeChar_append_lt hlt _ _
        · exact List.append_left_lt (ih hlt)
  rw [encode_eq_flatMap, encode_eq_flatMap]
  exact hchars (String.lt_iff.mp h)

end ChunkScope.Utf8

/-! ## Pieces between separators

A text that is cut at separators comes apart into pieces without any, and putting separators between
such pieces is undone by cutting. -/

namespace ChunkScope.Pieces

/-- A piece holds characters of the text that are no separators. -/
theorem mem_and_not_of_mem_splitOnP {α : Type} {p : α → Bool} {text piece : List α}
    (h : piece ∈ text.splitOnP p) {c : α} (hc : c ∈ piece) : c ∈ text ∧ p c = false := by
  induction text generalizing piece with
  | nil =>
    rw [List.splitOnP_nil, List.mem_singleton] at h
    rw [h] at hc
    cases hc
  | cons x text ih =>
    rw [List.splitOnP_cons_eq_if_modifyHead] at h
    split at h
    · rcases List.mem_cons.mp h with rfl | h
      · cases hc
      · exact (ih h hc).imp_left (List.mem_cons_of_mem x)
    · next hx =>
      -- a character that is no separator goes to the front of the first piece
      obtain ⟨first, others, hpieces⟩ := List.exists_cons_of_ne_nil (List.splitOnP_ne_nil p text)
      rw [hpieces] at h ih
      rcases List.mem_cons.mp h with rfl | h
      · rcases List.mem_cons.mp hc with rfl | hc
        · exact ⟨List.mem_cons_self, by simpa using hx⟩
        · exact (ih List.mem_cons_self hc).imp_left (List.mem_cons_of_mem x)
      · exact (ih (List.mem_cons_of_mem _ h) hc).imp_left (List.mem_cons_of_mem x)

/-- Pieces with a slash between each two, the first of which is empty, are the others with a slash
before each. -/
theorem intercalate_slash (pieces : List (List Char)) :
    ['/'].intercalate ([] :: pieces) = pieces.flatMap fun piece => '/' :: piece := by
  induction pieces with
  | nil => rfl
  | cons piece pieces ih =>
    rw [List.intercalate_cons_cons, List.flatMap_cons, ← ih]
    cases pieces with
    | nil => simp
    | cons other pieces => simp

/-- Pieces with a slash before each come apart again, behind an empty one. -/
theorem splitOn_flatMap_slash {pieces : List (List Char)} (h : ∀ piece ∈ pieces, '/' ∉ piece) :
    (pieces.flatMap fun piece => '/' :: piece).splitOn '/' = [] :: pieces := by
  rw [← intercalate_slash, List.splitOn_intercalate]
  · intro piece hpiece
    rcases List.mem_cons.mp hpiece with rfl | hpiece
    · simp
    · exact h piece hpiece
  · simp

/-- A text that comes apart behind an empty piece has a slash before each other one, and none in
them. -/
theorem eq_flatMap_slash_of_splitOn {text : List Char} {pieces : List (List Char)}
    (h : text.splitOn '/' = [] :: pieces) :
    text = (pieces.flatMap fun piece => '/' :: piece) ∧ ∀ piece ∈ pieces, '/' ∉ piece := by
  constructor
  · rw [← intercalate_slash, ← h, List.intercalate_splitOn]
  · intro piece hpiece hslash
    have hmem : piece ∈ text.splitOn '/' := by
      rw [h]
      exact List.mem_cons_of_mem _ hpiece
    exact absurd (mem_and_not_of_mem_splitOnP hmem hslash).2 (by simp)

end ChunkScope.Pieces
