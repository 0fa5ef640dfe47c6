import ChunkScope.Chunk
import ChunkScope.Proofs.Chunk.Cursors

/-!
# What a dump shows

A dump of a window shows the bytes of the window and nothing else: each token can be read as a
number, and the number is written as the bytes that the token stands for. Bytes behind the last
whole element are left out; a text shows every byte as the character whose code point it is. The
window itself is what a request and the chunk have in common.
-/

/-! ## Windows of chunks

A window that lies inside some data has all of its bytes there, and what lies outside of it does not
count.

A request is cut to the chunk that it is made of: what it gets is what the two have in common,
reckoned without a bound on numbers. There is one exception. The place behind a request is compared
with the size as a word that stops at the largest one, so of a chunk of the largest size nothing is
cut off; a request that goes beyond that size is left as it is, and its end is no word any more. -/

namespace ChunkScope.Window

/-! ### Windows inside some data -/

/-- A window that lies inside so many bytes. -/
def IsWithin (window : Window) (size : Nat) : Prop :=
  window.offset.toNat + window.length.toNat ≤ size

section Slices

variable {α : Type} {window : Window} {data : List α}

/-- A window inside some data has the elements between its two ends. -/
theorem slice_of_isWithin (h : window.IsWithin data.length) :
    window.slice data = (data.drop window.offset.toNat).take window.length.toNat :=
  if_pos h

/-- A window inside some data has as many elements as it is long. -/
theorem length_slice (h : window.IsWithin data.length) :
    (window.slice data).length = window.length.toNat := by
  rw [slice_of_isWithin h, List.length_take, List.length_drop]
  rw [IsWithin] at h
  omega

/-- A part of a window is the part of the data at the same place. -/
theorem take_drop_slice (h : window.IsWithin data.length) {start count : Nat}
    (hcount : start + count ≤ window.length.toNat) :
    ((window.slice data).drop start).take count =
      (data.drop (window.offset.toNat + start)).take count := by
  rw [slice_of_isWithin h, List.drop_take, List.take_take, List.drop_drop]
  congr 1
  omega

/-- The elements of a window are those of the data from its offset on. -/
theorem getElem?_slice (h : window.IsWithin data.length) {i : Nat} (hi : i < window.length.toNat) :
    (window.slice data)[i]? = data[window.offset.toNat + i]? := by
  rw [slice_of_isWithin h, List.getElem?_take_of_lt hi, List.getElem?_drop]

/-- What lies outside of a window does not count. -/
theorem slice_congr {other : List α} (h : window.IsWithin data.length)
    (hagree : ∀ i, window.offset.toNat ≤ i → i < window.offset.toNat + window.length.toNat →
      other[i]? = data[i]?) : window.slice other = window.slice data := by
  rcases Nat.eq_zero_or_pos window.length.toNat with hzero | hpos
  · have hnone (data : List α) : window.slice data = [] := by
      rw [slice, hzero, List.take_zero, ite_self]
    rw [hnone, hnone]
  · -- the last byte of the window is there, so the other data reach as far
    have hother : window.IsWithin other.length := by
      have hlast := hagree (window.offset.toNat + window.length.toNat - 1) (by omega) (by omega)
      rw [IsWithin] at h ⊢
      refine Nat.le_of_not_lt fun hshort => ?_
      rw [List.getElem?_eq_none (by omega), eq_comm, List.getElem?_eq_none_iff] at hlast
      omega
    refine List.ext_getElem? fun i => ?_
    by_cases hi : i < window.length.toNat
    · rw [getElem?_slice hother hi, getElem?_slice h hi]
      exact hagree _ (by omega) (by omega)
    · rw [List.getElem?_eq_none (by rw [length_slice hother]; omega),
        List.getElem?_eq_none (by rw [length_slice h]; omega)]

end Slices

/-! ### What a request asks for -/

/-- Where a request starts. -/
def wantedStart (offset : Option UInt64) : Nat :=
  (offset.map UInt64.toNat).getD 0

/-- How much a request asks for of a chunk. -/
def wantedLength (size : UInt64) (length : Option UInt64) : Nat :=
  (length.map UInt64.toNat).getD size.toNat

/-- The window is what a request and a chunk have in common. -/
structure IsCut (size : UInt64) (offset length : Option UInt64) (window : Window) : Prop where
  start : window.offset.toNat = min (wantedStart offset) size.toNat
  stop : window.offset.toNat + window.length.toNat =
    min (wantedStart offset + wantedLength size length) size.toNat

/-- A request that goes beyond the largest word, of a chunk whose size is that word. -/
def Overruns (size : UInt64) (offset length : Option UInt64) : Prop :=
  size.toNat + 1 = UInt64.size ∧ UInt64.size ≤ wantedStart offset + wantedLength size length

variable {size : UInt64} {offset length : Option UInt64}

/-- The start of a request is a word. -/
theorem wantedStart_lt : wantedStart offset < UInt64.size := by
  cases offset with
  | none => decide
  | some offset => exact offset.toNat_lt

/-- The length of a request is a word. -/
theorem wantedLength_lt : wantedLength size length < UInt64.size := by
  cases length with
  | none => exact size.toNat_lt
  | some length => exact length.toNat_lt

private theorem toNat_start : (offset.getD 0).toNat = wantedStart offset := by
  cases offset <;> rfl

private theorem toNat_length : (length.getD size).toNat = wantedLength size length := by
  cases length <;> rfl

/-! ### What it gets -/

/-- A sum that would leave the words is the largest one. -/
theorem saturatingAdd_toNat (a b : UInt64) :
    (saturatingAdd a b).toNat = min (a.toNat + b.toNat) (UInt64.size - 1) := by
  have ha : a.toNat < UInt64.size := a.toNat_lt
  have hb : b.toNat < UInt64.size := b.toNat_lt
  have hsum : (a + b).toNat = (a.toNat + b.toNat) % UInt64.size := UInt64.toNat_add a b
  rw [UInt64.size] at *
  rw [saturatingAdd]
  split
  · next h =>
    rw [UInt64.lt_iff_toNat_lt, hsum] at h
    show 0xFFFFFFFFFFFFFFFF = _
    omega
  · next h =>
    rw [UInt64.lt_iff_toNat_lt, hsum] at h
    rw [hsum]
    omega

private theorem toNat_min (a b : UInt64) : (min a b).toNat = min a.toNat b.toNat := by
  show (if a ≤ b then a else b).toNat = _
  split
  · next h =>
    rw [UInt64.le_iff_toNat_le] at h
    omega
  · next h =>
    rw [UInt64.le_iff_toNat_le] at h
    omega

/-- Windows are the same when their numbers are. -/
private theorem ext_toNat {window other : Window}
    (hoffset : window.offset.toNat = other.offset.toNat)
    (hlength : window.length.toNat = other.length.toNat) : window = other := by
  obtain ⟨offset, length⟩ := window
  obtain ⟨offset', length'⟩ := other
  rw [UInt64.toNat_inj] at hoffset hlength
  rw [Window.mk.injEq]
  exact ⟨hoffset, hlength⟩

/-- Of a request the start, the length and their sum are cut to the size, one after the other. -/
private theorem clamp_eq :
    clamp size offset length =
      if size < saturatingAdd (min (offset.getD 0) size) (min (length.getD size) size) then
        ⟨min (offset.getD 0) size, size - min (offset.getD 0) size⟩
      else ⟨min (offset.getD 0) size, min (length.getD size) size⟩ := by
  cases length with
  | none =>
    rw [Option.getD_none, show min size size = size from ite_self size]
    rfl
  | some length => rfl

/-- A request begins where it wants to, or at the end of the chunk. -/
theorem clamp_offset_toNat :
    (clamp size offset length).offset.toNat = min (wantedStart offset) size.toNat := by
  have h : (clamp size offset length).offset = min (offset.getD 0) size := by
    rw [clamp_eq]
    split <;> rfl
  rw [h, toNat_min, toNat_start]

/-- The sum is compared as a word, so nothing is cut off when no word is greater than the size. -/
private theorem clamp_length_toNat :
    (clamp size offset length).length.toNat =
      if size.toNat < min (min (wantedStart offset) size.toNat +
          min (wantedLength size length) size.toNat) (UInt64.size - 1) then
        size.toNat - min (wantedStart offset) size.toNat
      else min (wantedLength size length) size.toNat := by
  have hstart : (min (offset.getD 0) size).toNat = min (wantedStart offset) size.toNat := by
    rw [toNat_min, toNat_start]
  have hlength : (min (length.getD size) size).toNat =
      min (wantedLength size length) size.toNat := by
    rw [toNat_min, toNat_length]
  have hle : min (offset.getD 0) size ≤ size := by
    rw [UInt64.le_iff_toNat_le, hstart]
    omega
  rw [clamp_eq]
  simp only [UInt64.lt_iff_toNat_lt, saturatingAdd_toNat, hstart, hlength]
  split
  · rw [UInt64.toNat_sub_of_le _ _ hle, hstart]
  · exact hlength

/-- A request is cut to the chunk, unless it overruns it. -/
theorem isCut_clamp (h : ¬ Overruns size offset length) :
    IsCut size offset length (clamp size offset length) := by
  have hsize : size.toNat < UInt64.size := size.toNat_lt
  refine ⟨clamp_offset_toNat, ?_⟩
  rw [clamp_offset_toNat, clamp_length_toNat]
  rw [Overruns] at h
  split <;> omega

/-- A request that overruns the chunk is left as it is. -/
theorem clamp_of_overruns (h : Overruns size offset length) :
    (clamp size offset length).offset.toNat = wantedStart offset ∧
      (clamp size offset length).length.toNat = wantedLength size length := by
  have hstart : wantedStart offset < UInt64.size := wantedStart_lt
  have hlength : wantedLength size length < UInt64.size := wantedLength_lt
  obtain ⟨hsize, -⟩ := h
  rw [clamp_offset_toNat, clamp_length_toNat]
  refine ⟨by omega, ?_⟩
  rw [if_neg (by omega)]
  omega

variable (size offset length) in
/-- A request that overruns the chunk gets a window whose end is no word; any other one gets a
window inside the chunk. -/
private theorem stop_clamp :
    (Overruns size offset length ∧ UInt64.size ≤
      (clamp size offset length).offset.toNat + (clamp size offset length).length.toNat) ∨
    (¬ Overruns size offset length ∧
      (clamp size offset length).offset.toNat + (clamp size offset length).length.toNat ≤
        size.toNat) := by
  by_cases h : Overruns size offset length
  · obtain ⟨hstart, hlength⟩ := clamp_of_overruns h
    refine .inl ⟨h, ?_⟩
    rw [hstart, hlength]
    exact h.2
  · have hstop := (isCut_clamp h).stop
    exact .inr ⟨h, by omega⟩

/-- A request that lies inside the chunk gets what it asks for. -/
theorem clamp_eq_self (h : wantedStart offset + wantedLength size length ≤ size.toNat) :
    clamp size offset length = ⟨offset.getD 0, length.getD size⟩ := by
  have hsize : size.toNat < UInt64.size := size.toNat_lt
  have hover : ¬ Overruns size offset length := by
    rw [Overruns]
    omega
  obtain ⟨hstart, hstop⟩ := isCut_clamp hover
  apply ext_toNat
  · rw [toNat_start]
    omega
  · rw [toNat_length]
    omega

/-- Asking for what one got gives the same. -/
theorem clamp_clamp : clamp size (some (clamp size offset length).offset)
    (some (clamp size offset length).length) = clamp size offset length := by
  have hagain : wantedStart (some (clamp size offset length).offset) +
      wantedLength size (some (clamp size offset length).length) =
        (clamp size offset length).offset.toNat + (clamp size offset length).length.toNat := rfl
  by_cases h : Overruns size offset length
  · obtain ⟨hstart, hlength⟩ := clamp_of_overruns h
    have hover : Overruns size (some (clamp size offset length).offset)
        (some (clamp size offset length).length) := by
      refine ⟨h.1, ?_⟩
      rw [hagain, hstart, hlength]
      exact h.2
    obtain ⟨hstart', hlength'⟩ := clamp_of_overruns hover
    exact ext_toNat hstart' hlength'
  · have hstop := (isCut_clamp h).stop
    refine clamp_eq_self ?_
    rw [hagain]
    omega

/-- Asking for more does not give less. -/
theorem clamp_mono {longer : Option UInt64}
    (h : wantedLength size length ≤ wantedLength size longer) :
    (clamp size offset length).offset = (clamp size offset longer).offset ∧
      (clamp size offset length).length ≤ (clamp size offset longer).length := by
  constructor
  · rw [← UInt64.toNat_inj, clamp_offset_toNat, clamp_offset_toNat]
  · rw [UInt64.le_iff_toNat_le, clamp_length_toNat, clamp_length_toNat]
    split <;> split <;> omega

/-- The window of a chunk holds the bytes of the chunk that the request asks for. -/
theorem slice_clamp (h : ¬ Overruns size offset length) {α : Type} {data : List α}
    (hdata : data.length = size.toNat) :
    (clamp size offset length).slice data =
      (data.take (wantedStart offset + wantedLength size length)).drop (wantedStart offset) := by
  obtain ⟨hstart, hstop⟩ := isCut_clamp h
  have hwithin : (clamp size offset length).IsWithin data.length := by
    rw [IsWithin]
    omega
  rw [slice_of_isWithin hwithin, List.drop_take, hstart]
  rcases Nat.le_total (wantedStart offset) size.toNat with hle | hge
  · rw [Nat.min_eq_left hle, List.take_eq_take_iff, List.length_drop]
    omega
  · rw [List.drop_of_length_le (by omega), List.drop_of_length_le (by omega), List.take_nil,
      List.take_nil]

/-- What a request gets of a chunk. It is what the two have in common, it lies inside the chunk, and
the place behind it is a word, each of them exactly when the request does not overrun the chunk;
then data of that size have all of it. A request inside the chunk gets what it asks for, asking for
what one got gives the same, and asking for more does not give less. -/
structure Clamped (size : UInt64) (offset length : Option UInt64) : Prop where
  isCut_iff : IsCut size offset length (clamp size offset length) ↔ ¬ Overruns size offset length
  isWithin_iff : (clamp size offset length).IsWithin size.toNat ↔ ¬ Overruns size offset length
  stop_iff : (clamp size offset length).stop.toNat =
      (clamp size offset length).offset.toNat + (clamp size offset length).length.toNat ↔
    ¬ Overruns size offset length
  readable : ¬ Overruns size offset length → ∀ {α : Type} (data : List α),
    data.length = size.toNat → (clamp size offset length).slice data =
      (data.take (wantedStart offset + wantedLength size length)).drop (wantedStart offset)
  kept : wantedStart offset + wantedLength size length ≤ size.toNat →
    clamp size offset length = ⟨offset.getD 0, length.getD size⟩
  idempotent : clamp size (some (clamp size offset length).offset)
    (some (clamp size offset length).length) = clamp size offset length
  monotone : ∀ longer, wantedLength size length ≤ wantedLength size longer →
    (clamp size offset length).offset = (clamp size offset longer).offset ∧
      (clamp size offset length).length ≤ (clamp size offset longer).length

/-- Every request gets what it has in common with the chunk, but for those that overrun a chunk of
the largest size. -/
theorem clamped (size : UInt64) (offset length : Option UInt64) : Clamped size offset length := by
  have hsize : size.toNat < UInt64.size := size.toNat_lt
  have hsum : (clamp size offset length).stop.toNat = ((clamp size offset length).offset.toNat +
      (clamp size offset length).length.toNat) % UInt64.size := UInt64.toNat_add ..
  refine ⟨⟨fun hcut => ?_, isCut_clamp⟩, ?_, ?_, fun h _ _ => slice_clamp h, clamp_eq_self,
    clamp_clamp, fun _ => clamp_mono⟩
  · have hstop := hcut.stop
    rcases stop_clamp size offset length with ⟨-, hge⟩ | ⟨h, -⟩
    · omega
    · exact h
  · rw [IsWithin]
    rcases stop_clamp size offset length with ⟨h, hge⟩ | ⟨h, hle⟩
    · exact iff_of_false (by omega) (not_not_intro h)
    · exact iff_of_true hle h
  · rw [hsum]
    rcases stop_clamp size offset length with ⟨h, hge⟩ | ⟨h, hle⟩
    · have hlt := Nat.mod_lt ((clamp size offset length).offset.toNat +
        (clamp size offset length).length.toNat) (by decide : 0 < UInt64.size)
      exact iff_of_false (by omega) (not_not_intro h)
    · exact iff_of_true (Nat.mod_eq_of_lt (by omega)) h

/-- A request for as many bytes as a chunk of the largest size has, but from its second byte on, is
not cut, and the place behind it is the first word again. -/
theorem clamp_overrun :
    let window := clamp 0xFFFFFFFFFFFFFFFF (some 1) (some 0xFFFFFFFFFFFFFFFF)
    window = ⟨1, 0xFFFFFFFFFFFFFFFF⟩ ∧
      ¬ IsCut 0xFFFFFFFFFFFFFFFF (some 1) (some 0xFFFFFFFFFFFFFFFF) window ∧
        ¬ window.IsWithin 0xFFFFFFFFFFFFFFFF ∧ window.stop = 0 := by
  intro window
  have hwindow : window = ⟨1, 0xFFFFFFFFFFFFFFFF⟩ := by decide
  refine ⟨hwindow, fun hcut => ?_, ?_, ?_⟩
  · exact absurd (hwindow ▸ hcut.stop) (by decide)
  · rw [hwindow, IsWithin]
    decide
  · rw [hwindow]
    decide

end ChunkScope.Window

/-! ## What a dump shows of a window -/

namespace ChunkScope.Dump

/-! ### Tokens -/

/-- A token that shows some bytes in hexadecimal: two digits for each byte, which read as the number
without a sign that the bytes write. -/
structure ShowsHex (width : Width) (bytes : Bytes) (token : String) : Prop where
  length : token.length = 2 * width.bytes
  digits : ∀ c ∈ token.toList, Digit.isLowerHex c
  read : ∃ n : Nat, Numeral.natural? 16 token.toList = some n ∧ width.bytesOf n = bytes

/-- A token that shows some bytes in decimal: the one text of an integer of the width, which the
bytes write in two's complement. -/
structure ShowsDecimal (width : Width) (bytes : Bytes) (token : String) : Prop where
  canonical : Numeral.IsCanonical token.toList
  read : ∃ n : Int, (Numeral.int64? token).map Int64.toInt = some n ∧
    -2 ^ (8 * width.bytes - 1) ≤ n ∧ n < 2 ^ (8 * width.bytes - 1) ∧ width.bytesOf n = bytes

/-- A token that shows some bytes in a radix. -/
def Shows (width : Width) : Radix → Bytes → String → Prop
  | .hex => ShowsHex width
  | .decimal => ShowsDecimal width

variable {width : Width} {bytes : Bytes}

/-- The hexadecimal text of an element shows the bytes that it was read from. -/
private theorem showsHex_render (h : bytes.length = width.bytes) :
    ShowsHex width bytes ((Element.ofBytes width bytes).render .hex) := by
  have htoken : (Element.ofBytes width bytes).render .hex =
      Numeral.fixedHex (2 * width.bytes) (Element.bigEndian bytes) := by
    rw [Element.render, Element.toNat_bits_ofBytes h]
    rfl
  have hpos := width.bytes_pos
  have hcard : Nat.pow 16 (2 * width.bytes) = width.card := by
    cases width <;> rfl
  rw [htoken]
  constructor
  · rw [← String.length_toList, Numeral.fixedHex, String.toList_ofList, List.length_map,
      Numeral.length_fixedDigits]
  · intro c hc
    rw [Numeral.fixedHex, String.toList_ofList] at hc
    obtain ⟨d, hd, rfl⟩ := List.mem_map.mp hc
    exact Digit.isLowerHex_lower (Numeral.lt_of_mem_fixedDigits (by omega) hd)
  · refine ⟨Element.bigEndian bytes, Numeral.natural?_fixedHex (by omega) ?_,
      Element.bytesOf_bigEndian h⟩
    rw [hcard]
    exact Element.bigEndian_lt_card h

/-- The decimal text of an element shows the bytes that it was read from, by its value. -/
private theorem showsDecimal_render (h : bytes.length = width.bytes) :
    ShowsDecimal width bytes ((Element.ofBytes width bytes).render .decimal) := by
  have hbounds := (Element.ofBytes width bytes).value_bounds
  have hrange := (Element.ofBytes width bytes).value_range
  refine ⟨Numeral.isCanonical_signedDecimal _, _, ?_, hrange.1, hrange.2, ?_⟩
  · rw [Element.render, Numeral.int64?_signedDecimal hbounds.1 hbounds.2, Option.map_some,
      Int64.toInt_ofInt_of_le (by simpa using hbounds.1) (by simpa using hbounds.2)]
  · rw [Element.value_ofBytes h, Element.bytesOf_signed h]

/-- The text of an element shows the bytes that write it. -/
theorem shows_render (h : bytes.length = width.bytes) (radix : Radix) :
    Shows width radix bytes ((Element.ofBytes width bytes).render radix) := by
  cases radix with
  | hex => exact showsHex_render h
  | decimal => exact showsDecimal_render h

/-- Some bytes are shown by one token for each whole element in them. -/
theorem tokens_eq (width : Width) (radix : Radix) (bytes : Bytes) :
    tokens width radix bytes = (List.range (bytes.length / width.bytes)).map fun i =>
      (Element.ofBytes width ((bytes.drop (i * width.bytes)).take width.bytes)).render radix := by
  rw [tokens, Cursor.elements_eq, List.map_map]
  rfl

/-! ### Dumps -/

/-- A dump of a window that lies inside some bytes is faithful to them. As numbers the window is one
token for each whole element in it, with a space between two of them, and each token shows the bytes
of its element. As a text it has one character for each byte, whatever the radix, and the code point
of the character is the byte. Bytes outside of the window do not count. -/
structure Faithful (data : Bytes) (window : Window) : Prop where
  numbers : ∀ width radix, ∃ tokens : List String,
    render data window (.number width) radix = " ".intercalate tokens ∧
      tokens.length = window.length.toNat / width.bytes ∧
        ∀ i token, tokens[i]? = some token → Shows width radix
          ((data.drop (window.offset.toNat + i * width.bytes)).take width.bytes) token
  text_length : ∀ radix, (render data window .text radix).length = window.length.toNat
  text : ∀ radix, ∀ i < window.length.toNat,
    (render data window .text radix).toList[i]?.map Char.toNat =
      data[window.offset.toNat + i]?.map UInt8.toNat
  confined : ∀ other : Bytes, (∀ i, window.offset.toNat ≤ i →
      i < window.offset.toNat + window.length.toNat → other[i]? = data[i]?) →
    ∀ kind radix, render other window kind radix = render data window kind radix

private theorem toNat_char (b : UInt8) : (Latin1.char b).toNat = b.toNat := by
  have hb : b.toNat < 256 := b.toNat_lt
  have hvalid : b.toNat.isValidChar := .inl (by omega)
  rw [Latin1.char, Char.ofNat, dif_pos hvalid]
  rfl

/-- Each token of a window shows the bytes of its element. -/
theorem shows_of_getElem?_tokens {data : Bytes} {window : Window} (h : window.IsWithin data.length)
    {radix : Radix} {i : Nat} {token : String}
    (htoken : (tokens width radix (window.slice data))[i]? = some token) :
    Shows width radix ((data.drop (window.offset.toNat + i * width.bytes)).take width.bytes)
      token := by
  rw [tokens_eq, List.getElem?_map, Option.map_eq_some_iff] at htoken
  obtain ⟨j, hj, rfl⟩ := htoken
  obtain ⟨hlt, hj⟩ := List.getElem?_eq_some_iff.mp hj
  rw [List.length_range] at hlt
  rw [List.getElem_range] at hj
  subst hj
  -- the element ends where the next one would begin, so it lies inside the window
  have hend : i * width.bytes + width.bytes ≤ (window.slice data).length := by
    rw [← Nat.succ_mul]
    exact Nat.mul_le_of_le_div _ _ _ hlt
  have hinside : i * width.bytes + width.bytes ≤ window.length.toNat := by
    rwa [Window.length_slice h] at hend
  rw [← Window.take_drop_slice h hinside]
  refine shows_render ?_ radix
  rw [List.length_take, List.length_drop]
  omega

/-- The dump of every window that lies inside some bytes is faithful to them. -/
theorem faithful_of_isWithin {data : Bytes} {window : Window} (h : window.IsWithin data.length) :
    Faithful data window := by
  have htext (radix : Radix) : (render data window .text radix).toList =
      (window.slice data).map Latin1.char := String.toList_ofList
  constructor
  · intro width radix
    refine ⟨tokens width radix (window.slice data), rfl, ?_,
      fun _ _ => shows_of_getElem?_tokens h⟩
    rw [tokens_eq, List.length_map, List.length_range, Window.length_slice h]
  · intro radix
    rw [← String.length_toList, htext, List.length_map, Window.length_slice h]
  · intro radix i hi
    rw [htext, List.getElem?_map, Option.map_map, Window.getElem?_slice h hi]
    exact congrArg (Option.map · _) (funext toNat_char)
  · intro other hagree kind radix
    rw [render, render, Window.slice_congr h hagree]

/-- The dump of three bytes in the middle of five is faithful to them. -/
theorem faithful_middle :
    (⟨1, 3⟩ : Window).IsWithin [0xFF, 0xFE, 0x00, 0x02, 0x05].length ∧
      Faithful [0xFF, 0xFE, 0x00, 0x02, 0x05] ⟨1, 3⟩ := by
  have h : (⟨1, 3⟩ : Window).IsWithin [0xFF, 0xFE, 0x00, 0x02, 0x05].length := by
    rw [Window.IsWithin]
    decide
  exact ⟨h, faithful_of_isWithin h⟩

end ChunkScope.Dump
