import Mathlib.Algebra.GroupWithZero.Nat
import Mathlib.Data.List.Forall2
import ChunkScope.Inspect
import ChunkScope.Proofs.Chunk.Dumping

/-!
# Pages of a chunk

A chunk can be read page by page: each page is a read of its own, which starts where the one before
it ends, and the last page takes what is left. Put together, the texts of the pages are the text of
the whole chunk, as long as no page but the last ends inside an element. Numbers are put together
with a space between two pages, where both have any; texts are put together as they are.

What the pages cut out of a chunk are consecutive pieces of its bytes, so all that is needed is that
a dump goes along with `++`.
-/

namespace ChunkScope

/-! ## Tokens of pieces -/

/-- Every number has a text. -/
theorem Element.render_ne_empty (element : Element) (radix : Radix) :
    element.render radix ≠ "" := by
  intro hempty
  have hnil : (element.render radix).toList = [] := by
    rw [hempty]
    rfl
  cases radix with
  | hex =>
    have hpos := element.width.bytes_pos
    rw [render, Numeral.fixedHex, String.toList_ofList, List.map_eq_nil_iff,
      ← List.length_eq_zero_iff, Numeral.length_fixedDigits] at hnil
    omega
  | decimal =>
    have hcanonical := Numeral.isCanonical_signedDecimal element.value
    rw [render] at hnil
    rw [hnil] at hcanonical
    rcases hcanonical with h | ⟨c, digits, h | h, -⟩
    all_goals cases h

/-- The text of two pieces is that of the first and then that of the second. -/
theorem Latin1.decode_append (front back : Bytes) :
    decode (front ++ back) = decode front ++ decode back := by
  rw [decode, List.map_append, String.ofList_append]
  rfl

namespace Dump

variable {width : Width} {radix : Radix}

/-- Whole elements have tokens of their own. -/
theorem tokens_append {front : Bytes} (h : width.bytes ∣ front.length) (back : Bytes) :
    tokens width radix (front ++ back) = tokens width radix front ++ tokens width radix back := by
  have hpos := width.bytes_pos
  obtain ⟨n, hn⟩ := h
  have hcount : (front ++ back).length / width.bytes = n + back.length / width.bytes := by
    rw [List.length_append, hn, Nat.mul_add_div hpos]
  have hfront : front.length / width.bytes = n := by
    rw [hn, Nat.mul_div_cancel_left n hpos]
  rw [tokens_eq, tokens_eq, tokens_eq, hcount, hfront, List.range_add, List.map_append,
    List.map_map]
  congr 1
  · refine List.map_congr_left fun i hi => ?_
    -- an element of the front ends before the back begins
    have hend : i * width.bytes + width.bytes ≤ front.length := by
      rw [hn, ← Nat.succ_mul, Nat.mul_comm width.bytes]
      exact Nat.mul_le_mul_right _ (List.mem_range.mp hi)
    rw [List.drop_append_of_le_length (by omega),
      List.take_append_of_le_length (by rw [List.length_drop]; omega)]
  · refine List.map_congr_left fun i _ => ?_
    have hstart : (n + i) * width.bytes = front.length + i * width.bytes := by
      rw [hn, Nat.add_mul, Nat.mul_comm n]
    rw [Function.comp, hstart, List.drop_append, List.drop_of_length_le (by omega),
      List.nil_append, Nat.add_sub_cancel_left]

/-- No token is empty. -/
theorem ne_empty_of_mem_tokens {bytes : Bytes} {token : String}
    (h : token ∈ tokens width radix bytes) : token ≠ "" := by
  obtain ⟨element, -, rfl⟩ := List.mem_map.mp h
  exact element.render_ne_empty radix

/-! ## Words with a separator -/

variable {sep : String}

/-- Words that are not empty make no text only if there are none. -/
theorem intercalate_eq_empty_iff {words : List String} (h : ∀ word ∈ words, word ≠ "") :
    sep.intercalate words = "" ↔ words = [] := by
  refine ⟨fun hempty => ?_, fun hnil => by rw [hnil, String.intercalate_nil]⟩
  cases words with
  | nil => rfl
  | cons word rest =>
    rw [← String.append_empty (s := word), String.intercalate_cons_append,
      String.append_eq_empty_iff] at hempty
    exact absurd hempty.1 (h word List.mem_cons_self)

/-- Groups of words put together as they are written are all words written as one group. -/
theorem intercalate_groups {groups : List (List String)}
    (h : ∀ group ∈ groups, ∀ word ∈ group, word ≠ "") :
    sep.intercalate ((groups.map sep.intercalate).filter (· ≠ "")) =
      sep.intercalate groups.flatten := by
  induction groups with
  | nil => rfl
  | cons group groups ih =>
    obtain ⟨hgroup, hgroups⟩ := List.forall_mem_cons.mp h
    have hflatten : ∀ word ∈ groups.flatten, word ≠ "" := by
      intro word hword
      obtain ⟨other, hother, hword⟩ := List.mem_flatten.mp hword
      exact hgroups other hother word hword
    rw [List.map_cons, List.flatten_cons]
    by_cases hnil : group = []
    · rw [hnil, String.intercalate_nil, List.filter_cons_of_neg (by simp), List.nil_append,
        ih hgroups]
    · have hwritten : sep.intercalate group ≠ "" :=
        fun hempty => hnil ((intercalate_eq_empty_iff hgroup).mp hempty)
      rw [List.filter_cons_of_pos (by simpa using hwritten)]
      -- there is a group to come exactly when there is a word to come
      have hcome : (groups.map sep.intercalate).filter (· ≠ "") = [] ↔ groups.flatten = [] := by
        rw [← intercalate_eq_empty_iff hflatten, ← ih hgroups, intercalate_eq_empty_iff]
        intro text htext
        simpa using (List.mem_filter.mp htext).2
      by_cases hlast : groups.flatten = []
      · rw [hcome.mpr hlast, hlast, List.append_nil, String.intercalate_singleton]
      · rw [String.intercalate_cons_of_ne_nil (fun hnone => hlast (hcome.mp hnone)), ih hgroups,
          String.intercalate_append_of_ne_nil hnil hlast]

/-! ## Dumps of pieces -/

/-- So many bytes end where an element of the kind does. -/
def IsAligned : ElementKind → Nat → Prop
  | .number width, count => width.bytes ∣ count
  | .text, _ => True

/-- The texts of consecutive pieces, put together. -/
def joined : ElementKind → List String → String
  | .number _, texts => " ".intercalate (texts.filter (· ≠ ""))
  | .text, texts => String.join texts

/-- The dumps of consecutive pieces, put together, are the dump of all their bytes. -/
theorem joined_map_ofBytes {kind : ElementKind} {pieces : List Bytes}
    (h : ∀ piece ∈ pieces, IsAligned kind piece.length) (last : Bytes) :
    joined kind ((pieces ++ [last]).map (ofBytes kind radix)) =
      ofBytes kind radix (pieces.flatten ++ last) := by
  cases kind with
  | number width =>
    have htokens : tokens width radix (pieces.flatten ++ last) =
        ((pieces ++ [last]).map (tokens width radix)).flatten := by
      induction pieces with
      | nil => simp
      | cons piece pieces ih =>
        obtain ⟨hpiece, hpieces⟩ := List.forall_mem_cons.mp h
        rw [List.flatten_cons, List.append_assoc, tokens_append hpiece, ih hpieces]
        rfl
    have hwords : ∀ group ∈ (pieces ++ [last]).map (tokens width radix),
        ∀ word ∈ group, word ≠ "" := by
      intro group hgroup word hword
      obtain ⟨piece, -, rfl⟩ := List.mem_map.mp hgroup
      exact ne_empty_of_mem_tokens hword
    rw [ofBytes, htokens, ← intercalate_groups hwords, List.map_map]
    rfl
  | text =>
    show String.join ((pieces ++ [last]).map Latin1.decode) = Latin1.decode (pieces.flatten ++ last)
    clear h
    induction pieces with
    | nil => simp
    | cons piece pieces ih =>
      rw [List.cons_append, List.map_cons, String.join_cons, ih, ← Latin1.decode_append,
        List.flatten_cons, List.append_assoc]

end Dump

namespace Inspect

/-! ## Pages -/

/-- The reads that show a chunk page by page from some byte on: one for each length, and one for
what is left. -/
def pages (kind : ElementKind) (radix : Radix) : UInt64 → List UInt64 → List Options
  | start, [] => [⟨kind, radix, some start, none⟩]
  | start, length :: lengths =>
    ⟨kind, radix, some start, some length⟩ :: pages kind radix (start + length) lengths

/-- The text that a read shows of a chunk. -/
def textOf (chunk : Chunk) (options : Options) : String :=
  Dump.render chunk.data (Window.clamp chunk.size options.offset options.length) options.kind
    options.radix

variable {chunk : Chunk} {kind : ElementKind} {radix : Radix}

/-- What a read shows of a chunk are the bytes from its offset on, as many as its length says. -/
private theorem textOf_eq (hsize : chunk.data.length + 1 < UInt64.size)
    (offset length : Option UInt64) :
    textOf chunk ⟨kind, radix, offset, length⟩ = Dump.ofBytes kind radix
      ((chunk.data.take (Window.wantedStart offset +
        Window.wantedLength chunk.size length)).drop (Window.wantedStart offset)) := by
  have hlength : chunk.data.length = chunk.size.toNat :=
    (UInt64.toNat_ofNat_of_lt' (by omega)).symm
  have hover : ¬ Window.Overruns chunk.size offset length := by
    rintro ⟨hlargest, -⟩
    omega
  rw [textOf, Dump.render, Window.slice_clamp hover hlength]

/-- Without a length the whole chunk is asked for. -/
private theorem wantedLength_none (hsize : chunk.data.length + 1 < UInt64.size) :
    Window.wantedLength chunk.size none = chunk.data.length :=
  UInt64.toNat_ofNat_of_lt' (by omega)

/-- The pages of a chunk are consecutive pieces of its bytes. -/
private theorem exists_pieces (kind : ElementKind) (radix : Radix)
    (hsize : chunk.data.length + 1 < UInt64.size) {start : UInt64} {lengths : List UInt64}
    (hinside : start.toNat + (lengths.map UInt64.toNat).sum ≤ chunk.data.length) :
    ∃ pieces last, pieces.map List.length = lengths.map UInt64.toNat ∧
      pieces.flatten ++ last = chunk.data.drop start.toNat ∧
      (pages kind radix start lengths).map (textOf chunk) =
        (pieces ++ [last]).map (Dump.ofBytes kind radix) := by
  induction lengths generalizing start with
  | nil =>
    refine ⟨[], chunk.data.drop start.toNat, rfl, List.nil_append _, ?_⟩
    rw [pages, List.map_singleton, textOf_eq hsize, wantedLength_none hsize,
      List.take_of_length_le (by omega)]
    rfl
  | cons length lengths ih =>
    rw [List.map_cons, List.sum_cons] at hinside
    have hnext : (start + length).toNat = start.toNat + length.toNat := by
      rw [UInt64.toNat_add, Nat.mod_eq_of_lt]
      rw [UInt64.size] at hsize
      omega
    have hrest : (start + length).toNat + (lengths.map UInt64.toNat).sum ≤ chunk.data.length := by
      omega
    obtain ⟨pieces, last, hlengths, hbytes, htexts⟩ := ih hrest
    rw [hnext] at hbytes
    refine ⟨(chunk.data.drop start.toNat).take length.toNat :: pieces, last, ?_, ?_, ?_⟩
    · rw [List.map_cons, hlengths, List.length_take, List.length_drop, List.map_cons]
      congr 1
      omega
    · rw [List.flatten_cons, List.append_assoc, hbytes, ← List.drop_drop, List.take_append_drop]
    · rw [pages, List.map_cons, htexts, textOf_eq hsize, List.cons_append, List.map_cons,
        List.drop_take]
      congr 2
      show List.take (start.toNat + length.toNat - start.toNat) _ = _
      rw [Nat.add_sub_cancel_left]
      rfl

/-! ## Reading page by page -/

/-- A read of a chunk shows a text. -/
def Shows {ε : Type} (source : Source ε Id) (id : ChunkId) (options : Options)
    (text : String) : Prop :=
  ∃ shown size window, readBytes source id options = .ok (.raw shown size window text)

/-- A chunk of some size can be read page by page, whatever its bytes are shown as: the bytes up to
some place and those from there on are the whole chunk, and so are any number of pages. -/
structure ReadsInPages {ε : Type} (source : Source ε Id) (id : ChunkId) (size : Nat) : Prop where
  split : ∀ kind radix (place : UInt64), place.toNat ≤ size → Dump.IsAligned kind place.toNat →
    ∃ front back whole, Shows source id ⟨kind, radix, some 0, some place⟩ front ∧
      Shows source id ⟨kind, radix, some place, none⟩ back ∧
      Shows source id ⟨kind, radix, none, none⟩ whole ∧ Dump.joined kind [front, back] = whole
  pages : ∀ kind radix (lengths : List UInt64), (lengths.map UInt64.toNat).sum ≤ size →
    (∀ length ∈ lengths, Dump.IsAligned kind length.toNat) →
    ∃ texts whole, List.Forall₂ (Shows source id) (pages kind radix 0 lengths) texts ∧
      Shows source id ⟨kind, radix, none, none⟩ whole ∧ Dump.joined kind texts = whole

variable {ε : Type} {source : Source ε Id} {id : ChunkId}

/-- A source that has the chunk shows its text. -/
private theorem shows_textOf (hfetch : source.fetch [id] = .ok ⟨1, [chunk]⟩) (options : Options) :
    Shows source id options (textOf chunk options) := by
  refine ⟨chunk.id, chunk.size, Window.clamp chunk.size options.offset options.length, ?_⟩
  show (theChunk id (source.fetch [id])).map (Outcome.ofChunk options) = _
  rw [hfetch]
  rfl

/-- Put together, the texts of the pages are the text of the whole chunk. -/
private theorem joined_pages (kind : ElementKind) (radix : Radix)
    (hsize : chunk.data.length + 1 < UInt64.size) {lengths : List UInt64}
    (hinside : (lengths.map UInt64.toNat).sum ≤ chunk.data.length)
    (haligned : ∀ length ∈ lengths, Dump.IsAligned kind length.toNat) :
    Dump.joined kind ((pages kind radix 0 lengths).map (textOf chunk)) =
      textOf chunk ⟨kind, radix, none, none⟩ := by
  have hstart : (0 : UInt64).toNat + (lengths.map UInt64.toNat).sum ≤ chunk.data.length := by
    rwa [UInt64.toNat_zero, Nat.zero_add]
  obtain ⟨pieces, last, hlengths, hbytes, htexts⟩ := exists_pieces kind radix hsize hstart
  have hpieces : ∀ piece ∈ pieces, Dump.IsAligned kind piece.length := by
    intro piece hpiece
    have hmem : piece.length ∈ lengths.map UInt64.toNat :=
      hlengths ▸ List.mem_map_of_mem hpiece
    obtain ⟨length, hlength, heq⟩ := List.mem_map.mp hmem
    exact heq ▸ haligned length hlength
  rw [htexts, Dump.joined_map_ofBytes hpieces, hbytes, textOf_eq hsize, wantedLength_none hsize]
  congr 1
  rw [List.take_of_length_le (Nat.le_add_left _ _)]
  rfl

/-- A chunk that a source has can be read page by page, unless it is as large as a word can say. -/
theorem readsInPages_of_fetch (hfetch : source.fetch [id] = .ok ⟨1, [chunk]⟩)
    (hsize : chunk.data.length + 1 < UInt64.size) : ReadsInPages source id chunk.data.length where
  split kind radix place hplace haligned := by
    refine ⟨_, _, _, shows_textOf hfetch _, shows_textOf hfetch _, shows_textOf hfetch _, ?_⟩
    have hinside : ([place].map UInt64.toNat).sum ≤ chunk.data.length := by simpa using hplace
    have hpages := joined_pages kind radix hsize hinside (List.forall_mem_singleton.mpr haligned)
    rwa [pages, pages, UInt64.zero_add] at hpages
  pages kind radix lengths hinside haligned := by
    refine ⟨_, _, ?_, shows_textOf hfetch _, joined_pages kind radix hsize hinside haligned⟩
    rw [List.forall₂_map_right_iff, List.forall₂_same]
    exact fun options _ => shows_textOf hfetch options

/-- Five bytes on a node can be read page by page. -/
theorem readsInPages_five :
    let store := ((Store.empty ⟨1⟩ .empty).create [1, 2, 3, 4, 5]).2
    let chunk : Chunk := ⟨.pack ⟨1⟩ ⟨1⟩, [1, 2, 3, 4, 5]⟩
    store.source.fetch [chunk.id] = .ok ⟨1, [chunk]⟩ ∧
      chunk.data.length + 1 < UInt64.size ∧ ReadsInPages store.source chunk.id 5 := by
  intro store chunk
  have hfetch : store.source.fetch [chunk.id] = .ok ⟨1, [chunk]⟩ := rfl
  have hsize : chunk.data.length + 1 < UInt64.size := by decide
  exact ⟨hfetch, hsize, readsInPages_of_fetch hfetch hsize⟩

end Inspect

end ChunkScope
