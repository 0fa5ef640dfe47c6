import Mathlib.Algebra.Ring.Int.Defs
import ChunkScope.Chunk
import ChunkScope.Proofs.Text.Numerals

/-!
# Cursors in their data

A cursor has the bytes that are left and the number of those before it. On some data the two belong
together: the number is a place in the data, and what is left is what lies behind that place. A read
gives the bytes from that place on, as many as it asks for, and moves the cursor behind them, or it
gives nothing and the cursor stays. So all that some reads give, put together, is what lies before
the cursor in the end.
-/

/-! ## Elements and their bytes

A number of some width is written as so many bytes, the high one first. Bytes that are read as a
number are the ones that the number is written as, whether it is taken with a sign or without; and a
cursor reads the elements of a width one piece of that width after the other. -/

namespace ChunkScope

/-! ### Integers as bytes -/

/-- How many numbers of a width there are. -/
def Width.card (width : Width) : Nat :=
  Nat.pow 256 width.bytes

/-- The bytes of an integer in two's complement, the high one first. -/
def Width.bytesOf (width : Width) (n : Int) : Bytes :=
  (Numeral.fixedDigits 256 width.bytes (n % width.card).toNat).map UInt8.ofNat

theorem Width.two_pow_bits (width : Width) : Nat.pow 2 (8 * width.bytes) = width.card := by
  cases width <;> rfl

/-- The bytes of an integer are those of its remainder by the number of values of the width. -/
theorem Width.bytesOf_emod (width : Width) (n : Int) :
    width.bytesOf (n % width.card) = width.bytesOf n := by
  rw [bytesOf, Int.emod_emod_of_dvd _ (Int.dvd_refl _)]
  rfl

namespace Element

/-- The integer that some bytes write in two's complement, the high byte first. -/
def signed (bytes : Bytes) : Int :=
  if 2 * bigEndian bytes < Nat.pow 256 bytes.length then bigEndian bytes
  else bigEndian bytes - Nat.pow 256 bytes.length

/-- The number that bytes write is that of its digits to the base 256. -/
theorem bigEndian_eq_ofDigits (bytes : Bytes) :
    bigEndian bytes = Numeral.ofDigits 256 (bytes.map UInt8.toNat) := by
  rw [Numeral.ofDigits, List.foldl_map]
  rfl

private theorem lt_of_mem_map_toNat {bytes : Bytes} : ∀ d ∈ bytes.map UInt8.toNat, d < 256 := by
  intro d hd
  obtain ⟨b, -, rfl⟩ := List.mem_map.mp hd
  exact b.toNat_lt

/-- The number that some bytes write is below the power of 256 for that many digits. -/
theorem bigEndian_lt (bytes : Bytes) : bigEndian bytes < Nat.pow 256 bytes.length := by
  rw [bigEndian_eq_ofDigits, ← List.length_map UInt8.toNat]
  exact Numeral.ofDigits_lt (by omega) lt_of_mem_map_toNat

variable {width : Width} {bytes : Bytes}

/-- The bytes of a width write one of its values. -/
theorem bigEndian_lt_card (h : bytes.length = width.bytes) : bigEndian bytes < width.card := by
  rw [Width.card, ← h]
  exact bigEndian_lt bytes

private theorem bigEndian_emod (h : bytes.length = width.bytes) :
    (bigEndian bytes : Int) % width.card = bigEndian bytes :=
  Int.emod_eq_of_lt (Int.natCast_nonneg _) (Int.ofNat_lt.mpr (bigEndian_lt_card h))

/-- Bytes are what their number without a sign is written as. -/
theorem bytesOf_bigEndian (h : bytes.length = width.bytes) :
    width.bytesOf (bigEndian bytes) = bytes := by
  rw [Width.bytesOf, bigEndian_emod h, Int.toNat_natCast, ← h, bigEndian_eq_ofDigits,
    ← List.length_map UInt8.toNat, Numeral.fixedDigits_ofDigits lt_of_mem_map_toNat, List.map_map]
  simp [Function.comp_def]

/-! ### The element that some bytes write -/

/-- The bits of the element that some bytes write are the number that they write. -/
theorem toNat_bits_ofBytes (h : bytes.length = width.bytes) :
    (ofBytes width bytes).bits.toNat = bigEndian bytes := by
  have hlt := bigEndian_lt_card h
  rw [← Width.two_pow_bits] at hlt
  exact (BitVec.toNat_ofNat ..).trans (Nat.mod_eq_of_lt hlt)

/-- The value of an element is the integer that its bytes write. -/
theorem value_ofBytes (h : bytes.length = width.bytes) :
    (ofBytes width bytes).value = signed bytes := by
  have hcard : Nat.pow 2 (8 * width.bytes) = Nat.pow 256 bytes.length := by
    rw [Width.two_pow_bits, h, Width.card]
  rw [value, BitVec.toInt_eq_toNat_cond, toNat_bits_ofBytes h]
  show (if 2 * bigEndian bytes < Nat.pow 2 (8 * width.bytes) then (bigEndian bytes : Int)
    else bigEndian bytes - (Nat.pow 2 (8 * width.bytes) : Nat)) = _
  rw [hcard, signed]

/-- Bytes are what their number with a sign is written as. -/
theorem bytesOf_signed (h : bytes.length = width.bytes) : width.bytesOf (signed bytes) = bytes := by
  have hmod : signed bytes % width.card = bigEndian bytes := by
    have hcard : Nat.pow 256 bytes.length = width.card := by rw [h, Width.card]
    rw [signed, hcard]
    split
    · exact bigEndian_emod h
    · rw [Int.sub_emod_right, bigEndian_emod h]
  rw [← Width.bytesOf_emod, hmod, bytesOf_bigEndian h]

/-- A value lies in the range of its width. -/
theorem value_range (element : Element) :
    -2 ^ (8 * element.width.bytes - 1) ≤ element.value ∧
      element.value < 2 ^ (8 * element.width.bytes - 1) := by
  obtain ⟨width, bits⟩ := element
  have hlo := bits.le_two_mul_toInt
  have hhi := bits.two_mul_toInt_lt
  have hpower : (2 : Int) ^ (8 * width.bytes) = 2 * 2 ^ (8 * width.bytes - 1) := by
    cases width <;> rfl
  show -2 ^ (8 * width.bytes - 1) ≤ bits.toInt ∧ bits.toInt < 2 ^ (8 * width.bytes - 1)
  omega

/-- A number of at most eight bytes fits into 64 bits. -/
theorem value_bounds (element : Element) :
    -0x8000000000000000 ≤ element.value ∧ element.value < 0x8000000000000000 := by
  have hrange := element.value_range
  have hpower : (2 : Int) ^ (8 * element.width.bytes - 1) ≤ 0x8000000000000000 := by
    cases element.width <;> decide
  omega

end Element

/-! ### Reading elements one after the other -/

namespace Cursor

/-- An element is read just when all of its bytes are left. -/
theorem element?_eq_ite (width : Width) (cursor : Cursor) :
    cursor.element? width = if width.bytes ≤ cursor.rest.length then
      some (Element.ofBytes width (cursor.rest.take width.bytes),
        ⟨cursor.position + width.bytes, cursor.rest.drop width.bytes⟩) else none := by
  rw [element?, take?_eq_ite]
  split <;> rfl

/-- The elements behind a cursor are those that the bytes there write, one piece of their width
after the other as long as there is a whole one. -/
theorem elements_eq (width : Width) (cursor : Cursor) :
    cursor.elements width = (List.range (cursor.rest.length / width.bytes)).map fun i =>
      Element.ofBytes width ((cursor.rest.drop (i * width.bytes)).take width.bytes) := by
  have hpos := width.bytes_pos
  fun_induction elements width cursor with
  | case1 cursor hnone =>
    rw [element?_eq_ite] at hnone
    split at hnone
    · cases hnone
    · next hlt => rw [Nat.div_eq_of_lt (Nat.lt_of_not_le hlt), List.range_zero, List.map_nil]
  | case2 cursor element next hsome ih =>
    rw [element?_eq_ite] at hsome
    split at hsome
    · next hle =>
      cases hsome
      -- the pieces behind the first one are those of the bytes behind it
      rw [ih, List.length_drop, Nat.div_eq_sub_div hpos hle, List.range_succ_eq_map, List.map_cons,
        List.map_map, Nat.zero_mul, List.drop_zero]
      congr 2
      funext i
      rw [Function.comp, List.drop_drop, Nat.succ_mul, Nat.add_comm]
    · cases hsome

end Cursor

end ChunkScope

namespace ChunkScope.Cursor

/-! ## Places in some data -/

/-- The bytes of some data from one place up to another, if both are places in the data. -/
def between? (data : Bytes) (start stop : Nat) : Option Bytes :=
  if start ≤ stop ∧ stop ≤ data.length then some ((data.drop start).take (stop - start)) else none

/-- A cursor that stands at a place in some data: what is left is what lies behind the place. -/
structure StandsIn (cursor : Cursor) (data : Bytes) : Prop where
  inside : cursor.position ≤ data.length
  rest_eq : cursor.rest = data.drop cursor.position

variable {data : Bytes} {cursor : Cursor}

/-- Between two places lies what the bytes before the second one have behind the first one. -/
theorem between?_eq_some_iff {start stop : Nat} {bytes : Bytes} :
    between? data start stop = some bytes ↔
      start ≤ stop ∧ stop ≤ data.length ∧ data.take stop = data.take start ++ bytes := by
  rw [between?, Option.ite_none_right_eq_some, and_assoc]
  refine and_congr_right fun hle => and_congr_right fun _ => ?_
  have htake : data.take stop = data.take start ++ (data.drop start).take (stop - start) := by
    rw [← List.take_add, Nat.add_sub_cancel' hle]
  rw [htake, List.append_cancel_left_eq, Option.some.injEq]

/-- What lies between two places and what lies between the second one and a third. -/
theorem between?_append {start mid stop : Nat} {front back : Bytes}
    (hfront : between? data start mid = some front) (hback : between? data mid stop = some back) :
    between? data start stop = some (front ++ back) := by
  rw [between?_eq_some_iff] at *
  obtain ⟨hstart, -, hmid⟩ := hfront
  obtain ⟨hle, hstop, htake⟩ := hback
  exact ⟨Nat.le_trans hstart hle, hstop, by rw [htake, hmid, List.append_assoc]⟩

/-- Before the first byte all data are left. -/
theorem standsIn_start (data : Bytes) : (start data).StandsIn data :=
  ⟨Nat.zero_le _, rfl⟩

/-- So many bytes are left as lie behind the place of the cursor. -/
theorem StandsIn.length_rest (h : cursor.StandsIn data) :
    cursor.rest.length = data.length - cursor.position := by
  rw [h.rest_eq, List.length_drop]

/-- Moving on over bytes that are left, a cursor comes to another place in the data. -/
theorem StandsIn.advance (h : cursor.StandsIn data) {n : Nat} (hn : n ≤ cursor.rest.length) :
    StandsIn ⟨cursor.position + n, cursor.rest.drop n⟩ data ∧
      between? data cursor.position (cursor.position + n) = some (cursor.rest.take n) := by
  have hinside := h.inside
  rw [h.length_rest] at hn
  refine ⟨⟨?_, ?_⟩, between?_eq_some_iff.mpr ⟨Nat.le_add_right _ _, ?_, ?_⟩⟩
  · show cursor.position + n ≤ data.length
    omega
  · rw [h.rest_eq, List.drop_drop]
  · omega
  · rw [h.rest_eq, List.take_add]

/-! ## One read -/

/-- Something that is read: so many bytes, an element of a kind, or all bytes that are left. -/
inductive Read where
  | bytes (count : Nat)
  | element (kind : ElementKind)
  | rest
deriving DecidableEq

/-- What a read gives. -/
inductive Got where
  | bytes (taken : Bytes)
  | element (value : Element)
deriving DecidableEq

/-- The bytes that a read gives; an element stands for those that its value is written as. -/
def Got.toBytes : Got → Bytes
  | bytes taken => taken
  | element value => value.width.bytesOf value.value

namespace Read

/-- What a read gives, and the cursor behind it. -/
def run? (cursor : Cursor) : Read → Option (Got × Cursor)
  | bytes count => (cursor.take? count).map fun (taken, next) => (.bytes taken, next)
  | element kind => (cursor.read? kind).map fun (value, next) => (.element value, next)
  | rest => some (.bytes cursor.takeRest.1, cursor.takeRest.2)

/-- How many bytes a read asks for when so many are left. A text is no element and has no width. -/
def demand (left : Nat) : Read → Nat
  | bytes count => count
  | element kind => (kind.width?.map Width.bytes).getD 0
  | rest => left

/-- A read that asks for more than so many bytes, or for a text as an element. -/
def IsRefused (left : Nat) (read : Read) : Prop :=
  left < read.demand left ∨ read = element .text

/-- Bytes are read just when that many are left. -/
theorem run?_bytes (count : Nat) (cursor : Cursor) :
    (bytes count).run? cursor = if count ≤ cursor.rest.length then
      some (.bytes (cursor.rest.take count), ⟨cursor.position + count, cursor.rest.drop count⟩)
    else none := by
  rw [run?, take?_eq_ite]
  split <;> rfl

/-- A number is read just when all of its bytes are left. -/
theorem run?_number (width : Width) (cursor : Cursor) :
    (element (.number width)).run? cursor = if width.bytes ≤ cursor.rest.length then
      some (.element (Element.ofBytes width (cursor.rest.take width.bytes)),
        ⟨cursor.position + width.bytes, cursor.rest.drop width.bytes⟩)
    else none := by
  show (cursor.element? width).map _ = _
  rw [element?_eq_ite]
  split <;> rfl

/-- An element is written as the bytes that it is read from. -/
theorem toBytes_element {width : Width} {taken : Bytes} (h : taken.length = width.bytes) :
    (Got.element (Element.ofBytes width taken)).toBytes = taken := by
  show width.bytesOf (Element.ofBytes width taken).value = taken
  rw [Element.value_ofBytes h, Element.bytesOf_signed h]

/-- A read is refused, or it gives as many of the bytes that are left as it asks for. -/
theorem run?_cases (read : Read) (cursor : Cursor) :
    (read.IsRefused cursor.rest.length ∧ read.run? cursor = none) ∨
      (¬ read.IsRefused cursor.rest.length ∧
        read.demand cursor.rest.length ≤ cursor.rest.length ∧
          ∃ got, got.toBytes = cursor.rest.take (read.demand cursor.rest.length) ∧
            read.run? cursor = some (got, ⟨cursor.position + read.demand cursor.rest.length,
              cursor.rest.drop (read.demand cursor.rest.length)⟩)) := by
  cases read with
  | bytes count =>
    rw [run?_bytes]
    split
    · next hle => exact .inr ⟨not_or.mpr ⟨Nat.not_lt_of_le hle, nofun⟩, hle, _, rfl, rfl⟩
    · next hlt => exact .inl ⟨.inl (Nat.lt_of_not_le hlt), rfl⟩
  | element kind =>
    cases kind with
    | text => exact .inl ⟨.inr rfl, rfl⟩
    | number width =>
      rw [run?_number]
      split
      · next hle =>
        exact .inr ⟨not_or.mpr ⟨Nat.not_lt_of_le hle, nofun⟩, hle, _,
          toBytes_element (List.length_take_of_le hle), rfl⟩
      · next hlt => exact .inl ⟨.inl (Nat.lt_of_not_le hlt), rfl⟩
  | rest =>
    refine .inr ⟨not_or.mpr ⟨Nat.lt_irrefl _, nofun⟩, Nat.le_refl _, .bytes cursor.rest,
      (List.take_length ..).symm, ?_⟩
    rw [run?, takeRest, demand, List.drop_length]

end Read

/-- A read of a cursor in some data is refused, or it gives the bytes up to the place where the
cursor then stands, as many as it asks for. -/
theorem StandsIn.run?_cases (h : cursor.StandsIn data) (read : Read) :
    (read.IsRefused (data.length - cursor.position) ∧ read.run? cursor = none) ∨
      (¬ read.IsRefused (data.length - cursor.position) ∧ ∃ got next,
        read.run? cursor = some (got, next) ∧ next.StandsIn data ∧
          next.position = cursor.position + read.demand (data.length - cursor.position) ∧
            between? data cursor.position next.position = some got.toBytes) := by
  rw [← h.length_rest]
  rcases read.run?_cases cursor with hrefused | ⟨hgranted, hroom, got, hgot, hrun⟩
  · exact .inl hrefused
  · obtain ⟨hnext, hbetween⟩ := h.advance hroom
    exact .inr ⟨hgranted, got, _, hrun, hnext, rfl, hgot ▸ hbetween⟩

/-! ## Reads one after the other -/

/-- What some reads give, and the cursor behind them. A read that gives nothing leaves the cursor
where it is. -/
def readAll (cursor : Cursor) : List Read → List Got × Cursor
  | [] => ([], cursor)
  | read :: reads =>
    match read.run? cursor with
    | none => cursor.readAll reads
    | some (got, next) => (got :: (next.readAll reads).1, (next.readAll reads).2)

/-- The reads behind others begin where these have ended. -/
theorem readAll_append_snd (cursor : Cursor) (front back : List Read) :
    (cursor.readAll (front ++ back)).2 = ((cursor.readAll front).2.readAll back).2 := by
  induction front generalizing cursor with
  | nil => rfl
  | cons read front ih =>
    rw [List.cons_append, readAll, readAll]
    cases read.run? cursor with
    | none => exact ih cursor
    | some step => exact ih step.2

/-- All that some reads of a cursor in some data give is what lies between the places where the
cursor stands before and behind them. -/
theorem StandsIn.readAll (h : cursor.StandsIn data) (reads : List Read) :
    (cursor.readAll reads).2.StandsIn data ∧
      between? data cursor.position (cursor.readAll reads).2.position =
        some ((cursor.readAll reads).1.flatMap Got.toBytes) := by
  induction reads generalizing cursor with
  | nil => exact ⟨h, between?_eq_some_iff.mpr ⟨Nat.le_refl _, h.inside, (List.append_nil _).symm⟩⟩
  | cons read reads ih =>
    rw [Cursor.readAll]
    rcases h.run?_cases read with ⟨-, hrun⟩ | ⟨-, got, next, hrun, hnext, -, hbetween⟩
    · rw [hrun]
      exact ih h
    · rw [hrun]
      obtain ⟨hlast, hmore⟩ := ih hnext
      exact ⟨hlast, between?_append hbetween hmore⟩

/-- The cursor behind some reads of some data, from the first byte on. -/
def behind (data : Bytes) (reads : List Read) : Cursor :=
  ((start data).readAll reads).2

/-- Behind any reads the cursor stands in the data. -/
theorem standsIn_behind (data : Bytes) (reads : List Read) : (behind data reads).StandsIn data :=
  ((standsIn_start data).readAll reads).1

/-- The cursor behind some reads and some more is behind these where those have ended. -/
theorem behind_append (data : Bytes) (front back : List Read) :
    behind data (front ++ back) = ((behind data front).readAll back).2 :=
  readAll_append_snd (start data) front back

/-- Where a cursor is behind some reads of some data, and what the next read does there. It is
inside the data and does not go back, and what lies between it and the end is what is left. A read
gives nothing exactly when it asks for more than that, or for a text as an element, and then the
cursor stays. Otherwise the cursor moves on by as many bytes as the read asks for, and these are
given; so all that was given, put together, is what lies before the cursor. -/
structure KeepsTo (data : Bytes) (reads : List Read) : Prop where
  inside : (behind data reads).position ≤ data.length
  onward : ∀ more, (behind data reads).position ≤ (behind data (reads ++ more)).position
  rest : between? data (behind data reads).position data.length =
      some (behind data reads).takeRest.1 ∧
    (behind data reads).takeRest.2.position = data.length
  refused_iff : ∀ read : Read, read.run? (behind data reads) = none ↔
    read.IsRefused (data.length - (behind data reads).position)
  stays : ∀ read : Read, read.run? (behind data reads) = none →
    behind data (reads ++ [read]) = behind data reads
  given : ∀ (read : Read) got next, read.run? (behind data reads) = some (got, next) →
    behind data (reads ++ [read]) = next ∧
      next.position = (behind data reads).position +
        read.demand (data.length - (behind data reads).position) ∧
      between? data (behind data reads).position next.position = some got.toBytes
  front : ((start data).readAll reads).1.flatMap Got.toBytes =
    data.take (behind data reads).position

/-- Whatever is read of some data, and in whatever order, the cursor keeps to the data. -/
theorem keepsTo_readAll (data : Bytes) (reads : List Read) : KeepsTo data reads := by
  have hstands := standsIn_behind data reads
  constructor
  case inside => exact hstands.inside
  case onward =>
    intro more
    rw [behind_append]
    exact (between?_eq_some_iff.mp (hstands.readAll more).2).1
  case rest =>
    have hend : (behind data reads).position + (behind data reads).rest.length = data.length := by
      rw [hstands.length_rest, Nat.add_sub_cancel' hstands.inside]
    obtain ⟨-, hall⟩ := hstands.advance (Nat.le_refl _)
    rw [hend, List.take_length] at hall
    exact ⟨hall, hend⟩
  case refused_iff =>
    intro read
    rcases hstands.run?_cases read with ⟨hrefused, hrun⟩ | ⟨hgranted, got, next, hrun, -⟩
    · exact iff_of_true hrun hrefused
    · exact iff_of_false (hrun ▸ Option.some_ne_none _) hgranted
  case stays =>
    intro read hnone
    rw [behind_append, readAll, hnone]
    rfl
  case given =>
    intro read got next hsome
    have hnext : behind data (reads ++ [read]) = next := by
      rw [behind_append, readAll, hsome]
      rfl
    rcases hstands.run?_cases read with ⟨-, hnone⟩ | ⟨-, _, _, hrun, -, hposition, hbetween⟩
    · cases hsome.symm.trans hnone
    · cases hsome.symm.trans hrun
      exact ⟨hnext, hposition, hbetween⟩
  case front =>
    obtain ⟨-, -, htake⟩ := between?_eq_some_iff.mp ((standsIn_start data).readAll reads).2
    exact htake.symm

/-- A read that fails in between does not disturb the others. -/
example : (start [1, 2, 3]).readAll [.bytes 2, .element (.number .short), .rest] =
    ([.bytes [1, 2], .bytes [3]], ⟨3, []⟩) := by
  decide

end ChunkScope.Cursor
