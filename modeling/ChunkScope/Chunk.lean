import ChunkScope.Text.Encoding
import ChunkScope.Text.Numeral
import ChunkScope.Text.Unicode

/-!
# Chunks

What a chunk is called, how the answer to a request holds it, and how its bytes are shown: its
elements, a cursor that reads them, a window of the chunk, and the text that shows the window.
-/

/-! ## Identifiers

A chunk id packs the node that hosts the chunk into its top 16 bits and the id that the chunk has
on that node into its low 48 bits. Its text is `0x` and 16 upper-case digits; when read, either
case, any number of digits and plain decimal are taken as well, with blanks around. -/

namespace ChunkScope

/-- A member of the cluster, by its number. -/
structure NodeId where
  value : UInt16
deriving DecidableEq, Inhabited

/-- The id of a chunk within its node, of which only the low 48 bits reach a chunk id. -/
structure LocalId where
  value : UInt64
deriving DecidableEq, Inhabited

/-- The id of a chunk within the cluster: its node and its local id, packed. -/
structure ChunkId where
  raw : UInt64
deriving DecidableEq, Inhabited

namespace NodeId

/-- The text of a node id. -/
def text (node : NodeId) : String :=
  "0x" ++ Numeral.fixedUpperHex 4 node.value.toNat

end NodeId

namespace ChunkId

/-- How many low bits of a chunk id hold the local id. -/
def localBits : UInt64 := 48

/-- The bits of a chunk id that hold the local id, and the largest local id. -/
def localMask : UInt64 := 0xFFFFFFFFFFFF

/-- The id of a chunk on a node; what the local id has above its low 48 bits is dropped. -/
def pack (node : NodeId) (slot : LocalId) : ChunkId :=
  ⟨(node.value.toUInt64 <<< localBits) ||| (slot.value &&& localMask)⟩

/-- The node that hosts a chunk. -/
def node (id : ChunkId) : NodeId :=
  ⟨(id.raw >>> localBits).toUInt16⟩

/-- The id of a chunk on its node. -/
def slot (id : ChunkId) : LocalId :=
  ⟨id.raw &&& localMask⟩

/-- Chunk ids are ordered as the numbers that they are. -/
instance : LT ChunkId := ⟨fun a b => a.raw < b.raw⟩

instance : DecidableLT ChunkId := fun a b => inferInstanceAs (Decidable (a.raw < b.raw))

/-- The text of a chunk id. -/
def text (id : ChunkId) : String :=
  "0x" ++ Numeral.fixedUpperHex 16 id.raw.toNat

/-- The chunk id that a text writes. -/
def parse? (s : String) : Option ChunkId :=
  (Numeral.address? (Blank.trim s.toList)).map ChunkId.mk

/-- What is said of a text that writes no chunk id. -/
def refusal (s : String) : String :=
  "invalid chunk id: " ++ Quoted.quote s

end ChunkId

/-! ## Fetched chunks -/

/-- A chunk as it was fetched. -/
structure Chunk where
  id : ChunkId
  data : Bytes
deriving DecidableEq, Inhabited

/-- The number of bytes of a chunk. -/
def Chunk.size (chunk : Chunk) : UInt64 :=
  UInt64.ofNat chunk.data.length

/-- The answer to a request for chunks: how many of them were found, and the chunks, in the order of
the request. -/
structure Fetched where
  count : UInt64
  chunks : List Chunk
deriving DecidableEq, Inhabited

/-- An answer that counts its own chunks. -/
def Fetched.ofChunks (chunks : List Chunk) : Fetched :=
  ⟨UInt64.ofNat chunks.length, chunks⟩

/-! ## Elements

The units in which the bytes of a chunk are shown: signed numbers of one, two, four or eight bytes
with the high byte first, or the bytes as one text. -/

/-- How wide a number is. -/
inductive Width where
  | byte
  | short
  | int
  | long
deriving DecidableEq, Inhabited

namespace Width

/-- The bytes of a number of this width. -/
def bytes : Width → Nat
  | byte => 1
  | short => 2
  | int => 4
  | long => 8

/-- No number is without bytes. -/
theorem bytes_pos (width : Width) : 0 < width.bytes := by
  cases width <;> decide

end Width

/-- What some bytes are read as. -/
inductive ElementKind where
  | number (width : Width)
  | text
deriving DecidableEq, Inhabited

namespace ElementKind

/-- The name of a kind. -/
def name : ElementKind → String
  | number .byte => "byte"
  | number .short => "short"
  | number .int => "int"
  | number .long => "long"
  | text => "string"

/-- The width of a kind, which a text does not have. -/
def width? : ElementKind → Option Width
  | number width => some width
  | text => none

/-- The kind of a name in lower case; a text may be called `str`. -/
def ofName? (s : String) : Option ElementKind :=
  if s = "byte" then some (number .byte)
  else if s = "short" then some (number .short)
  else if s = "int" then some (number .int)
  else if s = "long" then some (number .long)
  else if s = "str" ∨ s = "string" then some text
  else none

/-- The kind of a name in any mix of ASCII cases. -/
def parse? (s : String) : Option ElementKind :=
  ofName? (s.map Char.toLower)

/-- What is said of a text that names no kind. -/
def refusal (s : String) : String :=
  "unsupported element type " ++ Quoted.quote s

end ElementKind

/-- The base in which numbers are shown. -/
inductive Radix where
  | hex
  | decimal
deriving DecidableEq, Inhabited

/-- A number of some width, by its bits in two's complement. -/
structure Element where
  width : Width
  bits : BitVec (8 * width.bytes)
deriving DecidableEq

namespace Element

/-- The number that some bytes write, the high byte first. -/
def bigEndian (bytes : Bytes) : Nat :=
  bytes.foldl (fun n b => n * 256 + b.toNat) 0

/-- The element that some bytes write. -/
def ofBytes (width : Width) (bytes : Bytes) : Element :=
  ⟨width, BitVec.ofNat _ (bigEndian bytes)⟩

/-- The signed value. -/
def value (element : Element) : Int :=
  element.bits.toInt

/-- The text of an element: two digits for each byte of its bits, or its signed value. -/
def render (element : Element) : Radix → String
  | .hex => Numeral.fixedHex (2 * element.width.bytes) element.bits.toNat
  | .decimal => Numeral.signedDecimal element.value

end Element

/-! ## Cursors

A place in some bytes from which they are read. A read gives the bytes and the cursor after them,
and one that asks for more than is left gives nothing. -/

/-- A place in some bytes: how many lie before it, and those that are left. -/
structure Cursor where
  position : Nat
  rest : Bytes
deriving DecidableEq

namespace Cursor

/-- The cursor before the first byte. -/
def start (data : Bytes) : Cursor := ⟨0, data⟩

/-- The next `n` bytes, if that many are left. -/
def take? (n : Nat) (cursor : Cursor) : Option (Bytes × Cursor) :=
  let bytes := cursor.rest.take n
  if bytes.length = n then some (bytes, ⟨cursor.position + n, cursor.rest.drop n⟩) else none

/-- Bytes are taken just when that many are left. -/
theorem take?_eq_ite (n : Nat) (cursor : Cursor) :
    cursor.take? n = if n ≤ cursor.rest.length then
      some (cursor.rest.take n, ⟨cursor.position + n, cursor.rest.drop n⟩) else none := by
  have h : min n cursor.rest.length = n ↔ n ≤ cursor.rest.length := by omega
  simp only [take?, List.length_take, h]

/-- All bytes that are left. -/
def takeRest (cursor : Cursor) : Bytes × Cursor :=
  (cursor.rest, ⟨cursor.position + cursor.rest.length, []⟩)

/-- The next element of a width, if it is there in full. -/
def element? (width : Width) (cursor : Cursor) : Option (Element × Cursor) :=
  (cursor.take? width.bytes).map fun (bytes, next) => (Element.ofBytes width bytes, next)

/-- The next element of a kind: a text is no element. -/
def read? (kind : ElementKind) (cursor : Cursor) : Option (Element × Cursor) :=
  kind.width?.bind fun width => cursor.element? width

/-- Behind an element fewer bytes are left. -/
theorem rest_length_of_element? {width : Width} {cursor next : Cursor} {element : Element}
    (h : cursor.element? width = some (element, next)) :
    next.rest.length < cursor.rest.length := by
  simp only [element?, take?_eq_ite, Option.map_eq_some_iff] at h
  obtain ⟨⟨bytes, after⟩, h, heq⟩ := h
  split at h
  · next hn =>
    simp only [Option.some.injEq, Prod.mk.injEq] at h heq
    have := width.bytes_pos
    rw [← heq.2, ← h.2, List.length_drop]
    omega
  · simp at h

/-- The elements of a width from the cursor on; bytes too few for one more are left out. -/
def elements (width : Width) (cursor : Cursor) : List Element :=
  match _h : cursor.element? width with
  | none => []
  | some (element, next) => element :: elements width next
termination_by cursor.rest.length
decreasing_by exact rest_length_of_element? _h

end Cursor

/-! ## Windows

A range of bytes in a chunk. A request for a range is cut to the chunk it is made of. The sizes are
words of 64 bits and sums stop at the largest one, so a window of a chunk of 2⁶⁴ - 1 bytes may still
reach beyond its end; any other one lies inside. -/

/-- The bytes from `offset` up to `offset + length`. -/
structure Window where
  offset : UInt64
  length : UInt64
deriving DecidableEq, Inhabited

namespace Window

/-- A sum that stops at the largest word. -/
def saturatingAdd (a b : UInt64) : UInt64 :=
  if a + b < a then 0xFFFFFFFFFFFFFFFF else a + b

/-- Cuts a request to a chunk of `size` bytes: without an offset it starts at the first byte, and
without a length it goes up to the last one. -/
def clamp (size : UInt64) (offset length : Option UInt64) : Window :=
  let wanted := match length with
    | some length => if length ≤ size then length else size
    | none => size
  let start := min (offset.getD 0) size
  if size < saturatingAdd start wanted then ⟨start, size - start⟩ else ⟨start, wanted⟩

/-- The place behind the last byte of the window. -/
def stop (window : Window) : UInt64 :=
  window.offset + window.length

/-- A window without bytes. -/
def isEmpty (window : Window) : Bool :=
  window.length == 0

/-- The elements of a list that lie in the window, none when it reaches beyond the end. -/
def slice {α : Type} (window : Window) (data : List α) : List α :=
  if window.offset.toNat + window.length.toNat ≤ data.length then
    (data.drop window.offset.toNat).take window.length.toNat
  else []

end Window

end ChunkScope

/-! ## Dumps

The numbers in a window with a space between them, or its bytes as Latin-1 text. -/

namespace ChunkScope.Dump

/-- The texts of the numbers that some bytes write. -/
def tokens (width : Width) (radix : Radix) (bytes : Bytes) : List String :=
  ((Cursor.start bytes).elements width).map fun element => element.render radix

/-- The text of some bytes as a kind. -/
def ofBytes (kind : ElementKind) (radix : Radix) (bytes : Bytes) : String :=
  match kind with
  | .text => Latin1.decode bytes
  | .number width => " ".intercalate (tokens width radix bytes)

/-- The text of a window of some bytes as a kind. -/
def render (data : Bytes) (window : Window) (kind : ElementKind) (radix : Radix) : String :=
  ofBytes kind radix (window.slice data)

end ChunkScope.Dump
