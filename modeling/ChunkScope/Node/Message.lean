import ChunkScope.Chunk
import ChunkScope.Json.Reader
import ChunkScope.Layout

/-!
# Messages

What a node and its clients say to each other, as JSON. Chunk ids travel as text, so that they keep
all their digits, and bytes travel as hexadecimal text. Each message has a reading and a JSON value
that is written for it, with its members in the order of the fields.
-/

namespace ChunkScope.Message

open Json (Reader)

/-- A word as a JSON number. -/
def wordJson (n : UInt64) : Json :=
  .int n.toNat

/-! ## Chunks -/

/-- A chunk that was asked for or stored: its id, the number of its bytes, and their digits. -/
structure ChunkAnswer where
  chunkId : String
  size : UInt64
  data : String
deriving DecidableEq, Inhabited

/-- Reads a chunk. -/
def ChunkAnswer.read : Reader ChunkAnswer :=
  Reader.record default [
    .required "chunk_id" Reader.text fun chunkId answer => { answer with chunkId },
    .required "size" Decoding.word64 fun size answer => { answer with size },
    .required "data" Reader.text fun data answer => { answer with data }]

/-- A chunk as JSON. -/
def ChunkAnswer.toJson (answer : ChunkAnswer) : Json :=
  .object [("chunk_id", .string answer.chunkId), ("size", wordJson answer.size),
    ("data", .string answer.data)]

/-- The wish to store a chunk: the digits of its bytes, and the local id to store it under, or none
for the next free one. -/
structure CreateRequest where
  data : String
  localId : Option UInt64
deriving DecidableEq, Inhabited

/-- Reads the wish to store a chunk; a local id that is `null` is none. -/
def CreateRequest.read : Reader CreateRequest :=
  Reader.record default [
    .required "data" Reader.text fun data request => { request with data },
    .optional "local_id" (Reader.optional Decoding.word64) fun localId request =>
      { request with localId }]

/-- The wish to store a chunk as JSON; a local id that is none is left out. -/
def CreateRequest.toJson (request : CreateRequest) : Json :=
  .object (("data", .string request.data) ::
    (request.localId.map fun slot => ("local_id", wordJson slot)).toList)

/-- Whether a chunk that was to be dropped had been there. -/
structure RemoveAnswer where
  removed : Bool
deriving DecidableEq, Inhabited

/-- Reads whether there was a chunk. -/
def RemoveAnswer.read : Reader RemoveAnswer :=
  Reader.record default [
    .required "removed" Reader.flag fun removed answer => { answer with removed }]

/-- Whether there was a chunk, as JSON. -/
def RemoveAnswer.toJson (answer : RemoveAnswer) : Json :=
  .object [("removed", .bool answer.removed)]

/-- A chunk of some size, read as a structure. -/
structure TypedAnswer where
  chunkId : String
  typeName : String
  size : UInt64
  value : Json
deriving DecidableEq, Inhabited

/-- Reads a structure. -/
def TypedAnswer.read : Reader TypedAnswer :=
  Reader.record default [
    .required "chunk_id" Reader.text fun chunkId answer => { answer with chunkId },
    .required "type_name" Reader.text fun typeName answer => { answer with typeName },
    .required "size" Decoding.word64 fun size answer => { answer with size },
    .required "value" Reader.value fun value answer => { answer with value }]

/-- A structure as JSON. -/
def TypedAnswer.toJson (answer : TypedAnswer) : Json :=
  .object [("chunk_id", .string answer.chunkId), ("type_name", .string answer.typeName),
    ("size", wordJson answer.size), ("value", answer.value)]

/-! ## Nodes -/

/-- What a node says about itself: its number, how many chunks it hosts and how many bytes they
have, and the names of the structures that it knows. -/
structure StatusAnswer where
  nodeId : UInt16
  chunks : UInt64
  bytes : UInt64
  types : List String
deriving DecidableEq, Inhabited

/-- Reads what a node says about itself. -/
def StatusAnswer.read : Reader StatusAnswer :=
  Reader.record default [
    .required "node_id" Decoding.word16 fun nodeId answer => { answer with nodeId },
    .required "chunks" Decoding.word64 fun chunks answer => { answer with chunks },
    .required "bytes" Decoding.word64 fun bytes answer => { answer with bytes },
    .required "types" (Reader.list Reader.text) fun types answer => { answer with types }]

/-- What a node says about itself, as JSON. -/
def StatusAnswer.toJson (answer : StatusAnswer) : Json :=
  .object [("node_id", .int answer.nodeId.toNat), ("chunks", wordJson answer.chunks),
    ("bytes", wordJson answer.bytes), ("types", .array (answer.types.map .string))]

/-- The layouts of the structures that a node knows. -/
structure TypesAnswer where
  types : List Layout
deriving DecidableEq, Inhabited

/-- Reads the structures of a node. -/
def TypesAnswer.read : Reader TypesAnswer :=
  Reader.record default [
    .required "types" (Reader.list Layout.decode) fun types answer => { answer with types }]

/-- The structures of a node as JSON. -/
def TypesAnswer.toJson (answer : TypesAnswer) : Json :=
  .object [("types", .array (answer.types.map Layout.toJson))]

end ChunkScope.Message
