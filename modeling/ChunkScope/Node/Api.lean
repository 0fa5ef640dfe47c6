import ChunkScope.Chunk
import ChunkScope.Http.Message
import ChunkScope.Json.Basic
import ChunkScope.Layout
import ChunkScope.Node.Message
import ChunkScope.Text.Encoding

/-!
# Nodes

The chunks of a node, how it answers requests, and what they do to its chunks. Only a chunk that is
stored and a chunk that is dropped change the store; every other request leaves it as it is.
-/

/-! ## Stores

The chunks of one node. New chunks get the local id behind the largest one that was ever used on
the node, so an id is not handed out twice while there are ids left. -/

namespace ChunkScope

/-- The chunks of one node by their ids, in ascending order, the local id of the next new chunk, and
the layouts that the node knows. -/
structure Store where
  node : NodeId
  chunks : List (ChunkId × Bytes)
  nextSlot : UInt64
  types : Registry
deriving DecidableEq

namespace Store

/-- The store of a node without chunks. -/
def empty (node : NodeId) (types : Registry) : Store :=
  ⟨node, [], 1, types⟩

/-- Stores a chunk under a local id, in place of the chunk that was there. -/
def put (slot : LocalId) (data : Bytes) (store : Store) : ChunkId × Store :=
  let id := ChunkId.pack store.node slot
  (id, { store with
    chunks := Keyed.insert id data store.chunks
    nextSlot := max store.nextSlot (id.slot.value + 1) })

/-- Stores a chunk under the next local id. -/
def create (data : Bytes) (store : Store) : ChunkId × Store :=
  put ⟨store.nextSlot⟩ data { store with nextSlot := store.nextSlot + 1 }

/-- The bytes of a chunk. -/
def get? (store : Store) (id : ChunkId) : Option Bytes :=
  Keyed.find? id store.chunks

/-- Drops a chunk, and tells whether it was there. -/
def remove (id : ChunkId) (store : Store) : Bool × Store :=
  ((store.get? id).isSome, { store with chunks := Keyed.erase id store.chunks })

/-- Drops all chunks; their ids are not handed out again. -/
def clear (store : Store) : Store :=
  { store with chunks := [] }

/-- The number of chunks. -/
def count (store : Store) : Nat :=
  store.chunks.length

/-- The number of bytes in all chunks. -/
def size (store : Store) : Nat :=
  Keyed.total List.length store.chunks

/-- The chunks of some ids, without those that are not there. -/
def fetch (store : Store) (ids : List ChunkId) : Fetched :=
  .ofChunks (ids.filterMap fun id => (store.get? id).map (Chunk.mk id))

/-- A chunk read as the structure of a name, if both are there and fit. -/
def typed? (store : Store) (id : ChunkId) (typeName : String) : Option TypedObject :=
  (store.get? id).bind fun data => (store.types.read typeName data).toOption

end Store

end ChunkScope

/-! ## Routes

The resources of a node and their paths. A parameter of a path is one segment of it, which must not
be empty, and is decoded by whoever uses it. -/

namespace ChunkScope.Node

/-- A resource of a node. -/
inductive Route where
  | status
  | types
  | chunks
  | chunk (id : List Char)
  | typed (id typeName : List Char)
deriving DecidableEq

namespace Route

/-- The path of a target, without a query or fragment. -/
def path (target : String) : List Char :=
  target.toList.takeWhile fun c => c ≠ '?' && c ≠ '#'

/-- The resource that the segments of a path name. -/
def ofSegments? : List (List Char) → Option Route
  | [] :: api :: rest =>
    if api = "api".toList then
      match rest with
      | [name] =>
        if name = "status".toList then some status
        else if name = "types".toList then some types
        else if name = "chunks".toList then some chunks
        else none
      | [name, id] =>
        if name = "chunks".toList ∧ id ≠ [] then some (chunk id) else none
      | [name, id, word, typeName] =>
        if name = "chunks".toList ∧ id ≠ [] ∧ word = "typed".toList ∧ typeName ≠ [] then
          some (typed id typeName)
        else none
      | _ => none
    else none
  | _ => none

/-- The resource that a target names. -/
def ofTarget? (target : String) : Option Route :=
  ofSegments? ((path target).splitOn '/')

end Route

/-! ## Answers -/

open Http Message

/-- Why a request was turned away before it was looked into: its body is not declared to be JSON, is
longer than a node takes, breaks the rules of JSON, or has another form than the one asked for, or a
parameter of its path is no text. -/
inductive Rejection where
  | notJson
  | tooLong
  | malformed
  | mismatch
  | path
deriving DecidableEq

namespace Rejection

/-- The status code of a rejection. -/
def status : Rejection → Nat
  | notJson => 415
  | tooLong => 413
  | malformed => 400
  | mismatch => 422
  | path => 400

/-- What is said of a rejected request. -/
def message : Rejection → String
  | notJson => "the body must be declared as application/json"
  | tooLong => "Failed to buffer the request body: length limit exceeded"
  | malformed => "the body is not well-formed JSON"
  | mismatch => "the body does not have the fields of a request"
  | path => "the path is not well-formed UTF-8"

end Rejection

/-- The answer to a request: what was asked for, what is wrong with that, why the request was turned
away, or a status code and nothing else. -/
inductive Answer where
  | done (body : Json)
  | refused (status : Nat) (message : String)
  | rejected (rejection : Rejection)
  | bare (status : Nat)
deriving DecidableEq

namespace Answer

/-- The status code of an answer. -/
def status : Answer → Nat
  | done _ => 200
  | refused status _ => status
  | rejected rejection => rejection.status
  | bare status => status

/-- What the body of an answer is declared to be. -/
def contentType : Answer → Option String
  | done _ => some "application/json"
  | refused _ _ | rejected _ => some "text/plain; charset=utf-8"
  | bare _ => none

/-- The body of an answer. -/
def body : Answer → String
  | done body => body.compact
  | refused _ message => message
  | rejected rejection => rejection.message
  | bare _ => ""

/-- The response that carries an answer: any page may read it, and the answer to a request for the
head alone has no body. -/
def response (method : Method) (answer : Answer) : Response :=
  ⟨answer.status, answer.contentType, some "*", if method = .head then "" else answer.body⟩

end Answer

namespace Api

/-- The answer for a chunk that is not there. -/
def notFound (id : ChunkId) : Answer :=
  .refused 404 ("chunk " ++ id.text ++ " not found")

/-- The answer to a chunk id, or the refusal of a text that is none. -/
def withId (text : String) (answer : ChunkId → Answer × Store) (store : Store) : Answer × Store :=
  match ChunkId.parse? text with
  | some id => answer id
  | none => (.refused 400 (ChunkId.refusal text), store)

/-! ### Reading -/

/-- What a node says about itself. -/
def status (store : Store) : StatusAnswer :=
  ⟨store.node.value, UInt64.ofNat store.count, UInt64.ofNat store.size, store.types.names⟩

/-- A chunk. -/
def getChunk (id : ChunkId) (store : Store) : Answer :=
  match store.get? id with
  | some data =>
    .done (ChunkAnswer.toJson ⟨id.text, UInt64.ofNat data.length, Hex.encode data⟩)
  | none => notFound id

/-- A chunk as the structure of a name. -/
def getTyped (id : ChunkId) (typeName : String) (store : Store) : Answer :=
  if (store.types.get? typeName).isNone then .refused 404 ("unknown type " ++ typeName)
  else
    match store.typed? id typeName with
    | some object =>
      .done (TypedAnswer.toJson ⟨id.text, object.typeName, object.size, object.value⟩)
    | none => notFound id

/-! ### Writing -/

/-- Stores the chunk that a request holds. -/
def createChunk (request : CreateRequest) (store : Store) : Answer × Store :=
  match Hex.decode? request.data with
  | none => (.refused 400 "invalid hex", store)
  | some data =>
    let done (stored : ChunkId × Store) : Answer × Store :=
      (.done (ChunkAnswer.toJson ⟨stored.1.text, UInt64.ofNat data.length,
        request.data.map Char.toLower⟩), stored.2)
    match request.localId with
    | none => done (store.create data)
    | some slot =>
      if slot = 0 ∨ ChunkId.localMask < slot then
        (.refused 400 ("local id " ++ Numeral.decimal slot.toNat ++ " out of range"), store)
      else done (store.put ⟨slot⟩ data)

/-- The most bytes that the body of a request may have. -/
def bodyLimit : Nat := 0x200000

/-- Reads the body of a request that must be declared as JSON. -/
def readBody {α : Type} (reader : Json.Reader α) (request : Request) : Except Rejection α :=
  if request.contentType.any MediaType.declaresJson then
    if bodyLimit < request.body.length then .error .tooLong
    else
      match reader.runBytes request.body with
      | .ok a => .ok a
      | .error .mismatch => .error .mismatch
      | .error .malformed | .error .truncated => .error .malformed
  else .error .notJson

/-- Stores the chunk that a body holds. -/
def postChunk (request : Request) (store : Store) : Answer × Store :=
  match readBody CreateRequest.read request with
  | .ok body => createChunk body store
  | .error rejection => (.rejected rejection, store)

/-- Drops a chunk. -/
def deleteChunk (id : ChunkId) (store : Store) : Answer × Store :=
  let (removed, store) := store.remove id
  (.done (RemoveAnswer.toJson ⟨removed⟩), store)

/-! ### Requests -/

/-- Answers a request for a resource of the node. -/
def onRoute (request : Request) (store : Store) : Route → Answer × Store
  | .status =>
    match request.method with
    | .get | .head => (.done (status store).toJson, store)
    | _ => (.bare 405, store)
  | .types =>
    match request.method with
    | .get | .head => (.done (TypesAnswer.toJson ⟨store.types.layouts⟩), store)
    | _ => (.bare 405, store)
  | .chunks =>
    match request.method with
    | .post => postChunk request store
    | _ => (.bare 405, store)
  | .chunk id =>
    match request.method, Percent.decode? id with
    | .get, none | .head, none | .delete, none => (.rejected .path, store)
    | .get, some id | .head, some id =>
      withId id (fun id => (getChunk id store, store)) store
    | .delete, some id => withId id (fun id => deleteChunk id store) store
    | _, _ => (.bare 405, store)
  | .typed id typeName =>
    match request.method, Percent.decode? id, Percent.decode? typeName with
    | .get, some id, some typeName | .head, some id, some typeName =>
      withId id (fun id => (getTyped id typeName store, store)) store
    | .get, _, _ | .head, _, _ => (.rejected .path, store)
    | _, _, _ => (.bare 405, store)

/-- Answers a request. Questions about what is allowed are always answered. -/
def handle (request : Request) (store : Store) : Answer × Store :=
  if request.method = .options then (.bare 200, store)
  else
    match Route.ofTarget? request.target with
    | some route => onRoute request store route
    | none => (.bare 404, store)

/-- The response to a request, and the store behind it. -/
def respond (request : Request) (store : Store) : Response × Store :=
  let (answer, store) := handle request store
  (answer.response request.method, store)

end Api

end ChunkScope.Node
