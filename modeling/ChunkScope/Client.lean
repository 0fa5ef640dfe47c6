import ChunkScope.Config
import ChunkScope.Http.Message
import ChunkScope.Http.Url
import ChunkScope.Inspect
import ChunkScope.Json.Basic
import ChunkScope.Node.Message

/-!
# Clients

A client gives every request to the node that answers for it: the one that hosts the chunk, where
the cluster has an entry for it, and the default one otherwise. A request to a URL that is not
spoken to in HTTP fails like one to a node that is not there.
-/

namespace ChunkScope

/-- The number of seconds that a client was told to wait for a reply, if it was told one. -/
abbrev Client.Patience := Option UInt64

/-- A client and the nodes that it knows: where requests go by default, without slashes at the end,
and where the nodes of the cluster are found, of which the last entry of a node counts. -/
structure Client where
  base : String
  cluster : List Endpoint
  patience : Client.Patience
deriving DecidableEq

namespace Client

open Http Message

/-- How many seconds a client waits for a reply: thirty, if it was not told. -/
def Patience.seconds (patience : Patience) : Nat :=
  (patience.map UInt64.toNat).getD 30

/-- The answer of a node: its status code and body. -/
structure Reply where
  status : Nat
  body : Bytes
deriving DecidableEq

/-- What carries requests to nodes: the patience of the client, a method, a URL, a JSON body if
there is one, and the reply, if one comes back in time. -/
structure Transport (m : Type → Type) where
  send : Patience → Method → Url → Option String → m (Option Reply)

/-! ## Failures -/

/-- Why a request failed. A URL that is read may still have no path, below which something could be
put, and a body may be none of the message that was asked for. -/
inductive Failure where
  | invalidUrl (base : String)
  | noPath (base : String)
  | unreachable (url : String)
  | refused (status : Nat) (body : String)
  | unparsable
  | invalidHex
  | invalidId (text : String)
deriving DecidableEq

/-- What is said of a failure. -/
def Failure.message : Failure → String
  | invalidUrl base => "invalid node url " ++ base
  | noPath base => "node url " ++ base ++ " cannot take a path"
  | unreachable url => "failed to connect to peekd at " ++ url ++ " — is it running?"
  | refused status body => "request failed (" ++ Status.text status ++ "): " ++ body
  | unparsable => "failed to parse response"
  | invalidHex => "node returned invalid hex"
  | invalidId text => "node returned invalid chunk id " ++ Quoted.quote text

/-! ## Addresses -/

/-- A text without the slashes at its end. -/
def trimSlashes (text : String) : String :=
  String.ofList (text.toList.reverse.dropWhile (· == '/')).reverse

/-- The client of a configuration, in which a timeout of zero is none. -/
def ofConfig (config : Config) : Client where
  base := trimSlashes config.client.url
  cluster := config.cluster
  patience := if config.client.timeout = 0 then none else some config.client.timeout

/-- The client that gives all requests to one node. -/
def ofUrl (url : String) : Client :=
  ofConfig { client := { url } }

/-- Where the API of the default node is. -/
def defaultBase (client : Client) : String :=
  client.base ++ "/api"

/-- Where the API of a node is. -/
def baseFor (client : Client) (node : NodeId) : String :=
  match client.cluster.reverse.find? fun endpoint => endpoint.node = node with
  | some endpoint => trimSlashes endpoint.url ++ "/api"
  | none => client.defaultBase

/-- The URL with names below the API of a node. -/
def urlFor (client : Client) (node : NodeId) (names : List String) : Except Failure Url :=
  let base := client.baseFor node
  match Url.parse? base with
  | none => .error (.invalidUrl base)
  | some url =>
    match url.below? names with
    | none => .error (.noPath base)
    | some url => .ok url

/-! ## Replies -/

/-- The body of a reply as it is shown, without the mark of UTF-8 that may stand at its front. -/
def Reply.text (reply : Reply) : String :=
  match reply.body with
  | 0xEF :: 0xBB :: 0xBF :: rest => Utf8.decodeLossy rest
  | body => Utf8.decodeLossy body

/-- The message in a reply. -/
def Reply.message {α : Type} (reader : Json.Reader α) (reply : Reply) : Except Failure α :=
  if Status.isSuccess reply.status then
    match reader.runBytes reply.body with
    | .ok a => .ok a
    | .error _ => .error .unparsable
  else .error (.refused reply.status reply.text)

/-- The id of a chunk that a node says it has stored. -/
def Reply.created (reply : Reply) : Except Failure ChunkId :=
  match reply.message ChunkAnswer.read with
  | .error failure => .error failure
  | .ok answer =>
    match ChunkId.parse? answer.chunkId with
    | some id => .ok id
    | none => .error (.invalidId answer.chunkId)

/-- The chunk in a reply, or none if the node does not have it. -/
def Reply.chunk (id : ChunkId) (reply : Reply) : Except Failure (Option Chunk) :=
  if reply.status = 404 then .ok none
  else
    match reply.message ChunkAnswer.read with
    | .error failure => .error failure
    | .ok answer =>
      match Hex.decode? answer.data with
      | some data => .ok (some ⟨id, data⟩)
      | none => .error .invalidHex

/-- The structure in a reply, or none if the node does not have it. -/
def Reply.typed (reply : Reply) : Except Failure (Option TypedObject) :=
  if reply.status = 404 then .ok none
  else
    match reply.message TypedAnswer.read with
    | .error failure => .error failure
    | .ok answer => .ok (some ⟨answer.typeName, answer.size, answer.value⟩)

/-! ## Requests -/

section Requests

variable {m : Type → Type} [Monad m]

/-- Sends a request to a URL; `shown` is how the URL is named when there is no reply. -/
def send (client : Client) (transport : Transport m) (method : Method) (url : Url) (shown : String)
    (body : Option String) : m (Except Failure Reply) := do
  if url.IsHttp then
    match ← transport.send client.patience method url body with
    | some reply => return .ok reply
    | none => return .error (.unreachable shown)
  else return .error (.unreachable shown)

/-- Sends a request to the URL that a text writes. -/
def sendText (client : Client) (transport : Transport m) (method : Method) (text : String)
    (body : Option String) : m (Except Failure Reply) :=
  match Url.parse? text with
  | some url => client.send transport method url text body
  | none => pure (.error (.unreachable text))

/-- Stores a chunk on the default node. -/
def create (client : Client) (transport : Transport m) (data : Bytes) (slot : Option LocalId) :
    m (Except Failure ChunkId) := do
  let body := (CreateRequest.toJson ⟨Hex.encode data, slot.map LocalId.value⟩).compact
  let reply ← client.sendText transport .post (client.defaultBase ++ "/chunks") (some body)
  return reply.bind Reply.created

/-- What the default node says about itself. -/
def status (client : Client) (transport : Transport m) : m (Except Failure StatusAnswer) := do
  let reply ← client.sendText transport .get (client.defaultBase ++ "/status") none
  return reply.bind (Reply.message StatusAnswer.read)

/-- The structures that the default node knows. -/
def types (client : Client) (transport : Transport m) : m (Except Failure (List Layout)) := do
  let reply ← client.sendText transport .get (client.defaultBase ++ "/types") none
  return (reply.bind (Reply.message TypesAnswer.read)).map TypesAnswer.types

/-- Sends a request for what some names below the API of a node stand for. -/
def get (client : Client) (transport : Transport m) (node : NodeId) (names : List String) :
    m (Except Failure Reply) :=
  match client.urlFor node names with
  | .error failure => pure (.error failure)
  | .ok url => client.send transport .get url url.text none

/-- One chunk, if its node has it. -/
def fetchOne (client : Client) (transport : Transport m) (id : ChunkId) :
    m (Except Failure (Option Chunk)) := do
  let reply ← client.get transport id.node ["chunks", id.text]
  return reply.bind (Reply.chunk id)

/-- The chunks of some ids, one request after the other up to the first failure. -/
def fetchAll (client : Client) (transport : Transport m) :
    List ChunkId → m (Except Failure (List Chunk))
  | [] => pure (.ok [])
  | id :: ids => do
    match ← client.fetchOne transport id with
    | .error failure => return .error failure
    | .ok chunk =>
      match ← client.fetchAll transport ids with
      | .error failure => return .error failure
      | .ok chunks => return .ok (chunk.toList ++ chunks)

/-- The chunks of some ids, without those that are not there. -/
def fetch (client : Client) (transport : Transport m) (ids : List ChunkId) :
    m (Except Failure Fetched) := do
  return (← client.fetchAll transport ids).map Fetched.ofChunks

/-- A chunk read as a structure by its node. -/
def typed (client : Client) (transport : Transport m) (id : ChunkId) (typeName : String) :
    m (Except Failure (Option TypedObject)) := do
  let reply ← client.get transport id.node ["chunks", id.text, "typed", typeName]
  return reply.bind Reply.typed

/-- The cluster of a client as a source of chunks. -/
def source (client : Client) (transport : Transport m) : Inspect.Source Failure m where
  combine node slot := pure (ChunkId.pack node slot)
  fetch := client.fetch transport
  typed := client.typed transport

end Requests

end Client

end ChunkScope
