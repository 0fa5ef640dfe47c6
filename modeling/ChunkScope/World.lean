import ChunkScope.Client
import ChunkScope.Files
import ChunkScope.Node.Api

/-!
# Worlds

What is around a program, as one value: the nodes of a network, and files.
-/

/-! ## Networks of nodes

Nodes that answer requests by their API, each at the authority of its URLs. Replies may also be laid
down beforehand, and then come in their order before any node is asked. A reply takes some time, and
is lost to a client that does not wait for it. On a network that is down nothing is sent at all. -/

namespace ChunkScope

/-- A request as it went over a network. -/
structure Network.Sent where
  method : Http.Method
  url : Http.Url
  body : Option String
deriving DecidableEq

/-- A network of nodes: whether anything can be sent, how many seconds a reply takes, the replies
that come before any node is asked, the nodes, each with its authority, of which the first one
counts, and the requests that were sent, in their order. -/
structure Network where
  isUp : Bool
  delay : Nat
  replies : List Client.Reply
  hosts : List (String × Store)
  log : List Network.Sent

namespace Network

/-- Changes the value of the first pair of a key. -/
def setFirst (key : String) (store : Store) : List (String × Store) → List (String × Store)
  | [] => []
  | (k, s) :: rest => if key = k then (k, store) :: rest else (k, s) :: setFirst key store rest

/-- A reply as it arrives: some status codes are never followed by a body. -/
def arriving (status : Nat) (body : Bytes) : Client.Reply :=
  ⟨status, if status = 204 ∨ status = 304 then [] else body⟩

/-- The request that a node gets. -/
def request (sent : Sent) : Http.Request where
  method := sent.method
  target := sent.url.target
  contentType := sent.body.map fun _ => "application/json"
  body := (sent.body.map Utf8.encode).getD []

/-- Has the node at a place answer a request; there may be none. -/
def ask (place : String) (sent : Sent) (hosts : List (String × Store)) :
    Option Client.Reply × List (String × Store) :=
  match hosts.lookup place with
  | none => (none, hosts)
  | some store =>
    let (response, store) := Node.Api.respond (request sent) store
    (some (arriving response.status (Utf8.encode response.body)), setFirst place store hosts)

/-- The reply to a request, and the network behind it. -/
def deliver (sent : Sent) (network : Network) : Option Client.Reply × Network :=
  if network.isUp then
    let network := { network with log := network.log ++ [sent] }
    match network.replies with
    | reply :: replies => (some (arriving reply.status reply.body), { network with replies })
    | [] =>
      match sent.url.authority with
      | none => (none, network)
      | some authority =>
        let (reply, hosts) := ask authority.place sent network.hosts
        (reply, { network with hosts })
  else (none, network)

/-- Sends a request for a client of some patience, which may miss the reply. -/
def send (patience : Client.Patience) (sent : Sent) (network : Network) :
    Option Client.Reply × Network :=
  let (reply, behind) := network.deliver sent
  (if network.delay ≤ patience.seconds then reply else none, behind)

/-- A network as what carries requests. -/
def transport : Client.Transport (StateM Network) where
  send patience method url body := fun network => network.send patience ⟨method, url, body⟩

end Network

end ChunkScope

/-! ## Files and a network -/

namespace ChunkScope.Terminal

/-- What is around a program: files and a network. -/
structure World where
  files : Files.Tree
  network : Network

namespace World

/-- Does something with the files of a world. -/
def onFiles {α : Type} (action : StateM Files.Tree α) : StateM World α := fun world =>
  let (a, files) := action.run world.files
  (a, { world with files })

/-- Does something with the network of a world. -/
def onNetwork {α : Type} (action : StateM Network α) : StateM World α := fun world =>
  let (a, network) := action.run world.network
  (a, { world with network })

/-- The files of a world as a file system. -/
def access : Files.Access (StateM World) where
  isThere path := onFiles (Files.Tree.access.isThere path)
  read path := onFiles (Files.Tree.access.read path)
  write path data := onFiles (Files.Tree.access.write path data)
  createDirectories path := onFiles (Files.Tree.access.createDirectories path)

/-- The network of a world as what carries requests. -/
def transport : Client.Transport (StateM World) where
  send patience method url body := onNetwork (Network.transport.send patience method url body)

end World

end ChunkScope.Terminal
