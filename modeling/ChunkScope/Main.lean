import Std.Async.DNS
import Std.Async.TCP
import Std.Async.Timer
import ChunkScope.Client
import ChunkScope.Config
import ChunkScope.Http.Message
import ChunkScope.Node.Api
import ChunkScope.Terminal

/-!
# The programs on the machine

The command line of the client, and the node when the program is called by the name of the node, on
the files and the network of the machine.
-/

/-! ## Files and the environment -/

namespace ChunkScope.Machine

/-- A fault as the machine reports it. -/
def fault : IO.Error → Files.Fault
  | .noFileOrDirectory .. => .missing
  | .alreadyExists .. => .present
  | .inappropriateType _ code details =>
    if code = 20 then .notDirectory else if code = 21 then .isDirectory else .other details
  | error => .other error.toString

/-- What comes of an action on files. -/
def attempt {α : Type} (action : IO α) : IO (Except Files.Fault α) := do
  match ← action.toBaseIO with
  | .ok a => return .ok a
  | .error error => return .error (fault error)

/-- The file system of the machine. -/
def files : Files.Access IO where
  isThere path := do return (← (IO.FS.realPath path).toBaseIO).isOk
  read path := attempt do return (← IO.FS.readBinFile path).toList
  write path data := attempt (IO.FS.writeBinFile path ⟨data.toArray⟩)
  createDirectories path := attempt (IO.FS.createDirAll path)

/-- The variables that the programs look at. -/
def environment : IO Environment := do
  let pairs ← Config.variableNames.filterMapM fun name => do
    return (← IO.getEnv name).map fun value => (name, value)
  return fun name => pairs.lookup name

/-! ## The network, as a client uses it

Each request has a connection of its own. Whatever goes wrong with it, no reply comes back. There
are no encrypted connections here, so no reply comes back from a URL that asks for one either. -/

open Std.Async Std.Net

/-- The place on the network that an address and a port make. -/
def socketAddress (port : UInt16) : IPAddr → SocketAddress
  | .v4 addr => .v4 ⟨addr, port⟩
  | .v6 addr => .v6 ⟨addr, port⟩

/-- The name of a host without the brackets around an address. -/
def hostName (host : String) : String :=
  String.ofList (host.toList.filter fun c => c ≠ '[' && c ≠ ']')

/-- Opens a connection to the first of some addresses that takes it. -/
def connectTo (port : UInt16) : List IPAddr → Async TCP.Socket.Client
  | [] => throw (IO.userError "no address")
  | address :: others => do
    try
      let socket ← TCP.Socket.Client.mk
      socket.connect (socketAddress port address)
      return socket
    catch error =>
      if others.isEmpty then throw error else connectTo port others

/-- Everything that arrives until the connection is closed. -/
partial def receiveAll (socket : TCP.Socket.Client) (seen : Bytes) : Async Bytes := do
  match ← socket.recv? 65536 with
  | none => return seen
  | some data => receiveAll socket (seen ++ data.toList)

/-- Sends bytes to whoever answers for a URL, and receives bytes back. -/
def exchange (authority : Http.Url.Authority) (data : Bytes) : Async Bytes := do
  let port := authority.port.getD 80
  let addresses ← DNS.getAddrInfo (hostName authority.host) (toString port)
  let socket ← connectTo port.toUInt16 addresses.toList
  socket.send ⟨data.toArray⟩
  receiveAll socket []

/-- What an action gives, unless it takes longer than some seconds. -/
def within {α : Type} [Inhabited α] (seconds : Nat) (action : Async α) : Async α :=
  Async.race action do
    -- a timer counts milliseconds in a word, and no one waits for longer than these years
    sleep (.ofNat (min seconds 0xFFFFFFFF * 1000))
    throw (IO.userError "no reply in time")

/-- The network of the machine as what carries requests. -/
def transport : Client.Transport IO where
  send patience method url body := do
    if url.scheme = "https" then return none
    let some authority := url.authority | return none
    let data := Http.Transfer.encodeRequest method url body
    match ← (within patience.seconds (exchange authority data)).block.toBaseIO with
    | .error _ => return none
    | .ok data =>
      return (Http.Transfer.decodeResponse? data).map fun (status, body) => ⟨status, body⟩

/-! ## The network, as a node uses it

A node listens on the machine itself and answers one request on each connection. Its store is shared
by all connections, and each request changes it in one step. -/

/-- The request that arrives on a connection, unless the connection is closed before. -/
partial def receiveRequest (socket : TCP.Socket.Client) (seen : Bytes) :
    Async (Option Http.Request) := do
  match Http.Transfer.decodeRequest? seen with
  | some request => return some request
  | none =>
    match ← socket.recv? 65536 with
    | none => return none
    | some data => receiveRequest socket (seen ++ data.toList)

/-- Answers the request on a connection. -/
def answer (store : IO.Ref Store) (socket : TCP.Socket.Client) : Async Unit := do
  match ← receiveRequest socket [] with
  | none => return
  | some request =>
    let response ← store.modifyGet (Node.Api.respond request)
    socket.send ⟨(Http.Transfer.encodeResponse response).toArray⟩
    socket.shutdown

/-- Answers all connections, each on its own. -/
partial def answerAll (server : TCP.Socket.Server) (store : IO.Ref Store) : IO Unit := do
  let socket ← server.accept.block
  let _ ← IO.asTask (answer store socket).block .dedicated
  answerAll server store

/-- Serves the API of a node. -/
def serve (node : Terminal.Daemon.Ready) : IO Unit := do
  let server ← TCP.Socket.Server.mk
  server.bind (.v4 ⟨.ofParts 127 0 0 1, node.port⟩)
  server.listen 128
  answerAll server (← IO.mkRef node.store)

end ChunkScope.Machine

/-! ## Programs -/

namespace ChunkScope

open Terminal

/-- Prints what a run leaves behind, and gives its exit code. -/
def finish (output : Output) : IO UInt32 := do
  IO.eprint output.err
  IO.print output.out
  return output.exit.toUInt32

/-- One run of the client. -/
def runClient (words : List String) : IO UInt32 := do
  finish (← Terminal.run Machine.files Machine.transport (← Machine.environment) words)

/-- A node, which runs until it is stopped. -/
def runNode (words : List String) : IO UInt32 := do
  match ← Daemon.prepare Machine.files (← Machine.environment) words.head? with
  | .error output => finish output
  | .ok node =>
    match ← (Machine.serve node).toBaseIO with
    | .ok () => return 0
    | .error _ => finish (.failure "API server failed")

/-- The name that the program was called by. -/
def calledName : IO String := do
  return ((Files.Path.names (← IO.appPath).toString).getLast?).getD ""

end ChunkScope

/-- Runs the program that the name asks for. -/
def main (words : List String) : IO UInt32 := do
  if (← ChunkScope.calledName) = "peekd" then ChunkScope.runNode words
  else ChunkScope.runClient words
