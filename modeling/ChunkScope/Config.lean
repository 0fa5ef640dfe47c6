import ChunkScope.Chunk
import ChunkScope.Document
import ChunkScope.Files
import ChunkScope.Layout
import ChunkScope.Text.Encoding
import ChunkScope.Toml.Document

/-!
# Configurations

The settings of a node and of its clients. Every section and every setting in it may be left out
and then has its default; the entries of the cluster and the layouts are complete or refused.
-/

namespace ChunkScope

/-- Where the API of a node of the cluster is found. -/
structure Endpoint where
  node : NodeId
  url : String
deriving DecidableEq, Inhabited

/-- The settings of a node. -/
structure Config.Node where
  id : NodeId := ⟨1⟩
  port : UInt16 := 9101
deriving DecidableEq

/-- The settings of a client: the URL for nodes without an entry in the cluster, and how many
seconds a request may take, where zero is no limit. -/
structure Config.Client where
  url : String := "http://127.0.0.1:9101"
  timeout : UInt64 := 10
deriving DecidableEq

/-- All settings: those of the node and of the client, the nodes of the cluster, and the layouts
that the node knows. -/
structure Config where
  node : Config.Node := {}
  client : Config.Client := {}
  cluster : List Endpoint := []
  types : List Layout := []
deriving DecidableEq

/-! ## Reading -/

section Decode

variable {R : Type → Type} [Decoding R]

/-- Reads an entry of the cluster. -/
def Endpoint.decode : R Endpoint :=
  Decoding.record default [
    .required "node_id" Decoding.word16 fun id endpoint => { endpoint with node := ⟨id⟩ },
    .required "url" Decoding.text fun url endpoint => { endpoint with url }]

namespace Config

/-- Reads the settings of a node. -/
def Node.decode : R Config.Node :=
  Decoding.record {} [
    .optional "node_id" Decoding.word16 fun id node => { node with id := ⟨id⟩ },
    .optional "api_port" Decoding.word16 fun port node => { node with port }]

/-- Reads the settings of a client. -/
def Client.decode : R Config.Client :=
  Decoding.record {} [
    .optional "default_url" Decoding.text fun url client => { client with url },
    .optional "timeout_secs" Decoding.word64 fun timeout client => { client with timeout }]

/-- Reads the section of the cluster. -/
def decodeCluster : R (List Endpoint) :=
  Decoding.record [] [
    .optional "nodes" (Decoding.list Endpoint.decode) fun nodes _ => nodes]

/-- Reads all settings. -/
def decode : R Config :=
  Decoding.record {} [
    .optional "node" Node.decode fun node config => { config with node },
    .optional "client" Client.decode fun client config => { config with client },
    .optional "cluster" decodeCluster fun cluster config => { config with cluster },
    .optional "types" (Decoding.list Layout.decode) fun types config => { config with types }]

end Config

end Decode

/-! ## Writing -/

/-- An entry of the cluster as JSON. -/
def Endpoint.toJson (endpoint : Endpoint) : Json :=
  .object [("node_id", .int endpoint.node.value.toNat), ("url", .string endpoint.url)]

namespace Config

/-- All settings as JSON; layouts are left out when there are none. -/
def toJson (config : Config) : Json :=
  let types := config.types.map Layout.toJson
  .object ([
    ("node", .object [("node_id", .int config.node.id.value.toNat),
      ("api_port", .int config.node.port.toNat)]),
    ("client", .object [("default_url", .string config.client.url),
      ("timeout_secs", .int config.client.timeout.toNat)]),
    ("cluster", .object [("nodes", .array (config.cluster.map Endpoint.toJson))])] ++
    if types.isEmpty then [] else [("types", .array types)])

end Config

/-! ## Where the configuration is

The file that a variable names, or else one below the directory for configurations, or else one
below the home directory. -/

/-- The variables of an environment. -/
abbrev Environment := String → Option String

namespace Config

/-- The home directory. -/
def home (environment : Environment) : String :=
  (environment "HOME").getD "/tmp"

/-- The directory of the configuration. -/
def directory (environment : Environment) : String :=
  let base := (environment "XDG_CONFIG_HOME").getD (Files.Path.join (home environment) ".config")
  Files.Path.join base "peek"

/-- The path of the configuration. -/
def path (environment : Environment) : String :=
  (environment "PEEK_CONFIG").getD (Files.Path.join (directory environment) "config.toml")

end Config

end ChunkScope

/-! ## Loading

Settings are taken from the environment, then from the file, then from the defaults. A file that is
not there is no fault; one that cannot be read or understood is. -/

namespace ChunkScope.Config

/-! ### The environment -/

/-- The names of the variables that are looked at. -/
def variableNames : List String :=
  ["PEEK_CONFIG", "XDG_CONFIG_HOME", "HOME", "PEEK_NODE__NODE_ID", "PEEK_NODE__API_PORT",
    "PEEK_CLIENT__DEFAULT_URL", "PEEK_CLIENT__TIMEOUT_SECS"]

/-- Settings with those replaced that the environment has. A number that cannot be read is left
out. -/
def override (environment : Environment) (config : Config) : Config where
  node := {
    id := ((environment "PEEK_NODE__NODE_ID").bind Numeral.word16?).elim config.node.id NodeId.mk
    port := ((environment "PEEK_NODE__API_PORT").bind Numeral.word16?).getD config.node.port }
  client := {
    url := (environment "PEEK_CLIENT__DEFAULT_URL").getD config.client.url
    timeout :=
      ((environment "PEEK_CLIENT__TIMEOUT_SECS").bind Numeral.word64?).getD config.client.timeout }
  cluster := config.cluster
  types := config.types

/-! ### The file -/

/-- Why the configuration could not be loaded or written. A file cannot be parsed when it is no
TOML, or when its values are not those of settings. -/
inductive Failure where
  | unreadable (path : String) (fault : Files.Fault)
  | unparsable (path : String)
  | unwritable (path : String) (fault : Files.Fault)
deriving DecidableEq

/-- What is said of a failure. -/
def Failure.message : Failure → String
  | unreadable path fault => "failed to read " ++ path ++ ": " ++ fault.message
  | unparsable path => "failed to parse " ++ path
  | unwritable path fault => "failed to write " ++ path ++ ": " ++ fault.message

/-- The settings that a text has. -/
def ofToml? (text : String) : Option Config :=
  Toml.Decoder.run decode text

/-- The settings in the bytes of a file. -/
def ofFile (path : String) : Except Files.Fault Bytes → Except Failure Config
  | .error fault => .error (.unreadable path fault)
  | .ok data =>
    match Utf8.decode? data with
    | none => .error (.unreadable path .notText)
    | some text =>
      match ofToml? text with
      | none => .error (.unparsable path)
      | some config => .ok config

variable {m : Type → Type} [Monad m]

/-- The settings in a file, or the defaults if it is not there. -/
def readFile (files : Files.Access m) (path : String) : m (Except Failure Config) := do
  if ← files.isThere path then
    return ofFile path (← files.read path)
  else
    return .ok {}

/-- The settings of an environment and its file. -/
def load (files : Files.Access m) (environment : Environment) : m (Except Failure Config) := do
  let config ← readFile files (path environment)
  return config.map (override environment)

/-- The text of the default settings. -/
def defaultText : String :=
  "[node]\nnode_id = 1\napi_port = 9101\n\n" ++
  "[client]\ndefault_url = \"http://127.0.0.1:9101\"\ntimeout_secs = 10\n\n" ++
  "[cluster]\nnodes = []\n"

/-- Makes the directory that a path is in, if the path has a name in it. -/
def createParent (files : Files.Access m) (path : String) : m (Except Files.Fault Unit) :=
  match Files.Path.parent? path with
  | none | some "" => pure (.ok ())
  | some directory => files.createDirectories directory

/-- Writes the default settings to a file and makes the directories that it is in. -/
def writeFile (files : Files.Access m) (path : String) : m (Except Failure String) := do
  match ← createParent files path with
  | .error fault => return .error (.unwritable path fault)
  | .ok () =>
    match ← files.write path (Utf8.encode defaultText) with
    | .error fault => return .error (.unwritable path fault)
    | .ok () => return .ok path

/-- Writes the default settings unless there is a file already, and gives its path. -/
def writeDefault (files : Files.Access m) (environment : Environment) :
    m (Except Failure String) := do
  let path := path environment
  if ← files.isThere path then
    return .ok path
  else
    writeFile files path

end ChunkScope.Config
