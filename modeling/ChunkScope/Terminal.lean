import ChunkScope.Chunk
import ChunkScope.Client
import ChunkScope.Config
import ChunkScope.Files
import ChunkScope.Inspect
import ChunkScope.Node.Api

/-!
# The programs

What the client and the node do with the words of their command lines, the environment and the
files, and what they leave on their outputs.
-/

/-! ## Outputs -/

namespace ChunkScope.Terminal

/-- What a run of a program leaves behind: the exit code, and the texts on the standard output and
on the standard error. -/
structure Output where
  exit : UInt8
  out : String
  err : String
deriving DecidableEq

namespace Output

/-- A run that ends well. -/
def success (out : String) : Output := ⟨0, out, ""⟩

/-- A run that ends with an error. -/
def failure (message : String) : Output := ⟨1, "", "Error: " ++ message ++ "\n"⟩

/-- The same run with something said on the standard error before. -/
def warned (warning : String) (output : Output) : Output :=
  { output with err := warning ++ output.err }

/-- Lines of text. -/
def lines (texts : List String) : String :=
  String.join (texts.map (· ++ "\n"))

end Output

/-! ## The words of a put

A list of flags, each with a value behind it. Every pair is looked at, also when a later one takes
its place, and the first fault ends the reading. -/

/-- What is to be stored, and under which local id, as far as it was given. -/
structure Put where
  slot : Option LocalId
  data : Option Bytes
deriving DecidableEq

namespace Put

/-- The local id that a word writes. -/
def slot? (word : String) : Except String LocalId :=
  match Numeral.address? word.toList with
  | some slot => .ok ⟨slot⟩
  | none => .error ("invalid local id " ++ Quoted.quote word)

variable {m : Type → Type} [Monad m]

/-- Takes one flag and its value. -/
def take (files : Files.Access m) (put : Put) (flag value : String) : m (Except String Put) := do
  if flag = "--local" then
    return (slot? value).map fun slot => { put with slot := some slot }
  else if flag = "--hex" then
    match Hex.decode? value with
    | some data => return .ok { put with data := some data }
    | none => return .error "--hex must be hex-encoded bytes"
  else if flag = "--file" then
    match ← files.read value with
    | .ok data => return .ok { put with data := some data }
    | .error _ => return .error ("failed to read " ++ value)
  else
    return .error ("unknown option " ++ flag)

/-- Takes all flags and their values. -/
def takeAll (files : Files.Access m) (put : Put) : List String → m (Except String Put)
  | [] => pure (.ok put)
  | [flag] => pure (.error (flag ++ " requires a value"))
  | flag :: value :: rest => do
    match ← put.take files flag value with
    | .error message => return .error message
    | .ok put => takeAll files put rest

/-- What some words want stored, and under which local id. -/
def parse (files : Files.Access m) (words : List String) :
    m (Except String (Bytes × Option LocalId)) := do
  match ← takeAll files ⟨none, none⟩ words with
  | .error message => return .error message
  | .ok ⟨_, none⟩ => return .error "put requires --hex or --file"
  | .ok ⟨slot, some data⟩ => return .ok (data, slot)

end Put

/-! ## The command line

One run of the client: it loads the configuration, or warns and takes the defaults; it takes the
address of the default node out of its words, wherever it stands; and it carries out the command
that the other words make. -/

/-! ### What is shown -/

/-- How the program is used. -/
def usage : String :=
  Output.lines [
    "Usage: peek-ctl [--url <url>] <command>",
    "",
    "Commands:",
    "  get <cid> [type]                         Read a chunk as a named type",
    "  get <cid> [type] [hex] [offset] [length] Dump chunk bytes",
    "  get <cid> [offset] [length] [type] [hex] Dump chunk bytes",
    "  get <nid> <lid> ...                      Same, with a split id",
    "  put [--local <lid>] (--hex <bytes> | --file <path>)",
    "                                           Store a chunk on the node",
    "  status                                   Show node status",
    "  types                                    List registered types",
    "",
    "Element types: byte, short, int, long, str (default)",
    "Use _ to skip an optional argument.",
    "",
    "Options:",
    "  --url <url>   Node API (default: [client] default_url from config)"]

/-- A double line. -/
def rule : String :=
  String.ofList (List.replicate 39 '═')

/-- What a node says about itself, as it is shown. -/
def statusLines (status : Message.StatusAnswer) : List String :=
  let types := if status.types.isEmpty then "none" else ", ".intercalate status.types
  [rule, "  peek Node Status", rule,
    "  Node id      : " ++ NodeId.text ⟨status.nodeId⟩,
    "  Chunks       : " ++ Numeral.decimal status.chunks.toNat,
    "  Stored bytes : " ++ Numeral.decimal status.bytes.toNat,
    "  Types        : " ++ types]

/-- A text with blanks behind it up to a width. -/
def padded (width : Nat) (text : String) : String :=
  text ++ String.ofList (List.replicate (width - text.length) ' ')

/-- The fields of a layout as the branches of a tree. -/
def fieldLines : List Layout.Field → List String
  | [] => []
  | field :: rest =>
    let branch := if rest.isEmpty then "└─" else "│ "
    ("  " ++ branch ++ " " ++ padded 12 field.name ++ " : " ++ field.kind.name) :: fieldLines rest

/-- The structures of a node, as they are shown. -/
def typeLines (types : List Layout) : List String :=
  if types.isEmpty then ["No types registered."]
  else types.flatMap fun layout => ("  ┌─ " ++ layout.name) :: fieldLines layout.fields

/-- What an inspection says, on the two outputs. -/
def reportOutput (report : Inspect.Report) : Output where
  exit := match report.result with
    | .ok _ => 0
    | .error _ => 1
  out := Output.lines report.lines
  err := Output.lines (report.errors.map ("error: " ++ ·))

/-- Lines, or the failure of the request for them. -/
def answerOutput {α : Type} (lines : α → List String) : Except Client.Failure α → Output
  | .ok a => .success (Output.lines (lines a))
  | .error failure => .failure failure.message

/-! ### Commands -/

/-- The words without those that name the default node, and the last name given. -/
def splitUrl : List String → Except String (List String × Option String)
  | [] => .ok ([], none)
  | ["--url"] => .error "--url requires a value"
  | "--url" :: url :: rest =>
    (splitUrl rest).map fun (words, later) => (words, some (later.getD url))
  | word :: rest => (splitUrl rest).map fun (words, url) => (word :: words, url)

variable {m : Type → Type} [Monad m]

/-- Stores what some words name. -/
def put (files : Files.Access m) (transport : Client.Transport m) (client : Client)
    (words : List String) : m Output := do
  match ← Put.parse files words with
  | .error message => return .failure message
  | .ok (data, slot) =>
    let created ← client.create transport data slot
    return answerOutput (fun id => ["Created chunk " ++ id.text ++ " (" ++
      Numeral.decimal data.length ++ " bytes)"]) created

/-- Carries out a command. -/
def command (files : Files.Access m) (transport : Client.Transport m) (client : Client)
    (words : List String) : m Output := do
  match words with
  | "get" :: rest =>
    let arguments := rest.map Inspect.Argument.classify
    return reportOutput (← Inspect.run (client.source transport) arguments)
  | "put" :: rest => put files transport client rest
  | [] | ["status"] => return answerOutput statusLines (← client.status transport)
  | ["types"] => return answerOutput typeLines (← client.types transport)
  | ["help"] | ["--help"] | ["-h"] => return .success usage
  | other => return ⟨1, usage, Output.lines ["Unknown command: " ++ " ".intercalate other, ""]⟩

/-- Carries out the command of some words, on a client of some settings. -/
def withConfig (files : Files.Access m) (transport : Client.Transport m) (config : Config)
    (words : List String) : m Output := do
  match splitUrl words with
  | .error message => return .failure message
  | .ok (words, url) =>
    let client := { config.client with url := url.getD config.client.url }
    command files transport (Client.ofConfig { config with client }) words

/-- What is said of settings that are not used. -/
def warning (failure : Config.Failure) : String :=
  "warning: " ++ failure.message ++ ", using defaults\n"

/-- One run of the program. -/
def run (files : Files.Access m) (transport : Client.Transport m) (environment : Environment)
    (words : List String) : m Output := do
  match ← Config.load files environment with
  | .ok config => withConfig files transport config words
  | .error failure => return (← withConfig files transport {} words).warned (warning failure)

end ChunkScope.Terminal

/-! ## Starting a node

What a node does before it serves: it writes the default configuration if there is none, loads it,
and takes its port from the command line or else from the configuration. What goes wrong with the
configuration does not keep it from starting; a port that is none does. -/

namespace ChunkScope.Terminal.Daemon

/-- A node that is ready to serve: the port of its API, and its chunks. -/
structure Ready where
  port : UInt16
  store : Store

/-- The port of a node, given the first word of its command line. -/
def port (config : Config) : Option String → Except String UInt16
  | none => .ok config.node.port
  | some word =>
    match Numeral.word16? word with
    | some port => .ok port
    | none => .error ("invalid port " ++ Quoted.quote word)

/-- The node that a configuration describes. -/
def ready (config : Config) (word : Option String) : Except Output Ready :=
  match port config word with
  | .ok port => .ok ⟨port, Store.empty config.node.id (.ofLayouts config.types)⟩
  | .error message => .error (.failure message)

variable {m : Type → Type} [Monad m]

/-- Prepares a node to serve. -/
def prepare (files : Files.Access m) (environment : Environment) (word : Option String) :
    m (Except Output Ready) := do
  let _ ← Config.writeDefault files environment
  let config ← Config.load files environment
  return ready (config.toOption.getD {}) word

end ChunkScope.Terminal.Daemon
