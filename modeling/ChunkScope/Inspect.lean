import ChunkScope.Chunk
import ChunkScope.Json.Basic
import ChunkScope.Node.Api
import ChunkScope.Text.Numeral

/-!
# Inspections

An inspection goes from arguments to a call, from the call to one chunk id, from the id to one
request for the chunk, and from its answer to two lines of output or one line of error.

A chunk is named by the text of its id, by the number that it is, or by its node and its local id;
what follows tells a structured read from a raw one and the two orders of the options apart. Which
of them it is hangs on the number of arguments and on which ones are texts, and on nothing else.
-/

/-! ## Arguments

The words of an inspection, each typed by what it looks like. -/

namespace ChunkScope.Inspect

/-- One positional argument; `skip` is a position that is left to its default. -/
inductive Argument where
  | skip
  | flag (b : Bool)
  | number (n : Int64)
  | text (s : String)
deriving DecidableEq, Inhabited

namespace Argument

/-- Types a word: a decimal number of 64 bits with sign is a number, the words for a flag and for a
skipped position are what they say, and everything else is a text. -/
def classify (word : String) : Argument :=
  if word = "null" ∨ word = "_" then skip
  else if word = "true" then flag true
  else if word = "false" then flag false
  else
    match Numeral.int64? word with
    | some n => number n
    | none => text word

/-- The text of an argument. -/
def toText : Argument → String
  | skip => "null"
  | flag true => "true"
  | flag false => "false"
  | number n => Numeral.signedDecimal n.toInt
  | text s => s

end Argument

/-! ## Failures -/

/-- An argument that is named when its value is refused. -/
inductive Position where
  | node
  | slot
  | radix
  | offset
  | length
deriving DecidableEq

/-- The name of a position. -/
def Position.name : Position → String
  | node => "nid"
  | slot => "lid"
  | radix => "hex"
  | offset => "offset"
  | length => "length"

/-- Why an inspection was given up. For whatever reason a chunk was not fetched, or not read as a
structure, it is the same failure. -/
inductive Failure where
  | missingNode
  | missingSlot
  | missingChunk
  | invalidId (text : String)
  | invalidArgument (position : Position) (value : String)
  | fetchFailed (id : ChunkId)
  | typedFailed (id : ChunkId) (typeName : String)
  | unsupportedKind (text : String)
deriving DecidableEq

/-- What is said of a failure. -/
def Failure.message : Failure → String
  | missingNode => "no nid specified"
  | missingSlot => "no lid specified"
  | missingChunk => "no cid or nid|lid specified"
  | invalidId text => "invalid cid " ++ Quoted.quote text
  | invalidArgument position value =>
    "invalid " ++ position.name ++ " argument " ++ Quoted.quote value
  | fetchFailed id => "getting chunk " ++ id.text ++ " failed"
  | typedFailed id typeName => "getting " ++ typeName ++ " from chunk " ++ id.text ++ " failed"
  | unsupportedKind text => "unsupported data type " ++ Quoted.quote text

/-! ## Options

How the bytes of a chunk are to be shown. The four options come in one of two orders; each may be
skipped or, from some position on, left out, and then has its default. -/

/-- How a chunk is to be shown: by default all of it, as text, and numbers in hexadecimal. -/
structure Options where
  kind : ElementKind := .text
  radix : Radix := .hex
  offset : Option UInt64 := none
  length : Option UInt64 := none
deriving DecidableEq, Inhabited

/-- An option that is skipped or left out has no value. -/
def optional {α : Type} (read : Argument → Except Failure α) :
    Option Argument → Except Failure (Option α)
  | none | some .skip => .ok none
  | some argument => (read argument).map some

namespace Argument

/-- An argument as the name of a kind of element. -/
def toKind : Argument → Except Failure ElementKind
  | text s =>
    match ElementKind.parse? s with
    | some kind => .ok kind
    | none => .error (.unsupportedKind s)
  | argument => .error (.unsupportedKind argument.toText)

/-- The base that a text names, in any mix of ASCII cases. -/
def radixOfName? (s : String) : Option Radix :=
  let name := s.map Char.toLower
  if name = "hex" then some .hex
  else if name = "dec" ∨ name = "decimal" then some .decimal
  else none

/-- An argument as a base: its name, or whether it is the hexadecimal one. -/
def toRadix : Argument → Except Failure Radix
  | flag b => .ok (if b then .hex else .decimal)
  | number n => .ok (if n ≠ 0 then .hex else .decimal)
  | text s =>
    match radixOfName? s with
    | some radix => .ok radix
    | none => .error (.invalidArgument .radix s)
  | skip => .error (.invalidArgument .radix (toText skip))

/-- A number that is not negative, as a word. -/
def word? (n : Int64) : Option UInt64 :=
  if 0 ≤ n then some n.toUInt64 else none

/-- An argument as a number of bytes. -/
def toSize (position : Position) : Argument → Except Failure UInt64
  | number n =>
    match word? n with
    | some size => .ok size
    | none => .error (.invalidArgument position (toText (number n)))
  | argument => .error (.invalidArgument position argument.toText)

end Argument

namespace Options

/-- The options that are given, in place of the defaults. -/
def ofGiven (kind : Option ElementKind) (radix : Option Radix) (offset length : Option UInt64) :
    Options :=
  ⟨kind.getD .text, radix.getD .hex, offset, length⟩

/-- The options in the order kind, base, offset, length. The first fault in that order counts. -/
def kindFirst (arguments : List Argument) : Except Failure Options := do
  let kind ← optional Argument.toKind arguments[0]?
  let radix ← optional Argument.toRadix arguments[1]?
  let offset ← optional (Argument.toSize .offset) arguments[2]?
  let length ← optional (Argument.toSize .length) arguments[3]?
  return ofGiven kind radix offset length

/-- The options in the order offset, length, kind, base. The first fault in that order counts. -/
def rangeFirst (arguments : List Argument) : Except Failure Options := do
  let offset ← optional (Argument.toSize .offset) arguments[0]?
  let length ← optional (Argument.toSize .length) arguments[1]?
  let kind ← optional Argument.toKind arguments[2]?
  let radix ← optional Argument.toRadix arguments[3]?
  return ofGiven kind radix offset length

end Options

/-! ## Targets and calls -/

/-- A chunk as it is named in a call; a part that was skipped is missing. -/
inductive Target where
  | chunk (id : Option ChunkId)
  | split (node : Option NodeId) (slot : Option LocalId)
deriving DecidableEq

/-- What a list of arguments asks for: to read the chunk as a named structure, or to show its bytes,
with the options that begin with the kind or with those that begin with the range. -/
inductive Call where
  | structured (target : Target) (typeName : String)
  | kindFirst (target : Target) (options : Options)
  | rangeFirst (target : Target) (options : Options)
deriving DecidableEq

namespace Argument

/-- An argument other than a text as the id of a chunk. -/
def toChunkId : Argument → Except Failure ChunkId
  | number n =>
    match word? n with
    | some raw => .ok ⟨raw⟩
    | none => .error (.invalidId (toText (number n)))
  | argument => .error (.invalidId argument.toText)

/-- An argument as the id of a node. -/
def toNodeId : Argument → Except Failure NodeId
  | number n =>
    if 0 ≤ n ∧ n < 65536 then .ok ⟨n.toUInt64.toUInt16⟩
    else .error (.invalidArgument .node (toText (number n)))
  | argument => .error (.invalidArgument .node argument.toText)

/-- An argument as a local id, which may be a text of digits. -/
def toLocalId : Argument → Except Failure LocalId
  | number n =>
    match word? n with
    | some slot => .ok ⟨slot⟩
    | none => .error (.invalidArgument .slot (toText (number n)))
  | text s =>
    match Numeral.address? s.toList with
    | some slot => .ok ⟨slot⟩
    | none => .error (.invalidArgument .slot s)
  | argument => .error (.invalidArgument .slot argument.toText)

end Argument

namespace Call

/-- The chunk that a call names. -/
def target : Call → Target
  | structured target _ | kindFirst target _ | rangeFirst target _ => target

/-- The call that the arguments behind the name of a chunk make. -/
def after (target : Target) : List Argument → Except Failure Call
  | [.text typeName] => .ok (structured target typeName)
  | .text s :: rest => (Options.kindFirst (.text s :: rest)).map (kindFirst target)
  | rest => (Options.rangeFirst rest).map (rangeFirst target)

/-- The call that a list of arguments makes. A part of the name of the chunk that was skipped is no
fault yet. -/
def parse : List Argument → Except Failure Call
  | [] => .error .missingChunk
  | .text s :: rest =>
    match ChunkId.parse? s with
    | some id => after (.chunk (some id)) rest
    | none => .error (.invalidId s)
  | [id] => do
    let id ← optional Argument.toChunkId (some id)
    return rangeFirst (.chunk id) {}
  | node :: slot :: rest => do
    let node ← optional Argument.toNodeId (some node)
    let slot ← optional Argument.toLocalId (some slot)
    after (.split node slot) rest

end Call

end ChunkScope.Inspect

/-! ## Sources of chunks

What an inspection needs from whoever has the chunks. Each of the three requests may have
effects. -/

namespace ChunkScope

/-- Someone who has chunks, and what may go wrong when they are asked. Chunks that are not there are
left out of what is fetched; a chunk is read as a structure if there is such a chunk and such a
structure and they fit. -/
structure Inspect.Source (ε : Type) (m : Type → Type) where
  combine : NodeId → LocalId → m ChunkId
  fetch : List ChunkId → m (Except ε Fetched)
  typed : ChunkId → String → m (Except ε (Option TypedObject))

/-- The chunks of one node as a source: nothing goes wrong, and nothing changes. -/
def Store.source (store : Store) : Inspect.Source Empty Id where
  combine := ChunkId.pack
  fetch ids := .ok (store.fetch ids)
  typed id typeName := .ok (store.typed? id typeName)

end ChunkScope

/-! ## From a call to its report -/

namespace ChunkScope.Inspect

/-- What a successful inspection shows: bytes of a chunk of some size, or a chunk read as a
structure. -/
inductive Outcome where
  | raw (id : ChunkId) (size : UInt64) (window : Window) (text : String)
  | structured (id : ChunkId) (object : TypedObject)
deriving DecidableEq

/-- The lines that show an outcome. -/
def Outcome.lines : Outcome → List String
  | raw id size _ text =>
    ["Chunk data of " ++ id.text ++ " (chunksize " ++ Numeral.decimal size.toNat ++ "):", text]
  | structured _ object =>
    ["DataStructure " ++ object.typeName ++ " (size " ++ Numeral.decimal object.size.toNat ++ "):",
      object.value.pretty]

/-- What an inspection says: how it went, the lines of output and the lines of error. -/
structure Report where
  result : Except Failure Outcome
  lines : List String
  errors : List String

/-- The report of a result. -/
def Report.ofResult : Except Failure Outcome → Report
  | .ok outcome => ⟨.ok outcome, outcome.lines, []⟩
  | .error failure => ⟨.error failure, [], [failure.message]⟩

variable {ε : Type} {m : Type → Type} [Monad m]

/-- The chunk id that a target names. -/
def resolve (source : Source ε m) : Target → m (Except Failure ChunkId)
  | .chunk none => pure (.error .missingChunk)
  | .chunk (some id) => pure (.ok id)
  | .split none _ => pure (.error .missingNode)
  | .split _ none => pure (.error .missingSlot)
  | .split (some node) (some slot) => .ok <$> source.combine node slot

/-- The first chunk of an answer that counts one. Any other count, or an answer without a chunk, is
a failure. -/
def theChunk (id : ChunkId) : Except ε Fetched → Except Failure Chunk
  | .ok ⟨1, chunk :: _⟩ => .ok chunk
  | _ => .error (.fetchFailed id)

/-- The bytes of a chunk as the options want them shown. -/
def Outcome.ofChunk (options : Options) (chunk : Chunk) : Outcome :=
  let window := Window.clamp chunk.size options.offset options.length
  .raw chunk.id chunk.size window (Dump.render chunk.data window options.kind options.radix)

/-- Fetches a chunk and shows its bytes. -/
def readBytes (source : Source ε m) (id : ChunkId) (options : Options) :
    m (Except Failure Outcome) := do
  let answer ← source.fetch [id]
  return (theChunk id answer).map (Outcome.ofChunk options)

/-- Reads a chunk as a structure. -/
def readAs (source : Source ε m) (id : ChunkId) (typeName : String) :
    m (Except Failure Outcome) := do
  match ← source.typed id typeName with
  | .ok (some object) => return .ok (.structured id object)
  | _ => return .error (.typedFailed id typeName)

/-- Answers a call. -/
def answer (source : Source ε m) (call : Call) : m (Except Failure Outcome) := do
  match ← resolve source call.target with
  | .error failure => return .error failure
  | .ok id =>
    match call with
    | .structured _ typeName => readAs source id typeName
    | .kindFirst _ options | .rangeFirst _ options => readBytes source id options

/-- Answers a list of arguments. -/
def run (source : Source ε m) (arguments : List Argument) : m Report := do
  match Call.parse arguments with
  | .error failure => return .ofResult (.error failure)
  | .ok call => return .ofResult (← answer source call)

end ChunkScope.Inspect
