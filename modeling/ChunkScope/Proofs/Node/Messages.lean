import ChunkScope.Node.Message
import ChunkScope.Proofs.Config.Documents
import ChunkScope.Proofs.Json.Accepted
import ChunkScope.Proofs.Text.Encodings

/-!
# Messages that are read back

What a node says of a chunk is what its client reads: the text of an answer gives back the answer,
and with it every byte of the chunk or every field of the structure. So is what a client wants of a
node what the node reads.
-/

namespace ChunkScope.Message

open Json Json.Reader

/-- The fields of a chunk that was asked for. -/
private def ChunkAnswer.fields : List (RecordField Reader ChunkAnswer) :=
  [.required "chunk_id" Reader.text fun chunkId answer => { answer with chunkId },
    .required "size" Decoding.word64 fun size answer => { answer with size },
    .required "data" Reader.text fun data answer => { answer with data }]

/-- A chunk that a node answers with is read back. -/
theorem ChunkAnswer.run_read_toJson (answer : ChunkAnswer) :
    ChunkAnswer.read.run answer.toJson.compact = .ok answer := by
  refine run_compact ?_
  have htakes : Takes (takeMember ChunkAnswer.fields 126) (default, [])
      [("chunk_id", .string answer.chunkId), ("size", wordJson answer.size),
        ("data", .string answer.data)] (answer, ["data", "size", "chunk_id"]) :=
    .cons (fun cs => takeMember_required rfl (reads_text 126 answer.chunkId) (by decide) default) <|
    .cons (fun cs => takeMember_required rfl (reads_word64 126 answer.size) (by decide) _) <|
    .cons (fun cs => takeMember_required rfl (reads_text 126 answer.data) (by decide) _) <|
    .nil _
  exact reads_record htakes (by decide)

/-- The fields of the wish to store a chunk. -/
private def CreateRequest.fields : List (RecordField Reader CreateRequest) :=
  [.required "data" Reader.text fun data request => { request with data },
    .optional "local_id" (Reader.optional Decoding.word64) fun localId request =>
      { request with localId }]

/-- The wish to store a chunk as JSON, with a local id that is left out, `null` or a number. -/
def CreateRequest.document (data : String) (slot : Option (Option UInt64)) : Json :=
  .object (("data", .string data) ::
    (slot.map fun slot => ("local_id", slot.elim .null wordJson)).toList)

/-- The wish to store a chunk is read from its JSON; a local id that is `null` is none. -/
theorem CreateRequest.run_read_document (data : String) (slot : Option (Option UInt64)) :
    CreateRequest.read.run (document data slot).compact = .ok ⟨data, slot.join⟩ := by
  refine run_compact ?_
  have hdata (ms : List (String × Json)) {last : Draft CreateRequest}
      (htakes : Takes (takeMember CreateRequest.fields 126) (⟨data, none⟩, ["data"]) ms last) :
      Takes (takeMember CreateRequest.fields 126) (default, []) (("data", .string data) :: ms)
        last :=
    .cons (fun cs => takeMember_required rfl (reads_text 126 data) (by decide) default) htakes
  have hslot {v : Json} {localId : Option UInt64}
      (hread : Reads (optional (Decoding.word64 : Reader UInt64) 126) v localId) :
      Takes (takeMember CreateRequest.fields 126) (⟨data, none⟩, ["data"]) [("local_id", v)]
        (⟨data, localId⟩, ["local_id", "data"]) :=
    .cons (fun cs => takeMember_optional rfl hread (by decide) _) (.nil _)
  match slot with
  | none => exact reads_record (hdata [] (.nil _)) (by decide)
  | some none => exact reads_record (hdata _ (hslot (reads_optional_null _ 126))) (by decide)
  | some (some slot) =>
    exact reads_record (hdata _ (hslot (reads_optional_int (reads_word64 126 slot)))) (by decide)

/-- The wish of a client to store a chunk is read back. -/
theorem CreateRequest.run_read_toJson (request : CreateRequest) :
    CreateRequest.read.run request.toJson.compact = .ok request := by
  obtain ⟨data, localId⟩ := request
  cases localId with
  | none => exact run_read_document data none
  | some slot => exact run_read_document data (some (some slot))

/-- The fields of the answer to a wish to drop a chunk. -/
private def RemoveAnswer.fields : List (RecordField Reader RemoveAnswer) :=
  [.required "removed" Reader.flag fun removed answer => { answer with removed }]

/-- What a node says of a chunk that was to be dropped is read back. -/
theorem RemoveAnswer.run_read_toJson (answer : RemoveAnswer) :
    RemoveAnswer.read.run answer.toJson.compact = .ok answer := by
  refine run_compact ?_
  have htakes : Takes (takeMember RemoveAnswer.fields 126) (default, [])
      [("removed", .bool answer.removed)] (answer, ["removed"]) :=
    .cons (fun cs => takeMember_required rfl (reads_flag 126 answer.removed) (by decide) default) <|
    .nil _
  exact reads_record htakes (by decide)

/-- The fields of a chunk read as a structure. -/
private def TypedAnswer.fields : List (RecordField Reader TypedAnswer) :=
  [.required "chunk_id" Reader.text fun chunkId answer => { answer with chunkId },
    .required "type_name" Reader.text fun typeName answer => { answer with typeName },
    .required "size" Decoding.word64 fun size answer => { answer with size },
    .required "value" Reader.value fun value answer => { answer with value }]

/-- A structure that a node answers with is read back, when its text keeps the value. -/
theorem TypedAnswer.run_read_toJson (answer : TypedAnswer) (hvalue : Kept 126 answer.value) :
    TypedAnswer.read.run answer.toJson.compact = .ok answer := by
  refine run_compact ?_
  have htakes : Takes (takeMember TypedAnswer.fields 126) (default, [])
      [("chunk_id", .string answer.chunkId), ("type_name", .string answer.typeName),
        ("size", wordJson answer.size), ("value", answer.value)]
      (answer, ["value", "size", "type_name", "chunk_id"]) :=
    .cons (fun cs => takeMember_required rfl (reads_text 126 answer.chunkId) (by decide) default) <|
    .cons (fun cs => takeMember_required rfl (reads_text 126 answer.typeName) (by decide) _) <|
    .cons (fun cs => takeMember_required rfl (reads_word64 126 answer.size) (by decide) _) <|
    .cons (fun cs => takeMember_required rfl (reads_value hvalue) (by decide) _) <|
    .nil _
  exact reads_record htakes (by decide)

/-- The fields of what a node says about itself. -/
private def StatusAnswer.fields : List (RecordField Reader StatusAnswer) :=
  [.required "node_id" Decoding.word16 fun nodeId answer => { answer with nodeId },
    .required "chunks" Decoding.word64 fun chunks answer => { answer with chunks },
    .required "bytes" Decoding.word64 fun bytes answer => { answer with bytes },
    .required "types" (Reader.list Reader.text) fun types answer => { answer with types }]

/-- What a node says about itself is read back. -/
theorem StatusAnswer.run_read_toJson (answer : StatusAnswer) :
    StatusAnswer.read.run answer.toJson.compact = .ok answer := by
  refine run_compact ?_
  have htypes := reads_list Json.string (fun name _ => reads_text 125 name)
    (fun name (_ : name ∈ answer.types) => opens_compactChars nofun)
  have htakes : Takes (takeMember StatusAnswer.fields 126) (default, [])
      [("node_id", .int answer.nodeId.toNat), ("chunks", wordJson answer.chunks),
        ("bytes", wordJson answer.bytes), ("types", .array (answer.types.map .string))]
      (answer, ["types", "bytes", "chunks", "node_id"]) :=
    .cons (fun cs => takeMember_required rfl (reads_word16 126 answer.nodeId) (by decide) default)
      <|
    .cons (fun cs => takeMember_required rfl (reads_word64 126 answer.chunks) (by decide) _) <|
    .cons (fun cs => takeMember_required rfl (reads_word64 126 answer.bytes) (by decide) _) <|
    .cons (fun cs => takeMember_required rfl htypes (by decide) _) <|
    .nil _
  exact reads_record htakes (by decide)

/-- The only field of the structures that a node knows. -/
private def TypesAnswer.fields : List (RecordField Reader TypesAnswer) :=
  [.required "types" (Reader.list Layout.decode) fun types answer => { answer with types }]

/-- The structures that a node answers with are read back. -/
theorem TypesAnswer.run_read_toJson (answer : TypesAnswer) :
    TypesAnswer.read.run answer.toJson.compact = .ok answer := by
  refine run_compact ?_
  have htypes := Layout.reads_list_decode 122 answer.types
  have htakes : Takes (takeMember TypesAnswer.fields 126) (default, [])
      [("types", .array (answer.types.map Layout.toJson))] (answer, ["types"]) :=
    .cons (fun cs => takeMember_required rfl htypes (by decide) default) (.nil _)
  exact reads_record htakes (by decide)

/-! ## Values that an answer was read with -/

/-- A structure that was read without a float in it holds a value that its text keeps. -/
theorem TypedAnswer.kept_of_run {text : String} {answer : TypedAnswer}
    (h : TypedAnswer.read.run text = .ok answer) (hfloatless : Floatless answer.value) :
    Kept 126 answer.value := by
  obtain ⟨rest, hread⟩ := ok_of_run h
  -- no other field than the last one changes the value
  have hfields : Keeps (fun answer : TypedAnswer => Floatless answer.value → Kept 126 answer.value)
      126 TypedAnswer.fields :=
    .required (fun _ _ _ _ _ hanswer => hanswer) <|
    .required (fun _ _ _ _ _ hanswer => hanswer) <|
    .required (fun _ _ _ _ _ hanswer => hanswer) <|
    .required (fun _ _ _ hvalue _ _ => kept_of_value hvalue) .nil
  exact invariant_of_record hfields (fun _ => .null 126) hread hfloatless

/-! ## The length of a wish -/

/-- Hexadecimal digits need no escape. -/
private theorem flatMap_escape_encodeChars (data : Bytes) :
    (Hex.encodeChars data).flatMap escape = Hex.encodeChars data := by
  have hescape : ∀ d < 16, escape (Digit.lower d) = [Digit.lower d] := by decide
  have hall : ∀ c ∈ Hex.encodeChars data, escape c = [c] := by
    intro c hc
    obtain ⟨d, hd, rfl⟩ := Hex.mem_encodeChars hc
    exact hescape d hd
  generalize Hex.encodeChars data = cs at hall
  induction cs with
  | nil => rfl
  | cons c cs ih =>
    rw [List.flatMap_cons, hall c (by simp), ih fun c hc => hall c (List.mem_cons_of_mem _ hc)]
    rfl

/-- The wish of a client to store a chunk, as it is written. -/
theorem CreateRequest.compactChars_toJson (data : Bytes) (slot : Option UInt64) :
    (CreateRequest.toJson ⟨Hex.encode data, slot⟩).compactChars =
      ['\x7b', '"', 'd', 'a', 't', 'a', '"', ':', '"'] ++ Hex.encodeChars data ++ ['"'] ++
        (slot.elim [] fun slot => [',', '"', 'l', 'o', 'c', 'a', 'l', '_', 'i', 'd', '"', ':'] ++
          (Numeral.decimal slot.toNat).toList) ++ ['\x7d'] := by
  have hdata (rest : List Char) : (Json.string (Hex.encode data)).compactChars ++ rest =
      '"' :: (Hex.encodeChars data ++ '"' :: rest) := by
    rw [Reader.compactChars_string, Hex.encode, String.toList_ofList, flatMap_escape_encodeChars]
  have hname : stringChars "data" = ['"', 'd', 'a', 't', 'a', '"'] := rfl
  have hslot : stringChars "local_id" = ['"', 'l', 'o', 'c', 'a', 'l', '_', 'i', 'd', '"'] := rfl
  cases slot with
  | none =>
    show '\x7b' :: (stringChars "data" ++ ':' ::
      ((Json.string (Hex.encode data)).compactChars ++ ['\x7d'])) = _
    rw [hdata, hname]
    simp
  | some slot =>
    show '\x7b' :: (stringChars "data" ++ ':' :: ((Json.string (Hex.encode data)).compactChars ++
      (',' :: (stringChars "local_id" ++ ':' :: ((wordJson slot).compactChars ++ ['\x7d']))))) = _
    rw [hdata, hname, hslot, wordJson, Reader.compactChars_int]
    simp [Numeral.signedDecimal]

/-- The number of bytes of the wish of a client to store a chunk. -/
def CreateRequest.bodySize (data : Bytes) (slot : Option UInt64) : Nat :=
  11 + 2 * data.length + slot.elim 0 fun slot => 12 + (Numeral.decimal slot.toNat).length

/-- The wish is written in ASCII, so it has as many bytes as characters. -/
theorem CreateRequest.length_encode_toJson (data : Bytes) (slot : Option UInt64) :
    (Utf8.encode (CreateRequest.toJson ⟨Hex.encode data, slot⟩).compact).length =
      CreateRequest.bodySize data slot := by
  have hdigit : ∀ d < 16, (Digit.lower d).toNat < 128 := by decide
  have hdata : ∀ c ∈ Hex.encodeChars data, c.toNat < 128 := by
    intro c hc
    obtain ⟨d, hd, rfl⟩ := Hex.mem_encodeChars hc
    exact hdigit d hd
  have hslot : ∀ n, ∀ c ∈ (Numeral.decimal n).toList, c.toNat < 128 := by
    intro n c hc
    obtain ⟨d, hd, rfl⟩ := Numeral.mem_decimal hc
    exact hdigit d (by omega)
  have hascii : ∀ c ∈ (CreateRequest.toJson ⟨Hex.encode data, slot⟩).compactChars,
      c.toNat < 128 := by
    rw [CreateRequest.compactChars_toJson]
    cases slot with
    | none =>
      simp only [List.forall_mem_append]
      exact ⟨⟨⟨⟨by simp, hdata⟩, by simp⟩, nofun⟩, by simp⟩
    | some slot =>
      simp only [List.forall_mem_append, Option.elim_some]
      exact ⟨⟨⟨⟨by simp, hdata⟩, by simp⟩, ⟨by simp, hslot slot.toNat⟩⟩, by simp⟩
  rw [compact, Utf8.encode_ofList hascii, List.length_map, CreateRequest.compactChars_toJson,
    CreateRequest.bodySize]
  cases slot with
  | none =>
    simp [Hex.length_encodeChars]
    omega
  | some slot =>
    simp [Hex.length_encodeChars, String.length_toList]
    omega

end ChunkScope.Message

/-! ## Documents that settle

Every message between a node and its clients, every entry of a cluster and all settings come back
from the text that is written for them. A text in any other form that is read, with members in
another order or members that are no fields, a record as an array, a kind under its second name or
as an object, a local id that is `null`, is therefore put into the written form by the first
rewriting, and stays as it is from then on. -/

namespace ChunkScope

open Json

/-- A text read and written again. -/
def Json.rewrite {α : Type} (read : Reader α) (toJson : α → Json) (text : String) :
    Except Fault String :=
  (read.run text).map fun a => (toJson a).compact

/-- Values that are `Writable` are read back from the text that is written for them. So are those
that were read from any text, if they are `Exact`; and a text written for one of these is not
changed by another reading and writing. -/
structure Json.RoundTrips {α : Type} (read : Reader α) (toJson : α → Json)
    (Writable Exact : α → Prop) : Prop where
  back : ∀ a, Writable a → read.run (toJson a).compact = .ok a
  again : ∀ text a, read.run text = .ok a → Exact a → read.run (toJson a).compact = .ok a
  settled : ∀ text a, read.run text = .ok a → Exact a →
    ∃ rewritten, rewrite read toJson text = .ok rewritten ∧
      rewrite read toJson rewritten = .ok rewritten

/-- Reading and writing agree when a value that was read and is exact can be written. -/
theorem Json.RoundTrips.of_back {α : Type} {read : Reader α} {toJson : α → Json}
    {Writable Exact : α → Prop} (hback : ∀ a, Writable a → read.run (toJson a).compact = .ok a)
    (hexact : ∀ text a, read.run text = .ok a → Exact a → Writable a) :
    RoundTrips read toJson Writable Exact := by
  have hagain (text : String) (a : α) (hread : read.run text = .ok a) (ha : Exact a) :
      read.run (toJson a).compact = .ok a :=
    hback a (hexact text a hread ha)
  refine ⟨hback, hagain, ?_⟩
  intro text a hread ha
  refine ⟨(toJson a).compact, ?_, ?_⟩
  · rw [rewrite, hread]
    rfl
  · rw [rewrite, hagain text a hread ha]
    rfl

/-- The same where every value can be written. -/
private theorem roundTrips_of_forall {α : Type} {read : Reader α} {toJson : α → Json}
    (hback : ∀ a, read.run (toJson a).compact = .ok a) :
    RoundTrips read toJson (fun _ => True) (fun _ => True) :=
  .of_back (fun a _ => hback a) fun _ _ _ _ => trivial

/-- Every document is read back from the text that is written for it, and every text of a document
settles when it is rewritten. Only a chunk read as a structure holds a value of any form: it can be
written if its text keeps the value below the 126 containers that may still be open within the
answer, and one that was read is exact if no number in it was read as a float. -/
theorem roundTrips_documents :
    RoundTrips Message.ChunkAnswer.read Message.ChunkAnswer.toJson (fun _ => True)
      (fun _ => True) ∧
    RoundTrips Message.CreateRequest.read Message.CreateRequest.toJson (fun _ => True)
      (fun _ => True) ∧
    RoundTrips Message.RemoveAnswer.read Message.RemoveAnswer.toJson (fun _ => True)
      (fun _ => True) ∧
    RoundTrips Message.TypedAnswer.read Message.TypedAnswer.toJson
      (fun answer => Reader.Kept 126 answer.value) (fun answer => Floatless answer.value) ∧
    RoundTrips Message.StatusAnswer.read Message.StatusAnswer.toJson (fun _ => True)
      (fun _ => True) ∧
    RoundTrips Message.TypesAnswer.read Message.TypesAnswer.toJson (fun _ => True)
      (fun _ => True) ∧
    RoundTrips Endpoint.decode Endpoint.toJson (fun _ => True) (fun _ => True) ∧
    RoundTrips Config.decode Config.toJson (fun _ => True) (fun _ => True) := by
  refine ⟨?chunk, ?create, ?remove, ?typed, ?status, ?types, ?endpoint, ?config⟩
  case chunk => exact roundTrips_of_forall Message.ChunkAnswer.run_read_toJson
  case create => exact roundTrips_of_forall Message.CreateRequest.run_read_toJson
  case remove => exact roundTrips_of_forall Message.RemoveAnswer.run_read_toJson
  case typed =>
    exact .of_back Message.TypedAnswer.run_read_toJson fun _ _ => Message.TypedAnswer.kept_of_run
  case status => exact roundTrips_of_forall Message.StatusAnswer.run_read_toJson
  case types => exact roundTrips_of_forall Message.TypesAnswer.run_read_toJson
  case endpoint =>
    exact roundTrips_of_forall fun endpoint =>
      Reader.run_compact (Endpoint.reads_decode 126 endpoint)
  case config =>
    exact roundTrips_of_forall fun config => Reader.run_compact (Config.reads_decode 122 config)

/-- Records as arrays and a kind under its second name, rewritten into objects and its first
name. -/
example : rewrite Message.TypesAnswer.read Message.TypesAnswer.toJson
    "[[[\"V\", [[\"id\", \"byte\"], [\"text\", \"str\"]]]]]" =
      .ok (Message.TypesAnswer.toJson
        ⟨[⟨"V", [⟨"id", .number .byte⟩, ⟨"text", .text⟩]⟩]⟩).compact := by
  cbv

end ChunkScope
