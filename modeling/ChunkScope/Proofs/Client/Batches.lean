import ChunkScope.Proofs.Client.Locality
import ChunkScope.Proofs.Client.Routing

/-!
# Batches of requests

A client that fetches several chunks sends one request for each of them, in their order, to the node
that answers for it. As long as every reply settles what becomes of its chunk, the client goes on,
and has in the end the chunks that are there, each with the bytes of its own reply. The first reply
that settles nothing, or that does not come, fails the whole batch, and nothing is sent after it.
-/

namespace ChunkScope

open Http

/-! ## Addresses of chunks -/

/-- The URL of a chunk below that of an API. An empty name that stands alone makes way for it. -/
def Http.Url.ofChunk (base : Url) (id : ChunkId) : Url :=
  match base.path with
  | .opaqueText _ => base
  | .named names =>
    { base with path := .named ((if names = [""] then [] else names) ++ ["chunks", id.text]) }

/-- Where a client of a configuration finds the API of a node, if the URL of the node is one that
can be spoken to: its URL with the name of the API behind, which is spoken to in HTTP. -/
structure Config.HasBase (config : Config) (node : NodeId) (base : Url) : Prop where
  parses : Url.parse? (Client.trimSlashes (config.urlOf node) ++ "/api") = some base
  isHttp : base.IsHttp

/-- The URL of the API where clients look for a node by default. -/
def Http.Url.defaultApi : Url :=
  ⟨"http", some ⟨none, "127.0.0.1", some 9101⟩, .named ["api"], none, none⟩

/-- A client of the default settings finds every node at the built-in URL. -/
theorem Config.hasBase_default (node : NodeId) : Config.HasBase {} node .defaultApi := by
  have hparse : Url.parse? (Client.trimSlashes "http://127.0.0.1:9101" ++ "/api") =
      some .defaultApi := by
    decide +kernel
  exact ⟨hparse, .inl rfl⟩

/-- What is below the URL of an API is spoken to in the same way. -/
theorem Http.Url.isHttp_ofChunk {base : Url} (h : base.IsHttp) (id : ChunkId) :
    (base.ofChunk id).IsHttp := by
  rw [ofChunk]
  split <;> exact h

namespace Client

/-- A client asks for a chunk below the API of its node. -/
theorem urlFor_chunk {config : Config} {id : ChunkId} {base : Url}
    (h : config.HasBase id.node base) :
    (ofConfig config).urlFor id.node ["chunks", id.text] = .ok (base.ofChunk id) := by
  have hspecial : Url.isSpecialScheme base.scheme = true := by
    rcases h.isHttp with hscheme | hscheme <;> rw [hscheme] <;> rfl
  obtain ⟨names, hnames⟩ := Url.exists_path_eq_named h.parses hspecial
  rw [urlFor, baseFor_ofConfig, h.parses]
  simp only [Url.below?, hnames, foldl_push_chunk_any, Url.ofChunk]

/-! ## Replies -/

/-- The bytes in a reply: it tells of success, and its body is the message of a chunk with the
digits of some bytes. -/
def Reply.bytes? (reply : Reply) : Option Bytes :=
  if 200 ≤ reply.status ∧ reply.status < 300 then
    (Message.ChunkAnswer.read.runBytes reply.body).toOption.bind fun answer =>
      Hex.decode? answer.data
  else none

/-- What came back tells that the node does not have the chunk. -/
def IsMiss (reply : Option Reply) : Prop :=
  reply.map Reply.status = some 404

instance : DecidablePred IsMiss := fun reply =>
  inferInstanceAs (Decidable (reply.map Reply.status = some 404))

/-- What came back settles what becomes of a chunk: the node does not have it, or here are its
bytes. -/
def Settles (reply : Option Reply) : Prop :=
  IsMiss reply ∨ (reply.bind Reply.bytes?).isSome

instance : DecidablePred Settles := fun reply =>
  inferInstanceAs (Decidable (IsMiss reply ∨ (reply.bind Reply.bytes?).isSome))

/-- Without a reply nothing is settled. -/
theorem not_settles_none : ¬ Settles none := by
  rintro (h | h) <;> cases h

/-- A reply that a chunk is missing brings no bytes. -/
theorem bytes?_of_isMiss {reply : Option Reply} (h : IsMiss reply) :
    reply.bind Reply.bytes? = none := by
  cases reply with
  | none => rfl
  | some reply =>
    have hstatus : reply.status = 404 := Option.some.inj h
    exact if_neg (by omega)

/-- Of the replies that settle something, those that bring bytes are the ones that are no miss. -/
theorem Settles.isSome_bytes?_iff {reply : Option Reply} (h : Settles reply) :
    (reply.bind Reply.bytes?).isSome ↔ ¬ IsMiss reply := by
  refine ⟨fun hbytes hmiss => ?_, h.resolve_left⟩
  rw [bytes?_of_isMiss hmiss] at hbytes
  cases hbytes

/-- A message is taken from a reply that succeeds and has the message as its body. -/
theorem message_eq_ok_iff {reply : Reply} {answer : Message.ChunkAnswer} :
    reply.message Message.ChunkAnswer.read = .ok answer ↔
      (200 ≤ reply.status ∧ reply.status < 300) ∧
        Message.ChunkAnswer.read.runBytes reply.body = .ok answer := by
  have hsuccess : Status.isSuccess reply.status = true ↔
      200 ≤ reply.status ∧ reply.status < 300 := by
    simp [Status.isSuccess]
  rw [Reply.message, ← hsuccess]
  split
  · next h => cases Message.ChunkAnswer.read.runBytes reply.body <;> simp [h]
  · next h => simp [h]

/-- A reply brings the bytes whose digits its message has. -/
theorem bytes?_eq_some_iff {reply : Reply} {data : Bytes} :
    reply.bytes? = some data ↔
      ∃ answer, reply.message Message.ChunkAnswer.read = .ok answer ∧
        Hex.decode? answer.data = some data := by
  simp only [message_eq_ok_iff, Reply.bytes?]
  split
  · next h =>
    cases Message.ChunkAnswer.read.runBytes reply.body <;> simp [h, Except.toOption]
  · next h => simp [h]

/-- A reply that settles what becomes of a chunk is read as the chunk, or as none. -/
theorem Settles.chunk {reply : Reply} (h : Settles (some reply)) (id : ChunkId) :
    reply.chunk id = .ok (reply.bytes?.map (Chunk.mk id)) := by
  rw [Reply.chunk]
  rcases h with hmiss | hbytes
  · have hnone : reply.bytes? = none := bytes?_of_isMiss hmiss
    rw [if_pos (Option.some.inj hmiss), hnone]
    rfl
  · obtain ⟨data, hdata⟩ := Option.isSome_iff_exists.mp hbytes
    have hfound : reply.status ≠ 404 := by
      intro hstatus
      have hmiss : IsMiss (some reply) := congrArg some hstatus
      rw [bytes?_of_isMiss hmiss] at hdata
      cases hdata
    have hbytes : reply.bytes? = some data := hdata
    obtain ⟨answer, hmessage, hdecode⟩ := bytes?_eq_some_iff.mp hbytes
    simp only [if_neg hfound, hmessage, hdecode, hbytes, Option.map_some]

/-- Any other reply is a failure. -/
theorem exists_chunk_eq_error {reply : Reply} (h : ¬ Settles (some reply)) (id : ChunkId) :
    ∃ failure, reply.chunk id = .error failure := by
  obtain ⟨hfound, hbytes⟩ := not_or.mp h
  rw [Reply.chunk, if_neg fun hstatus => hfound (congrArg some hstatus)]
  cases hmessage : reply.message Message.ChunkAnswer.read with
  | error failure => exact ⟨failure, rfl⟩
  | ok answer =>
    cases hdecode : Hex.decode? answer.data with
    | none => exact ⟨.invalidHex, by simp only [hdecode]⟩
    | some data =>
      have hdata : reply.bytes? = some data := bytes?_eq_some_iff.mpr ⟨answer, hmessage, hdecode⟩
      exact absurd (Option.isSome_iff_exists.mpr ⟨data, hdata⟩) hbytes

/-! ## Requests one after the other -/

/-- A transport on which every request is followed by what was laid down for it, which may be no
reply at all. The requests are kept in their order. -/
def scripted (replies : Nat → Option Reply) : Transport (StateM (List Network.Sent)) where
  send _ method url body := fun log => (replies log.length, log ++ [⟨method, url, body⟩])

/-- A request goes out, and what was laid down for it comes back. -/
theorem send_scripted (client : Client) {url : Url} (h : url.IsHttp)
    (replies : Nat → Option Reply) (method : Method) (shown : String) (body : Option String)
    (log : List Network.Sent) :
    (client.send (scripted replies) method url shown body).run log =
      ((replies log.length).elim (.error (.unreachable shown)) .ok,
        log ++ [⟨method, url, body⟩]) := by
  have hsend : ((scripted replies).send client.patience method url body).run log =
      (replies log.length, log ++ [⟨method, url, body⟩]) := rfl
  rw [send, if_pos h, StateT.run_bind, hsend]
  cases replies log.length <;> rfl

/-- The request for what a URL stands for. -/
def requestOf (url : Url) : Network.Sent :=
  ⟨.get, url, none⟩

/-- The chunks that replies bring, each with its id and the bytes of the reply at its place. -/
def brought (replies : Nat → Option Reply) (places : List (ChunkId × Nat)) : List Chunk :=
  places.filterMap fun place => ((replies place.2).bind Reply.bytes?).map (Chunk.mk place.1)

/-- What replies bring is what the first one brings and then what the others do. -/
theorem brought_cons (replies : Nat → Option Reply) (place : ChunkId × Nat)
    (places : List (ChunkId × Nat)) :
    brought replies (place :: places) =
      (((replies place.2).bind Reply.bytes?).map (Chunk.mk place.1)).toList ++
        brought replies places := by
  rw [brought, List.filterMap_cons]
  cases (replies place.2).bind Reply.bytes? <;> rfl

/-- The chunks that are brought are those whose reply is no miss. -/
theorem map_id_brought {replies : Nat → Option Reply} {places : List (ChunkId × Nat)}
    (h : ∀ place ∈ places, Settles (replies place.2)) :
    (brought replies places).map Chunk.id =
      (places.filter fun place => ¬ IsMiss (replies place.2)).map Prod.fst := by
  induction places with
  | nil => rfl
  | cons place places ih =>
    obtain ⟨hplace, hplaces⟩ := List.forall_mem_cons.mp h
    have hbytes := hplace.isSome_bytes?_iff
    rw [brought_cons, List.map_append, ih hplaces, List.filter_cons]
    cases hdata : (replies place.2).bind Reply.bytes? with
    | none =>
      have hmiss : IsMiss (replies place.2) := by simpa [hdata] using hbytes
      rw [if_neg (by simpa using hmiss)]
      rfl
    | some data =>
      have hfound : ¬ IsMiss (replies place.2) := by simpa [hdata] using hbytes
      rw [if_pos (by simpa using hfound)]
      rfl

section Steps

variable {client : Client} {replies : Nat → Option Reply} {url : ChunkId → Url} {id : ChunkId}

/-- The request for a chunk goes out, and what was laid down for it comes back. -/
theorem fetchOne_run (hurl : client.urlFor id.node ["chunks", id.text] = .ok (url id))
    (hhttp : (url id).IsHttp) (log : List Network.Sent) :
    (client.fetchOne (scripted replies) id).run log =
      ((replies log.length).elim (.error (.unreachable (url id).text)) (Reply.chunk id),
        log ++ [requestOf (url id)]) := by
  rw [fetchOne, get, hurl]
  dsimp only
  rw [StateT.run_bind, send_scripted client hhttp]
  cases replies log.length <;> rfl

/-- A reply that settles something brings the chunk or nothing, behind one request. -/
theorem fetchOne_of_settles (hurl : client.urlFor id.node ["chunks", id.text] = .ok (url id))
    (hhttp : (url id).IsHttp) {log : List Network.Sent}
    (h : Settles (replies log.length)) :
    (client.fetchOne (scripted replies) id).run log =
      (.ok (((replies log.length).bind Reply.bytes?).map (Chunk.mk id)),
        log ++ [requestOf (url id)]) := by
  rw [fetchOne_run hurl hhttp]
  cases hreply : replies log.length with
  | none =>
    rw [hreply] at h
    exact absurd h not_settles_none
  | some reply =>
    rw [hreply] at h
    rw [Option.elim_some, h.chunk]
    rfl

/-- Any other reply fails the request. -/
theorem fetchOne_of_not_settles (hurl : client.urlFor id.node ["chunks", id.text] = .ok (url id))
    (hhttp : (url id).IsHttp) {log : List Network.Sent}
    (h : ¬ Settles (replies log.length)) :
    ∃ failure, (client.fetchOne (scripted replies) id).run log =
      (.error failure, log ++ [requestOf (url id)]) := by
  rw [fetchOne_run hurl hhttp]
  cases hreply : replies log.length with
  | none => exact ⟨_, rfl⟩
  | some reply =>
    rw [hreply] at h
    obtain ⟨failure, hfailure⟩ := exists_chunk_eq_error h id
    exact ⟨failure, by rw [Option.elim_some, hfailure]⟩

end Steps

section Runs

variable {client : Client} {replies : Nat → Option Reply} {url : ChunkId → Url}

/-- Behind a chunk that was settled the others are asked for. -/
theorem fetchAll_cons_of_ok {σ : Type} {transport : Transport (StateM σ)} {id : ChunkId}
    {ids : List ChunkId} {chunk : Option Chunk} {s t : σ}
    (h : (client.fetchOne transport id).run s = (.ok chunk, t)) :
    (client.fetchAll transport (id :: ids)).run s =
      (((client.fetchAll transport ids).run t).1.map (chunk.toList ++ ·),
        ((client.fetchAll transport ids).run t).2) := by
  rw [fetchAll, StateT.run_bind, h]
  show ((client.fetchAll transport ids >>= _).run t) = _
  rw [StateT.run_bind]
  rcases (client.fetchAll transport ids).run t with ⟨_ | _, _⟩ <;> rfl

/-- Behind a failure no other chunk is asked for. -/
theorem fetchAll_cons_of_error {σ : Type} {transport : Transport (StateM σ)} {id : ChunkId}
    {failure : Failure} {s t : σ} (h : (client.fetchOne transport id).run s = (.error failure, t))
    (ids : List ChunkId) :
    (client.fetchAll transport (id :: ids)).run s = (.error failure, t) := by
  rw [fetchAll, StateT.run_bind, h]
  rfl

/-- As long as replies settle something, a batch goes on with the ids behind. -/
theorem fetchAll_append_run {front : List ChunkId}
    (hurl : ∀ id ∈ front, client.urlFor id.node ["chunks", id.text] = .ok (url id) ∧
      (url id).IsHttp) {log : List Network.Sent}
    (h : ∀ n < front.length, Settles (replies (log.length + n))) (back : List ChunkId) :
    (client.fetchAll (scripted replies) (front ++ back)).run log =
      (((client.fetchAll (scripted replies) back).run
          (log ++ front.map fun id => requestOf (url id))).1.map
            (brought replies (front.zipIdx log.length) ++ ·),
        ((client.fetchAll (scripted replies) back).run
          (log ++ front.map fun id => requestOf (url id))).2) := by
  induction front generalizing log with
  | nil =>
    rw [List.nil_append, List.map_nil, List.append_nil]
    rcases (client.fetchAll (scripted replies) back).run log with ⟨_ | _, _⟩ <;> rfl
  | cons id front ih =>
    obtain ⟨⟨hid, hhttp⟩, hfront⟩ := List.forall_mem_cons.mp hurl
    have hone := fetchOne_of_settles hid hhttp (h 0 (by simp))
    -- the next reply is the one behind those to the requests that are in the log already
    have hnext (sent : Network.Sent) : (log ++ [sent]).length = log.length + 1 :=
      List.length_append
    have hrest : ∀ n < front.length,
        Settles (replies ((log ++ [requestOf (url id)]).length + n)) := by
      intro n hn
      rw [hnext, Nat.add_assoc, Nat.add_comm 1]
      exact h (n + 1) (Nat.succ_lt_succ hn)
    rw [List.cons_append, fetchAll_cons_of_ok hone, ih hfront hrest, hnext, List.zipIdx_cons,
      List.map_cons, List.append_assoc, List.singleton_append]
    rcases (client.fetchAll (scripted replies) back).run _ with ⟨_ | chunks, _⟩
    · rfl
    · rw [brought_cons]
      simp only [Except.map, List.append_assoc]

/-- From the start, replies are taken in their order. -/
private theorem settles_from_start {count : Nat} (h : ∀ n < count, Settles (replies n)) :
    ∀ n < count, Settles (replies (([] : List Network.Sent).length + n)) := by
  intro n hn
  rw [List.length_nil, Nat.zero_add]
  exact h n hn

/-- A batch whose replies all settle something is fetched as a whole. -/
theorem fetchAll_of_settles {ids : List ChunkId}
    (hurl : ∀ id ∈ ids, client.urlFor id.node ["chunks", id.text] = .ok (url id) ∧
      (url id).IsHttp) (h : ∀ n < ids.length, Settles (replies n)) :
    (client.fetchAll (scripted replies) ids).run [] =
      (.ok (brought replies ids.zipIdx), ids.map fun id => requestOf (url id)) := by
  have hall := fetchAll_append_run hurl (settles_from_start h) []
  rw [List.append_nil] at hall
  rw [hall]
  exact congrArg₂ Prod.mk (congrArg Except.ok (List.append_nil _)) rfl

/-- A batch comes to its end at the first reply that settles nothing. -/
theorem fetchAll_of_not_settles {ids : List ChunkId}
    (hurl : ∀ id ∈ ids, client.urlFor id.node ["chunks", id.text] = .ok (url id) ∧
      (url id).IsHttp) {n : Nat} (hn : n < ids.length)
    (hbefore : ∀ k < n, Settles (replies k)) (h : ¬ Settles (replies n)) :
    ∃ failure, (client.fetchAll (scripted replies) ids).run [] =
      (.error failure, (ids.take (n + 1)).map fun id => requestOf (url id)) := by
  have hlength : (ids.take n).length = n := List.length_take_of_le (Nat.le_of_lt hn)
  -- what is in front of the reply goes well, and the request that it answers is the last one
  have hfront := fetchAll_append_run
    (fun id hid => hurl id (List.mem_of_mem_take hid))
    (settles_from_start (hlength.symm ▸ hbefore)) (ids[n] :: ids.drop (n + 1))
  rw [← List.drop_eq_getElem_cons hn, List.take_append_drop, List.nil_append] at hfront
  obtain ⟨hid, hhttp⟩ := hurl ids[n] (List.getElem_mem hn)
  have hlast : ¬ Settles (replies ((ids.take n).map fun id => requestOf (url id)).length) := by
    rwa [List.length_map, hlength]
  obtain ⟨failure, hone⟩ := fetchOne_of_not_settles hid hhttp hlast
  refine ⟨failure, ?_⟩
  rw [hfront, List.drop_eq_getElem_cons hn, fetchAll_cons_of_error hone,
    List.take_succ_eq_append_getElem hn, List.map_append]
  rfl

end Runs

/-! ## Batches -/

/-- What a client makes of a batch when replies come back as they were laid down. When every reply
settles something, every request is sent, and what the replies bring is counted and given back;
these are the ids whose reply is no miss, in their order. The first reply that settles nothing fails
the batch, and no request is sent behind it. -/
structure FetchesInOrder (client : Client) (request : ChunkId → Network.Sent)
    (replies : Nat → Option Reply) (ids : List ChunkId) : Prop where
  whole : (∀ n < ids.length, Settles (replies n)) →
    (client.fetch (scripted replies) ids).run [] =
      (.ok ⟨UInt64.ofNat (brought replies ids.zipIdx).length, brought replies ids.zipIdx⟩,
        ids.map request)
  found : (∀ n < ids.length, Settles (replies n)) →
    (brought replies ids.zipIdx).map Chunk.id =
      (ids.zipIdx.filter fun place => ¬ IsMiss (replies place.2)).map Prod.fst
  stopped : ∀ n < ids.length, (∀ k < n, Settles (replies k)) → ¬ Settles (replies n) →
    ∃ failure, (client.fetch (scripted replies) ids).run [] =
      (.error failure, (ids.take (n + 1)).map request)

/-- A batch counts the chunks that all of its requests have brought. -/
theorem fetch_run_eq {σ : Type} (client : Client) (transport : Transport (StateM σ))
    (ids : List ChunkId) (s : σ) :
    (client.fetch transport ids).run s =
      (((client.fetchAll transport ids).run s).1.map .ofChunks,
        ((client.fetchAll transport ids).run s).2) :=
  rfl

/-- A client whose nodes have URLs that can be spoken to fetches a batch one id after the other,
each from the node that answers for it, and as a whole or not at all. -/
theorem fetchesInOrder_ofConfig (config : Config) (bases : NodeId → Url)
    (replies : Nat → Option Reply) (ids : List ChunkId)
    (h : ∀ id ∈ ids, config.HasBase id.node (bases id.node)) :
    FetchesInOrder (ofConfig config) (fun id => requestOf ((bases id.node).ofChunk id)) replies
      ids := by
  have hurl : ∀ id ∈ ids,
      (ofConfig config).urlFor id.node ["chunks", id.text] = .ok ((bases id.node).ofChunk id) ∧
        ((bases id.node).ofChunk id).IsHttp := fun id hid =>
    ⟨urlFor_chunk (h id hid), Url.isHttp_ofChunk (h id hid).isHttp id⟩
  refine ⟨fun hsettles => ?_, fun hsettles => ?_, fun n hn hbefore hfails => ?_⟩
  · rw [fetch_run_eq, fetchAll_of_settles hurl hsettles]
    rfl
  · exact map_id_brought fun place hplace =>
      hsettles place.2 (List.snd_lt_of_mem_zipIdx hplace)
  · obtain ⟨failure, hall⟩ := fetchAll_of_not_settles hurl hn hbefore hfails
    exact ⟨failure, by rw [fetch_run_eq, hall]; rfl⟩

/-- A chunk that is asked for twice, and another one behind: the node does not have the first one,
and no reply comes for its repetition, so that the third request is never sent. -/
theorem fetchesInOrder_repetition :
    (∀ id ∈ [ChunkId.mk 7, ChunkId.mk 7, ChunkId.mk 8], Config.HasBase {} id.node .defaultApi) ∧
      ∃ failure, ((ofConfig {}).fetch (scripted fun n => if n = 0 then some ⟨404, []⟩ else none)
        [⟨7⟩, ⟨7⟩, ⟨8⟩]).run [] =
          (.error failure,
            [requestOf (Url.ofChunk .defaultApi ⟨7⟩), requestOf (Url.ofChunk .defaultApi ⟨7⟩)]) :=
  have hbases : ∀ id ∈ [ChunkId.mk 7, ChunkId.mk 7, ChunkId.mk 8],
      Config.HasBase {} id.node .defaultApi := fun id _ => Config.hasBase_default id.node
  ⟨hbases, (fetchesInOrder_ofConfig {} (fun _ => .defaultApi)
    (fun n => if n = 0 then some ⟨404, []⟩ else none) [⟨7⟩, ⟨7⟩, ⟨8⟩] hbases).stopped 1 (by decide)
      (by decide) (by decide)⟩

end Client

end ChunkScope
