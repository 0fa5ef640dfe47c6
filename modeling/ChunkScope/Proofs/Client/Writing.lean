import ChunkScope.Proofs.Client.Locality
import ChunkScope.Proofs.Client.Routing

/-!
# Storing through a client

A chunk that a client has stored is read back through the client, and no other chunk is read
differently than before. Whether it is stored hangs on the local id that was asked for and on the
number of bytes: what is sent holds two digits for each, and a node reads no body beyond its limit.
-/

namespace ChunkScope

open Http Message Url Node

/-! ## Nodes of a network -/

namespace Network

private theorem lookup_cons_eq (key : String) (store : Store) (rest : List (String × Store))
    (place : String) :
    ((key, store) :: rest).lookup place =
      if place = key then some store else rest.lookup place := by
  rw [List.lookup_cons]
  by_cases hplace : place = key
  · rw [beq_iff_eq.mpr hplace, if_pos hplace]
  · rw [beq_false_of_ne hplace, if_neg hplace]

/-- The node at a place is replaced, and no other one. -/
theorem lookup_setFirst {place : String} {hosts : List (String × Store)} {old : Store}
    (h : hosts.lookup place = some old) (next : Store) (other : String) :
    (setFirst place next hosts).lookup other =
      if other = place then some next else hosts.lookup other := by
  induction hosts with
  | nil => cases h
  | cons entry rest ih =>
    obtain ⟨key, store⟩ := entry
    rw [lookup_cons_eq] at h
    rw [setFirst]
    by_cases hkey : place = key
    · rw [if_pos hkey, lookup_cons_eq, lookup_cons_eq, hkey]
      by_cases hother : other = key
      · rw [if_pos hother, if_pos hother]
      · rw [if_neg hother, if_neg hother, if_neg hother]
    · rw [if_neg hkey] at h
      rw [if_neg hkey, lookup_cons_eq, lookup_cons_eq, ih h]
      by_cases hother : other = key
      · rw [if_pos hother, if_pos hother, if_neg fun heq => hkey (heq.symm.trans hother)]
      · rw [if_neg hother, if_neg hother]

end Network

namespace Client

/-! ## Clients of a node -/

/-- A client whose default node is at a place: the URL to which it sends chunks is that of the
chunks there. -/
def DefaultsTo (client : Client) (place : String) : Prop :=
  LeadsTo (client.defaultBase ++ "/chunks") ["api", "chunks"] place

/-- A client that looks for the chunks of a node at a place. -/
def RoutesTo (client : Client) (node : NodeId) (place : String) : Prop :=
  LeadsTo (client.baseFor node) ["api"] place

/-- A configuration whose default URL is at a place makes a client that stores there. -/
theorem defaultsTo_ofConfig {config : Config} {place : String} (h : IsAt config.client.url place) :
    (ofConfig config).DefaultsTo place := by
  obtain ⟨host, slashes, authority, hurl, hhost, rfl⟩ := h
  have hbase : (ofConfig config).defaultBase = ofHost host 0 ++ "/api" := by
    rw [defaultBase, ofConfig, hurl, trimSlashes_ofHost hhost]
  refine ⟨authority, none, none, ?_, rfl⟩
  rw [hbase, parse?_ofHost_chunks hhost]

/-- A configuration whose URL of a node is at a place makes a client that asks for its chunks
there. -/
theorem routesTo_ofConfig {config : Config} {node : NodeId} {place : String}
    (h : IsAt (config.urlOf node) place) : (ofConfig config).RoutesTo node place := by
  obtain ⟨host, slashes, authority, hurl, hhost, rfl⟩ := h
  refine ⟨authority, none, none, ?_, rfl⟩
  rw [baseFor_ofConfig, hurl, trimSlashes_ofHost hhost, parse?_ofHost hhost]

variable {client : Client} {network : Network} {place : String} {store : Store}

/-- A client reads a chunk of a node where it looks for it. -/
theorem fetch_of_routesTo (hlive : network.IsLive) {id : ChunkId}
    (hrouting : client.RoutesTo id.node place) (hstore : network.hosts.lookup place = some store) :
    ((client.fetch Network.transport [id]).run network).1 = .ok (store.fetch [id]) := by
  obtain ⟨authority, query, fragment, hparse, rfl⟩ := hrouting
  have hurl : client.urlFor id.node ["chunks", id.text] =
      .ok ⟨"http", some authority, .named ["api", "chunks", id.text], query, fragment⟩ := by
    have hbelow : (Url.mk "http" (some authority) (.named ["api"]) query fragment).below?
        ["chunks", id.text] =
          some ⟨"http", some authority, .named ["api", "chunks", id.text], query, fragment⟩ := by
      rw [← foldl_push_chunk id]
      rfl
    rw [urlFor, hparse]
    dsimp only
    rw [hbelow]
  have hnames : ∀ name ∈ ["api", "chunks", id.text], StaysInPath name :=
    List.forall_mem_cons.mpr ⟨by simp [StaysInPath], staysInPath_chunk id⟩
  have hpath : Route.path (target ⟨"http", some authority, .named ["api", "chunks", id.text], query,
      fragment⟩) = "/api/chunks/".toList ++ id.text.toList := by
    have hfront : "/api/chunks/".toList =
        '/' :: "api".toList ++ ('/' :: "chunks".toList ++ ['/']) := by decide
    rw [Route.path_target _ _ _ _ hnames, hfront]
    simp only [List.flatMap_cons, List.flatMap_nil, List.append_nil, List.append_assoc,
      List.cons_append, List.nil_append]
  have hid : id.text.toList ≠ [] ∧ '/' ∉ id.text.toList :=
    ⟨by simp [ChunkId.toList_text], id.slash_not_mem_text⟩
  exact fetch_of_get (get_run_of_url hlive hurl (.inl rfl) rfl hstore
    (Api.respond_chunk (Route.ofTarget?_eq_chunk_iff.mpr ⟨hpath, hid⟩) (ChunkId.decode?_text id)
      store))

/-! ## One request -/

/-- What a client wants stored. -/
def wish (data : Bytes) (slot : Option LocalId) : CreateRequest :=
  ⟨Hex.encode data, slot.map LocalId.value⟩

/-- What a node makes of it. -/
def granted (data : Bytes) (slot : Option LocalId) (store : Store) : Node.Answer × Store :=
  if Api.bodyLimit < CreateRequest.bodySize data (slot.map LocalId.value) then
    (.rejected .tooLong, store)
  else Api.createChunk (wish data slot) store

/-- What is behind a request of a client to store a chunk: the default node has handled it, and the
client makes of the answer what it can. -/
theorem create_run (hlive : network.IsLive) (hdefault : client.DefaultsTo place)
    (hstore : network.hosts.lookup place = some store) (data : Bytes) (slot : Option LocalId) :
    ∃ log, (client.create Network.transport data slot).run network =
      (Reply.created (.ofAnswer (granted data slot store).1),
        { network with
          hosts := Network.setFirst place (granted data slot store).2 network.hosts
          log }) := by
  obtain ⟨authority, query, fragment, hparse, rfl⟩ := hdefault
  generalize hurl : Url.mk "http" (some authority) (.named ["api", "chunks"]) query fragment = url
    at hparse
  have hauthority : url.authority = some authority := by rw [← hurl]
  have hhttp : url.IsHttp := by
    rw [← hurl]
    exact .inl rfl
  have hpath : Route.path url.target = "/api/chunks".toList := by
    rw [← hurl, Route.path_target]
    · rfl
    · simp [StaysInPath]
  -- the request that arrives is that of the wish, and the node answers it at once
  let sent : Network.Sent := ⟨.post, url, some (wish data slot).toJson.compact⟩
  have hhandle : Api.handle (Network.request sent) store = granted data slot store := by
    have hrequest : Network.request sent = Api.createRequest url.target (wish data slot) := rfl
    have hsize : (Api.createRequest url.target (wish data slot)).body.length =
        CreateRequest.bodySize data (slot.map LocalId.value) :=
      Api.length_createRequest url.target data (slot.map LocalId.value)
    rw [hrequest, Api.handle_createRequest hpath, hsize, granted]
  have hask : Network.ask authority.place sent network.hosts =
      (some (.ofAnswer (granted data slot store).1),
        Network.setFirst authority.place (granted data slot store).2 network.hosts) := by
    rw [Network.ask, hstore, ← hhandle]
    rfl
  have hsent : (client.sendText Network.transport .post (client.defaultBase ++ "/chunks")
      (some (wish data slot).toJson.compact)).run network =
        (.ok (.ofAnswer (granted data slot store).1),
          { network with
            hosts := Network.setFirst authority.place (granted data slot store).2 network.hosts
            log := network.log ++ [sent] }) := by
    have hsend : network.send client.patience sent = _ :=
      Network.send_eq hlive client.patience hauthority
    rw [hask] at hsend
    rw [sendText, hparse]
    refine (send_run client hhttp _ _ network).trans ?_
    rw [hsend]
    rfl
  refine ⟨network.log ++ [sent], ?_⟩
  rw [create, StateT.run_bind]
  rw [wish] at hsent
  rw [hsent]
  rfl

private theorem created_done {answer : ChunkAnswer} {id : ChunkId} (h : answer.chunkId = id.text) :
    Reply.created (.ofAnswer (.done answer.toJson)) = .ok id := by
  rw [Reply.created, message_done (ChunkAnswer.run_read_toJson answer)]
  dsimp only
  rw [h, ChunkId.parse?_text]

private theorem created_of_not_success {answer : Node.Answer}
    (h : Status.isSuccess answer.status = false) :
    Reply.created (.ofAnswer answer) =
      .error (.refused answer.status (Reply.ofAnswer answer).text) := by
  have hmessage : Reply.message ChunkAnswer.read (.ofAnswer answer) =
      .error (.refused answer.status (Reply.ofAnswer answer).text) :=
    if_neg (by rw [Reply.ofAnswer, Network.arriving, h]; decide)
  rw [Reply.created, hmessage]

/-! ## What a client may count on -/

/-- What a client may count on when it wants a chunk stored on the node at a place. It succeeds
exactly when a local id that it asks for is on offer and the body is not longer than a node reads,
and it is given the id that it asks for. It then reads the chunk back, and every other chunk as
before. When it fails, the node has the store that it had. -/
structure Keeps (client : Client) (network : Network) (place : String) (store : Store)
    (data : Bytes) (slot : Option LocalId) (result : Except Failure ChunkId) (behind : Network) :
    Prop where
  ok_iff : (∃ id, result = .ok id) ↔ Api.IsOnOffer slot ∧
    CreateRequest.bodySize data (slot.map LocalId.value) ≤ Api.bodyLimit
  asked : ∀ id l, result = .ok id → slot = some l → id = ChunkId.pack store.node l
  back : ∀ id, result = .ok id →
    ((client.fetch Network.transport [id]).run behind).1 = .ok ⟨1, [⟨id, data⟩]⟩
  others : ∀ id other, result = .ok id → other ≠ id →
    ((client.fetch Network.transport [other]).run behind).1 =
      ((client.fetch Network.transport [other]).run network).1
  failed : ∀ failure, result = .error failure → behind.hosts.lookup place = some store

/-- A node that has stored a chunk gives it back, and leaves all others as they were. -/
private theorem keeps_of_stores (hlive : network.IsLive)
    (hrouting : client.RoutesTo store.node place)
    (hstore : network.hosts.lookup place = some store) {data : Bytes} {slot : Option LocalId}
    {id : ChunkId} {next : Store} (hstores : Store.Stores id data store next)
    (hnode : id.node = store.node) (hasked : ∀ l, slot = some l → id = ChunkId.pack store.node l)
    (hgranted : Api.IsOnOffer slot ∧
      CreateRequest.bodySize data (slot.map LocalId.value) ≤ Api.bodyLimit)
    (log : List Network.Sent) :
    Keeps client network place store data slot (.ok id)
      { network with hosts := Network.setFirst place next network.hosts, log } := by
  have hlookup := Network.lookup_setFirst hstore next
  have hbehind : Network.IsLive
      { network with hosts := Network.setFirst place next network.hosts, log } :=
    ⟨hlive.isUp, hlive.isPrompt, hlive.replies⟩
  refine ⟨iff_of_true ⟨id, rfl⟩ hgranted, ?_, ?_, ?_, nofun⟩
  · intro other l hother
    rw [← Except.ok.inj hother]
    exact hasked l
  · intro other hother
    rw [← Except.ok.inj hother]
    have hfetch : next.fetch [id] = ⟨1, [⟨id, data⟩]⟩ := by
      rw [Store.fetch, List.filterMap_cons, hstores.here]
      rfl
    rw [← hnode] at hrouting
    rw [fetch_of_routesTo hbehind hrouting ((hlookup place).trans (if_pos rfl)), hfetch]
  · intro stored other hstored hne
    rw [← Except.ok.inj hstored] at hne
    refine fetch_congr hbehind hlive fun at_ => ?_
    rw [hlookup]
    by_cases hplace : at_ = place
    · rw [if_pos hplace, hplace, hstore, Option.map_some, Option.map_some,
        hstores.elsewhere other hne]
    · rw [if_neg hplace]

/-- A client whose default node is at a place, and which looks for the chunks of that node there,
reads back what it has stored. -/
theorem keeps_create (hlive : network.IsLive) (hdefault : client.DefaultsTo place)
    (hrouting : client.RoutesTo store.node place)
    (hstore : network.hosts.lookup place = some store) (data : Bytes) (slot : Option LocalId) :
    Keeps client network place store data slot
      ((client.create Network.transport data slot).run network).1
      ((client.create Network.transport data slot).run network).2 := by
  obtain ⟨log, hrun⟩ := create_run hlive hdefault hstore data slot
  rw [hrun]
  by_cases hgranted : Api.IsOnOffer slot ∧
      CreateRequest.bodySize data (slot.map LocalId.value) ≤ Api.bodyLimit
  · obtain ⟨answer, id, next, hcreate, hid, hnode, hasked, hstores⟩ :=
      Api.createChunk_of_isOnOffer hgranted.1 data store
    have hhandle : granted data slot store = (.done answer.toJson, next) :=
      (if_neg (Nat.not_lt.mpr hgranted.2)).trans hcreate
    rw [hhandle]
    dsimp only
    rw [created_done hid]
    exact keeps_of_stores hlive hrouting hstore hstores hnode hasked hgranted log
  · have hrefuses : Api.Refuses (granted data slot store) store := by
      rw [granted]
      split
      · exact Api.refuses_rejected .tooLong store
      · next hlong =>
        refine Api.refuses_createChunk (fun hoffer => hgranted ⟨hoffer, ?_⟩) data store
        exact Nat.not_lt.mp hlong
    rw [created_of_not_success hrefuses.1, hrefuses.2]
    refine ⟨iff_of_false nofun hgranted, nofun, nofun, nofun, ?_⟩
    intro _ _
    exact (Network.lookup_setFirst hstore store place).trans (if_pos rfl)

/-- Two bytes that are stored as the chunk 5 of the node 1 are read back from there. -/
theorem create_five :
    let client := ofConfig {}
    let ran := (client.create Network.transport [1, 2] (some ⟨5⟩)).run (.ofStore .vertex)
    ran.1 = .ok (.pack ⟨1⟩ ⟨5⟩) ∧
      ((client.fetch Network.transport [.pack ⟨1⟩ ⟨5⟩]).run ran.2).1 =
        .ok ⟨1, [⟨.pack ⟨1⟩ ⟨5⟩, [1, 2]⟩]⟩ := by
  intro client ran
  have hdefault : client.DefaultsTo "127.0.0.1:9101" := defaultsTo_ofConfig Network.isAt_default
  have hrouting : client.RoutesTo Store.vertex.node "127.0.0.1:9101" :=
    routesTo_ofConfig Network.isAt_default
  have hkeeps := keeps_create (Network.isLive_ofStore .vertex) hdefault hrouting
    List.lookup_cons_self [1, 2] (some ⟨5⟩)
  have hoffer : Api.IsOnOffer (some ⟨5⟩) := Api.isOnOffer_some_iff.mpr (by decide)
  have hsize : CreateRequest.bodySize [1, 2] (some 5) ≤ Api.bodyLimit := by decide +kernel
  obtain ⟨id, hid⟩ := hkeeps.ok_iff.mpr ⟨hoffer, hsize⟩
  obtain rfl : id = .pack ⟨1⟩ ⟨5⟩ := hkeeps.asked id ⟨5⟩ hid rfl
  exact ⟨hid, hkeeps.back _ hid⟩

/-- A chunk of a mebibyte, less a few bytes, is not stored even if any local id will do: its digits
do not fit into a body that the node reads. -/
theorem create_long_fails :
    let client := ofConfig {}
    let network := Network.ofStore .vertex
    network.IsLive ∧ client.DefaultsTo "127.0.0.1:9101" ∧
      client.RoutesTo Store.vertex.node "127.0.0.1:9101" ∧
      network.hosts.lookup "127.0.0.1:9101" = some .vertex ∧
      ¬ ∃ id, ((client.create Network.transport (List.replicate 1048571 0) none).run network).1 =
        .ok id := by
  intro client network
  have hlive : network.IsLive := Network.isLive_ofStore .vertex
  have hdefault : client.DefaultsTo "127.0.0.1:9101" := defaultsTo_ofConfig Network.isAt_default
  have hlookup : network.hosts.lookup "127.0.0.1:9101" = some .vertex := List.lookup_cons_self
  refine ⟨hlive, hdefault, routesTo_ofConfig Network.isAt_default, hlookup, ?_⟩
  rintro ⟨id, hid⟩
  obtain ⟨log, hrun⟩ := create_run hlive hdefault hlookup (List.replicate 1048571 0) none
  have hlong : Api.bodyLimit < CreateRequest.bodySize (List.replicate 1048571 0) none := by
    rw [CreateRequest.bodySize, List.length_replicate]
    decide
  rw [hrun, granted, Option.map_none, if_pos hlong] at hid
  cases hid

end Client

end ChunkScope
