import ChunkScope.Proofs.Chunk.Ids
import ChunkScope.Proofs.Node.Messages
import ChunkScope.Proofs.Node.Serving
import ChunkScope.Proofs.Text.Encodings

/-!
# Requests that write

Only two requests change what a node has, and only when they succeed: a chunk that is posted and a
chunk that is deleted. Either changes what is under one id, and the response says which chunk was
stored or whether there was one to drop. A request that is refused leaves the store as it was, and
with it the local id that the next chunk gets.

`effect_respond` says so of any store, and `respond_effect` of the stores that runs lead to.
-/

namespace ChunkScope.Node

open Http Message Store

/-! ## Which requests they are -/

namespace Route

/-- The names of a resource in a path, behind that of the API. -/
def names : Route → List (List Char)
  | status => ["status".toList]
  | types => ["types".toList]
  | chunks => ["chunks".toList]
  | chunk id => ["chunks".toList, id]
  | typed id typeName => ["chunks".toList, id, "typed".toList, typeName]

/-- The path of a resource. -/
def written (route : Route) : List Char :=
  ("api".toList :: route.names).flatMap fun name => '/' :: name

/-- The segments of a path that name a resource are its names, none of which is empty. -/
theorem segments_of_ofSegments? {segments : List (List Char)} {route : Route}
    (h : ofSegments? segments = some route) :
    segments = [] :: "api".toList :: route.names ∧ ∀ name ∈ route.names, name ≠ [] := by
  unfold ofSegments? at h
  split at h
  · split at h
    · next hapi =>
      rw [hapi]
      split at h
      · split at h
        · next hname =>
          cases h
          exact ⟨by rw [hname]; rfl, by decide⟩
        · split at h
          · next hname =>
            cases h
            exact ⟨by rw [hname]; rfl, by decide⟩
          · split at h
            · next hname =>
              cases h
              exact ⟨by rw [hname]; rfl, by decide⟩
            · cases h
      · split at h
        · next hname =>
          cases h
          exact ⟨by rw [hname.1]; rfl, by simp [names, hname]⟩
        · cases h
      · split at h
        · next hname =>
          cases h
          exact ⟨by rw [hname.1, hname.2.2.1]; rfl, by simp [names, hname]⟩
        · cases h
      · cases h
    · cases h
  · cases h

/-- The names of a resource name it, when none of them is empty. -/
private theorem ofSegments?_names {route : Route} (h : ∀ name ∈ route.names, name ≠ []) :
    ofSegments? ([] :: "api".toList :: route.names) = some route := by
  cases route with
  | status | types | chunks => rfl
  | chunk id =>
    have hid : id ≠ [] := h id (by simp [names])
    exact if_pos ⟨rfl, hid⟩
  | typed id typeName =>
    have hid : id ≠ [] := h id (by simp [names])
    have hname : typeName ≠ [] := h typeName (by simp [names])
    exact if_pos ⟨rfl, hid, rfl, hname⟩

/-- A target names a resource exactly when its path is that of the resource. -/
theorem ofTarget?_eq_some_iff {target : String} {route : Route} :
    ofTarget? target = some route ↔
      path target = route.written ∧ ∀ name ∈ route.names, name ≠ [] ∧ '/' ∉ name := by
  constructor
  · intro h
    obtain ⟨hsegments, hempty⟩ := segments_of_ofSegments? h
    obtain ⟨hpath, hslash⟩ := Pieces.eq_flatMap_slash_of_splitOn hsegments
    exact ⟨hpath, fun name hname => ⟨hempty name hname, hslash name (.tail _ hname)⟩⟩
  · rintro ⟨hpath, hnames⟩
    have hslash : ∀ name ∈ "api".toList :: route.names, '/' ∉ name :=
      List.forall_mem_cons.mpr ⟨by decide, fun name hname => (hnames name hname).2⟩
    rw [ofTarget?, hpath, written, Pieces.splitOn_flatMap_slash hslash]
    exact ofSegments?_names fun name hname => (hnames name hname).1

/-- Which paths are those of all chunks. -/
theorem ofTarget?_eq_chunks_iff {target : String} :
    ofTarget? target = some chunks ↔ path target = "/api/chunks".toList := by
  rw [ofTarget?_eq_some_iff]
  exact and_iff_left (by decide)

/-- Which paths are those of a chunk. -/
theorem ofTarget?_eq_chunk_iff {target : String} {name : List Char} :
    ofTarget? target = some (chunk name) ↔
      path target = "/api/chunks/".toList ++ name ∧ name ≠ [] ∧ '/' ∉ name := by
  have hwritten : (chunk name).written = "/api/chunks/".toList ++ name := by
    show "/api/chunks/".toList ++ (name ++ []) = _
    rw [List.append_nil]
  have hchunks : "chunks".toList ≠ [] ∧ '/' ∉ "chunks".toList := by decide
  rw [ofTarget?_eq_some_iff, hwritten, names, List.forall_mem_cons, List.forall_mem_singleton]
  exact and_congr_right fun _ => and_iff_right hchunks

/-- Which paths are those of a structure. -/
theorem ofTarget?_eq_typed_iff {target : String} {name last : List Char} :
    ofTarget? target = some (typed name last) ↔
      path target = "/api/chunks/".toList ++ name ++ "/typed/".toList ++ last ∧
        (name ≠ [] ∧ '/' ∉ name) ∧ last ≠ [] ∧ '/' ∉ last := by
  have hwritten : (typed name last).written =
      "/api/chunks/".toList ++ name ++ "/typed/".toList ++ last := by
    show "/api/chunks/".toList ++ (name ++ ("/typed/".toList ++ (last ++ []))) = _
    rw [List.append_nil, List.append_assoc, List.append_assoc]
  have hchunks : "chunks".toList ≠ [] ∧ '/' ∉ "chunks".toList := by decide
  have htyped : "typed".toList ≠ [] ∧ '/' ∉ "typed".toList := by decide
  rw [ofTarget?_eq_some_iff, hwritten, names, List.forall_mem_cons, List.forall_mem_cons,
    List.forall_mem_cons, List.forall_mem_singleton]
  exact and_congr_right fun _ => (and_iff_right hchunks).trans
    (and_congr_right fun _ => and_iff_right htyped)

end Route

namespace Api

/-- A request to store a chunk. -/
def IsPost (request : Request) : Prop :=
  request.method = .post ∧ Route.path request.target = "/api/chunks".toList

/-- A request to drop the chunk of a name, which is the rest of the path. -/
def IsDelete (request : Request) (name : List Char) : Prop :=
  request.method = .delete ∧ Route.path request.target = "/api/chunks/".toList ++ name ∧
    name ≠ [] ∧ '/' ∉ name

/-- A request that amounts to an operation is one of the two. -/
theorem isPost_or_isDelete_of_operation? {request : Request} {op : Operation}
    (h : operation? request = some op) : IsPost request ∨ ∃ name, IsDelete request name := by
  obtain ⟨route, hroute, hop⟩ := Option.bind_eq_some_iff.mp h
  cases route with
  | chunks =>
    rw [routeOperation?] at hop
    split at hop
    · next hpost => exact .inl ⟨hpost, Route.ofTarget?_eq_chunks_iff.mp hroute⟩
    · cases hop
  | chunk name =>
    rw [routeOperation?] at hop
    split at hop
    · next hdelete => exact .inr ⟨name, hdelete, Route.ofTarget?_eq_chunk_iff.mp hroute⟩
    · cases hop
  | status | types | typed id typeName => cases hop

/-! ## What they do -/

/-- An answer that is no success, with the store as it was. -/
def Refuses (handled : Answer × Store) (store : Store) : Prop :=
  Status.isSuccess handled.1.status = false ∧ handled.2 = store

/-- A refusal is no success. -/
theorem Refuses.status_ne_200 {handled : Answer × Store} {store : Store}
    (h : Refuses handled store) : handled.1.status ≠ 200 := by
  intro hstatus
  have hfalse := h.1
  rw [hstatus] at hfalse
  cases hfalse

/-- An answer that is no success is a refusal. -/
theorem refuses_refused {status : Nat} (h : Status.isSuccess status = false) (message : String)
    (store : Store) : Refuses (.refused status message, store) store :=
  ⟨h, rfl⟩

/-- A request that is turned away is refused. -/
theorem refuses_rejected (rejection : Rejection) (store : Store) :
    Refuses (.rejected rejection, store) store :=
  ⟨by cases rejection <;> rfl, rfl⟩

/-- A request for a chunk is refused, or answered for the id in its path. -/
theorem withId_cases (text : String) (answer : ChunkId → Answer × Store) (store : Store) :
    Refuses (withId text answer store) store ∨
      ∃ id, ChunkId.parse? text = some id ∧ withId text answer store = answer id := by
  rw [withId]
  cases ChunkId.parse? text with
  | none => exact .inl (refuses_refused rfl _ store)
  | some id => exact .inr ⟨id, rfl, rfl⟩

/-- A local id that a client may ask for, or none. -/
def IsOnOffer (slot : Option LocalId) : Prop :=
  ∀ l, slot = some l → 1 ≤ l.value.toNat ∧ l.value.toNat ≤ 0xFFFFFFFFFFFF

theorem isOnOffer_none : IsOnOffer none := by
  intro l hl
  cases hl

/-- A local id is on offer when it is not zero and not above the largest one. -/
theorem isOnOffer_some_iff {slot : LocalId} :
    IsOnOffer (some slot) ↔ ¬ (slot.value = 0 ∨ ChunkId.localMask < slot.value) := by
  have hmask : ChunkId.localMask.toNat = 0xFFFFFFFFFFFF := rfl
  rw [not_or, ← UInt64.toNat_inj, UInt64.lt_iff_toNat_lt, hmask,
    show (0 : UInt64).toNat = 0 from rfl]
  constructor
  · intro h
    have := h slot rfl
    omega
  · rintro ⟨hzero, hle⟩ l hl
    cases hl
    omega

/-- A wish that is granted: the bytes are stored under an id of the node, with the local id that was
asked for, and the answer says so. -/
theorem createChunk_granted {wish : CreateRequest} {data : Bytes}
    (hdata : Hex.decode? wish.data = some data) (h : IsOnOffer (wish.localId.map LocalId.mk))
    (store : Store) :
    ∃ id next, createChunk wish store = (.done (ChunkAnswer.toJson
        ⟨id.text, UInt64.ofNat data.length, wish.data.map Char.toLower⟩), next) ∧
      id.node = store.node ∧ (∀ slot, wish.localId = some slot → id = .pack store.node ⟨slot⟩) ∧
      Stores id data store next := by
  rw [createChunk, hdata]
  cases hlocal : wish.localId with
  | none =>
    refine ⟨_, _, rfl, ChunkId.node_pack _ _, ?_, stores_create data store⟩
    intro slot hslot
    cases hslot
  | some slot =>
    rw [hlocal] at h
    dsimp only
    rw [if_neg (isOnOffer_some_iff.mp h)]
    refine ⟨_, _, rfl, ChunkId.node_pack _ _, ?_, stores_put ⟨slot⟩ data store⟩
    rintro _ ⟨⟩
    rfl

/-- Any other wish is refused. -/
theorem createChunk_refuses {wish : CreateRequest}
    (h : ¬ ((∃ data, Hex.decode? wish.data = some data) ∧
      IsOnOffer (wish.localId.map LocalId.mk))) (store : Store) :
    Refuses (createChunk wish store) store := by
  rw [createChunk]
  cases hdata : Hex.decode? wish.data with
  | none => exact refuses_refused rfl _ store
  | some data =>
    have hoffer : ¬ IsOnOffer (wish.localId.map LocalId.mk) := fun hoffer =>
      h ⟨⟨data, hdata⟩, hoffer⟩
    cases hlocal : wish.localId with
    | none =>
      rw [hlocal] at hoffer
      exact absurd isOnOffer_none hoffer
    | some slot =>
      rw [hlocal] at hoffer
      dsimp only
      rw [if_pos (Decidable.not_not.mp (mt isOnOffer_some_iff.mpr hoffer))]
      exact refuses_refused rfl _ store

/-- The wish to store a chunk is refused, or the chunk is stored under the id of the answer. -/
theorem createChunk_cases (request : CreateRequest) (store : Store) :
    Refuses (createChunk request store) store ∨
      ∃ data answer id, Hex.decode? request.data = some data ∧
        (createChunk request store).1 = .done (ChunkAnswer.toJson answer) ∧
        answer.chunkId = id.text ∧ Stores id data store (createChunk request store).2 := by
  by_cases hgranted : (∃ data, Hex.decode? request.data = some data) ∧
      IsOnOffer (request.localId.map LocalId.mk)
  · obtain ⟨⟨data, hdata⟩, hslot⟩ := hgranted
    obtain ⟨id, next, hcreate, -, -, hstores⟩ := createChunk_granted hdata hslot store
    rw [hcreate]
    exact .inr ⟨data, _, id, hdata, rfl, rfl, hstores⟩
  · exact .inl (createChunk_refuses hgranted store)

/-- A body is read when it is declared as JSON, not too long and of the form asked for. -/
theorem readBody_eq_ok_iff {α : Type} {reader : Json.Reader α} {request : Request} {a : α} :
    readBody reader request = .ok a ↔ request.contentType.any MediaType.declaresJson ∧
      request.body.length ≤ bodyLimit ∧ reader.runBytes request.body = .ok a := by
  rw [readBody, ← Nat.not_lt]
  split
  · next hjson =>
    split
    · next hlong => exact iff_of_false nofun fun h => h.2.1 hlong
    · next hshort =>
      rw [and_iff_right hjson, and_iff_right hshort]
      split
      · next hrun => rw [hrun, Except.ok.injEq, Except.ok.injEq]
      all_goals
        next hrun =>
          rw [hrun]
          exact iff_of_false nofun nofun
  · next hjson => exact iff_of_false nofun fun h => hjson h.1

/-- A request to store a chunk is handled as one. -/
theorem IsPost.handle_eq {request : Request} (h : IsPost request) (store : Store) :
    handle request store = postChunk request store := by
  rw [handle, if_neg (by rw [h.1]; decide), Route.ofTarget?_eq_chunks_iff.mpr h.2]
  simp only [onRoute, h.1]

/-- What a request to store a chunk comes to. -/
theorem handle_of_isPost {request : Request} (h : IsPost request) (store : Store) :
    Refuses (handle request store) store ∨
      ∃ body data answer id, CreateRequest.read.runBytes request.body = .ok body ∧
        Hex.decode? body.data = some data ∧
        (handle request store).1 = .done (ChunkAnswer.toJson answer) ∧
        answer.chunkId = id.text ∧ Stores id data store (handle request store).2 := by
  rw [h.handle_eq, postChunk]
  cases hbody : readBody CreateRequest.read request with
  | error rejection => exact .inl (refuses_rejected rejection store)
  | ok body =>
    have hrun := (readBody_eq_ok_iff.mp hbody).2.2
    rcases createChunk_cases body store with hrefuses | ⟨data, answer, id, hdata, hdone⟩
    · exact .inl hrefuses
    · exact .inr ⟨body, data, answer, id, hrun, hdata, hdone⟩

/-- What a request to drop a chunk comes to. -/
theorem handle_of_isDelete {request : Request} {name : List Char} (h : IsDelete request name)
    (store : Store) :
    Refuses (handle request store) store ∨
      ∃ text id, Percent.decode? name = some text ∧ ChunkId.parse? text = some id ∧
        handle request store = deleteChunk id store := by
  have hroute := Route.ofTarget?_eq_chunk_iff.mpr h.2
  rw [handle, if_neg (by rw [h.1]; decide), hroute]
  simp only [onRoute, h.1]
  cases Percent.decode? name with
  | none => exact .inl (refuses_rejected .path store)
  | some text =>
    rcases withId_cases text (fun id => deleteChunk id store) store with hrefuses | ⟨id, hid, hdone⟩
    · exact .inl hrefuses
    · exact .inr ⟨text, id, rfl, hid, hdone⟩

/-- What a request may do to a store: nothing, unless it stores or drops a chunk and succeeds. A
chunk that is posted has its bytes under the id of the response. When one is deleted, the chunk that
the path names is gone, and the response says whether it was there. -/
structure Effect (request : Request) (response : Response) (store next : Store) : Prop where
  unchanged : next ≠ store →
    response.status = 200 ∧ (IsPost request ∨ ∃ name, IsDelete request name)
  posted : IsPost request → response.status = 200 →
    ∃ body data answer id, CreateRequest.read.runBytes request.body = .ok body ∧
      Hex.decode? body.data = some data ∧ ChunkAnswer.read.run response.body = .ok answer ∧
      ChunkId.parse? answer.chunkId = some id ∧ Stores id data store next
  deleted : ∀ name, IsDelete request name → response.status = 200 →
    ∃ text id, Percent.decode? name = some text ∧ ChunkId.parse? text = some id ∧
      RemoveAnswer.read.run response.body = .ok ⟨(store.get? id).isSome⟩ ∧
      (∀ other, next.get? other = if other = id then none else store.get? other) ∧
      next.node = store.node ∧ next.nextSlot = store.nextSlot ∧ next.types = store.types

/-- A request has no other effect. -/
theorem effect_respond (request : Request) (store : Store) :
    Effect request (respond request store).1 store (respond request store).2 where
  unchanged := by
    intro hchanged
    cases hop : operation? request with
    | none =>
      rw [respond_snd, hop] at hchanged
      exact absurd rfl hchanged
    | some op =>
      refine ⟨?_, isPost_or_isDelete_of_operation? hop⟩
      have hrefuses : ¬ Refuses (handle request store) store := fun h => hchanged h.2
      show (handle request store).1.status = 200
      rcases isPost_or_isDelete_of_operation? hop with hpost | ⟨name, hdelete⟩
      · obtain ⟨_, _, answer, _, -, -, hdone, -⟩ :=
          (handle_of_isPost hpost store).resolve_left hrefuses
        rw [hdone]
        rfl
      · obtain ⟨_, id, -, -, hhandle⟩ := (handle_of_isDelete hdelete store).resolve_left hrefuses
        rw [hhandle]
        rfl
  posted := by
    intro hpost hstatus
    have hrefuses : ¬ Refuses (handle request store) store := fun h => h.status_ne_200 hstatus
    obtain ⟨body, data, answer, id, hbody, hdata, hdone, hid, hstores⟩ :=
      (handle_of_isPost hpost store).resolve_left hrefuses
    have hresponse : (respond request store).1.body = answer.toJson.compact := by
      show ((handle request store).1.response request.method).body = _
      rw [hdone]
      exact if_neg (by rw [hpost.1]; decide)
    refine ⟨body, data, answer, id, hbody, hdata, ?_, ?_, hstores⟩
    · rw [hresponse, ChunkAnswer.run_read_toJson]
    · rw [hid, ChunkId.parse?_text]
  deleted := by
    intro name hdelete hstatus
    have hrefuses : ¬ Refuses (handle request store) store := fun h => h.status_ne_200 hstatus
    obtain ⟨text, id, htext, hid, hhandle⟩ :=
      (handle_of_isDelete hdelete store).resolve_left hrefuses
    have hresponse : (respond request store).1.body =
        (RemoveAnswer.toJson ⟨(store.get? id).isSome⟩).compact := by
      show ((handle request store).1.response request.method).body = _
      rw [hhandle]
      exact if_neg (by rw [hdelete.1]; decide)
    have hnext : (respond request store).2 = (store.remove id).2 := congrArg Prod.snd hhandle
    rw [hnext, hresponse]
    exact ⟨text, id, htext, hid, RemoveAnswer.run_read_toJson _, get?_remove id store,
      rfl, rfl, rfl⟩

/-- Whatever a node has been through, a request has no other effect on its store, and all chunks
that are then there are chunks of the node. -/
theorem respond_effect (node : NodeId) (types : Registry) (ops : List Operation)
    (request : Request) :
    let store := perform ops (empty node types)
    let next := (respond request store).2
    Effect request (respond request store).1 store next ∧
      ∀ entry ∈ next.chunks, entry.1.node = node := by
  intro store next
  refine ⟨effect_respond request store, ?_⟩
  -- the next store is that of a run as well, which is one operation longer if it is another one
  have hrun : next = perform (ops ++ (operation? request).toList) (empty node types) := by
    show (respond request store).2 = _
    rw [respond_snd, perform_append]
    cases operation? request <;> rfl
  have hwell : WellFormed next := by
    rw [hrun]
    exact (wellFormed_empty node types).perform _
  have hnode : next.node = node := by
    rw [hrun, perform_node]
    rfl
  intro entry hentry
  rw [← hnode]
  exact hwell.hosted entry hentry

/-! ## What a client wants stored -/

/-- The request of a client to store a chunk. -/
def createRequest (target : String) (request : CreateRequest) : Request :=
  ⟨.post, target, some "application/json", Utf8.encode request.toJson.compact⟩

/-- Its body is read as the wish. -/
theorem runBytes_createRequest (target : String) (request : CreateRequest) :
    CreateRequest.read.runBytes (createRequest target request).body = .ok request := by
  rw [createRequest]
  dsimp only
  rw [Json.Reader.runBytes_encode, CreateRequest.run_read_toJson]

/-- Its body has two bytes for every one of the chunk, and a few more. -/
theorem length_createRequest (target : String) (data : Bytes) (slot : Option UInt64) :
    (createRequest target ⟨Hex.encode data, slot⟩).body.length =
      CreateRequest.bodySize data slot := by
  rw [createRequest]
  dsimp only
  rw [CreateRequest.length_encode_toJson]

/-- A node grants the wish of a client if the body is not too long for it to read. -/
theorem handle_createRequest {target : String} (h : Route.path target = "/api/chunks".toList)
    (request : CreateRequest) (store : Store) :
    handle (createRequest target request) store =
      if bodyLimit < (createRequest target request).body.length then (.rejected .tooLong, store)
      else createChunk request store := by
  have hpost : IsPost (createRequest target request) := ⟨rfl, h⟩
  have hjson : (createRequest target request).contentType.any MediaType.declaresJson = true := by
    show (some "application/json").any MediaType.declaresJson = true
    decide +kernel
  rw [hpost.handle_eq, postChunk, readBody, if_pos hjson, runBytes_createRequest]
  by_cases hlong : bodyLimit < (createRequest target request).body.length
  · rw [if_pos hlong, if_pos hlong]
  · rw [if_neg hlong, if_neg hlong]

private theorem map_value_map_mk (slot : Option LocalId) :
    (slot.map LocalId.value).map LocalId.mk = slot := by
  cases slot <;> rfl

/-- Bytes are stored under an id of the node, with the local id that was asked for. -/
theorem createChunk_of_isOnOffer {slot : Option LocalId} (h : IsOnOffer slot) (data : Bytes)
    (store : Store) :
    ∃ answer id next, createChunk ⟨Hex.encode data, slot.map LocalId.value⟩ store =
        (.done (ChunkAnswer.toJson answer), next) ∧ answer.chunkId = id.text ∧
      id.node = store.node ∧ (∀ l, slot = some l → id = ChunkId.pack store.node l) ∧
      Stores id data store next := by
  rw [← map_value_map_mk slot] at h
  obtain ⟨id, next, hcreate, hnode, hasked, hstores⟩ :=
    @createChunk_granted ⟨Hex.encode data, slot.map LocalId.value⟩ data
      (Hex.decode?_encode data) h store
  refine ⟨_, id, next, hcreate, rfl, hnode, ?_, hstores⟩
  rintro l rfl
  exact hasked l.value rfl

/-- A wish for a local id that is not on offer is refused. -/
theorem refuses_createChunk {slot : Option LocalId} (h : ¬ IsOnOffer slot) (data : Bytes)
    (store : Store) :
    Refuses (createChunk ⟨Hex.encode data, slot.map LocalId.value⟩ store) store := by
  refine createChunk_refuses (fun hgranted => h ?_) store
  rw [← map_value_map_mk slot]
  exact hgranted.2

end Api

end ChunkScope.Node
