import ChunkScope.Proofs.Node.Spellings

/-!
# Chunks that a node acknowledges

When a node stores a chunk, it says so with the digits of the request; when it is asked for the
chunk, it answers with those of the bytes that it has. The two responses are the same, whatever the
case of the digits was and whichever id the chunk was given. A request to store a chunk is granted
just when its digits come in pairs and its local id, if it has one, is on offer, as long as a node
reads the body at all.
-/

namespace ChunkScope.Node.Api

open Http Message Store

/-- A wish to store a chunk that a node grants: its data are pairs of digits, and its local id is on
offer if it has one. -/
def IsGranted (wish : CreateRequest) : Prop :=
  Hex.IsPairs wish.data.toList ∧ IsOnOffer (wish.localId.map LocalId.mk)

/-- A wish is granted when its data are digits and its local id is on offer. -/
theorem isGranted_iff {wish : CreateRequest} :
    IsGranted wish ↔ (∃ data, Hex.decode? wish.data = some data) ∧
      IsOnOffer (wish.localId.map LocalId.mk) :=
  and_congr_left fun _ => Hex.exists_decodeChars?_iff.symm

/-- A local id that may be left out or `null` is on offer when it is in range if it is there. -/
private theorem isOnOffer_join_iff {slot : Option (Option UInt64)} :
    IsOnOffer (slot.join.map LocalId.mk) ↔
      ∀ n, slot = some (some n) → 1 ≤ n.toNat ∧ n.toNat ≤ 2 ^ 48 - 1 := by
  constructor
  · rintro h n rfl
    exact h ⟨n⟩ rfl
  · intro h l hl
    obtain ⟨n, hn, rfl⟩ := Option.map_eq_some_iff.mp hl
    exact h n (Option.join_eq_some_iff.mp hn)

/-- The answer to a wish that is granted is the one for the chunk that it leaves behind. -/
theorem createChunk_eq_getChunk {wish : CreateRequest} (h : IsGranted wish) (store : Store) :
    ∃ id next answer, createChunk wish store = (getChunk id next, next) ∧
      getChunk id next = .done (ChunkAnswer.toJson answer) ∧ answer.chunkId = id.text := by
  obtain ⟨⟨data, hdata⟩, hslot⟩ := isGranted_iff.mp h
  obtain ⟨id, next, hcreate, -, -, hstores⟩ := createChunk_granted hdata hslot store
  have hget : getChunk id next =
      .done (ChunkAnswer.toJson ⟨id.text, UInt64.ofNat data.length, Hex.encode data⟩) := by
    rw [getChunk, hstores.here]
  refine ⟨id, next, _, ?_, hget, rfl⟩
  rw [hcreate, hget, Hex.encode_of_decode? hdata]

/-- Storing a chunk succeeds just when the wish is granted. -/
theorem status_createChunk_iff {wish : CreateRequest} {store : Store} :
    (createChunk wish store).1.status = 200 ↔ IsGranted wish := by
  constructor
  · intro hstatus
    by_contra hrefused
    exact (createChunk_refuses (mt isGranted_iff.mpr hrefused) store).status_ne_200 hstatus
  · intro hgranted
    obtain ⟨id, next, answer, hcreate, hget, -⟩ := createChunk_eq_getChunk hgranted store
    rw [hcreate, hget]
    rfl

/-! ## Requests to store a chunk -/

/-- A request to store a chunk is answered by storing it. -/
theorem IsPost.respond_eq {request : Request} (h : IsPost request) (store : Store) :
    respond request store =
      ((postChunk request store).1.response .post, (postChunk request store).2) := by
  rw [respond, h.handle_eq, h.1]

/-- Such a request succeeds when it holds a wish that is granted. -/
theorem status_postChunk_iff {request : Request} {store : Store} :
    (postChunk request store).1.status = 200 ↔
      ∃ wish, readBody CreateRequest.read request = .ok wish ∧ IsGranted wish := by
  rw [postChunk]
  cases readBody CreateRequest.read request with
  | error rejection =>
    refine iff_of_false (refuses_rejected rejection store).status_ne_200 ?_
    rintro ⟨wish, hwish, -⟩
    cases hwish
  | ok wish =>
    constructor
    · intro hstatus
      exact ⟨wish, rfl, status_createChunk_iff.mp hstatus⟩
    · rintro ⟨_, ⟨⟩, hgranted⟩
      exact status_createChunk_iff.mpr hgranted

/-- A request for a chunk, which has the text of the id in its path, is answered with the chunk. -/
theorem respond_get {request : Request} {id : ChunkId} (hmethod : request.method = .get)
    (hpath : Route.path request.target = "/api/chunks/".toList ++ id.text.toList) (store : Store) :
    respond request store = ((getChunk id store).response .get, store) := by
  have habout : About id request none :=
    .chunk hpath (Route.isSegment_text id) (ChunkId.parse?_eq_some_iff.mp (ChunkId.parse?_text id))
  rw [respond, habout.handle_eq, hmethod]
  rfl

/-- What a node says to a request to store a chunk. It grants a wish that it has read, when the wish
can be granted. So a wish that is written as JSON, and is not too long, is granted for what its data
and its local id are, and the local id may be left out or `null`. Of a body that is too long it says
that it is. And what it says of the chunk is what it says when it is asked for the chunk right
after, which leaves everything as it is. -/
structure Acknowledges (request : Request) (store : Store) : Prop where
  ok_iff : (respond request store).1.status = 200 ↔
    request.contentType.any MediaType.declaresJson ∧ request.body.length ≤ bodyLimit ∧
      ∃ wish, CreateRequest.read.runBytes request.body = .ok wish ∧ IsGranted wish
  document : ∀ data slot, request.body = Utf8.encode (CreateRequest.document data slot).compact →
    request.contentType.any MediaType.declaresJson → request.body.length ≤ bodyLimit →
      ((respond request store).1.status = 200 ↔ Hex.IsPairs data.toList ∧
        ∀ n, slot = some (some n) → 1 ≤ n.toNat ∧ n.toNat ≤ 2 ^ 48 - 1)
  long : request.contentType.any MediaType.declaresJson →
    bodyLimit < request.body.length → (respond request store).1.status = 413
  served : (respond request store).1.status = 200 →
    ∃ answer, ChunkAnswer.read.run (respond request store).1.body = .ok answer ∧
      ∀ get : Request, get.method = .get →
        Route.path get.target = "/api/chunks/".toList ++ answer.chunkId.toList →
          respond get (respond request store).2 = respond request store

/-- It succeeds just when its body is JSON, not too long, and a wish that is granted. -/
theorem IsPost.status_iff {request : Request} (h : IsPost request) (store : Store) :
    (respond request store).1.status = 200 ↔
      request.contentType.any MediaType.declaresJson ∧ request.body.length ≤ bodyLimit ∧
        ∃ wish, CreateRequest.read.runBytes request.body = .ok wish ∧ IsGranted wish := by
  rw [h.respond_eq]
  show (postChunk request store).1.status = 200 ↔ _
  rw [status_postChunk_iff]
  simp only [readBody_eq_ok_iff, and_assoc, exists_and_left]

/-- What a node acknowledges is what it serves. -/
theorem acknowledges {request : Request} (h : IsPost request) (store : Store) :
    Acknowledges request store where
  ok_iff := h.status_iff store
  document := by
    intro data slot hbody hjson hsize
    rw [h.status_iff, and_iff_right hjson, and_iff_right hsize, hbody,
      Json.Reader.runBytes_encode, CreateRequest.run_read_document, ← isOnOffer_join_iff]
    constructor
    · rintro ⟨_, ⟨⟩, hgranted⟩
      exact hgranted
    · intro hgranted
      exact ⟨_, rfl, hgranted⟩
  long := by
    intro hjson hlong
    rw [h.respond_eq, postChunk, readBody, if_pos hjson, if_pos hlong]
    rfl
  served := by
    intro hstatus
    rw [h.respond_eq] at hstatus ⊢
    obtain ⟨wish, hread, hgranted⟩ := status_postChunk_iff.mp hstatus
    obtain ⟨id, next, answer, hcreate, hget, hid⟩ := createChunk_eq_getChunk hgranted store
    have hpost : postChunk request store = (getChunk id next, next) := by
      rw [postChunk, hread]
      exact hcreate
    rw [hpost]
    refine ⟨answer, ?_, ?_⟩
    · rw [hget]
      exact ChunkAnswer.run_read_toJson answer
    · intro get hmethod hpath
      rw [hid] at hpath
      rw [respond_get hmethod hpath]
      rfl

/-- Two bytes that are posted in capital letters are served as they were acknowledged. -/
theorem acknowledges_cafe :
    let store := Store.empty ⟨3⟩ (.ofLayouts [])
    let post : Request := ⟨.post, "/api/chunks", some "application/json",
      Utf8.encode "\x7b\"data\":\"CAFE\",\"local_id\":null\x7d"⟩
    let get : Request := ⟨.get, "/api/chunks/0x0003000000000001", none, []⟩
    IsPost post ∧ (respond post store).1.status = 200 ∧
      respond get (respond post store).2 = respond post store := by
  intro store post get
  have hpost : IsPost post := ⟨rfl, by decide⟩
  have hacknowledges := acknowledges hpost store
  have hbody : post.body = Utf8.encode (CreateRequest.document "CAFE" (some none)).compact := by
    decide +kernel
  have hpairs : Hex.IsPairs "CAFE".toList :=
    Hex.exists_decodeChars?_iff.mp ⟨[0xCA, 0xFE], by decide⟩
  have hstatus : (respond post store).1.status = 200 :=
    (hacknowledges.document _ _ hbody (by decide +kernel) (by decide +kernel)).mpr ⟨hpairs, nofun⟩
  obtain ⟨answer, hanswer, hget⟩ := hacknowledges.served hstatus
  have hread : ChunkAnswer.read.run (respond post store).1.body =
      .ok ⟨"0x0003000000000001", 2, "cafe"⟩ := by decide +kernel
  obtain rfl : ⟨"0x0003000000000001", 2, "cafe"⟩ = answer :=
    Except.ok.inj (hread.symm.trans hanswer)
  exact ⟨hpost, hstatus, hget get rfl (by decide)⟩

/-- A wish that is granted by its data and its local id is turned away when it is too long. -/
theorem long_wish_fails :
    let store := Store.empty ⟨1⟩ (.ofLayouts [])
    let wish : CreateRequest := ⟨Hex.encode (List.replicate 1048571 0), none⟩
    let post := createRequest "/api/chunks" wish
    IsPost post ∧ CreateRequest.read.runBytes post.body = .ok wish ∧ Hex.IsPairs wish.data.toList ∧
      (respond post store).1.status = 413 := by
  intro store wish post
  have hpost : IsPost post := ⟨rfl, by decide⟩
  have hsize : bodyLimit < CreateRequest.bodySize (List.replicate 1048571 0) none := by
    rw [CreateRequest.bodySize, List.length_replicate]
    decide
  have hlong : bodyLimit < post.body.length :=
    Nat.lt_of_lt_of_eq hsize (length_createRequest _ _ none).symm
  refine ⟨hpost, runBytes_createRequest _ wish, Hex.isPairs_encode _, ?_⟩
  rw [hpost.respond_eq, postChunk, readBody, if_pos (by decide +kernel), if_pos hlong]
  rfl

end ChunkScope.Node.Api
