import ChunkScope.Node.Api
import ChunkScope.Proofs.Node.Runs

/-!
# What requests do to a node

Each request is one operation of the store or none, and which one it is can be told from the request
alone. So a node that has served some requests has the store of a run.
-/

namespace ChunkScope.Node.Api

open Http Message Store

/-- The operation that storing a chunk amounts to, when the wish for it is granted. -/
def createOperation? (request : CreateRequest) : Option Operation :=
  (Hex.decode? request.data).bind fun data =>
    match request.localId with
    | none => some (.create data)
    | some slot =>
      if slot = 0 ∨ ChunkId.localMask < slot then none else some (.put ⟨slot⟩ data)

/-- The operation that a request for a resource amounts to. -/
def routeOperation? (request : Request) : Route → Option Operation
  | .chunks =>
    if request.method = .post then
      (readBody CreateRequest.read request).toOption.bind createOperation?
    else none
  | .chunk id =>
    if request.method = .delete then
      ((Percent.decode? id).bind ChunkId.parse?).map Operation.remove
    else none
  | _ => none

/-- The operation that a request amounts to: one that stores a chunk, one that drops one, or
none. -/
def operation? (request : Request) : Option Operation :=
  (Route.ofTarget? request.target).bind (routeOperation? request)

/-- The store of a node that has served some requests. -/
def serve (requests : List Request) (store : Store) : Store :=
  requests.foldl (fun store request => (respond request store).2) store

/-! ## One request -/

/-- A wish does to the store what its operation does, if it amounts to one. -/
theorem createChunk_snd (request : CreateRequest) (store : Store) :
    (createChunk request store).2 = (createOperation? request).elim store (·.apply store) := by
  rw [createChunk, createOperation?]
  cases Hex.decode? request.data with
  | none => rfl
  | some data =>
    cases request.localId with
    | none => rfl
    | some slot =>
      dsimp only [Option.bind_some]
      split <;> rfl

/-- A request to store a chunk does what its body amounts to. -/
theorem postChunk_snd (request : Request) (store : Store) :
    (postChunk request store).2 =
      ((readBody CreateRequest.read request).toOption.bind createOperation?).elim store
        (·.apply store) := by
  rw [postChunk]
  cases readBody CreateRequest.read request with
  | error rejection => rfl
  | ok body => exact createChunk_snd body store

/-- A text that is no chunk id does nothing. -/
theorem withId_snd (text : String) (answer : ChunkId → Answer × Store) (store : Store) :
    (withId text answer store).2 = (ChunkId.parse? text).elim store fun id => (answer id).2 := by
  rw [withId]
  cases ChunkId.parse? text <;> rfl

/-- What a request for a resource does to the store is the operation that it amounts to. -/
theorem onRoute_snd (request : Request) (store : Store) (route : Route) :
    (onRoute request store route).2 =
      (routeOperation? request route).elim store (·.apply store) := by
  cases route with
  | status =>
    rw [onRoute]
    split <;> rfl
  | types =>
    rw [onRoute]
    split <;> rfl
  | chunks =>
    rw [onRoute, routeOperation?]
    split
    · next hpost => rw [if_pos hpost, postChunk_snd]
    · next hother => rw [if_neg hother]; rfl
  | chunk id =>
    rw [onRoute, routeOperation?]
    cases hid : Percent.decode? id with
    | none => cases request.method <;> rfl
    | some text =>
      cases hmethod : request.method with
      | delete =>
        simp only [withId_snd, if_pos, Option.bind_some]
        cases ChunkId.parse? text <;> rfl
      | get | head =>
        simp only [withId_snd]
        cases ChunkId.parse? text <;> rfl
      | post | options | other name => rfl
  | typed id typeName =>
    rw [onRoute]
    split <;> try rfl
    all_goals
      rw [withId_snd]
      cases ChunkId.parse? _ <;> rfl

/-- What a request does to the store is the operation that it amounts to. -/
theorem respond_snd (request : Request) (store : Store) :
    (respond request store).2 = (operation? request).elim store (·.apply store) := by
  show (handle request store).2 = _
  rw [handle, operation?]
  split
  · next hoptions =>
    -- a question about what is allowed amounts to nothing, whatever it is asked of
    cases Route.ofTarget? request.target with
    | none => rfl
    | some route => cases route <;> simp [routeOperation?, hoptions]
  · cases Route.ofTarget? request.target with
    | none => rfl
    | some route => exact onRoute_snd request store route

/-- A request that amounts to a create is answered with the id that the create gives. -/
theorem handle_eq_of_create {request : Request} {data : Bytes}
    (h : operation? request = some (.create data)) (store : Store) :
    ∃ written, handle request store =
      (.done (ChunkAnswer.toJson
        ⟨(store.create data).1.text, UInt64.ofNat data.length, written⟩),
          (store.create data).2) := by
  obtain ⟨route, hroute, hop⟩ := Option.bind_eq_some_iff.mp h
  -- only a request to the chunks amounts to a create, and then it leaves the local id open
  cases route with
  | chunks =>
    rw [routeOperation?] at hop
    split at hop
    · next hpost =>
      obtain ⟨body, hbody, hcreate⟩ := Option.bind_eq_some_iff.mp hop
      obtain ⟨bytes, hbytes, hslot⟩ := Option.bind_eq_some_iff.mp hcreate
      have hread : readBody CreateRequest.read request = .ok body := by
        cases hread : readBody CreateRequest.read request with
        | error rejection => rw [hread] at hbody; exact absurd hbody (by simp [Except.toOption])
        | ok other => rw [hread] at hbody; exact congrArg Except.ok (Option.some.inj hbody)
      cases hlocal : body.localId with
      | none =>
        rw [hlocal] at hslot
        obtain rfl : bytes = data := by simpa using hslot
        refine ⟨body.data.map Char.toLower, ?_⟩
        rw [handle, if_neg (by rw [hpost]; decide), hroute]
        simp only [onRoute, hpost, postChunk, hread, createChunk, hbytes, hlocal]
      | some slot =>
        rw [hlocal] at hslot
        dsimp only at hslot
        split at hslot <;> simp at hslot
    · exact absurd hop (by simp)
  | chunk id =>
    rw [routeOperation?] at hop
    split at hop
    · obtain ⟨dropped, _, hremove⟩ := Option.map_eq_some_iff.mp hop
      exact absurd hremove (by simp)
    · exact absurd hop (by simp)
  | status | types | typed id typeName => exact absurd hop (by simp [routeOperation?])

/-! ## Many requests -/

/-- A node that has served some requests has the store behind the run of their operations. -/
theorem serve_eq_perform (requests : List Request) (store : Store) :
    serve requests store = perform (requests.filterMap operation?) store := by
  induction requests generalizing store with
  | nil => rfl
  | cons request requests ih =>
    rw [serve, List.foldl_cons, respond_snd]
    refine (ih _).trans ?_
    rw [List.filterMap_cons]
    cases operation? request <;> rfl

end ChunkScope.Node.Api
