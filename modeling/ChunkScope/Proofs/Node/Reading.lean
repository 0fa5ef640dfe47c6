import Mathlib.Data.List.TakeWhile
import ChunkScope.Node.Api
import ChunkScope.Proofs.Chunk.Ids
import ChunkScope.Proofs.Text.Encodings

/-!
# Requests that read

Which resource a path of names stands for, and how a node answers a request that reads a chunk.
-/

namespace ChunkScope

/-- The text of a chunk id needs no escapes in a path. -/
theorem ChunkId.decode?_text (id : ChunkId) : Percent.decode? id.text.toList = some id.text :=
  Percent.decode?_eq_self (forall_mem_text (by decide) (by decide) id)

namespace Node

open Http

namespace Route

/-- A name that the path goes on behind: nothing in it separates names or ends the path. -/
def IsPathName (name : String) : Prop :=
  ∀ c ∈ name.toList, c ≠ '/' ∧ c ≠ '?' ∧ c ≠ '#'

instance : DecidablePred IsPathName := fun name =>
  List.decidableBAll (fun c => c ≠ '/' ∧ c ≠ '?' ∧ c ≠ '#') name.toList

/-- A target without a query or fragment is a path. -/
theorem path_eq_self {target : String} (h : ∀ c ∈ target.toList, c ≠ '?' ∧ c ≠ '#') :
    path target = target.toList := by
  rw [path, List.takeWhile_eq_self_iff]
  intro c hc
  obtain ⟨hquestion, hhash⟩ := h c hc
  simp [hquestion, hhash]

/-- A path of names is cut into the names. -/
theorem ofTarget?_eq {target : String} {names : List String}
    (htarget : target.toList = names.flatMap fun name => '/' :: name.toList)
    (hnames : ∀ name ∈ names, IsPathName name) :
    ofTarget? target = ofSegments? ([] :: names.map String.toList) := by
  have hpath : path target = (names.map String.toList).flatMap fun name => '/' :: name := by
    rw [List.flatMap_map, ← htarget]
    refine path_eq_self ?_
    rw [htarget]
    intro c hc
    obtain ⟨name, hname, hc⟩ := List.mem_flatMap.mp hc
    rcases List.mem_cons.mp hc with rfl | hc
    · decide
    · exact (hnames name hname c hc).2
  rw [ofTarget?, hpath, Pieces.splitOn_flatMap_slash]
  intro name hname hslash
  obtain ⟨text, htext, rfl⟩ := List.mem_map.mp hname
  exact (hnames text htext '/' hslash).1 rfl

/-- The path of a chunk. -/
theorem ofSegments?_chunk {id : String} (hid : id ≠ "") :
    ofSegments? ([] :: ["api", "chunks", id].map String.toList) = some (chunk id.toList) := by
  have hne : id.toList ≠ [] := by simpa using hid
  show (if "chunks".toList = "chunks".toList ∧ id.toList ≠ [] then some (chunk id.toList)
    else none) = _
  rw [if_pos ⟨rfl, hne⟩]

/-- The path of a chunk as a structure, if the structure has a name. -/
theorem ofSegments?_typed {id typeName : String} (hid : id ≠ "") :
    ofSegments? ([] :: ["api", "chunks", id, "typed", typeName].map String.toList) =
      if typeName = "" then none else some (typed id.toList typeName.toList) := by
  have hne : id.toList ≠ [] := by simpa using hid
  show (if "chunks".toList = "chunks".toList ∧ id.toList ≠ [] ∧ "typed".toList = "typed".toList ∧
    typeName.toList ≠ [] then some (typed id.toList typeName.toList) else none) = _
  by_cases hname : typeName = ""
  · rw [if_pos hname, if_neg (by simp [hname])]
  · rw [if_neg hname, if_pos ⟨rfl, hne, rfl, by simpa using hname⟩]

end Route

namespace Api

/-! ## What is asked of a chunk -/

/-- The answer to a request about a chunk, or about a chunk as the structure of a name, and the
store behind it. -/
def answerAbout (method : Method) (id : ChunkId) (typeName : Option String) (store : Store) :
    Answer × Store :=
  match method, typeName with
  | .get, none | .head, none => (getChunk id store, store)
  | .delete, none => deleteChunk id store
  | .get, some typeName | .head, some typeName => (getTyped id typeName store, store)
  | _, _ => (.bare 405, store)

theorem withId_eq {text : String} {id : ChunkId} (h : ChunkId.parse? text = some id)
    (answer : ChunkId → Answer × Store) (store : Store) : withId text answer store = answer id := by
  rw [withId, h]

/-- A request for a chunk is answered for the id that its segment is read as. -/
theorem onRoute_chunk {segment : List Char} {text : String} {id : ChunkId}
    (htext : Percent.decode? segment = some text) (hid : ChunkId.parse? text = some id)
    (request : Request) (store : Store) :
    onRoute request store (.chunk segment) = answerAbout request.method id none store := by
  rw [onRoute, htext]
  cases request.method with
  | get | head | delete => exact withId_eq hid _ store
  | post | options | other name => rfl

/-- A request for a structure is answered for the id and the name that its segments are read as. -/
theorem onRoute_typed {segment last : List Char} {text typeName : String} {id : ChunkId}
    (htext : Percent.decode? segment = some text) (hid : ChunkId.parse? text = some id)
    (hname : Percent.decode? last = some typeName) (request : Request) (store : Store) :
    onRoute request store (.typed segment last) =
      answerAbout request.method id (some typeName) store := by
  rw [onRoute, htext, hname]
  cases request.method with
  | get | head => exact withId_eq hid _ store
  | delete | post | options | other name => rfl

/-- A request to get something is answered by the resource that its target names. -/
theorem respond_of_get {request : Request} (hmethod : request.method = .get) (store : Store) :
    (respond request store).1 =
      ((Route.ofTarget? request.target).elim (.bare 404) fun route =>
        (onRoute request store route).1).response .get := by
  rw [respond, handle, if_neg (by rw [hmethod]; decide), hmethod]
  cases Route.ofTarget? request.target <;> rfl

/-! ## Requests of a client -/

/-- A request for what a target stands for. -/
def getRequest (target : String) : Request :=
  ⟨.get, target, none, []⟩

/-- A request of a client is answered for the resource that its path names. -/
private theorem respond_getRequest (target : String) (store : Store) :
    (respond (getRequest target) store).1 =
      ((Route.ofTarget? target).elim (.bare 404) fun route =>
        (onRoute (getRequest target) store route).1).response .get :=
  respond_of_get rfl store

/-- Nothing is found under a path that names no resource. -/
theorem respond_of_not_route {target : String} (h : Route.ofTarget? target = none) (store : Store) :
    (respond (getRequest target) store).1 = (Answer.bare 404).response .get := by
  rw [respond_getRequest, h]
  rfl

/-- A node answers a request for a chunk with what it has of the chunk. -/
theorem respond_chunk {target : String} {segment : List Char} {id : ChunkId}
    (hroute : Route.ofTarget? target = some (.chunk segment))
    (hid : Percent.decode? segment = some id.text) (store : Store) :
    (respond (getRequest target) store).1 = (getChunk id store).response .get := by
  rw [respond_getRequest, hroute, Option.elim_some, onRoute_chunk hid (ChunkId.parse?_text id)]
  rfl

/-- A node answers a request for a structure with its own reading of the chunk. -/
theorem respond_typed {target : String} {segment last : List Char} {id : ChunkId}
    {typeName : String} (hroute : Route.ofTarget? target = some (.typed segment last))
    (hid : Percent.decode? segment = some id.text) (hname : Percent.decode? last = some typeName)
    (store : Store) :
    (respond (getRequest target) store).1 = (getTyped id typeName store).response .get := by
  rw [respond_getRequest, hroute, Option.elim_some,
    onRoute_typed hid (ChunkId.parse?_text id) hname]
  rfl

end Api

end Node

end ChunkScope
