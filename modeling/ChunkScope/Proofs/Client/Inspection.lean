import ChunkScope.Inspect
import ChunkScope.Proofs.Client.Routing
import ChunkScope.Proofs.Inspect.Steps

/-!
# Inspections through a client

An inspection of a cluster says what an inspection on the node itself would say, the node being the
one to which the configuration sends requests for the chunk. Between the two lie the address of the
chunk, the answer of the node as JSON and its bytes as digits; none of it leaves a trace.
-/

namespace ChunkScope

open Http Url

namespace Inspect

/-- The chunk id that a target stands for where ids are packed. -/
def Target.id? : Target → Option ChunkId
  | chunk id => id
  | split (some node) (some slot) => some (.pack node slot)
  | split _ _ => none

variable {client : Client} {network : Network} {store : Store}

/-- Settling on a chunk id takes no request. -/
private theorem resolve_client (target : Target) :
    (resolve (client.source Network.transport) target).run network =
      (resolve store.source target, network) := by
  rcases target with (_ | _) | ⟨_ | _, _ | _⟩ <;> rfl

/-- A store resolves a target to the id that it has. -/
private theorem resolve_store_eq_ok {target : Target} {id : ChunkId}
    (h : resolve store.source target = .ok id) : target.id? = some id := by
  rcases target with (_ | _) | ⟨_ | _, _ | _⟩ <;> cases h <;> rfl

/-- What a request has found does not tell what might have gone wrong with it. -/
private theorem theChunk_ok (ε : Type) (id : ChunkId) (fetched : Fetched) :
    theChunk id (.ok fetched : Except ε Fetched) =
      theChunk id (.ok fetched : Except Empty Fetched) := by
  obtain ⟨count, chunks⟩ := fetched
  -- a count that is not one is a failure whatever comes with it
  by_cases hcount : count = 1
  · rw [hcount]
    cases chunks with
    | nil => simp [theChunk]
    | cons chunk chunks => rfl
  · simp [theChunk, hcount]

/-- The bytes of a chunk are shown as its node would show them. -/
private theorem readBytes_client (hlive : network.IsLive) {id : ChunkId}
    (hreaches : client.Reaches network id.node store) (options : Options) :
    ((readBytes (client.source Network.transport) id options).run network).1 =
      readBytes store.source id options := by
  have hfetch : (((client.source Network.transport).fetch [id]).run network).1 =
      .ok (store.fetch [id]) := Client.fetch_run hlive id hreaches
  rw [readBytes, Client.bind_pure_run_fst, hfetch, theChunk_ok]
  rfl

/-- A chunk is read as a structure as its node would read it. -/
private theorem readAs_client (hlive : network.IsLive) {id : ChunkId}
    (hreaches : client.Reaches network id.node store) {typeName : String}
    (hname : IsPlainName typeName) :
    ((readAs (client.source Network.transport) id typeName).run network).1 =
      readAs store.source id typeName := by
  have htyped := Client.typed_run hlive id typeName hreaches
  obtain ⟨hspecial, hstripped⟩ := isPlainName_iff.mp hname
  rw [hstripped, if_neg hspecial] at htyped
  -- what becomes of the network is of no account, but the program goes on in it
  rcases hrun : (client.typed Network.transport id typeName).run network with ⟨answer, behind⟩
  rw [hrun] at htyped
  obtain rfl : answer = .ok (store.typed? id typeName) := htyped
  have hsource : ((client.source Network.transport).typed id typeName).run network =
      (.ok (store.typed? id typeName), behind) := hrun
  have hstore : store.source.typed id typeName = .ok (store.typed? id typeName) := rfl
  rw [readAs, StateT.run_bind, hsource, readAs, hstore]
  cases store.typed? id typeName <;> rfl

/-- Whatever is asked of a client is answered as the node that it reaches would answer. -/
private theorem answer_client (hlive : network.IsLive) {call : Call}
    (hreaches : ∀ id, call.target.id? = some id → client.Reaches network id.node store)
    (hname : ∀ target typeName id, call = .structured target typeName → target.id? = some id →
      IsPlainName typeName) :
    ((answer (client.source Network.transport) call).run network).1 =
      answer store.source call := by
  have hresolve : (resolve (client.source Network.transport) call.target).run network =
      (resolve store.source call.target, network) := resolve_client call.target
  -- the chunk is asked for on the network as it was, so either both settle on the id or neither
  rw [answer, StateT.run_bind, hresolve, answer]
  cases htarget : resolve store.source call.target with
  | error failure => rfl
  | ok id =>
    have hid := resolve_store_eq_ok htarget
    have hreach := hreaches id hid
    cases call with
    | kindFirst target options => exact readBytes_client hlive hreach options
    | rangeFirst target options => exact readBytes_client hlive hreach options
    | structured target typeName =>
      exact readAs_client hlive hreach (hname target typeName id rfl hid)

/-- An inspection through a client reports what the inspection on the node would report, for the
node that the configuration sends requests for the chunk to; if the arguments settle on no chunk,
for any node at all. Only the name of a structure has to be one that travels as it is. -/
theorem run_ofConfig_eq_run_source (config : Config) {network : Network} (hlive : network.IsLive)
    (arguments : List Argument) {store : Store}
    (hstore : ∀ call id, Call.parse arguments = .ok call → call.target.id? = some id →
      network.Names (config.urlOf id.node) store)
    (hname : ∀ target typeName id, Call.parse arguments = .ok (.structured target typeName) →
      target.id? = some id → IsPlainName typeName) :
    ((run ((Client.ofConfig config).source Network.transport) arguments).run network).1 =
      run store.source arguments := by
  rw [run, run]
  cases hparse : Call.parse arguments with
  | error failure => rfl
  | ok call =>
    have hanswer : ((answer ((Client.ofConfig config).source Network.transport) call).run
        network).1 = answer store.source call := by
      refine answer_client hlive ?_ ?_
      · intro id hid
        exact Client.reaches_ofConfig config (hstore call id hparse hid)
      · intro target typeName id hcall hid
        rw [hcall] at hparse
        exact hname target typeName id hparse hid
    rw [Client.bind_pure_run_fst, hanswer]
    rfl

private theorem parse_vertex :
    Call.parse [.text "0x0001000000000001", .text "Vertex"] =
      .ok (.structured (.chunk (some ⟨0x0001000000000001⟩)) "Vertex") := by
  have hid : ChunkId.parse? "0x0001000000000001" = some ⟨0x0001000000000001⟩ := by
    decide +kernel
  rw [Call.parse, hid]
  rfl

/-- A vertex is read through a client as it is read on its node. -/
theorem run_ofConfig_vertex :
    ((run ((Client.ofConfig {}).source Network.transport)
        [.text "0x0001000000000001", .text "Vertex"]).run (.ofStore .vertex)).1 =
      .ofResult (.ok (.structured ⟨0x0001000000000001⟩
        ⟨"Vertex", 1, .object [("id", .int 7)]⟩)) := by
  have hreport : run Store.vertex.source [.text "0x0001000000000001", .text "Vertex"] =
      .ofResult (.ok (.structured ⟨0x0001000000000001⟩
        ⟨"Vertex", 1, .object [("id", .int 7)]⟩)) := by
    rw [run, parse_vertex]
    rfl
  rw [run_ofConfig_eq_run_source {} (Network.isLive_ofStore .vertex) _
    fun _ _ _ _ => Network.names_ofStore .vertex]
  · exact hreport
  · intro target typeName id hparse hid
    rw [parse_vertex] at hparse
    cases hparse
    decide

end Inspect

end ChunkScope
