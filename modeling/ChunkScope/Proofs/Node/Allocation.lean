import Mathlib.Data.List.Induction
import ChunkScope.Proofs.Node.Runs
import ChunkScope.Proofs.Node.Serving

/-!
# Allocation

A create promises an id that no chunk has. The counter keeps that promise as long as the largest
local id was never used: it then lies above every id that the run has stored under. Behind the
largest local id it leaves the 48 bits that reach a chunk id, and the very next create is given the
local id zero; further creates start over with ids that may belong to chunks.

`CounterKnows` relates the counter to the ids of a run and is kept by every operation. The theorem
at the end says for whole runs, and so for the requests that a node has served, which creates are
fresh.
-/

namespace ChunkScope.Store

/-! ## The counter of a run -/

/-- The id of a node with the largest local id. -/
def lastId (node : NodeId) : ChunkId :=
  ChunkId.pack node ⟨ChunkId.localMask⟩

/-- The last chunk id of a node is that of the largest local id. -/
theorem pack_eq_lastId_iff (node : NodeId) (slot : LocalId) :
    ChunkId.pack node slot = lastId node ↔
      slot.value.toNat % LocalId.bound = LocalId.bound - 1 := by
  rw [lastId, ChunkId.pack_inj, show ChunkId.localMask.toNat % LocalId.bound =
    LocalId.bound - 1 from rfl]
  exact and_iff_right rfl

/-- What the counter of a store has to do with the ids under which chunks were stored. -/
structure CounterKnows (ids : List ChunkId) (store : Store) : Prop where
  live : ∀ id, store.get? id ≠ none → id ∈ ids
  hosted : ∀ id ∈ ids, id.node = store.node
  pos : 0 < store.nextSlot.toNat
  above : store.nextSlot.toNat < LocalId.bound →
    ∀ id ∈ ids, id.slot.value.toNat < store.nextSlot.toNat
  last_iff : lastId store.node ∈ ids ↔ LocalId.bound ≤ store.nextSlot.toNat

/-- The counter of an empty store knows that nothing has been stored. -/
theorem counterKnows_empty (node : NodeId) (types : Registry) :
    CounterKnows [] (empty node types) where
  live := fun _ h => absurd rfl h
  hosted := fun _ h => absurd h List.not_mem_nil
  pos := Nat.one_pos
  above := fun _ _ h => absurd h List.not_mem_nil
  last_iff := by
    refine ⟨fun h => absurd h List.not_mem_nil, fun h => ?_⟩
    exact absurd h (by decide : ¬ LocalId.bound ≤ 1)

/-- An operation that stores a chunk keeps the relation, if it moves the counter far enough. -/
private theorem counterKnows_store (store : Store) (slot : LocalId) {ids : List ChunkId}
    {next : Store} {data : Bytes} (h : CounterKnows ids store) (hnode : next.node = store.node)
    (hget : ∀ id, next.get? id =
      if id = ChunkId.pack store.node slot then some data else store.get? id)
    (hpos : 0 < next.nextSlot.toNat)
    (habove : next.nextSlot.toNat < LocalId.bound → store.nextSlot.toNat ≤ next.nextSlot.toNat ∧
      slot.value.toNat % LocalId.bound < next.nextSlot.toNat)
    (hlast : LocalId.bound ≤ next.nextSlot.toNat ↔ LocalId.bound ≤ store.nextSlot.toNat ∨
      slot.value.toNat % LocalId.bound = LocalId.bound - 1) :
    CounterKnows (ids ++ [ChunkId.pack store.node slot]) next := by
  refine ⟨?_, ?_, hpos, ?_, ?_⟩
  · intro id hid
    rw [List.mem_append, List.mem_singleton]
    by_cases hnew : id = ChunkId.pack store.node slot
    · exact Or.inr hnew
    · rw [hget, if_neg hnew] at hid
      exact Or.inl (h.live id hid)
  · intro id hid
    rw [hnode]
    rcases List.mem_append.mp hid with hid | hid
    · exact h.hosted id hid
    · rw [List.mem_singleton.mp hid, ChunkId.node_pack]
  · intro hlt id hid
    obtain ⟨hle, hslot⟩ := habove hlt
    rcases List.mem_append.mp hid with hid | hid
    · have := h.above (by omega) id hid
      omega
    · rw [List.mem_singleton.mp hid, ChunkId.slot_pack_toNat]
      exact hslot
  · rw [hnode, List.mem_append, List.mem_singleton, h.last_iff, hlast, ← pack_eq_lastId_iff]
    exact or_congr_right eq_comm

/-- The relation survives every operation. -/
theorem counterKnows_apply {ids : List ChunkId} {store : Store} (h : CounterKnows ids store)
    (op : Operation) : CounterKnows (ids ++ (op.storedId? store).toList) (op.apply store) := by
  cases op with
  | create data =>
    have hnext := create_nextSlot_toNat data store
    have hlt : store.nextSlot.toNat < 2 ^ 64 := store.nextSlot.toNat_lt
    refine counterKnows_store store ⟨store.nextSlot⟩ h rfl (get?_create data store) ?_ ?_ ?_ <;>
      rw [Operation.apply, hnext] <;> simp only [LocalId.bound] <;> omega
  | put slot data =>
    have hnext := put_nextSlot_toNat slot data store
    have hpos := h.pos
    refine counterKnows_store store slot h rfl (get?_put slot data store) ?_ ?_ ?_ <;>
      rw [Operation.apply, hnext] <;> simp only [LocalId.bound] <;> omega
  | remove id =>
    rw [Operation.storedId?, Option.toList_none, List.append_nil]
    refine ⟨fun other hother => h.live other fun hnone => hother ?_, h.hosted, h.pos, h.above,
      h.last_iff⟩
    rw [Operation.apply, get?_remove, hnone, ite_self]
  | clear =>
    rw [Operation.storedId?, Option.toList_none, List.append_nil]
    exact ⟨fun _ hid => absurd rfl hid, h.hosted, h.pos, h.above, h.last_iff⟩

/-- So the counter of a run is related to the ids under which the run has stored. -/
theorem counterKnows_perform {ids : List ChunkId} {store : Store} (h : CounterKnows ids store)
    (ops : List Operation) : CounterKnows (ids ++ storedIds ops store) (perform ops store) := by
  induction ops generalizing ids store with
  | nil => rwa [storedIds, List.append_nil]
  | cons op ops ih =>
    rw [storedIds, ← List.append_assoc]
    exact ih (counterKnows_apply h op)

/-! ## Fresh creates -/

/-- A create that keeps its promise: the id is new and not zero on its node, no other chunk is
touched, and the totals grow by the chunk that was created. -/
structure CreatesFresh (data : Bytes) (store : Store) : Prop where
  isNew : store.get? (store.create data).1 = none
  slot_ne_zero : (store.create data).1.slot.value ≠ 0
  stored : (store.create data).2.get? (store.create data).1 = some data
  kept : ∀ id old, store.get? id = some old → (store.create data).2.get? id = some old
  count_eq : (store.create data).2.count = store.count + 1
  size_eq : (store.create data).2.size = store.size + data.length

/-- All of the promise follows from its first two parts. -/
theorem createsFresh_iff (data : Bytes) (store : Store) :
    CreatesFresh data store ↔
      store.get? (ChunkId.pack store.node ⟨store.nextSlot⟩) = none ∧
        store.nextSlot.toNat % LocalId.bound ≠ 0 := by
  have hslot : (store.create data).1.slot.value ≠ 0 ↔ store.nextSlot.toNat % LocalId.bound ≠ 0 := by
    rw [create_fst, ne_eq, ← UInt64.toNat_inj, ChunkId.slot_pack_toNat]
    rfl
  constructor
  · intro h
    exact ⟨h.isNew, hslot.mp h.slot_ne_zero⟩
  · rintro ⟨hnew, hzero⟩
    refine ⟨hnew, hslot.mpr hzero, ?_, ?_, ?_, ?_⟩
    · rw [get?_create, create_fst, if_pos rfl]
    · intro id old hold
      have hne : id ≠ ChunkId.pack store.node ⟨store.nextSlot⟩ := fun he => by
        rw [he, hnew] at hold
        exact absurd hold (by simp)
      rw [get?_create, if_neg hne, hold]
    · exact Keyed.length_insert_of_find?_eq_none data hnew
    · exact Keyed.total_insert_of_find?_eq_none List.length data hnew

/-- A create is fresh while the counter is a local id. -/
theorem createsFresh_of_lt {ids : List ChunkId} {store : Store} (h : CounterKnows ids store)
    (hlt : store.nextSlot.toNat < LocalId.bound) (data : Bytes) : CreatesFresh data store := by
  have hpos := h.pos
  refine (createsFresh_iff data store).mpr ⟨?_, by rw [Nat.mod_eq_of_lt hlt]; omega⟩
  by_contra hsome
  have hslot := h.above hlt _ (h.live _ hsome)
  rw [ChunkId.slot_pack_toNat, Nat.mod_eq_of_lt hlt] at hslot
  exact absurd hslot (Nat.lt_irrefl _)

/-- A create is not fresh when the counter stands right behind the largest local id. -/
theorem not_createsFresh_of_eq {store : Store} (heq : store.nextSlot.toNat = LocalId.bound)
    (data : Bytes) : ¬ CreatesFresh data store := by
  intro h
  have hzero := ((createsFresh_iff data store).mp h).2
  rw [heq, Nat.mod_self] at hzero
  exact hzero rfl

/-! ## Whole runs -/

/-- Every create of a run keeps its promise where it is made. -/
def AllFresh (ops : List Operation) (store : Store) : Prop :=
  ∀ front data back, ops = front ++ .create data :: back → CreatesFresh data (perform front store)

/-- No create of a run comes after a chunk was stored under the largest local id. -/
def NoneAfterLast (ops : List Operation) (store : Store) : Prop :=
  ∀ front data back, ops = front ++ .create data :: back →
    lastId store.node ∉ storedIds front store

/-- The counter gets beyond the place behind the largest local id only by a create at that place. -/
private theorem nextSlot_le_or_create (ops : List Operation) {store : Store}
    (hstart : store.nextSlot.toNat ≤ LocalId.bound) :
    (perform ops store).nextSlot.toNat ≤ LocalId.bound ∨
      ∃ front data back, ops = front ++ .create data :: back ∧
        (perform front store).nextSlot.toNat = LocalId.bound := by
  -- on the last operation: a put never moves the counter beyond the place, a create only from it
  induction ops using List.reverseRecOn with
  | nil => exact Or.inl hstart
  | append_singleton ops op ih =>
    rcases ih with hle | ⟨front, data, back, hops, heq⟩
    · rw [perform_concat]
      cases op with
      | create data =>
        by_cases heq : (perform ops store).nextSlot.toNat = LocalId.bound
        · exact Or.inr ⟨ops, data, [], rfl, heq⟩
        · left
          rw [Operation.apply, create_nextSlot_toNat]
          simp only [LocalId.bound] at hle heq ⊢
          omega
      | put slot data =>
        left
        rw [Operation.apply, put_nextSlot_toNat]
        have := Nat.mod_lt slot.value.toNat (by decide : 0 < LocalId.bound)
        omega
      | remove id => exact Or.inl hle
      | clear => exact Or.inl hle
    · right
      exact ⟨front, data, back ++ [op], by rw [hops, List.append_assoc, List.cons_append], heq⟩

/-- A create is fresh as long as no chunk was stored under the largest local id, and the creates of
a run are all fresh exactly when none of them comes after that. What a node has served is such a
run, and a request without a local id is answered with what the create gives. -/
theorem allFresh_iff_noneAfterLast (node : NodeId) (types : Registry) :
    (∀ ops data, lastId node ∉ storedIds ops (empty node types) →
      CreatesFresh data (perform ops (empty node types))) ∧
    (∀ ops, AllFresh ops (empty node types) ↔ NoneAfterLast ops (empty node types)) ∧
    (∀ requests, Node.Api.serve requests (empty node types) =
      perform (requests.filterMap Node.Api.operation?) (empty node types)) ∧
    ∀ request data store, Node.Api.operation? request = some (.create data) →
      ∃ written, Node.Api.handle request store =
        (.done (Message.ChunkAnswer.toJson
          ⟨(store.create data).1.text, UInt64.ofNat data.length, written⟩),
          (store.create data).2) := by
  have knows (front : List Operation) := counterKnows_perform (counterKnows_empty node types) front
  have last_iff (front : List Operation) :
      lastId node ∈ storedIds front (empty node types) ↔
        LocalId.bound ≤ (perform front (empty node types)).nextSlot.toNat := by
    rw [← (knows front).last_iff, perform_node]
    rfl
  have hstart : (empty node types).nextSlot.toNat ≤ LocalId.bound :=
    (by decide : 1 ≤ LocalId.bound)
  have hfresh (front : List Operation) (data : Bytes)
      (hunused : lastId node ∉ storedIds front (empty node types)) :
      CreatesFresh data (perform front (empty node types)) :=
    have hlt := Nat.lt_of_not_le fun hge => hunused ((last_iff front).mpr hge)
    createsFresh_of_lt (knows front) hlt data
  refine ⟨hfresh, fun ops => ⟨?_, ?_⟩, fun requests => Node.Api.serve_eq_perform requests _,
    fun request data store h => Node.Api.handle_eq_of_create h store⟩
  · intro hall front data back hops hlast
    have hge := (last_iff front).mp hlast
    -- either this create or one before it stands right behind the largest local id
    rcases nextSlot_le_or_create front hstart with hle | ⟨before, first, after, hfront, heq⟩
    · exact not_createsFresh_of_eq (Nat.le_antisymm hle hge) data (hall front data back hops)
    · refine not_createsFresh_of_eq heq first (hall before first (after ++ .create data :: back) ?_)
      rw [hops, hfront, List.append_assoc, List.cons_append]
  · intro hnone front data back hops
    exact hfresh front data (hnone front data back hops)

/-- Behind the largest local id a create is given the local id zero, and the one after it takes the
place of the first chunk. -/
theorem create_replaces_chunk :
    let store := perform [.put ⟨1⟩ [0x11], .put ⟨ChunkId.localMask⟩ [0x22]] (empty ⟨1⟩ .empty)
    let next := (store.create [0x33]).2
    ¬ CreatesFresh [0x33] store ∧ (store.create [0x33]).1.slot.value = 0 ∧
      ¬ CreatesFresh [0x44] next ∧ next.get? (ChunkId.pack ⟨1⟩ ⟨1⟩) = some [0x11] ∧
      (next.create [0x44]).2.get? (ChunkId.pack ⟨1⟩ ⟨1⟩) = some [0x44] := by
  intro store next
  rw [createsFresh_iff, createsFresh_iff]
  decide

end ChunkScope.Store
