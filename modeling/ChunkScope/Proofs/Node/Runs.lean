import ChunkScope.Node.Api
import ChunkScope.Proofs.Chunk.Ids
import ChunkScope.Proofs.Keyed

/-!
# Runs of a store

A store is changed by four operations, and a run is any list of them. The ids under which a run has
stored chunks say all there is to know about its counter: as long as the largest local id is not one
of them the counter lies above all of them, and from then on it is out of the range of local ids.
-/

namespace ChunkScope.Store

/-! ## Operations -/

/-- Something that is done to a store. -/
inductive Operation where
  | create (data : Bytes)
  | put (slot : LocalId) (data : Bytes)
  | remove (id : ChunkId)
  | clear
deriving DecidableEq

namespace Operation

/-- The store behind an operation. -/
def apply : Operation → Store → Store
  | create data, store => (store.create data).2
  | put slot data, store => (store.put slot data).2
  | remove id, store => (store.remove id).2
  | clear, store => store.clear

/-- The id under which an operation stores a chunk, if it stores one. -/
def storedId? : Operation → Store → Option ChunkId
  | create data, store => some (store.create data).1
  | put slot data, store => some (store.put slot data).1
  | remove _, _ => none
  | clear, _ => none

end Operation

/-- The store behind a run. -/
def perform (ops : List Operation) (store : Store) : Store :=
  ops.foldl (fun store op => op.apply store) store

/-- The ids under which a run has stored chunks, those that are gone again among them. -/
def storedIds : List Operation → Store → List ChunkId
  | [], _ => []
  | op :: ops, store => (op.storedId? store).toList ++ storedIds ops (op.apply store)

/-- A run and another one are performed one after the other. -/
theorem perform_append (front back : List Operation) (store : Store) :
    perform (front ++ back) store = perform back (perform front store) :=
  List.foldl_append

theorem perform_concat (ops : List Operation) (op : Operation) (store : Store) :
    perform (ops ++ [op]) store = op.apply (perform ops store) :=
  perform_append ops [op] store

/-- One more operation adds the id under which it stores. -/
theorem storedIds_concat (ops : List Operation) (op : Operation) (store : Store) :
    storedIds (ops ++ [op]) store =
      storedIds ops store ++ (op.storedId? (perform ops store)).toList := by
  induction ops generalizing store with
  | nil =>
    rw [List.nil_append, storedIds, storedIds, storedIds, List.append_nil]
    rfl
  | cons first ops ih =>
    rw [List.cons_append, storedIds, ih, storedIds, List.append_assoc]
    rfl

/-! ## What one operation does -/

@[simp] theorem create_fst (data : Bytes) (store : Store) :
    (store.create data).1 = ChunkId.pack store.node ⟨store.nextSlot⟩ := rfl

/-- Behind a put there are its bytes under its id, and what was there under every other one. -/
theorem get?_put (slot : LocalId) (data : Bytes) (store : Store) (id : ChunkId) :
    (store.put slot data).2.get? id =
      if id = ChunkId.pack store.node slot then some data else store.get? id :=
  Keyed.find?_insert id _ data store.chunks

/-- Behind a create there are its bytes under its id, and what was there under every other one. -/
theorem get?_create (data : Bytes) (store : Store) (id : ChunkId) :
    (store.create data).2.get? id =
      if id = ChunkId.pack store.node ⟨store.nextSlot⟩ then some data else store.get? id :=
  Keyed.find?_insert id _ data store.chunks

/-- Behind a remove there is nothing under its id, and what was there under every other one. -/
theorem get?_remove (dropped : ChunkId) (store : Store) (id : ChunkId) :
    (store.remove dropped).2.get? id = if id = dropped then none else store.get? id :=
  Keyed.find?_erase id dropped store.chunks

/-- A store that has some bytes under an id, and beside them what another one has. It is a store of
the same node and knows the same layouts. -/
structure Stores (id : ChunkId) (data : Bytes) (store next : Store) : Prop where
  here : next.get? id = some data
  elsewhere : ∀ other, other ≠ id → next.get? other = store.get? other
  node : next.node = store.node
  types : next.types = store.types

/-- A put stores its bytes under the id that it answers. -/
theorem stores_put (slot : LocalId) (data : Bytes) (store : Store) :
    Stores (store.put slot data).1 data store (store.put slot data).2 where
  here := (get?_put slot data store _).trans (if_pos rfl)
  elsewhere other h := (get?_put slot data store other).trans (if_neg h)
  node := rfl
  types := rfl

/-- A create stores its bytes under the id that it answers. -/
theorem stores_create (data : Bytes) (store : Store) :
    Stores (store.create data).1 data store (store.create data).2 where
  here := (get?_create data store _).trans (if_pos rfl)
  elsewhere other h := (get?_create data store other).trans (if_neg h)
  node := rfl
  types := rfl

/-- A put moves the counter behind the local id that it stores under. -/
theorem put_nextSlot_toNat (slot : LocalId) (data : Bytes) (store : Store) :
    (store.put slot data).2.nextSlot.toNat =
      max store.nextSlot.toNat (slot.value.toNat % LocalId.bound + 1) := by
  have hslot := ChunkId.slot_pack_toNat store.node slot
  have hlt := ChunkId.slot_value_lt (ChunkId.pack store.node slot)
  rw [LocalId.bound] at hlt
  have hsucc : ((ChunkId.pack store.node slot).slot.value + 1).toNat =
      slot.value.toNat % LocalId.bound + 1 := by
    rw [UInt64.toNat_add, ← hslot, show (1 : UInt64).toNat = 1 from rfl]
    omega
  rw [← hsucc, Nat.max_def, ← apply_ite UInt64.toNat]
  rfl

/-- A create advances the counter by one, and at the largest word starts over behind the local id
that it has handed out. -/
theorem create_nextSlot_toNat (data : Bytes) (store : Store) :
    (store.create data).2.nextSlot.toNat =
      max ((store.nextSlot.toNat + 1) % 0x10000000000000000)
        (store.nextSlot.toNat % LocalId.bound + 1) := by
  rw [create, put_nextSlot_toNat]
  rfl

/-! ## What holds behind every run -/

/-- What holds of a store however it came about: its chunks are in ascending order of their ids,
each id once, and they are chunks of its node. -/
structure WellFormed (store : Store) : Prop where
  ascending : store.chunks.Pairwise fun x y => x.1 < y.1
  hosted : ∀ entry ∈ store.chunks, entry.1.node = store.node

/-- An empty store is well-formed. -/
theorem wellFormed_empty (node : NodeId) (types : Registry) : WellFormed (empty node types) where
  ascending := List.Pairwise.nil
  hosted := fun _ h => absurd h List.not_mem_nil

/-- A put leaves a store well-formed. -/
theorem WellFormed.put {store : Store} (h : WellFormed store) (slot : LocalId) (data : Bytes) :
    WellFormed (store.put slot data).2 where
  ascending :=
    Keyed.pairwise_insert ChunkId.lt_trans ChunkId.lt_of_not_lt_of_ne _ data h.ascending
  hosted entry hentry := by
    rcases Keyed.eq_or_mem_of_mem_insert hentry with rfl | hentry
    · exact ChunkId.node_pack store.node slot
    · exact h.hosted entry hentry

/-- Every operation leaves a store well-formed. -/
theorem WellFormed.apply {store : Store} (h : WellFormed store) (op : Operation) :
    WellFormed (op.apply store) := by
  cases op with
  | create data =>
    have hnext : WellFormed { store with nextSlot := store.nextSlot + 1 } :=
      ⟨h.ascending, h.hosted⟩
    exact hnext.put ⟨store.nextSlot⟩ data
  | put slot data => exact h.put slot data
  | remove id =>
    exact ⟨Keyed.pairwise_erase id h.ascending,
      fun entry hentry => h.hosted entry (List.mem_filter.mp hentry).1⟩
  | clear => exact ⟨List.Pairwise.nil, fun _ hentry => absurd hentry List.not_mem_nil⟩

/-- Every run leaves a store well-formed. -/
theorem WellFormed.perform {store : Store} (h : WellFormed store) (ops : List Operation) :
    WellFormed (perform ops store) := by
  induction ops generalizing store with
  | nil => exact h
  | cons op ops ih => exact ih (h.apply op)

/-- No run moves a store to another node. -/
theorem perform_node (ops : List Operation) (store : Store) :
    (perform ops store).node = store.node := by
  induction ops generalizing store with
  | nil => rfl
  | cons op ops ih =>
    rw [perform, List.foldl_cons]
    refine (ih _).trans ?_
    cases op <;> rfl

/-- No run changes the layouts that a store knows. -/
theorem perform_types (ops : List Operation) (store : Store) :
    (perform ops store).types = store.types := by
  induction ops generalizing store with
  | nil => rfl
  | cons op ops ih =>
    rw [perform, List.foldl_cons]
    refine (ih _).trans ?_
    cases op <;> rfl

variable {store : Store}

/-- A chunk is there under an id exactly when it stands beside it. -/
theorem WellFormed.get?_eq_some_iff (h : WellFormed store) {id : ChunkId} {data : Bytes} :
    store.get? id = some data ↔ (id, data) ∈ store.chunks :=
  Keyed.find?_eq_some_iff_mem ChunkId.lt_asymm h.ascending

/-- What is there is hosted by the node. -/
theorem WellFormed.node_of_get? (h : WellFormed store) {id : ChunkId} {data : Bytes}
    (hget : store.get? id = some data) : id.node = store.node :=
  h.hosted (id, data) (Keyed.mem_of_find?_eq_some hget)

end ChunkScope.Store
