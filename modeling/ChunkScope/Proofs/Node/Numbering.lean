import Mathlib.Data.List.Induction
import ChunkScope.Proofs.Node.Runs

/-!
# The order of new ids

A create hands out the local id behind the largest one that the run has stored under. What was
replaced, removed or cleared since counts as well, so the local ids of creates grow and no id is
handed out that was used before. This goes on for as long as local ids of 48 bits are left: a bound
on the puts and the number of creates tell for how long that is.

`nextSlot_perform` is the invariant: the counter is the local id behind the largest one.
-/

namespace ChunkScope.Store

/-! ## The local id behind some ids -/

/-- The largest local id among some ids. -/
def largestSlot? (ids : List ChunkId) : Option Nat :=
  (ids.map fun id => id.slot.value.toNat).max?

/-- The local id behind the largest one, or the first one. -/
def slotBehind (ids : List ChunkId) : Nat :=
  (largestSlot? ids).elim 1 fun largest => 1 + largest

theorem slotBehind_nil : slotBehind [] = 1 := rfl

theorem slotBehind_cons (id : ChunkId) (ids : List ChunkId) :
    slotBehind (id :: ids) = max (id.slot.value.toNat + 1) (slotBehind ids) := by
  have hlargest : largestSlot? (id :: ids) =
      some ((largestSlot? ids).elim id.slot.value.toNat (max id.slot.value.toNat)) :=
    List.max?_cons
  rw [slotBehind, slotBehind, hlargest, Option.elim_some]
  cases largestSlot? ids with
  | none =>
    rw [Option.elim_none, Option.elim_none]
    omega
  | some largest =>
    rw [Option.elim_some, Option.elim_some]
    omega

theorem slotBehind_concat (ids : List ChunkId) (id : ChunkId) :
    slotBehind (ids ++ [id]) = max (slotBehind ids) (id.slot.value.toNat + 1) := by
  induction ids with
  | nil => rw [List.nil_append, slotBehind_cons, Nat.max_comm]
  | cons first ids ih => rw [List.cons_append, slotBehind_cons, ih, slotBehind_cons, Nat.max_assoc]

/-- The local id behind some ids is larger than all of theirs. -/
theorem slot_lt_slotBehind {ids : List ChunkId} {id : ChunkId} (h : id ∈ ids) :
    id.slot.value.toNat < slotBehind ids := by
  induction ids with
  | nil => cases h
  | cons first ids ih =>
    rw [slotBehind_cons]
    rcases List.mem_cons.mp h with rfl | h
    · omega
    · have := ih h
      omega

/-! ## The creates of a run -/

/-- Whether an operation is given an id by the store. -/
def Operation.isCreate : Operation → Bool
  | create _ => true
  | put _ _ | remove _ | clear => false

/-- The number of creates in a run. -/
def creates (ops : List Operation) : Nat :=
  ops.countP Operation.isCreate

/-- The ids that the creates of a run hand out. -/
def createdIds : List Operation → Store → List ChunkId
  | [], _ => []
  | op :: ops, store =>
    (if op.isCreate then (op.storedId? store).toList else []) ++ createdIds ops (op.apply store)

/-- One more operation adds its id when it is a create. -/
theorem createdIds_concat (ops : List Operation) (op : Operation) (store : Store) :
    createdIds (ops ++ [op]) store = createdIds ops store ++
      if op.isCreate then (op.storedId? (perform ops store)).toList else [] := by
  induction ops generalizing store with
  | nil =>
    rw [List.nil_append, createdIds, createdIds, createdIds, List.append_nil]
    rfl
  | cons first ops ih =>
    rw [List.cons_append, createdIds, ih, createdIds, List.append_assoc]
    rfl

/-- An id that a create has given has been stored under. -/
theorem mem_storedIds_of_mem_createdIds {ops : List Operation} {store : Store} {id : ChunkId}
    (h : id ∈ createdIds ops store) : id ∈ storedIds ops store := by
  induction ops generalizing store with
  | nil => exact h
  | cons op ops ih =>
    rw [createdIds, List.mem_append] at h
    rw [storedIds, List.mem_append]
    rcases h with h | h
    · left
      split at h
      · exact h
      · cases h
    · exact .inr (ih h)

/-! ## The counter -/

/-- A run that stays below the largest local id: no put goes beyond a bound, and from there on there
is room for all creates. -/
structure StaysBelow (bound : Nat) (ops : List Operation) : Prop where
  put_le : ∀ slot data, .put slot data ∈ ops → slot.value.toNat % LocalId.bound ≤ bound
  room : bound + creates ops < LocalId.bound

/-- The first part of a run stays below the bound of the whole run. -/
theorem StaysBelow.front {bound : Nat} {front back : List Operation}
    (h : StaysBelow bound (front ++ back)) : StaysBelow bound front where
  put_le slot data hput := h.put_le slot data (List.mem_append_left back hput)
  room := by
    have hroom := h.room
    rw [creates, List.countP_append] at hroom
    rw [creates]
    omega

/-- An operation moves the counter behind the id that it stores under, when a create has a local id
to hand out. -/
private theorem nextSlot_apply {store : Store} {ids : List ChunkId} (op : Operation)
    (h : store.nextSlot.toNat = slotBehind ids)
    (hroom : op.isCreate → store.nextSlot.toNat < LocalId.bound) :
    (op.apply store).nextSlot.toNat = slotBehind (ids ++ (op.storedId? store).toList) := by
  cases op with
  | create data =>
    have hlt := hroom rfl
    have hslot := ChunkId.slot_pack_toNat store.node ⟨store.nextSlot⟩
    have hmod : (store.nextSlot.toNat + 1) % 0x10000000000000000 = store.nextSlot.toNat + 1 := by
      rw [LocalId.bound] at hlt
      omega
    rw [Operation.storedId?, create_fst, Option.toList_some, slotBehind_concat, hslot,
      Nat.mod_eq_of_lt hlt, ← h, Operation.apply, create_nextSlot_toNat, Nat.mod_eq_of_lt hlt, hmod]
    omega
  | put slot data =>
    have hslot := ChunkId.slot_pack_toNat store.node slot
    rw [Operation.storedId?, Option.toList_some, slotBehind_concat, Operation.apply,
      put_nextSlot_toNat, h]
    show _ = max _ ((ChunkId.pack store.node slot).slot.value.toNat + 1)
    rw [hslot]
  | remove id =>
    rw [Operation.storedId?, Option.toList_none, List.append_nil]
    exact h
  | clear =>
    rw [Operation.storedId?, Option.toList_none, List.append_nil]
    exact h

/-- A create stores under the counter and a put no further than the bound, so what is behind them
all moves by one for each create. -/
private theorem slotBehind_apply_le {store : Store} {ids : List ChunkId} {bound count : Nat}
    (op : Operation) (h : store.nextSlot.toNat = slotBehind ids)
    (hput : ∀ slot data, op = .put slot data → slot.value.toNat % LocalId.bound ≤ bound)
    (hle : slotBehind ids ≤ bound + count + 1) :
    slotBehind (ids ++ (op.storedId? store).toList) ≤
      bound + (count + if op.isCreate then 1 else 0) + 1 := by
  cases op with
  | create data =>
    have hslot : (ChunkId.pack store.node ⟨store.nextSlot⟩).slot.value.toNat ≤
        store.nextSlot.toNat := by
      rw [ChunkId.slot_pack_toNat]
      exact Nat.mod_le _ _
    have hone : (if (Operation.create data).isCreate then 1 else 0) = 1 := rfl
    rw [Operation.storedId?, create_fst, Option.toList_some, slotBehind_concat, hone]
    omega
  | put slot data =>
    have hslot := ChunkId.slot_pack_toNat store.node slot
    have hbound := hput slot data rfl
    rw [Operation.storedId?, Option.toList_some, slotBehind_concat]
    show max _ ((ChunkId.pack _ slot).slot.value.toNat + 1) ≤ _
    rw [hslot]
    omega
  | remove id =>
    rw [Operation.storedId?, Option.toList_none, List.append_nil]
    omega
  | clear =>
    rw [Operation.storedId?, Option.toList_none, List.append_nil]
    omega

/-- The counter is the local id behind the largest one that was stored under, and it is no larger
than the bound and the creates so far make it. -/
theorem nextSlot_perform (node : NodeId) (types : Registry) {bound : Nat} {ops : List Operation}
    (h : StaysBelow bound ops) :
    (perform ops (empty node types)).nextSlot.toNat =
        slotBehind (storedIds ops (empty node types)) ∧
      slotBehind (storedIds ops (empty node types)) ≤ bound + creates ops + 1 := by
  induction ops using List.reverseRecOn with
  | nil => exact ⟨rfl, by rw [storedIds, slotBehind_nil]; omega⟩
  | append_singleton ops op ih =>
    obtain ⟨hcounter, hle⟩ := ih h.front
    have hcreates : creates (ops ++ [op]) = creates ops + if op.isCreate then 1 else 0 := by
      rw [creates, List.countP_append, List.countP_singleton]
      rfl
    have hroom := h.room
    rw [hcreates] at hroom ⊢
    rw [perform_concat, storedIds_concat]
    refine ⟨nextSlot_apply op hcounter ?_, slotBehind_apply_le op hcounter ?_ hle⟩
    · intro hcreate
      rw [if_pos hcreate] at hroom
      omega
    · rintro slot data rfl
      exact h.put_le slot data (by simp)

/-! ## What creates hand out -/

/-- What the creates of a run hand out. Each is given the local id behind the largest one that was
stored under before. So the local ids grow from each create to those after it, and none is given an
id that was stored under before, by a create or by a put. -/
structure CreatesInOrder (ops : List Operation) (store : Store) : Prop where
  next : ∀ front data back, ops = front ++ .create data :: back →
    ((perform front store).create data).1.node = store.node ∧
      ((perform front store).create data).1.slot.value.toNat = slotBehind (storedIds front store)
  growing : (createdIds ops store).Pairwise fun id later =>
    id.slot.value.toNat < later.slot.value.toNat
  unused : ∀ front data back, ops = front ++ .create data :: back →
    ((perform front store).create data).1 ∉ storedIds front store

/-- A create is given the local id behind the largest one, as long as the run has stayed below. -/
private theorem create_slot {node : NodeId} {types : Registry} {bound : Nat}
    {front back : List Operation} {data : Bytes}
    (h : StaysBelow bound (front ++ .create data :: back)) :
    ((perform front (empty node types)).create data).1.slot.value.toNat =
      slotBehind (storedIds front (empty node types)) := by
  obtain ⟨hcounter, hle⟩ := nextSlot_perform node types h.front
  have hroom := h.room
  rw [creates, List.countP_append, List.countP_cons_of_pos rfl] at hroom
  rw [create_fst, ChunkId.slot_pack_toNat, hcounter, Nat.mod_eq_of_lt]
  rw [creates] at hle
  omega

/-- The creates of a run go on from the largest local id in use, as long as it stays below the
largest one that there is. -/
theorem createsInOrder_of_staysBelow (node : NodeId) (types : Registry) {bound : Nat}
    {ops : List Operation} (h : StaysBelow bound ops) :
    CreatesInOrder ops (empty node types) where
  next front data back hops := by
    refine ⟨?_, create_slot (hops ▸ h)⟩
    rw [create_fst, ChunkId.node_pack, perform_node]
  growing := by
    induction ops using List.reverseRecOn with
    | nil => exact .nil
    | append_singleton ops op ih =>
      rw [createdIds_concat, List.pairwise_append]
      refine ⟨ih h.front, ?_, ?_⟩
      · cases op <;> simp [Operation.isCreate, Operation.storedId?]
      · intro id hid later hlater
        cases op with
        | create data =>
          rw [List.mem_singleton.mp hlater, create_slot h]
          exact slot_lt_slotBehind (mem_storedIds_of_mem_createdIds hid)
        | put slot data => cases hlater
        | remove id => cases hlater
        | clear => cases hlater
  unused front data back hops hmem := by
    have hlt := slot_lt_slotBehind hmem
    rw [create_slot (hops ▸ h)] at hlt
    exact Nat.lt_irrefl _ hlt

/-- Behind a put under the local id 10 a create is given 11, and when both are gone the next one is
given 12. -/
theorem createsInOrder_eleven :
    CreatesInOrder [.create [1], .put ⟨10⟩ [2], .create [3], .clear, .create [4]]
        (empty ⟨1⟩ .empty) ∧
      (createdIds [.create [1], .put ⟨10⟩ [2], .create [3], .clear, .create [4]]
        (empty ⟨1⟩ .empty)).map (fun id => id.slot.value) = [1, 11, 12] := by
  have hbelow : StaysBelow 10 [.create [1], .put ⟨10⟩ [2], .create [3], .clear, .create [4]] := by
    refine ⟨?_, by decide⟩
    intro slot data hput
    obtain ⟨rfl, -⟩ : slot = ⟨10⟩ ∧ data = [2] := by simpa using hput
    decide
  exact ⟨createsInOrder_of_staysBelow ⟨1⟩ .empty hbelow, by decide⟩

end ChunkScope.Store
