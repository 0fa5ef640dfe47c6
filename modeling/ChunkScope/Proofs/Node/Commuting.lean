import ChunkScope.Proofs.Node.History

/-!
# Writes that commute

A put or a remove concerns one chunk, and two of them that concern different chunks can change
places: each is answered as before, and the store behind them is the same. Which chunk a put
concerns is settled after its local id is cut to 48 bits.

`Write.ask_comm` says so of two writes, and `interchangeable_of_nodup` of all orders of a list.
-/

namespace ChunkScope.Store

/-! ## Writes -/

/-- Something that is asked of a store and concerns one chunk. -/
inductive Write where
  | put (slot : LocalId) (data : Bytes)
  | remove (id : ChunkId)
deriving DecidableEq

namespace Write

/-- The call that makes a write. -/
def call : Write → Call
  | put slot data => .put slot data
  | remove id => .remove id

/-- The chunk that a write concerns on a node. -/
def id (node : NodeId) : Write → ChunkId
  | put slot _ => .pack node slot
  | remove id => id

/-- What a write leaves of its chunk. -/
def left : Write → Option Bytes
  | put _ data => some data
  | remove _ => none

/-- The local ids that a write uses up: those up to the one that it stores under. -/
def used : Write → Nat
  | put slot _ => slot.value.toNat % LocalId.bound + 1
  | remove _ => 0

/-! ## What one write does -/

variable (write : Write) (store : Store)

/-- A write changes what is under its own chunk id and nothing else. -/
theorem get?_ask (id : ChunkId) : (ask write.call store).2.get? id =
    if id = write.id store.node then write.left else store.get? id := by
  cases write with
  | put slot data => exact get?_put slot data store id
  | remove dropped => exact get?_remove dropped store id

/-- A write moves the counter behind the local ids that it uses up. -/
theorem nextSlot_ask : (ask write.call store).2.nextSlot.toNat =
    max store.nextSlot.toNat write.used := by
  cases write with
  | put slot data => exact put_nextSlot_toNat slot data store
  | remove dropped => exact (Nat.max_zero _).symm

@[simp] theorem node_ask : (ask write.call store).2.node = store.node := by
  cases write <;> rfl

@[simp] theorem types_ask : (ask write.call store).2.types = store.types := by
  cases write <;> rfl

variable {store}

/-- A write leaves a store well-formed. -/
theorem wellFormed_ask (h : WellFormed store) : WellFormed (ask write.call store).2 := by
  cases write with
  | put slot data => exact h.put slot data
  | remove dropped => exact h.apply (.remove dropped)

end Write

/-! ## Two writes -/

/-- Two stores of a node are the same when the same is found in them and they go on with the same
local id. -/
theorem WellFormed.eq_of_get?_eq {store other : Store} (h : WellFormed store)
    (h' : WellFormed other) (hnode : store.node = other.node) (htypes : store.types = other.types)
    (hnext : store.nextSlot.toNat = other.nextSlot.toNat)
    (hget : ∀ id, store.get? id = other.get? id) : store = other := by
  have hchunks : store.chunks = other.chunks :=
    Keyed.eq_of_find?_eq ChunkId.lt_asymm h.ascending h'.ascending hget
  obtain ⟨node, chunks, nextSlot, types⟩ := store
  rw [mk.injEq]
  exact ⟨hnode, hchunks, UInt64.toNat_inj.mp hnext, htypes⟩

namespace Write

variable {store : Store} {first second : Write}

/-- A write is answered as it would be without another one that concerns a different chunk. -/
theorem answer_ask (h : first.id store.node ≠ second.id store.node) :
    (ask second.call (ask first.call store).2).1 = (ask second.call store).1 := by
  cases second with
  | put slot data =>
    show Answer.stored (.pack (ask first.call store).2.node slot) = .stored (.pack store.node slot)
    rw [node_ask]
  | remove dropped =>
    have hget : (ask first.call store).2.get? dropped = store.get? dropped :=
      (first.get?_ask store dropped).trans (if_neg h.symm)
    exact congrArg (fun data => Answer.removed data.isSome) hget

/-- Two writes that concern different chunks leave the same store behind in both orders. -/
theorem ask_comm (hstore : WellFormed store) (h : first.id store.node ≠ second.id store.node) :
    (ask second.call (ask first.call store).2).2 =
      (ask first.call (ask second.call store).2).2 := by
  refine WellFormed.eq_of_get?_eq (second.wellFormed_ask (first.wellFormed_ask hstore))
    (first.wellFormed_ask (second.wellFormed_ask hstore)) (by simp) (by simp) ?_ ?_
  · simp only [nextSlot_ask, Nat.max_right_comm]
  · intro id
    simp only [get?_ask, node_ask]
    by_cases hfirst : id = first.id store.node
    · rw [if_pos hfirst, if_pos hfirst, if_neg (hfirst ▸ h)]
    · rw [if_neg hfirst, if_neg hfirst]

end Write

/-! ## Any number of writes -/

/-- Writes whose order does not count. In every order each of them is answered as if it were the
only one, and the same store is left behind: the same chunks, the same totals and the same counter,
so the same ids are handed out later. -/
structure Interchangeable (store : Store) (writes : List Write) : Prop where
  answered : ∀ other : List Write, other.Perm writes → history (other.map Write.call) store =
    other.map fun write => ⟨write.call, (ask write.call store).1⟩
  behind : ∀ other : List Write, other.Perm writes →
    after (other.map Write.call) store = after (writes.map Write.call) store

variable {store : Store} {writes other : List Write}

/-- Writes to distinct chunks are answered as if each were the only one. -/
private theorem history_writes (hnodup : (writes.map (Write.id store.node)).Nodup) :
    history (writes.map Write.call) store =
      writes.map fun write => ⟨write.call, (ask write.call store).1⟩ := by
  induction writes generalizing store with
  | nil => rfl
  | cons first writes ih =>
    rw [List.map_cons, List.nodup_cons] at hnodup
    obtain ⟨hfirst, hrest⟩ := hnodup
    rw [List.map_cons, history, ih (by rwa [first.node_ask]), List.map_cons]
    -- each of the writes that follow concerns a chunk other than the first one does
    refine congrArg _ (List.map_congr_left fun write hwrite => ?_)
    have hne : first.id store.node ≠ write.id store.node := fun heq =>
      hfirst (heq ▸ List.mem_map_of_mem hwrite)
    rw [Write.answer_ask hne]

/-- Writes to distinct chunks leave the same store in every order. -/
private theorem after_perm (hstore : WellFormed store) (hperm : writes.Perm other)
    (hnodup : (writes.map (Write.id store.node)).Nodup) :
    after (writes.map Write.call) store = after (other.map Write.call) store := by
  induction hperm generalizing store with
  | nil => rfl
  | cons first _ ih =>
    rw [List.map_cons, List.nodup_cons] at hnodup
    exact ih (first.wellFormed_ask hstore) (by rw [first.node_ask]; exact hnodup.2)
  | swap first second writes =>
    have hne : first.id store.node ≠ second.id store.node := fun heq =>
      (List.nodup_cons.mp hnodup).1 (heq ▸ List.mem_cons_self)
    exact congrArg (after (writes.map Write.call)) (Write.ask_comm hstore hne.symm)
  | trans hperm _ ih ih' =>
    exact (ih hstore hnodup).trans (ih' hstore ((hperm.map _).nodup_iff.mp hnodup))

/-- Writes that all concern different chunks can be made in any order. -/
theorem interchangeable_of_nodup (hstore : WellFormed store)
    (hnodup : (writes.map (Write.id store.node)).Nodup) : Interchangeable store writes where
  answered _ hperm := history_writes ((hperm.map _).nodup_iff.mpr hnodup)
  behind _ hperm := after_perm hstore hperm ((hperm.map _).nodup_iff.mpr hnodup)

/-- A put under the local id 2⁴⁸, which is cut to 0, and the remove of the chunk 1 can be made in
any order. -/
theorem interchangeable_pair :
    let store := ((empty ⟨1⟩ .empty).put ⟨1⟩ [0xCA]).2
    let writes := [Write.put ⟨0x1000000000000⟩ [0xFE], Write.remove (.pack ⟨1⟩ ⟨1⟩)]
    WellFormed store ∧ (writes.map (Write.id store.node)).Nodup ∧ Interchangeable store writes := by
  intro store writes
  have hstore : WellFormed store := (wellFormed_empty ⟨1⟩ .empty).put ⟨1⟩ [0xCA]
  have hnodup : (writes.map (Write.id store.node)).Nodup := by decide
  exact ⟨hstore, hnodup, interchangeable_of_nodup hstore hnodup⟩

end ChunkScope.Store
