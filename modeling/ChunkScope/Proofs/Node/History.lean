import Mathlib.Algebra.BigOperators.Group.Finset.Basic
import Mathlib.Data.List.Induction
import ChunkScope.Proofs.Node.Runs

/-!
# Histories

A history lists what was asked of a store and what the store answered. Of an empty store, the
history says all there is to know about the chunks: under each id there is what the last create or
put that answered the id has stored, unless a remove or a clear came after it. The totals are those
of the chunks that are still there, whatever was replaced or dropped on the way.

`get?_ask_iff` says what one call does to one id, and `get?_after_iff` carries it through a run.
-/

namespace ChunkScope.Store

/-! ## Calls and answers -/

/-- Something that is asked of a store. -/
inductive Call where
  | create (data : Bytes)
  | put (slot : LocalId) (data : Bytes)
  | get (id : ChunkId)
  | remove (id : ChunkId)
  | clear
  | fetch (ids : List ChunkId)

/-- What a store answers: the id under which a chunk was stored, the bytes of a chunk that is there,
or whether the chunk that was dropped had been there. -/
inductive Answer where
  | stored (id : ChunkId)
  | found (data : Option Bytes)
  | removed (wasThere : Bool)
  | cleared
  | fetched (chunks : Fetched)

/-- Answers a call. -/
def ask : Call → Store → Answer × Store
  | .create data, store => (.stored (store.create data).1, (store.create data).2)
  | .put slot data, store => (.stored (store.put slot data).1, (store.put slot data).2)
  | .get id, store => (.found (store.get? id), store)
  | .remove id, store => (.removed (store.remove id).1, (store.remove id).2)
  | .clear, store => (.cleared, store.clear)
  | .fetch ids, store => (.fetched (store.fetch ids), store)

/-- The store behind some calls. -/
def after (calls : List Call) (store : Store) : Store :=
  calls.foldl (fun store call => (ask call store).2) store

/-- A call and the answer to it. -/
structure Event where
  call : Call
  answer : Answer

/-- What happens when some calls are made. -/
def history : List Call → Store → List Event
  | [], _ => []
  | call :: calls, store => ⟨call, (ask call store).1⟩ :: history calls (ask call store).2

theorem after_concat (calls : List Call) (call : Call) (store : Store) :
    after (calls ++ [call]) store = (ask call (after calls store)).2 :=
  List.foldl_append

/-- The answer to a call is that of the store behind the calls before it. -/
theorem history_concat (calls : List Call) (call : Call) (store : Store) :
    history (calls ++ [call]) store =
      history calls store ++ [⟨call, (ask call (after calls store)).1⟩] := by
  induction calls generalizing store with
  | nil => rfl
  | cons first calls ih =>
    rw [List.cons_append, history, ih, history, List.cons_append]
    rfl

/-- The operation that a call amounts to, if it changes anything. -/
def Call.operation? : Call → Option Operation
  | create data => some (.create data)
  | put slot data => some (.put slot data)
  | remove id => some (.remove id)
  | clear => some .clear
  | get _ | fetch _ => none

/-- Some calls leave the store that their operations leave. -/
theorem after_eq_perform (calls : List Call) (store : Store) :
    after calls store = perform (calls.filterMap Call.operation?) store := by
  induction calls generalizing store with
  | nil => rfl
  | cons call calls ih =>
    refine (ih _).trans ?_
    rw [List.filterMap_cons]
    cases call <;> rfl

/-- Behind any calls to an empty store it is well-formed. -/
theorem wellFormed_after (calls : List Call) (node : NodeId) (types : Registry) :
    WellFormed (after calls (empty node types)) := by
  rw [after_eq_perform]
  exact (wellFormed_empty node types).perform _

/-- No call changes the node of a store. -/
theorem after_node (calls : List Call) (store : Store) : (after calls store).node = store.node := by
  rw [after_eq_perform, perform_node]

/-! ## The last write -/

namespace Event

/-- A create or a put of some bytes that answered an id. -/
def Writes (id : ChunkId) (data : Bytes) (event : Event) : Prop :=
  event.answer = .stored id ∧ (event.call = .create data ∨ ∃ slot, event.call = .put slot data)

/-- A remove of an id or a clear. -/
def Drops (id : ChunkId) (event : Event) : Prop :=
  event.call = .remove id ∨ event.call = .clear

/-- Whether an event has to do with what is under an id. -/
def Touches (id : ChunkId) (event : Event) : Prop :=
  (∃ data, event.Writes id data) ∨ event.Drops id

end Event

/-- The bytes are the last that were written under the id, and it was not dropped since. -/
def LastWrite (events : List Event) (id : ChunkId) (data : Bytes) : Prop :=
  ∃ front event back, events = front ++ event :: back ∧ event.Writes id data ∧
    ∀ later ∈ back, ¬ later.Touches id

/-- Nothing was written in an empty history. -/
theorem not_lastWrite_nil (id : ChunkId) (data : Bytes) : ¬ LastWrite [] id data := by
  rintro ⟨front, event, back, h, -⟩
  exact absurd h (by simp)

/-- What was last written is what the last event has written, or if that does not touch the id, what
had been written before. -/
theorem lastWrite_concat_iff {events : List Event} {last : Event} {id : ChunkId} {data : Bytes} :
    LastWrite (events ++ [last]) id data ↔
      last.Writes id data ∨ LastWrite events id data ∧ ¬ last.Touches id := by
  constructor
  · rintro ⟨front, event, back, hevents, hwrites, hback⟩
    rcases List.eq_nil_or_concat back with rfl | ⟨rest, later, rfl⟩
    · obtain ⟨-, hlast⟩ := List.append_inj' hevents rfl
      rw [(List.cons.inj hlast).1]
      exact .inl hwrites
    · rw [List.concat_eq_append, ← List.cons_append, ← List.append_assoc] at hevents
      obtain ⟨hfront, hlast⟩ := List.append_inj' hevents rfl
      rw [(List.cons.inj hlast).1]
      exact .inr ⟨⟨front, event, rest, hfront, hwrites, fun e he => hback e (by simp [he])⟩,
        hback later (by simp)⟩
  · rintro (hwrites | ⟨⟨front, event, back, rfl, hwrites, hback⟩, hlast⟩)
    · exact ⟨events, last, [], rfl, hwrites, nofun⟩
    · refine ⟨front, event, back ++ [last], by simp, hwrites, ?_⟩
      intro later hlater
      rcases List.mem_append.mp hlater with hlater | hlater
      · exact hback later hlater
      · rw [List.mem_singleton.mp hlater]
        exact hlast

/-- Behind a call there is under an id what the call has written, or if it does not touch the id,
what was there before. -/
theorem get?_ask_iff (call : Call) (store : Store) (id : ChunkId) (data : Bytes) :
    (ask call store).2.get? id = some data ↔
      Event.Writes id data ⟨call, (ask call store).1⟩ ∨
        store.get? id = some data ∧ ¬ Event.Touches id ⟨call, (ask call store).1⟩ := by
  cases call with
  | create written =>
    rw [ask, get?_create, create_fst]
    by_cases hid : id = ChunkId.pack store.node ⟨store.nextSlot⟩
    · simp [hid, Event.Writes, Event.Touches]
    · simp [hid, Ne.symm hid, Event.Writes, Event.Touches, Event.Drops]
  | put slot written =>
    rw [ask, get?_put]
    show _ ↔ Event.Writes id data ⟨_, .stored (ChunkId.pack store.node slot)⟩ ∨
      _ ∧ ¬ Event.Touches id ⟨_, .stored (ChunkId.pack store.node slot)⟩
    by_cases hid : id = ChunkId.pack store.node slot
    · simp [hid, Event.Writes, Event.Touches]
    · simp [hid, Ne.symm hid, Event.Writes, Event.Touches, Event.Drops]
  | get asked => simp [ask, Event.Writes, Event.Touches, Event.Drops]
  | remove dropped =>
    rw [ask, get?_remove]
    by_cases hid : id = dropped
    · simp [hid, Event.Writes, Event.Touches, Event.Drops]
    · simp [hid, Ne.symm hid, Event.Writes, Event.Touches, Event.Drops]
  | clear => simp [ask, clear, get?, Keyed.find?, Event.Writes, Event.Touches, Event.Drops]
  | fetch ids => simp [ask, Event.Writes, Event.Touches, Event.Drops]

/-- Of an empty store, there is under an id what was last written there. -/
theorem get?_after_iff (node : NodeId) (types : Registry) (calls : List Call) (id : ChunkId)
    (data : Bytes) :
    (after calls (empty node types)).get? id = some data ↔
      LastWrite (history calls (empty node types)) id data := by
  -- on the last call, which writes, drops or leaves what the calls before it have left
  induction calls using List.reverseRecOn with
  | nil => exact iff_of_false nofun (not_lastWrite_nil id data)
  | append_singleton calls call ih =>
    rw [after_concat, history_concat, lastWrite_concat_iff, get?_ask_iff, ih]

/-! ## Totals -/

/-- The totals of a store are those of the chunks under the ids where something is found. -/
theorem WellFormed.totals {store : Store} (h : WellFormed store) :
    ∃ live : Finset ChunkId, (∀ id, id ∈ live ↔ ∃ data, store.get? id = some data) ∧
      store.count = live.card ∧
      store.size = ∑ id ∈ live, ((store.get? id).getD []).length := by
  have hnodup : (store.chunks.map Prod.fst).Nodup := by
    refine (List.pairwise_map.mpr h.ascending).imp ?_
    rintro id other hlt rfl
    exact ChunkId.lt_asymm hlt hlt
  refine ⟨(store.chunks.map Prod.fst).toFinset, ?_, ?_, ?_⟩
  · intro id
    simp only [h.get?_eq_some_iff, List.mem_toFinset, List.mem_map, Prod.exists,
      exists_and_right, exists_eq_right]
  · rw [List.toFinset_card_of_nodup hnodup, List.length_map]
    rfl
  · have hlengths : (store.chunks.map Prod.fst).map (fun id => ((store.get? id).getD []).length) =
        store.chunks.map fun entry => entry.2.length := by
      rw [List.map_map]
      refine List.map_congr_left fun entry hentry => ?_
      have hget : store.get? entry.1 = some entry.2 := h.get?_eq_some_iff.mpr hentry
      show ((store.get? entry.1).getD []).length = _
      rw [hget]
      rfl
    have hsum : ∀ entries : List (ChunkId × Bytes), Keyed.total List.length entries =
        (entries.map fun entry => entry.2.length).sum := by
      intro entries
      induction entries with
      | nil => rfl
      | cons entry rest ih => rw [Keyed.total_cons, ih, List.map_cons, List.sum_cons]
    rw [List.sum_toFinset _ hnodup, hlengths]
    exact hsum store.chunks

/-- A put that replaces a chunk leaves the count and moves the size by the difference. -/
theorem WellFormed.put_totals {store : Store} (h : WellFormed store) {slot : LocalId}
    {old : Bytes} (hold : store.get? (ChunkId.pack store.node slot) = some old) (data : Bytes) :
    (store.put slot data).2.count = store.count ∧
      (store.put slot data).2.size + old.length = store.size + data.length :=
  ⟨Keyed.length_insert_of_find?_eq_some ChunkId.lt_asymm data h.ascending hold,
    Keyed.total_insert_of_find?_eq_some ChunkId.lt_asymm List.length data h.ascending hold⟩

/-! ## Fetching -/

/-- The chunks that are fetched are those that are there, in the order in which they were asked
for. -/
theorem fetch_chunks_ids (store : Store) (ids : List ChunkId) :
    (store.fetch ids).chunks.map Chunk.id = ids.filter fun id => (store.get? id).isSome := by
  show (ids.filterMap fun id => (store.get? id).map (Chunk.mk id)).map Chunk.id = _
  induction ids with
  | nil => rfl
  | cons id ids ih =>
    cases hget : store.get? id with
    | none =>
      rw [List.filterMap_cons_none (by rw [hget]; rfl), List.filter_cons_of_neg (by simp [hget]),
        ih]
    | some data =>
      rw [List.filterMap_cons_some (by rw [hget]; rfl), List.filter_cons_of_pos (by simp [hget]),
        List.map_cons, ih]

/-- A chunk that is fetched has the bytes that are there. -/
theorem get?_of_mem_fetch {store : Store} {ids : List ChunkId} {chunk : Chunk}
    (h : chunk ∈ (store.fetch ids).chunks) : store.get? chunk.id = some chunk.data := by
  obtain ⟨id, -, hchunk⟩ := List.mem_filterMap.mp h
  obtain ⟨data, hdata, rfl⟩ := Option.map_eq_some_iff.mp hchunk
  exact hdata

/-! ## The last write wins -/

/-- What a store of a node is when its history is all that counts. Under each id there is what was
last written there, and a remove tells whether there was anything. The totals are those of what is
there, so a put in place of another chunk leaves the count and moves the size by the difference.
What is fetched is what is there of the ids, in their order and as often as they come. All of it is
hosted by the node. -/
structure LastWriteWins (node : NodeId) (events : List Event) (store : Store) : Prop where
  get?_iff : ∀ id data, store.get? id = some data ↔ LastWrite events id data
  removed_iff : ∀ id, (store.remove id).1 = true ↔ ∃ data, LastWrite events id data
  totals : ∃ live : Finset ChunkId, (∀ id, id ∈ live ↔ ∃ data, LastWrite events id data) ∧
    store.count = live.card ∧ store.size = ∑ id ∈ live, ((store.get? id).getD []).length
  replaced : ∀ slot old data, LastWrite events (ChunkId.pack node slot) old →
    (store.put slot data).2.count = store.count ∧
      (store.put slot data).2.size + old.length = store.size + data.length
  fetched : ∀ ids, (store.fetch ids).chunks.map Chunk.id =
      ids.filter (fun id => (store.get? id).isSome) ∧
    (∀ chunk ∈ (store.fetch ids).chunks, LastWrite events chunk.id chunk.data) ∧
    (store.fetch ids).count = UInt64.ofNat (store.fetch ids).chunks.length
  hosted : ∀ id data, LastWrite events id data → id.node = node

/-- Whatever is asked of an empty store, the last write wins. -/
theorem lastWriteWins_after (node : NodeId) (types : Registry) (calls : List Call) :
    LastWriteWins node (history calls (empty node types)) (after calls (empty node types)) := by
  have hnode : (after calls (empty node types)).node = node := after_node calls _
  have hwell := wellFormed_after calls node types
  have hget := get?_after_iff node types calls
  generalize after calls (empty node types) = store at hnode hwell hget ⊢
  refine ⟨hget, ?_, ?_, ?_, ?_, ?_⟩
  · intro id
    show (store.get? id).isSome = true ↔ _
    simp only [Option.isSome_iff_exists, hget]
  · obtain ⟨live, hlive, htotals⟩ := hwell.totals
    exact ⟨live, fun id => by simp only [hlive, hget], htotals⟩
  · intro slot old data hold
    have hthere := (hget _ _).mpr hold
    rw [← hnode] at hthere
    exact hwell.put_totals hthere data
  · intro ids
    exact ⟨fetch_chunks_ids store ids, fun chunk hchunk => (hget _ _).mp (get?_of_mem_fetch hchunk),
      rfl⟩
  · intro id data hlast
    rw [← hnode]
    exact hwell.node_of_get? ((hget id data).mpr hlast)

end ChunkScope.Store
