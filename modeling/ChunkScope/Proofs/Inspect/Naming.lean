import ChunkScope.Proofs.Chunk.Ids
import ChunkScope.Proofs.Inspect.Pipeline
import ChunkScope.World

/-!
# Names of a chunk

A chunk is named by the text of its id, by its node and its local id, or by the number that the id
is. Whichever it is, what follows is taken apart in the same way and the same chunk is read: the
calls differ in their target at most, and the targets come to one chunk id.
-/

namespace ChunkScope.Inspect

/-! ## Words for a chunk -/

namespace Argument

/-- A number as an argument. -/
def ofNat (n : Nat) : Argument :=
  number (Int64.ofNat n)

/-- The words that stand for something else than a number or a text. -/
def reserved : List String :=
  ["null", "_", "true", "false"]

/-- All other words are numbers or texts. -/
theorem classify_of_not_mem_reserved {word : String} (h : word ∉ reserved) :
    classify word = (Numeral.int64? word).elim (text word) number := by
  have hne : ∀ other ∈ reserved, word ≠ other := by
    rintro other hother rfl
    exact h hother
  rw [classify, if_neg (not_or.mpr ⟨hne _ (by simp [reserved]), hne _ (by simp [reserved])⟩),
    if_neg (hne _ (by simp [reserved])), if_neg (hne _ (by simp [reserved]))]
  cases Numeral.int64? word <;> rfl

/-- No reserved word is a number. -/
theorem int64?_of_mem_reserved : ∀ word ∈ reserved, Numeral.int64? word = none := by
  decide +kernel

/-- A word that reads as a number is typed as the number. -/
theorem classify_of_int64? {word : String} {n : Int64} (h : Numeral.int64? word = some n) :
    classify word = number n := by
  have hword : word ∉ reserved := by
    intro hmem
    cases h.symm.trans (int64?_of_mem_reserved word hmem)
  rw [classify_of_not_mem_reserved hword, h]
  rfl

/-- A word that begins with a decimal digit is a number or a text. -/
private theorem classify_of_digit {word : String} {d : Nat} (hd : d < 10) {cs : List Char}
    (hword : word.toList = Digit.lower d :: cs) :
    classify word = (Numeral.int64? word).elim (text word) number := by
  have hfirst : ∀ d < 10, ∀ other ∈ reserved, other.toList.head? ≠ some (Digit.lower d) := by
    decide +kernel
  refine classify_of_not_mem_reserved fun hreserved => hfirst d hd word hreserved ?_
  rw [hword, List.head?_cons]

/-- A number in decimal is typed as a number while 63 bits hold it. -/
theorem classify_decimal (n : Nat) :
    classify (Numeral.decimal n) =
      if n < 0x8000000000000000 then ofNat n else text (Numeral.decimal n) := by
  obtain ⟨d, hd, cs, hcs⟩ := Numeral.decimal_eq_cons n
  rw [classify_of_digit hd hcs, Numeral.int64?_decimal]
  split <;> rfl

/-- The text of a chunk id is typed as a text. -/
theorem classify_text (id : ChunkId) : classify id.text = text id.text := by
  have hid := ChunkId.toList_text id
  have hnone : Numeral.int64? id.text = none := by
    rw [Numeral.int64?, hid]
    rfl
  rw [classify_of_digit (d := 0) (by decide) hid, hnone]
  rfl

/-- A number below 2⁶³ comes back as a word. -/
theorem word?_ofNat {n : Nat} (h : n < 0x8000000000000000) :
    word? (Int64.ofNat n) = some (UInt64.ofNat n) := by
  rw [word?, if_pos (Int64.zero_le_ofNat_of_lt h), Int64.toUInt64_ofNat']

/-- A number below 2⁶³ names the chunk of that id. -/
theorem toChunkId_ofNat {n : Nat} (h : n < 0x8000000000000000) :
    toChunkId (ofNat n) = .ok ⟨UInt64.ofNat n⟩ := by
  rw [ofNat, toChunkId, word?_ofNat h]

/-- The number of a node names the node. -/
theorem toNodeId_ofNat (node : NodeId) : toNodeId (ofNat node.value.toNat) = .ok node := by
  have hlt : node.value.toNat < 2 ^ 16 := node.value.toNat_lt
  have hrange : 0 ≤ Int64.ofNat node.value.toNat ∧ Int64.ofNat node.value.toNat < 65536 :=
    ⟨Int64.zero_le_ofNat_of_lt (by omega),
      (Int64.ofNat_lt_iff_lt (by omega) (by decide)).mpr hlt⟩
  rw [ofNat, toNodeId, if_pos hrange, Int64.toUInt64_ofNat', UInt64.toUInt16_ofNat',
    UInt16.ofNat_toNat]

/-- The number of a local id names the local id. -/
theorem toLocalId_ofNat (id : ChunkId) : toLocalId (ofNat id.slot.value.toNat) = .ok id.slot := by
  have hlt := id.slot_value_lt
  rw [LocalId.bound] at hlt
  rw [ofNat, toLocalId, word?_ofNat (by omega), UInt64.ofNat_toNat]

end Argument

/-! ## Calls that differ in their target -/

namespace Call

/-- A call for another target. -/
def retarget (target : Target) : Call → Call
  | structured _ typeName => structured target typeName
  | kindFirst _ options => kindFirst target options
  | rangeFirst _ options => rangeFirst target options

/-- A call that is given a target has it. -/
theorem target_retarget (target : Target) (call : Call) :
    (call.retarget target).target = target := by
  cases call <;> rfl

/-- Another target does not change how a call reads a chunk. -/
theorem reading_retarget (id : ChunkId) (target : Target) (call : Call) :
    (call.retarget target).reading id = call.reading id := by
  cases call <;> rfl

/-- What follows the name of a chunk is taken apart without regard to the name. -/
theorem after_eq_map_retarget (target other : Target) (rest : List Argument) :
    after target rest = (after other rest).map (retarget target) := by
  have hmap {make : Options → Call} {made : Options → Call} (options : Except Failure Options)
      (h : ∀ options, (made options).retarget target = make options) :
      options.map make = (options.map made).map (retarget target) := by
    cases options with
    | error failure => rfl
    | ok options => exact congrArg Except.ok (h options).symm
  unfold after
  split
  · rfl
  · exact hmap _ fun _ => rfl
  · exact hmap _ fun _ => rfl

/-- What follows the name of a chunk makes a call for that chunk. -/
theorem target_of_after {target : Target} {rest : List Argument} {call : Call}
    (h : after target rest = .ok call) : call.target = target := by
  have hmap := after_eq_map_retarget target target rest
  rw [h] at hmap
  -- the call is for this target already
  have hself : call = call.retarget target := Except.ok.inj hmap
  rw [hself, target_retarget]

/-- Behind the text of a chunk id the rest is for this chunk. -/
theorem parse_text (id : ChunkId) (rest : List Argument) :
    parse (.text id.text :: rest) = after (.chunk (some id)) rest := by
  rw [parse, ChunkId.parse?_text]

/-- A number for the node is followed by the local id, and by what is asked of the chunk. -/
theorem parse_node (node : NodeId) (slot : Argument) (rest : List Argument) :
    parse (.ofNat node.value.toNat :: slot :: rest) =
      optional Argument.toLocalId (some slot) >>= fun slot =>
        after (.split (some node) slot) rest := by
  have hnode : optional Argument.toNodeId (some (.ofNat node.value.toNat)) = .ok (some node) :=
    congrArg (Except.map some) (Argument.toNodeId_ofNat node)
  show (optional Argument.toNodeId _ >>= fun node => optional Argument.toLocalId _ >>= fun slot =>
    after (.split node slot) rest) = _
  rw [hnode]
  rfl

/-- Behind a node and a local id the rest is for their chunk. -/
theorem parse_parts (id : ChunkId) (rest : List Argument) :
    parse (.ofNat id.node.value.toNat :: .ofNat id.slot.value.toNat :: rest) =
      after (.split (some id.node) (some id.slot)) rest := by
  have hslot : optional Argument.toLocalId (some (.ofNat id.slot.value.toNat)) =
      .ok (some id.slot) := congrArg (Except.map some) (Argument.toLocalId_ofNat id)
  rw [parse_node, hslot]
  rfl

/-- The number of a chunk id names it whether it is typed as a number or as a text. -/
theorem parse_decimal (id : ChunkId) :
    parse [.classify (Numeral.decimal id.raw.toNat)] = after (.chunk (some id)) [] := by
  rw [Argument.classify_decimal]
  split
  · next hlt =>
    have hid : optional Argument.toChunkId (some (.ofNat id.raw.toNat)) = .ok (some id) := by
      refine (congrArg (Except.map some) (Argument.toChunkId_ofNat hlt)).trans ?_
      rw [UInt64.ofNat_toNat]
      rfl
    show (optional Argument.toChunkId _ >>= fun id => pure (rangeFirst (.chunk id) {})) = _
    rw [hid]
    rfl
  · rw [parse, ChunkId.parse?_decimal]

end Call

/-! ## Inspections that read the same chunk -/

variable {ε σ : Type} {source : Source ε (StateM σ)}

/-- The requests to read a chunk that an inspection makes. -/
def readings (source : Source ε (StateM σ)) (arguments : List Argument) (s : σ) : List Query :=
  ((run source.logged arguments).run (s, [])).2.2.filter Query.isReading

/-- Two lists of arguments for which an inspection is the same: it says the same, leaves the source
in the same state, and reads the same. -/
structure SameInspection (source : Source ε (StateM σ)) (arguments others : List Argument) :
    Prop where
  run_eq : ∀ s, (run source arguments).run s = (run source others).run s
  readings_eq : ∀ s, readings source arguments s = readings source others s

/-- A call whose target comes to a chunk id makes the one reading of that chunk. -/
theorem readings_of_names {arguments : List Argument} {call : Call} {s : σ} {id : ChunkId}
    (h : Call.parse arguments = .ok call) (hnames : call.target.Names source s id) :
    readings source arguments s = [call.reading id] := by
  have hcourse := run_course source arguments s
  rw [readings]
  generalize ((run source.logged arguments).run (s, [])).1 = report at hcourse
  generalize ((run source.logged arguments).run (s, [])).2.2 = log at hcourse ⊢
  cases hcourse with
  | refused failure hparse => cases h.symm.trans hparse
  | unnamed other failure hparse _ hnone =>
    cases h.symm.trans hparse
    exact absurd hnames (hnone id)
  | asked other named result hparse hnamed =>
    cases h.symm.trans hparse
    rw [hnamed.unique hnames, List.filter_append]
    -- what settles the target is no reading
    have hcombines : call.target.combines.filter Query.isReading = [] := by
      rcases call.target with (_ | _) | ⟨_ | node, _ | slot⟩ <;> rfl
    have hreading : (call.reading id).isReading = true := by cases call <;> rfl
    rw [hcombines, List.nil_append, List.filter_cons_of_pos hreading, List.filter_nil]

/-- Arguments that make the same call make the same inspection. -/
theorem sameInspection_of_parse_eq {arguments others : List Argument}
    (h : Call.parse arguments = Call.parse others) : SameInspection source arguments others where
  run_eq s := by rw [run, run, h]
  readings_eq s := by rw [readings, readings, run, run, h]

/-- Targets that come to the same chunk id make no difference to what follows them. -/
theorem sameInspection_of_resolve {arguments others rest : List Argument} {target other : Target}
    {id : ChunkId} (hparse : Call.parse arguments = Call.after target rest)
    (hother : Call.parse others = Call.after other rest)
    (htarget : resolve source target = pure (.ok id))
    (hresolve : resolve source other = pure (.ok id)) :
    SameInspection source arguments others := by
  rw [Call.after_eq_map_retarget target other] at hparse
  cases hcall : Call.after other rest with
  | error failure =>
    rw [hcall] at hparse hother
    exact sameInspection_of_parse_eq (hparse.trans hother.symm)
  | ok call =>
    rw [hcall] at hparse hother
    have htarget' : call.target = other := Call.target_of_after hcall
    have hread : (call.retarget target).read source id = call.read source id := by
      cases call <;> rfl
    have hanswer : answer source (call.retarget target) = answer source call := by
      rw [answer_eq, answer_eq, Call.target_retarget, htarget', htarget, hresolve, pure_bind,
        pure_bind]
      exact hread
    refine ⟨fun s => ?_, fun s => ?_⟩
    · rw [run, run, hparse, hother]
      show ((answer source (call.retarget target) >>= fun result => pure (Report.ofResult result)) :
        StateM σ Report).run s = _
      rw [hanswer]
    · have hnames : (call.retarget target).target.Names source s id := by
        rw [Call.target_retarget, ← resolve_eq_ok_iff, htarget]
        rfl
      have hnames' : call.target.Names source s id := by
        rw [htarget', ← resolve_eq_ok_iff, hresolve]
        rfl
      rw [readings_of_names hparse hnames, readings_of_names hother hnames',
        Call.reading_retarget]

/-- Where ids are packed, a chunk is read alike under all of its names: the text of its id, its node
and its local id, and as a word of its own also the number of the id in decimal, which is typed as
a number below 2⁶³ and as a text from there on. -/
theorem sameInspection_of_names
    (hcombine : ∀ node slot, source.combine node slot = pure (ChunkId.pack node slot))
    (id : ChunkId) :
    (∀ rest, SameInspection source (.text id.text :: rest)
      (.ofNat id.node.value.toNat :: .ofNat id.slot.value.toNat :: rest)) ∧
    (Argument.classify (Numeral.decimal id.raw.toNat) =
      if id.raw.toNat < 0x8000000000000000 then .ofNat id.raw.toNat
      else .text (Numeral.decimal id.raw.toNat)) ∧
    SameInspection source [.classify (Numeral.decimal id.raw.toNat)] [.classify id.text] := by
  refine ⟨fun rest => ?_, Argument.classify_decimal id.raw.toNat, ?_⟩
  · have hsplit : resolve source (.split (some id.node) (some id.slot)) = pure (.ok id) := by
      rw [resolve, hcombine, ChunkId.pack_node_slot]
      rfl
    exact sameInspection_of_resolve (Call.parse_text id rest) (Call.parse_parts id rest) rfl hsplit
  · refine sameInspection_of_parse_eq ?_
    rw [Argument.classify_text, Call.parse_text, Call.parse_decimal]

/-- A client packs ids itself, so the chunk 1 of the node 1 is read as a vertex either way. -/
theorem sameInspection_one :
    SameInspection ((Client.ofConfig {}).source Network.transport)
      [.text (ChunkId.mk 0x0001000000000001).text, .text "Vertex"]
      [.number 1, .number 1, .text "Vertex"] :=
  (sameInspection_of_names (fun _ _ => rfl) ⟨0x0001000000000001⟩).1 [.text "Vertex"]

end ChunkScope.Inspect
