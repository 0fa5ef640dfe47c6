import ChunkScope.Chunk
import ChunkScope.Proofs.Text.Numerals

/-!
# Chunk ids

A chunk id as a number: the node times 2⁴⁸, plus the low 48 bits of the local id. So packing
keeps the node and cuts the local id, and a chunk id is the packing of its own two parts. As a text
it is `0x` and upper-case digits, and reading it gives the id back.
-/

/-! ## Packing -/

namespace ChunkScope

/-- How many local ids a node has. -/
def LocalId.bound : Nat := 0x1000000000000

namespace ChunkId

/-- The mask keeps the remainder by the number of local ids. -/
theorem toNat_and_localMask (n : UInt64) : (n &&& localMask).toNat = n.toNat % LocalId.bound := by
  rw [UInt64.toNat_and]
  exact Nat.and_two_pow_sub_one_eq_mod _ 48

/-- The number of a packed id. -/
theorem pack_raw_toNat (node : NodeId) (slot : LocalId) :
    (pack node slot).raw.toNat =
      node.value.toNat * LocalId.bound + slot.value.toNat % LocalId.bound := by
  have hnode : node.value.toNat < 2 ^ 16 := node.value.toNat_lt
  have hslot : slot.value.toNat % LocalId.bound < 2 ^ 48 := Nat.mod_lt _ (by decide)
  have hshift : (node.value.toUInt64 <<< localBits).toNat = node.value.toNat <<< 48 := by
    rw [UInt64.toNat_shiftLeft, UInt16.toNat_toUInt64, show localBits.toNat % 64 = 48 from rfl,
      Nat.mod_eq_of_lt]
    rw [Nat.shiftLeft_eq]
    omega
  rw [pack, UInt64.toNat_or, hshift, toNat_and_localMask, ← Nat.shiftLeft_add_eq_or_of_lt hslot,
    Nat.shiftLeft_eq]
  rfl

/-- The node of a chunk id is its quotient by the number of local ids. -/
theorem node_value_toNat (id : ChunkId) : id.node.value.toNat = id.raw.toNat / LocalId.bound := by
  have hraw : id.raw.toNat < 2 ^ 64 := id.raw.toNat_lt
  rw [node, UInt64.toNat_toUInt16, UInt64.toNat_shiftRight, show localBits.toNat % 64 = 48 from rfl,
    Nat.shiftRight_eq_div_pow, LocalId.bound]
  omega

/-- The local id of a chunk id is its remainder by the number of local ids. -/
theorem slot_value_toNat (id : ChunkId) : id.slot.value.toNat = id.raw.toNat % LocalId.bound :=
  toNat_and_localMask id.raw

/-- The local id of a chunk id is in range. -/
theorem slot_value_lt (id : ChunkId) : id.slot.value.toNat < LocalId.bound := by
  rw [slot_value_toNat]
  exact Nat.mod_lt _ (by decide)

/-- Packing keeps the node. -/
@[simp] theorem node_pack (node : NodeId) (slot : LocalId) : (pack node slot).node = node := by
  have h : (pack node slot).node.value.toNat = node.value.toNat := by
    rw [node_value_toNat, pack_raw_toNat, Nat.mul_comm, Nat.mul_add_div (by decide),
      Nat.div_eq_of_lt (Nat.mod_lt _ (by decide)), Nat.add_zero]
  exact congrArg NodeId.mk (UInt16.toNat_inj.mp h)

/-- Packing cuts the local id to its low 48 bits. -/
theorem slot_pack_toNat (node : NodeId) (slot : LocalId) :
    (pack node slot).slot.value.toNat = slot.value.toNat % LocalId.bound := by
  rw [slot_value_toNat, pack_raw_toNat, Nat.mul_comm, Nat.mul_add_mod, Nat.mod_mod]

/-- Two packed ids are the same when their nodes are and their local ids agree in 48 bits. -/
theorem pack_inj {node node' : NodeId} {slot slot' : LocalId} :
    pack node slot = pack node' slot' ↔
      node = node' ∧ slot.value.toNat % LocalId.bound = slot'.value.toNat % LocalId.bound := by
  constructor
  · intro h
    refine ⟨?_, ?_⟩
    · rw [← node_pack node slot, h, node_pack]
    · rw [← slot_pack_toNat node slot, h, slot_pack_toNat]
  · rintro ⟨rfl, hslot⟩
    have h : (pack node slot).raw.toNat = (pack node slot').raw.toNat := by
      rw [pack_raw_toNat, pack_raw_toNat, hslot]
    exact congrArg ChunkId.mk (UInt64.toNat_inj.mp h)

/-- A chunk id is the packing of its own two parts. -/
theorem pack_node_slot (id : ChunkId) : pack id.node id.slot = id := by
  have h : (pack id.node id.slot).raw.toNat = id.raw.toNat := by
    rw [pack_raw_toNat, node_value_toNat, Nat.mod_eq_of_lt (slot_value_lt id), slot_value_toNat]
    exact Nat.div_add_mod' id.raw.toNat LocalId.bound
  exact congrArg ChunkId.mk (UInt64.toNat_inj.mp h)

/-- Packing and taking apart undo each other, up to what a local id has above its low 48 bits: a
packed id has the node and the low bits it was packed of, every chunk id is packed of its own parts,
and two are packed alike exactly when their nodes and those bits are the same. -/
theorem packs_and_unpacks :
    (∀ node slot, (pack node slot).node = node ∧
      (pack node slot).slot.value.toNat = slot.value.toNat % Nat.pow 2 48) ∧
    (∀ id, pack id.node id.slot = id) ∧
    ∀ node node' slot slot', pack node slot = pack node' slot' ↔
      node = node' ∧ slot.value.toNat % Nat.pow 2 48 = slot'.value.toNat % Nat.pow 2 48 :=
  ⟨fun node slot => ⟨node_pack node slot, slot_pack_toNat node slot⟩, pack_node_slot,
    fun _ _ _ _ => pack_inj⟩

/-! ### Order -/

/-- Chunk ids are in the order of their numbers. -/
theorem lt_iff_toNat_lt {id other : ChunkId} : id < other ↔ id.raw.toNat < other.raw.toNat :=
  UInt64.lt_iff_toNat_lt

theorem lt_asymm {id other : ChunkId} (h : id < other) : ¬ other < id := by
  rw [lt_iff_toNat_lt] at h ⊢
  omega

theorem lt_trans {id mid other : ChunkId} (h : id < mid) (h' : mid < other) : id < other := by
  rw [lt_iff_toNat_lt] at h h' ⊢
  omega

/-- Of two chunk ids that differ one comes first. -/
theorem lt_of_not_lt_of_ne {id other : ChunkId} (h : ¬ id < other) (hne : id ≠ other) :
    other < id := by
  have hraw : id.raw.toNat ≠ other.raw.toNat := fun heq =>
    hne (congrArg ChunkId.mk (UInt64.toNat_inj.mp heq))
  rw [lt_iff_toNat_lt] at h ⊢
  omega

end ChunkId

/-! ## Texts -/

namespace Blank

private theorem dropWhile_eq_self {cs : List Char} (h : ∀ c ∈ cs, isBlank c = false) :
    cs.dropWhile isBlank = cs := by
  cases cs with
  | nil => rfl
  | cons c cs => rw [List.dropWhile_cons_of_neg (by simp [h c])]

/-- A text without blanks loses nothing at its ends. -/
theorem trim_eq_self {cs : List Char} (h : ∀ c ∈ cs, isBlank c = false) : trim cs = cs := by
  rw [trim, dropWhile_eq_self h, trimEnd,
    dropWhile_eq_self fun c hc => h c (List.mem_reverse.mp hc), List.reverse_reverse]

end Blank

namespace ChunkId

theorem toList_text (id : ChunkId) :
    id.text.toList = '0' :: 'x' :: (Numeral.fixedUpperHex 16 id.raw.toNat).toList := by
  rw [text, String.toList_append]
  rfl

/-- A character of the text of a chunk id is the `x` or a digit. -/
theorem mem_text {id : ChunkId} {c : Char} (h : c ∈ id.text.toList) :
    c = 'x' ∨ ∃ d < 16, c = Digit.upper d := by
  rw [toList_text, Numeral.fixedUpperHex, String.toList_ofList] at h
  rcases List.mem_cons.mp h with rfl | h
  · exact .inr ⟨0, by omega, rfl⟩
  · rcases List.mem_cons.mp h with rfl | h
    · exact .inl rfl
    · obtain ⟨d, hd, rfl⟩ := List.mem_map.mp h
      exact .inr ⟨d, Numeral.lt_of_mem_fixedDigits (by omega) hd, rfl⟩

/-- What holds of the `x` and of the digits holds of all characters of the text of a chunk id. -/
theorem forall_mem_text {p : Char → Prop} (hx : p 'x') (hdigit : ∀ d < 16, p (Digit.upper d))
    (id : ChunkId) : ∀ c ∈ id.text.toList, p c := by
  intro c hc
  rcases mem_text hc with rfl | ⟨d, hd, rfl⟩
  · exact hx
  · exact hdigit d hd

/-- The text of a chunk id is no path. -/
theorem slash_not_mem_text (id : ChunkId) : '/' ∉ id.text.toList := fun hmem =>
  forall_mem_text (p := (· ≠ '/')) (by decide) (by decide) id '/' hmem rfl

/-- The text of a chunk id reads as the id. -/
theorem parse?_text (id : ChunkId) : parse? id.text = some id := by
  have hblank : ∀ c ∈ id.text.toList, Blank.isBlank c = false :=
    forall_mem_text (by decide) (by decide) id
  have hnumber : Numeral.unsigned? 16 UInt64.size
      (Numeral.fixedUpperHex 16 id.raw.toNat).toList = some id.raw.toNat :=
    Numeral.unsigned?_of_natural? (Numeral.natural?_fixedUpperHex (by omega) id.raw.toNat_lt)
      id.raw.toNat_lt
  rw [parse?, Blank.trim_eq_self hblank, toList_text, Numeral.address?_hex, hnumber,
    Option.map_some, Option.map_some, UInt64.ofNat_toNat]

/-- The number of a chunk id in decimal reads as the id. -/
theorem parse?_decimal (id : ChunkId) : parse? (Numeral.decimal id.raw.toNat) = some id := by
  have hdigit : ∀ d < 10, Blank.isBlank (Digit.lower d) = false := by decide
  have hblank : ∀ c ∈ (Numeral.decimal id.raw.toNat).toList, Blank.isBlank c = false := by
    intro c hc
    obtain ⟨d, hd, rfl⟩ := Numeral.mem_decimal hc
    exact hdigit d hd
  rw [parse?, Blank.trim_eq_self hblank, Numeral.address?_decimal id.raw.toNat_lt,
    Option.map_some, UInt64.ofNat_toNat]

end ChunkId

end ChunkScope
