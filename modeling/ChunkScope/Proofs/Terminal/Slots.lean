import ChunkScope.Proofs.Inspect.Wording
import ChunkScope.Proofs.Terminal.Putting
import ChunkScope.Proofs.Text.Spellings

/-!
# Local ids in words

A chunk is put under a local id, and read by its node and its local id, and in both the local id is
a word. The two readings take different ways. A put reads the word as it stands. A read types it
first: a decimal word that 63 bits hold is a number, and only what is left a text is read as an
address. Still, they read the same words and the same local ids, but for a minus sign in front of
zeros: it is typed as the number 0 and read as that, and a put refuses it.

Both are brought down to the spellings: `takesSlot_iff` for the one and `readsSlot_iff` for the
other, so the two ways meet in what the word spells.
-/

namespace ChunkScope

/-- A word that may be read is a local id when it is read. -/
private theorem match_eq_ok_iff {ε : Type} {fault : ε} {read : Option UInt64} {slot : LocalId} :
    (match read with
      | some w => .ok ⟨w⟩
      | none => .error fault : Except ε LocalId) = .ok slot ↔ read = some slot.value := by
  cases read with
  | none => exact iff_of_false nofun nofun
  | some w => exact ⟨fun h => by cases h; rfl, fun h => by cases h; rfl⟩

/-! ## Local ids of a put -/

namespace Terminal.Put

/-- A word that a put takes for a local id, whatever is known before it and follows behind it. -/
def TakesSlot (word : String) (slot : LocalId) : Prop :=
  ∀ (m : Type → Type) [Monad m] [LawfulMonad m] (files : Files.Access m) (put : Put)
    (rest : List String), put.takeAll files ("--local" :: word :: rest) =
      { put with slot := some slot }.takeAll files rest

/-- A word that a put refuses as a local id: it ends with an error there, whatever follows. -/
def RefusesSlot (word : String) : Prop :=
  ∃ message, ∀ (m : Type → Type) [Monad m] [LawfulMonad m] (files : Files.Access m) (put : Put)
    (rest : List String), put.takeAll files ("--local" :: word :: rest) = pure (.error message)

/-- A word that is read as a local id is taken as one. -/
theorem takesSlot_of_slot? {word : String} {slot : LocalId} (h : slot? word = .ok slot) :
    TakesSlot word slot := by
  intro m _ _ files put rest
  rw [takeAll, take, if_pos rfl, h]
  exact pure_bind _ _

/-- A word that is not is refused. -/
theorem refusesSlot_of_slot? {word message : String} (h : slot? word = .error message) :
    RefusesSlot word := by
  refine ⟨message, fun m _ _ files put rest => ?_⟩
  rw [takeAll, take, if_pos rfl, h]
  exact pure_bind _ _

/-- A word is read as a local id just when it spells its number. -/
theorem slot?_eq_ok_iff {word : String} {slot : LocalId} :
    slot? word = .ok slot ↔ Numeral.SpellsAddress word.toList slot.value.toNat := by
  rw [← Numeral.address?_eq_some_iff]
  exact match_eq_ok_iff

/-- A put takes a word for a local id just when the word spells it. -/
theorem takesSlot_iff {word : String} {slot : LocalId} :
    TakesSlot word slot ↔ Numeral.SpellsAddress word.toList slot.value.toNat := by
  rw [← slot?_eq_ok_iff]
  refine ⟨fun h => ?_, takesSlot_of_slot?⟩
  -- with nothing behind the word, the local id is in what has been read
  have hfinal := h Id Files.Tree.empty.readOnly ⟨none, none⟩ []
  cases hword : slot? word with
  | error message =>
    obtain ⟨_, hrefuses⟩ := refusesSlot_of_slot? hword
    cases hfinal.symm.trans (hrefuses Id Files.Tree.empty.readOnly ⟨none, none⟩ [])
  | ok other =>
    have hother := takesSlot_of_slot? hword Id Files.Tree.empty.readOnly ⟨none, none⟩ []
    have hput : Except.ok (Put.mk (some slot) none) = .ok (Put.mk (some other) none) :=
      hfinal.symm.trans hother
    cases hput
    rfl

/-- A word that spells no number is refused. -/
theorem refusesSlot_of_not_spells {word : String}
    (h : ∀ slot : LocalId, ¬ Numeral.SpellsAddress word.toList slot.value.toNat) :
    RefusesSlot word := by
  cases hword : slot? word with
  | error message => exact refusesSlot_of_slot? hword
  | ok slot => exact absurd (slot?_eq_ok_iff.mp hword) (h slot)

end Terminal.Put

/-! ## Local ids of a read -/

namespace Inspect

/-- A minus sign with one or more zeros behind. -/
def IsMinusZero (word : String) : Prop :=
  ∃ n, word.toList = '-' :: List.replicate (n + 1) '0'

/-- A word that is read as a local id. -/
def ReadsSlot (word : String) (slot : LocalId) : Prop :=
  optional Argument.toLocalId (some (.classify word)) = .ok (some slot)

/-- A minus sign in front of zeros spells zero as an integer. -/
theorem IsMinusZero.spellsSigned {word : String} (h : IsMinusZero word) :
    Numeral.SpellsSigned word.toList 0 := by
  obtain ⟨n, hword⟩ := h
  rw [hword]
  exact .minus (Numeral.spells_zero_iff.mpr ⟨n, rfl⟩)

/-- Zeros with a minus sign are a number. -/
theorem IsMinusZero.int64?_ne_none {word : String} (h : IsMinusZero word) :
    Numeral.int64? word ≠ none := by
  have hzero : Numeral.SpellsSigned word.toList (0 : Int64).toInt := h.spellsSigned
  rw [Numeral.int64?_eq_some_iff.mpr hzero]
  exact Option.some_ne_none 0

/-- It spells no address. -/
theorem IsMinusZero.not_spellsAddress {word : String} (h : IsMinusZero word) (n : Nat) :
    ¬ Numeral.SpellsAddress word.toList n := by
  rw [h.spellsSigned.spellsAddress_iff]
  obtain ⟨k, hword⟩ := h
  rw [hword]
  exact Numeral.not_spellsPlus_minus

namespace Argument

/-- An integer is read as the word of the same number, if there is one. -/
theorem word?_eq_some_iff {n : Int64} {w : UInt64} : word? n = some w ↔ n.toInt = w.toNat := by
  have hsign : 0 ≤ n ↔ 0 ≤ n.toInt := Int64.le_iff_toInt_le
  rw [word?]
  split
  · next hn =>
    have hvalue : n.toUInt64.toNat = n.toInt.toNat := Int64.toNat_toUInt64_of_le hn
    rw [Option.some.injEq, ← UInt64.toNat_inj, hvalue]
    have hnonneg := hsign.mp hn
    omega
  · next hn =>
    refine iff_of_false (Option.some_ne_none w).symm fun h => hn (hsign.mpr ?_)
    omega

/-- A number is read as the local id that it is. -/
theorem toLocalId_number_iff {n : Int64} {slot : LocalId} :
    toLocalId (number n) = .ok slot ↔ n.toInt = slot.value.toNat := by
  rw [← word?_eq_some_iff]
  exact match_eq_ok_iff

/-- A text is read as the local id that it spells. -/
theorem toLocalId_text_iff {s : String} {slot : LocalId} :
    toLocalId (text s) = .ok slot ↔ Numeral.SpellsAddress s.toList slot.value.toNat := by
  rw [← Numeral.address?_eq_some_iff]
  exact match_eq_ok_iff

end Argument

/-- The words that stand for something else than a number or a text spell no address. -/
private theorem address?_of_mem_reserved :
    ∀ word ∈ Argument.reserved, Numeral.address? word.toList = none := by
  decide +kernel

/-- They are not read as local ids. -/
private theorem not_readsSlot_reserved {word : String} (h : word ∈ Argument.reserved)
    (slot : LocalId) : ¬ ReadsSlot word slot := by
  have hwords : word = "null" ∨ word = "_" ∨ word = "true" ∨ word = "false" := by
    simpa [Argument.reserved] using h
  rcases hwords with rfl | rfl | rfl | rfl
  all_goals
    intro hreads
    cases hreads

/-- A reserved word spells no number. -/
private theorem not_spells_reserved {word : String} (h : word ∈ Argument.reserved)
    (slot : LocalId) :
    ¬ (Numeral.SpellsAddress word.toList slot.value.toNat ∨ IsMinusZero word ∧ slot = ⟨0⟩) := by
  have haddress := address?_of_mem_reserved word h
  have hint := Argument.int64?_of_mem_reserved word h
  rintro (hspells | ⟨hminus, -⟩)
  · cases haddress.symm.trans (Numeral.address?_eq_some_iff.mpr hspells)
  · exact hminus.int64?_ne_none hint

private theorem map_some_eq_ok_iff {α : Type} {x : Except Failure α} {a : α} :
    x.map some = .ok (some a) ↔ x = .ok a := by
  cases x with
  | error failure => exact iff_of_false nofun nofun
  | ok b => exact ⟨fun h => by cases h; rfl, fun h => by cases h; rfl⟩

/-- A word is read as a local id just when it spells it as an address, or when it is a minus sign
with zeros behind and the local id is zero. -/
theorem readsSlot_iff {word : String} {slot : LocalId} :
    ReadsSlot word slot ↔
      Numeral.SpellsAddress word.toList slot.value.toNat ∨ IsMinusZero word ∧ slot = ⟨0⟩ := by
  by_cases hword : word ∈ Argument.reserved
  · exact iff_of_false (not_readsSlot_reserved hword slot) (not_spells_reserved hword slot)
  rw [ReadsSlot, Argument.classify_of_not_mem_reserved hword]
  cases hint : Numeral.int64? word with
  | some n =>
    have hspells := Numeral.int64?_eq_some_iff.mp hint
    have hzero : slot.value.toNat = 0 ↔ slot = ⟨0⟩ :=
      ⟨fun h => congrArg LocalId.mk (UInt64.toNat_inj.mp h), fun h => by rw [h]; rfl⟩
    calc (Argument.toLocalId (.number n)).map some = .ok (some slot)
      _ ↔ Argument.toLocalId (.number n) = .ok slot := map_some_eq_ok_iff
      _ ↔ n.toInt = slot.value.toNat := Argument.toLocalId_number_iff
      _ ↔ Numeral.SpellsSigned word.toList slot.value.toNat :=
        ⟨fun h => h ▸ hspells, hspells.unique⟩
      _ ↔ _ := Numeral.spellsSigned_natural_iff
      _ ↔ _ := by rw [hspells.spellsAddress_iff, hzero, and_comm, IsMinusZero]
  | none =>
    calc (Argument.toLocalId (.text word)).map some = .ok (some slot)
      _ ↔ Argument.toLocalId (.text word) = .ok slot := map_some_eq_ok_iff
      _ ↔ Numeral.SpellsAddress word.toList slot.value.toNat := Argument.toLocalId_text_iff
      _ ↔ _ := (or_iff_left fun h => h.1.int64?_ne_none hint).symm

/-! ## The two readings -/

/-- Words that can stand behind the name of a chunk: options in one of their orders, or a type. -/
def Follows (rest : List String) : Prop :=
  ∃ target call, Call.after target (rest.map Argument.classify) = .ok call

/-- Words that make a call for a target. -/
def Targets (words : List String) (target : Target) : Prop :=
  ∃ call, parseWords words = .ok call ∧ call.target = target

/-- What can stand behind the name of one chunk can stand behind every name. -/
theorem Follows.exists_call {rest : List String} (h : Follows rest) (target : Target) :
    ∃ call, Call.after target (rest.map Argument.classify) = .ok call := by
  obtain ⟨other, call, hcall⟩ := h
  rw [Call.after_eq_map_retarget target other, hcall]
  exact ⟨_, rfl⟩

section Words

variable {node : NodeId} {front : String}
  (hfront : Numeral.SpellsPlus 10 front.toList node.value.toNat)
include hfront

/-- The id of a node in decimal is typed as a number. -/
theorem Argument.classify_node : classify front = ofNat node.value.toNat := by
  have hlt : node.value.toNat < 2 ^ 16 := node.value.toNat_lt
  have hint : Numeral.int64? front = some (Int64.ofNat node.value.toNat) := by
    rw [Numeral.int64?_eq_some_iff, Int64.toInt_ofNat_of_lt (by omega)]
    exact .plus hfront
  exact classify_of_int64? hint

/-- Words with the id of a node in front are for a target just when the second word is read as its
local id, or is skipped, and the others can stand behind it. -/
theorem targets_iff {word : String} {rest : List String} {target : Target} :
    Targets (front :: word :: rest) target ↔ Follows rest ∧
      ∃ slot, optional Argument.toLocalId (some (.classify word)) = .ok slot ∧
        target = .split (some node) slot := by
  have hparse : parseWords (front :: word :: rest) =
      optional Argument.toLocalId (some (.classify word)) >>= fun slot =>
        Call.after (.split (some node) slot) (rest.map Argument.classify) := by
    rw [parseWords, List.map_cons, List.map_cons, Argument.classify_node hfront, Call.parse_node]
  rw [Targets, hparse]
  constructor
  · rintro ⟨call, hcall, rfl⟩
    obtain ⟨slot, hslot, hafter⟩ := ok_of_bind hcall
    exact ⟨⟨_, call, hafter⟩, slot, hslot, Call.target_of_after hafter⟩
  · rintro ⟨hrest, slot, hslot, rfl⟩
    obtain ⟨call, hcall⟩ := hrest.exists_call (.split (some node) slot)
    exact ⟨call, (bind_of_ok hslot).trans hcall, Call.target_of_after hcall⟩

end Words

/-- What a word is for a put and, behind the id of a node, for a read. What a put takes for a local
id is read as that local id. What is read as a local id a put takes for that local id, but for zeros
with a minus sign: these are read as zero, and a put refuses them. -/
structure SlotsAgree (node : NodeId) (front word : String) : Prop where
  get_of_put : ∀ slot, Terminal.Put.TakesSlot word slot → ∀ rest, Follows rest →
    Targets (front :: word :: rest) (.split (some node) (some slot))
  put_of_get : ∀ other slot rest, Targets (front :: word :: rest) (.split other (some slot)) →
    other = some node ∧ (Terminal.Put.TakesSlot word slot ∨ IsMinusZero word ∧ slot = ⟨0⟩)
  minusZero : IsMinusZero word → Terminal.Put.RefusesSlot word ∧ ∀ rest, Follows rest →
    Targets (front :: word :: rest) (.split (some node) (some ⟨0⟩))

/-- Whatever the word is, and whatever follows it, a put and a read agree on it. -/
theorem slotsAgree_of_spells {node : NodeId} {front : String}
    (hfront : Numeral.SpellsPlus 10 front.toList node.value.toNat) (word : String) :
    SlotsAgree node front word where
  get_of_put slot hput rest hrest :=
    (targets_iff hfront).mpr ⟨hrest, some slot,
      readsSlot_iff.mpr (.inl (Terminal.Put.takesSlot_iff.mp hput)), rfl⟩
  put_of_get other slot rest hget := by
    obtain ⟨-, read, hread, htarget⟩ := (targets_iff hfront).mp hget
    cases htarget
    rw [Terminal.Put.takesSlot_iff]
    exact ⟨rfl, readsSlot_iff.mp hread⟩
  minusZero hminus :=
    ⟨Terminal.Put.refusesSlot_of_not_spells fun slot => hminus.not_spellsAddress slot.value.toNat,
      fun rest hrest => (targets_iff hfront).mpr
        ⟨hrest, some ⟨0⟩, readsSlot_iff.mpr (.inr ⟨hminus, rfl⟩), rfl⟩⟩

/-- The word `0x10` is the local id 16 for a put, and for a read of a structure at the node 1. -/
theorem slotsAgree_vertex :
    Numeral.SpellsPlus 10 "1".toList 1 ∧ Terminal.Put.TakesSlot "0x10" ⟨16⟩ ∧
      Targets ["1", "0x10", "Vertex"] (.split (some ⟨1⟩) (some ⟨16⟩)) := by
  have hone : Numeral.unsigned? 10 2 "1".toList = some 1 := by decide +kernel
  have hfront : Numeral.SpellsPlus 10 "1".toList (NodeId.mk 1).value.toNat :=
    ((Numeral.unsigned?_eq_some_iff (by decide)).mp hone).1
  have hput : Terminal.Put.TakesSlot "0x10" ⟨16⟩ :=
    Terminal.Put.takesSlot_iff.mpr (Numeral.address?_eq_some_iff.mp (by decide +kernel))
  have hrest : Follows ["Vertex"] :=
    ⟨.chunk none, .structured (.chunk none) "Vertex", by decide +kernel⟩
  exact ⟨hfront, hput,
    (slotsAgree_of_spells hfront "0x10").get_of_put ⟨16⟩ hput ["Vertex"] hrest⟩

end Inspect

end ChunkScope
