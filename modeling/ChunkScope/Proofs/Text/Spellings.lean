import Mathlib.Data.List.DropRight
import Mathlib.Data.List.Forall2
import Mathlib.Data.Nat.Digits.Defs
import ChunkScope.Proofs.Text.Encodings
import ChunkScope.Text.Unicode

/-!
# Spellings of numbers and bytes

A number can be spelled in many ways: with zeros in front, with a plus sign, with letters of either
case for digits, in decimal or behind `0x`, and with blanks around. What is read as a number, and
as which one, is said here without the reading: a text is read just when it is such a spelling, and
then as the number that its digits stand for. Bytes are spelled by pairs of digits, and but for the
case of letters in one way only.
-/

namespace ChunkScope

/-! ## Blanks around a text -/

namespace Blank

/-- A text and what is left of it without the blank characters around it, which neither begins nor
ends with one. -/
structure Trims (cs core : List Char) : Prop where
  around : ∃ front back, cs = front ++ core ++ back ∧ ∀ c ∈ front ++ back, isBlank c
  first : ∀ c, core.head? = some c → isBlank c = false
  last : ∀ c, core.getLast? = some c → isBlank c = false

/-- Trimming drops the blank characters around a text and no other. -/
theorem trims_trim (cs : List Char) : Trims cs (trim cs) := by
  have hback : trim cs ++ (cs.dropWhile isBlank).rtakeWhile isBlank = cs.dropWhile isBlank :=
    List.rdropWhile_append_rtakeWhile
  refine ⟨⟨cs.takeWhile isBlank, (cs.dropWhile isBlank).rtakeWhile isBlank, ?_, ?_⟩, ?_, ?_⟩
  · rw [List.append_assoc, hback, List.takeWhile_append_dropWhile]
  · intro c hc
    rcases List.mem_append.mp hc with hc | hc
    · exact List.mem_takeWhile_imp hc
    · exact List.mem_rtakeWhile_imp hc
  · intro c hc
    have hfirst := List.head?_dropWhile_not isBlank cs
    rw [← hback, List.head?_append, hc] at hfirst
    exact hfirst
  · intro c hc
    have hlast := List.head?_dropWhile_not isBlank (cs.dropWhile isBlank).reverse
    rw [trim, trimEnd, List.getLast?_reverse] at hc
    rw [hc] at hlast
    exact hlast

/-- What is left of a text is settled by the text. -/
theorem Trims.trim_eq {cs core : List Char} (h : Trims cs core) : trim cs = core := by
  obtain ⟨front, back, rfl, hblank⟩ := h.around
  have hfront : ∀ c ∈ front, isBlank c := fun c hc => hblank c (List.mem_append_left _ hc)
  have hback : ∀ c ∈ back, isBlank c := fun c hc => hblank c (List.mem_append_right _ hc)
  rw [trim, List.append_assoc, List.dropWhile_append_of_pos hfront]
  cases core with
  | nil =>
    rw [List.nil_append, List.dropWhile_eq_nil_iff.mpr hback]
    rfl
  | cons c cs =>
    have hlast : (c :: cs).rdropWhile isBlank = c :: cs := by
      rw [List.rdropWhile_eq_self_iff]
      intro hne
      simp [h.last _ (List.getLast?_eq_some_getLast hne)]
    have hdrop : (c :: cs ++ back).dropWhile isBlank = c :: cs ++ back := by
      rw [List.cons_append, List.dropWhile_cons_of_neg (by simp [h.first c rfl])]
    rw [hdrop, trimEnd, List.reverse_append,
      List.dropWhile_append_of_pos fun d hd => hback d (List.mem_reverse.mp hd)]
    exact hlast

end Blank

/-! ## Digits -/

namespace Digit

/-- A character that writes a digit of a base: a decimal digit, or a letter in either case. -/
def Writes (base : Nat) (c : Char) (d : Nat) : Prop :=
  d < base ∧ (c = lower d ∨ c = upper d)

private theorem lower_decimal {c : Char} (h : '0' ≤ c ∧ c ≤ '9') :
    c.toNat - 48 < 10 ∧ c = lower (c.toNat - 48) := by
  have hlo : 48 ≤ c.toNat := UInt32.le_iff_toNat_le.mp h.1
  have hhi : c.toNat ≤ 57 := UInt32.le_iff_toNat_le.mp h.2
  refine ⟨by omega, ?_⟩
  rw [lower, if_pos (by omega), Nat.add_sub_cancel' hlo, Char.ofNat_toNat]

private theorem lower_letter {c : Char} (h : 'a' ≤ c ∧ c ≤ 'z') :
    c = lower (c.toNat - 87) := by
  have hlo : 97 ≤ c.toNat := UInt32.le_iff_toNat_le.mp h.1
  rw [lower, if_neg (by omega), Nat.add_sub_cancel' (by omega), Char.ofNat_toNat]

private theorem upper_letter {c : Char} (h : 'A' ≤ c ∧ c ≤ 'Z') :
    c = upper (c.toNat - 55) := by
  have hlo : 65 ≤ c.toNat := UInt32.le_iff_toNat_le.mp h.1
  rw [upper, if_neg (by omega), Nat.add_sub_cancel' (by omega), Char.ofNat_toNat]

/-- A character is read as a digit just when it writes it. -/
theorem value?_eq_some_iff {base d : Nat} (hbase : base ≤ 36) {c : Char} :
    value? base c = some d ↔ Writes base c d := by
  constructor
  · intro h
    obtain ⟨hvalue, hlt⟩ := Option.filter_eq_some_iff.mp h
    refine ⟨of_decide_eq_true hlt, ?_⟩
    unfold value at hvalue
    split at hvalue
    · next hdecimal =>
      cases hvalue
      exact .inl (lower_decimal hdecimal).2
    · split at hvalue
      · next hlower =>
        cases hvalue
        exact .inl (lower_letter hlower)
      · split at hvalue
        · next hupper =>
          cases hvalue
          exact .inr (upper_letter hupper)
        · cases hvalue
  · rintro ⟨hlt, rfl | rfl⟩
    · exact value?_lower hbase hlt
    · exact value?_upper hbase hlt

end Digit

/-! ## Numbers -/

namespace Numeral

/-- The number that digits stand for, by the place of each. -/
theorem ofDigits_eq (base : Nat) (ds : List Nat) :
    ofDigits base ds = Nat.ofDigits base ds.reverse := by
  induction ds using List.reverseRecOn with
  | nil => rfl
  | append_singleton ds d ih =>
    rw [ofDigits_append_singleton, ih, List.reverse_append, List.reverse_singleton,
      List.singleton_append, Nat.ofDigits_cons, Nat.add_comm, Nat.mul_comm]

/-- One or more digits of a base, and the number that they stand for. -/
def Spells (base : Nat) (cs : List Char) (n : Nat) : Prop :=
  ∃ ds, ds ≠ [] ∧ List.Forall₂ (Digit.Writes base) cs ds ∧ Nat.ofDigits base ds.reverse = n

/-- Characters are read as digits just when each of them writes its digit. -/
theorem mapM_value?_eq_some_iff {base : Nat} (hbase : base ≤ 36) {cs : List Char}
    {ds : List Nat} :
    cs.mapM (Digit.value? base) = some ds ↔ List.Forall₂ (Digit.Writes base) cs ds := by
  induction cs generalizing ds with
  | nil => simp [eq_comm]
  | cons c cs ih =>
    rw [List.mapM_cons, List.forall₂_cons_left_iff]
    constructor
    · intro h
      obtain ⟨d, hd, h⟩ := Option.bind_eq_some_iff.mp h
      obtain ⟨rest, hrest, h⟩ := Option.bind_eq_some_iff.mp h
      exact ⟨d, rest, (Digit.value?_eq_some_iff hbase).mp hd, ih.mp hrest,
        (Option.some.inj h).symm⟩
    · rintro ⟨d, rest, hd, hrest, rfl⟩
      rw [(Digit.value?_eq_some_iff hbase).mpr hd, ih.mpr hrest]
      rfl

/-- A text is read as a number just when it spells it. -/
theorem natural?_eq_some_iff {base : Nat} (hbase : base ≤ 36) {cs : List Char} {n : Nat} :
    natural? base cs = some n ↔ Spells base cs n := by
  cases cs with
  | nil =>
    refine iff_of_false nofun ?_
    rintro ⟨ds, hne, hwrites, -⟩
    exact hne (List.forall₂_nil_left_iff.mp hwrites)
  | cons c cs =>
    rw [natural?, Option.map_eq_some_iff]
    refine exists_congr fun ds => ?_
    rw [mapM_value?_eq_some_iff hbase, ofDigits_eq]
    constructor
    · rintro ⟨hwrites, hn⟩
      refine ⟨?_, hwrites, hn⟩
      rintro rfl
      cases hwrites
    · rintro ⟨-, hwrites, hn⟩
      exact ⟨hwrites, hn⟩

/-- A spelling of a number begins with a digit, and holds nothing else. -/
theorem Spells.writes {base : Nat} {cs : List Char} {n : Nat} (h : Spells base cs n) {c : Char}
    (hc : c ∈ cs) : ∃ d, Digit.Writes base c d := by
  obtain ⟨ds, -, hwrites, -⟩ := h
  induction hwrites with
  | nil => cases hc
  | cons hd _ ih =>
    rcases List.mem_cons.mp hc with rfl | hc
    · exact ⟨_, hd⟩
    · exact ih hc

/-- A spelling of a number with an optional plus sign in front. -/
def SpellsPlus (base : Nat) (cs : List Char) (n : Nat) : Prop :=
  ∃ digits, (cs = digits ∨ cs = '+' :: digits) ∧ Spells base digits n

/-- A plus sign is no digit. -/
private theorem not_writes_plus {base d : Nat} (hbase : base ≤ 36) :
    ¬ Digit.Writes base '+' d := by
  rw [← Digit.value?_eq_some_iff hbase]
  exact nofun

/-- Behind a plus sign there are digits only. -/
private theorem spellsPlus_cons_plus_iff {base : Nat} (hbase : base ≤ 36) {rest : List Char}
    {n : Nat} : SpellsPlus base ('+' :: rest) n ↔ Spells base rest n := by
  refine ⟨?_, fun h => ⟨rest, .inr rfl, h⟩⟩
  rintro ⟨digits, rfl | heq, h⟩
  · -- a plus sign is no digit
    obtain ⟨d, hd⟩ := h.writes List.mem_cons_self
    exact absurd hd (not_writes_plus hbase)
  · rwa [(List.cons.inj heq).2]

/-- Without a plus sign there are digits only. -/
private theorem spellsPlus_iff_of_ne {base : Nat} {cs : List Char} {n : Nat}
    (h : ∀ rest, cs ≠ '+' :: rest) : SpellsPlus base cs n ↔ Spells base cs n := by
  refine ⟨?_, fun hspells => ⟨cs, .inl rfl, hspells⟩⟩
  rintro ⟨digits, rfl | rfl, hspells⟩
  · exact hspells
  · exact absurd rfl (h digits)

/-- A numeral without a minus sign is read just when it spells a number below the bound. -/
theorem unsigned?_eq_some_iff {base bound : Nat} (hbase : base ≤ 36) {cs : List Char} {n : Nat} :
    unsigned? base bound cs = some n ↔ SpellsPlus base cs n ∧ n < bound := by
  unfold unsigned?
  split
  · rw [Option.filter_eq_some_iff, natural?_eq_some_iff hbase, spellsPlus_cons_plus_iff hbase,
      decide_eq_true_iff]
  · next hplus =>
    rw [Option.filter_eq_some_iff, natural?_eq_some_iff hbase, decide_eq_true_iff,
      spellsPlus_iff_of_ne hplus]

/-- The spellings of zero are the rows of zeros. -/
theorem spells_zero_iff {cs : List Char} :
    Spells 10 cs 0 ↔ ∃ n, cs = List.replicate (n + 1) '0' := by
  have hzero {c : Char} : Digit.Writes 10 c 0 ↔ c = '0' :=
    ⟨fun h => or_self_iff.mp h.2, fun h => ⟨by decide, .inl h⟩⟩
  have hzeros {cs : List Char} {n : Nat} :
      List.Forall₂ (Digit.Writes 10) cs (List.replicate n 0) ↔ cs = List.replicate n '0' := by
    induction n generalizing cs with
    | zero => exact List.forall₂_nil_right_iff
    | succ n ih =>
      rw [List.replicate_succ, List.forall₂_cons_right_iff, List.replicate_succ]
      constructor
      · rintro ⟨c, rest, hc, hrest, rfl⟩
        rw [hzero.mp hc, ih.mp hrest]
      · exact fun h => ⟨'0', _, hzero.mpr rfl, ih.mpr rfl, h⟩
  constructor
  · rintro ⟨ds, hne, hwrites, hsum⟩
    obtain ⟨n, hlength⟩ := Nat.exists_eq_succ_of_ne_zero (mt List.length_eq_zero_iff.mp hne)
    have hds : ds = List.replicate (n + 1) 0 :=
      List.eq_replicate_iff.mpr ⟨hlength, fun d hd =>
        Nat.digits_zero_of_eq_zero (by decide) hsum d (List.mem_reverse.mpr hd)⟩
    exact ⟨n, hzeros.mp (hds ▸ hwrites)⟩
  · rintro ⟨n, rfl⟩
    refine ⟨List.replicate (n + 1) 0, List.cons_ne_nil _ _, hzeros.mpr rfl, ?_⟩
    rw [List.reverse_replicate, Nat.ofDigits_replicate_zero]

/-- A spelling of an integer: digits with an optional plus sign in front, or with a minus sign. -/
inductive SpellsSigned : List Char → Int → Prop where
  | plus {cs : List Char} {n : Nat} (h : SpellsPlus 10 cs n) : SpellsSigned cs n
  | minus {cs : List Char} {n : Nat} (h : Spells 10 cs n) : SpellsSigned ('-' :: cs) (-n)

/-- Behind a minus sign there is no number without a sign. -/
theorem not_spellsPlus_minus {cs : List Char} {n : Nat} : ¬ SpellsPlus 10 ('-' :: cs) n := by
  rw [spellsPlus_iff_of_ne fun rest heq => absurd (List.cons.inj heq).1 (by decide)]
  intro h
  obtain ⟨d, hd⟩ := h.writes List.mem_cons_self
  rw [← Digit.value?_eq_some_iff (by decide)] at hd
  cases hd

private theorem map_ofInt_filter_eq_some_iff {number : Option Int} {w : Int64} :
    (number.filter fun n => -0x8000000000000000 ≤ n ∧ n < 0x8000000000000000).map Int64.ofInt =
      some w ↔ number = some w.toInt := by
  rw [Option.map_eq_some_iff]
  constructor
  · rintro ⟨n, hn, rfl⟩
    obtain ⟨hnumber, hrange⟩ := Option.filter_eq_some_iff.mp hn
    obtain ⟨hlo, hhi⟩ := of_decide_eq_true hrange
    rw [hnumber, Int64.toInt_ofInt_of_le hlo hhi]
  · intro h
    exact ⟨w.toInt, Option.filter_eq_some_iff.mpr ⟨h, decide_eq_true ⟨w.le_toInt, w.toInt_lt⟩⟩,
      Int64.ofInt_toInt w⟩

/-- A text is read as a number with a sign just when it spells it. -/
theorem int64?_eq_some_iff {text : String} {w : Int64} :
    int64? text = some w ↔ SpellsSigned text.toList w.toInt := by
  have hnatural {cs : List Char} {f : Int → Int} {k : Int} :
      (natural? 10 cs >>= fun n => pure (n : Int)).map f = some k ↔
        ∃ n : Nat, Spells 10 cs n ∧ f n = k := by
    simp [Option.bind_eq_some_iff, natural?_eq_some_iff]
  rw [int64?, map_ofInt_filter_eq_some_iff]
  generalize w.toInt = k
  generalize text.toList = cs
  split
  · refine hnatural.trans ⟨?_, fun h => ?_⟩
    · rintro ⟨n, hn, rfl⟩
      exact .minus hn
    · cases h with
      | plus h => exact absurd h not_spellsPlus_minus
      | minus h => exact ⟨_, h, rfl⟩
  · refine hnatural.trans ⟨?_, fun h => ?_⟩
    · rintro ⟨n, hn, rfl⟩
      exact .plus ((spellsPlus_cons_plus_iff (by decide)).mpr hn)
    · cases h with
      | plus h => exact ⟨_, (spellsPlus_cons_plus_iff (by decide)).mp h, rfl⟩
  · next hminus hplus =>
    refine hnatural.trans ⟨?_, fun h => ?_⟩
    · rintro ⟨n, hn, rfl⟩
      exact .plus ((spellsPlus_iff_of_ne hplus).mpr hn)
    · cases h with
      | plus h => exact ⟨_, (spellsPlus_iff_of_ne hplus).mp h, rfl⟩
      | minus h => exact absurd rfl (hminus _)

/-- A spelling spells one number only. -/
theorem SpellsPlus.unique {base : Nat} (hbase : base ≤ 36) {cs : List Char} {n m : Nat}
    (hn : SpellsPlus base cs n) (hm : SpellsPlus base cs m) : n = m := by
  have hreads {k : Nat} (h : SpellsPlus base cs k) (hk : k < n + m + 1) :
      unsigned? base (n + m + 1) cs = some k :=
    (unsigned?_eq_some_iff hbase).mpr ⟨h, hk⟩
  exact Option.some.inj ((hreads hn (by omega)).symm.trans (hreads hm (by omega)))

/-- A text spells one integer at most. -/
theorem SpellsSigned.unique {cs : List Char} {j k : Int} (hj : SpellsSigned cs j)
    (hk : SpellsSigned cs k) : j = k := by
  cases hj with
  | plus hj =>
    cases hk with
    | plus hk => rw [hj.unique (by decide) hk]
    | minus _ => exact absurd hj not_spellsPlus_minus
  | minus hj =>
    cases hk with
    | plus hk => exact absurd hk not_spellsPlus_minus
    | minus hk =>
      rw [SpellsPlus.unique (by decide) ⟨_, .inl rfl, hj⟩ ⟨_, .inl rfl, hk⟩]

/-- A number that is not negative is spelled without a minus sign, but for zero. -/
theorem spellsSigned_natural_iff {cs : List Char} {n : Nat} :
    SpellsSigned cs n ↔
      SpellsPlus 10 cs n ∨ n = 0 ∧ ∃ k, cs = '-' :: List.replicate (k + 1) '0' := by
  constructor
  · generalize hj : (n : Int) = j
    intro h
    cases h with
    | plus h =>
      rw [Int.ofNat_inj.mp hj]
      exact .inl h
    | @minus _ m h =>
      have hn : n = 0 := by omega
      have hm : m = 0 := by omega
      obtain ⟨k, rfl⟩ := spells_zero_iff.mp (hm ▸ h)
      exact .inr ⟨hn, k, rfl⟩
  · rintro (h | ⟨rfl, k, rfl⟩)
    · exact .plus h
    · exact .minus (spells_zero_iff.mpr ⟨k, rfl⟩)

/-- A spelling of a number as an address: hexadecimal behind `0x` or `0X`, else decimal, and each
with an optional plus sign in front of the digits. -/
inductive SpellsAddress : List Char → Nat → Prop where
  | hex {x : Char} {cs : List Char} {n : Nat} (hx : x = 'x' ∨ x = 'X') (h : SpellsPlus 16 cs n) :
    SpellsAddress ('0' :: x :: cs) n
  | decimal {cs : List Char} {n : Nat} (h : SpellsPlus 10 cs n) : SpellsAddress cs n

/-- A numeral is read as a word just when it spells its number. -/
private theorem word?_eq_some_iff {base : Nat} (hbase : base ≤ 36) {cs : List Char}
    {w : UInt64} :
    (unsigned? base UInt64.size cs).map UInt64.ofNat = some w ↔ SpellsPlus base cs w.toNat := by
  rw [Option.map_eq_some_iff]
  constructor
  · rintro ⟨n, hn, rfl⟩
    obtain ⟨hspells, hlt⟩ := (unsigned?_eq_some_iff hbase).mp hn
    rwa [UInt64.toNat_ofNat_of_lt' hlt]
  · intro h
    exact ⟨w.toNat, (unsigned?_eq_some_iff hbase).mpr ⟨h, w.toNat_lt⟩, UInt64.ofNat_toNat⟩

/-- What begins with `0x` or `0X` is no decimal number. -/
private theorem not_spellsPlus_decimal {x : Char} (hx : x = 'x' ∨ x = 'X') {cs : List Char}
    {n : Nat} : ¬ SpellsPlus 10 ('0' :: x :: cs) n := by
  rintro ⟨digits, rfl | heq, h⟩
  · obtain ⟨d, hd⟩ := h.writes (List.mem_cons_of_mem _ List.mem_cons_self)
    rw [← Digit.value?_eq_some_iff (by decide)] at hd
    rcases hx with rfl | rfl <;> cases hd
  · exact absurd (List.cons.inj heq).1 (by decide)

/-- What spells an integer is no address in hexadecimal. -/
theorem SpellsSigned.spellsAddress_iff {cs : List Char} {j : Int} (h : SpellsSigned cs j)
    {n : Nat} : SpellsAddress cs n ↔ SpellsPlus 10 cs n := by
  refine ⟨fun haddress => ?_, .decimal⟩
  cases haddress with
  | hex hx _ =>
    cases h with
    | plus h => exact absurd h (not_spellsPlus_decimal hx)
  | decimal hdecimal => exact hdecimal

/-- A text is read as a number of 64 bits just when it spells it, in hexadecimal or in decimal. -/
theorem address?_eq_some_iff {cs : List Char} {w : UInt64} :
    address? cs = some w ↔ SpellsAddress cs w.toNat := by
  have hprefixed {x : Char} (hx : x = 'x' ∨ x = 'X') (rest : List Char) :
      SpellsAddress ('0' :: x :: rest) w.toNat ↔ SpellsPlus 16 rest w.toNat := by
    refine ⟨fun h => ?_, .hex hx⟩
    cases h with
    | hex _ h => exact h
    | decimal h => exact absurd h (not_spellsPlus_decimal hx)
  unfold address?
  split
  · rw [word?_eq_some_iff (by decide), hprefixed (.inl rfl)]
  · rw [word?_eq_some_iff (by decide), hprefixed (.inr rfl)]
  · next hlower hupper =>
    rw [word?_eq_some_iff (by decide)]
    refine ⟨.decimal, fun h => ?_⟩
    cases h with
    | hex hx _ =>
      rcases hx with rfl | rfl
      · exact absurd rfl (hlower _)
      · exact absurd rfl (hupper _)
    | decimal h => exact h

end Numeral

/-! ## Bytes -/

/-- In lower case a hexadecimal digit is the one that is written for its value. -/
theorem Digit.Writes.toLower {c : Char} {d : Nat} (h : Writes 16 c d) : c.toLower = lower d := by
  have hlower : ∀ d < 16, (lower d).toLower = lower d ∧ (upper d).toLower = lower d := by decide
  obtain ⟨hd, rfl | rfl⟩ := h
  · exact (hlower d hd).1
  · exact (hlower d hd).2

namespace Hex

/-- Pairs of digits, with letters of either case. -/
def IsPairs (cs : List Char) : Prop :=
  Even cs.length ∧ ∀ c ∈ cs, ∃ d, Digit.Writes 16 c d

/-- The first two characters must be the digits of a byte. -/
private theorem decodeChars?_pair {hi lo : Char} {rest : List Char} {bytes : Bytes} :
    decodeChars? (hi :: lo :: rest) = some bytes ↔
      ∃ h l tail, Digit.Writes 16 hi h ∧ Digit.Writes 16 lo l ∧ decodeChars? rest = some tail ∧
        UInt8.ofNat (h * 16 + l) :: tail = bytes := by
  simp only [decodeChars?, Option.bind_eq_bind, Option.bind_eq_some_iff, Option.pure_def,
    Option.some.injEq, Digit.value?_eq_some_iff (show 16 ≤ 36 by omega)]
  constructor
  · rintro ⟨h, hh, l, hl, tail, htail, hbytes⟩
    exact ⟨h, l, tail, hh, hl, htail, hbytes⟩
  · rintro ⟨h, l, tail, hh, hl, htail, hbytes⟩
    exact ⟨h, hh, l, hl, tail, htail, hbytes⟩

private theorem isPairs_pair {hi lo : Char} {rest : List Char} :
    IsPairs (hi :: lo :: rest) ↔
      (∃ h, Digit.Writes 16 hi h) ∧ (∃ l, Digit.Writes 16 lo l) ∧ IsPairs rest := by
  rw [IsPairs, IsPairs, List.forall_mem_cons, List.forall_mem_cons, List.length_cons,
    List.length_cons, Nat.even_add_one, Nat.even_add_one, not_not]
  constructor
  · rintro ⟨heven, hhi, hlo, hrest⟩
    exact ⟨hhi, hlo, heven, hrest⟩
  · rintro ⟨hhi, hlo, heven, hrest⟩
    exact ⟨heven, hhi, hlo, hrest⟩

/-- A text is read as bytes just when it is made of pairs of digits. -/
theorem exists_decodeChars?_iff {cs : List Char} :
    (∃ bytes, decodeChars? cs = some bytes) ↔ IsPairs cs := by
  -- the induction is on the pairs, as in the reading
  induction cs using decodeChars?.induct with
  | case1 => exact iff_of_true ⟨[], rfl⟩ ⟨by decide, List.forall_mem_nil _⟩
  | case2 c =>
    refine iff_of_false nofun ?_
    rintro ⟨heven, -⟩
    exact absurd (show Even 1 from heven) (by decide)
  | case3 hi lo rest ih =>
    rw [isPairs_pair, ← ih]
    constructor
    · rintro ⟨bytes, hbytes⟩
      obtain ⟨h, l, tail, hh, hl, htail, -⟩ := decodeChars?_pair.mp hbytes
      exact ⟨⟨h, hh⟩, ⟨l, hl⟩, tail, htail⟩
    · rintro ⟨⟨h, hh⟩, ⟨l, hl⟩, tail, htail⟩
      exact ⟨_, decodeChars?_pair.mpr ⟨h, l, tail, hh, hl, htail, rfl⟩⟩

/-- The digits of bytes come in pairs. -/
theorem isPairs_encode (bytes : Bytes) : IsPairs (encode bytes).toList :=
  exists_decodeChars?_iff.mp ⟨bytes, decode?_encode bytes⟩

/-- The digits of a byte are its two halves. -/
private theorem encodeByte_ofNat {h l : Nat} (hh : h < 16) (hl : l < 16) :
    encodeByte (UInt8.ofNat (h * 16 + l)) = [Digit.lower h, Digit.lower l] := by
  have hhigh : (h * 16 + l) / 16 = h := by omega
  have hlow : (h * 16 + l) % 16 = l := by omega
  rw [encodeByte, UInt8.toNat_ofNat_of_lt' (by rw [UInt8.size]; omega), hhigh, hlow]

/-- Digits that are decoded are those of the bytes, but for their case. -/
private theorem encodeChars_of_decodeChars? {cs : List Char} {bytes : Bytes}
    (h : decodeChars? cs = some bytes) : encodeChars bytes = cs.map Char.toLower := by
  induction cs using decodeChars?.induct generalizing bytes with
  | case1 =>
    cases h
    rfl
  | case2 c => cases h
  | case3 hi lo rest ih =>
    obtain ⟨h, l, tail, hh, hl, htail, rfl⟩ := decodeChars?_pair.mp h
    rw [encodeChars, List.flatMap_cons, ← encodeChars, encodeByte_ofNat hh.1 hl.1, ih htail,
      List.map_cons, List.map_cons, hh.toLower, hl.toLower]
    rfl

/-- But for the case of its letters, a text that is read is the one that is written for its
bytes. -/
theorem encode_of_decode? {text : String} {bytes : Bytes} (h : decode? text = some bytes) :
    encode bytes = text.map Char.toLower := by
  rw [← String.toList_inj, encode, String.toList_ofList, String.toList_map]
  exact encodeChars_of_decodeChars? h

/-- What is read as some bytes are the pairs of digits that are written for them, with letters of
either case. -/
theorem decode?_eq_some_iff {text : String} {bytes : Bytes} :
    decode? text = some bytes ↔ IsPairs text.toList ∧ encode bytes = text.map Char.toLower := by
  constructor
  · exact fun h => ⟨exists_decodeChars?_iff.mp ⟨bytes, h⟩, encode_of_decode? h⟩
  · rintro ⟨hpairs, hencode⟩
    obtain ⟨other, hother⟩ := exists_decodeChars?_iff.mpr hpairs
    have hsame : encode other = encode bytes := (encode_of_decode? hother).trans hencode.symm
    have hbytes : some other = some bytes := by
      rw [← decode?_encode other, hsame, decode?_encode]
    exact Eq.trans hother hbytes

end Hex

end ChunkScope
