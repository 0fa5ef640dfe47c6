import Mathlib.Data.List.Induction
import ChunkScope.Text.Numeral

/-!
# Numerals and the numbers they write

Positional notation in one base, and what reading gives for the digits that writing leaves: the
number that was written, for a numeral of any length, with or without a sign, and for one of a fixed
number of digits that is wide enough.
-/

namespace ChunkScope

/-! ## Digits -/

namespace Digit

/-- The digits below 36 in lower case have the value they stand for. -/
theorem value_lower {d : Nat} (h : d < 36) : value (lower d) = some d := by
  revert d
  decide

/-- The digits below 36 in upper case have the value they stand for. -/
theorem value_upper {d : Nat} (h : d < 36) : value (upper d) = some d := by
  revert d
  decide

/-- A lower-case digit is read back as its value. -/
theorem value?_lower {base d : Nat} (hbase : base ≤ 36) (h : d < base) :
    value? base (lower d) = some d := by
  rw [value?, value_lower (Nat.lt_of_lt_of_le h hbase)]
  simp [h]

/-- An upper-case digit is read back as its value. -/
theorem value?_upper {base d : Nat} (hbase : base ≤ 36) (h : d < base) :
    value? base (upper d) = some d := by
  rw [value?, value_upper (Nat.lt_of_lt_of_le h hbase)]
  simp [h]

/-- The digits below ten are written by the decimal digits, which stand in order. -/
theorem isDecimal_lower {d : Nat} (h : d < 10) :
    isDecimal (lower d) ∧ (lower d).toNat - 48 = d := by
  revert d
  decide

/-- A digit of a number in lower-case hexadecimal. -/
def isLowerHex (c : Char) : Bool :=
  isDecimal c || decide ('a' ≤ c ∧ c ≤ 'f')

/-- The digit of a value below 16 is a lower-case hexadecimal one. -/
theorem isLowerHex_lower {d : Nat} (h : d < 16) : isLowerHex (lower d) := by
  revert d
  decide

end Digit

namespace Numeral

/-! ## Positional notation -/

/-- One more digit multiplies by the base and is added. -/
theorem ofDigits_append_singleton (base : Nat) (ds : List Nat) (d : Nat) :
    ofDigits base (ds ++ [d]) = ofDigits base ds * base + d := by
  rw [ofDigits, List.foldl_append]
  rfl

/-- The digits of a number stand for the number. -/
theorem ofDigits_digits {base : Nat} (hbase : 2 ≤ base) (n : Nat) :
    ofDigits base (digits base n) = n := by
  induction n using Nat.strongRecOn with
  | ind n ih =>
    rw [digits]
    split
    · simp [ofDigits]
    · next h =>
      rw [ofDigits_append_singleton, ih _ (Nat.div_lt_self (by omega) (by omega))]
      exact Nat.div_add_mod' n base

/-- The lowest digits of a number stand for what is left of it below a power of the base. -/
theorem ofDigits_fixedDigits (base width n : Nat) :
    ofDigits base (fixedDigits base width n) = n % base.pow width := by
  induction width generalizing n with
  | zero => simp [fixedDigits, ofDigits, Nat.mod_one]
  | succ width ih =>
    -- what is left of the number is read first, and its remainder moves up one place
    have hpow : base.pow (width + 1) = base * base.pow width := Nat.mul_comm _ _
    rw [fixedDigits, ofDigits_append_singleton, ih, hpow, Nat.mod_mul, Nat.mul_comm base,
      Nat.add_comm]

/-- Digits are below the base. -/
theorem lt_of_mem_digits {base n d : Nat} (hbase : 2 ≤ base) (h : d ∈ digits base n) :
    d < base := by
  induction n using Nat.strongRecOn with
  | ind n ih =>
    rw [digits] at h
    split at h
    · next hn =>
      rw [List.mem_singleton.mp h]
      omega
    · next hn =>
      rcases List.mem_append.mp h with h | h
      · exact ih _ (Nat.div_lt_self (by omega) (by omega)) h
      · rw [List.mem_singleton.mp h]
        exact Nat.mod_lt n (by omega)

theorem lt_of_mem_fixedDigits {base width n d : Nat} (hbase : 0 < base)
    (h : d ∈ fixedDigits base width n) : d < base := by
  induction width generalizing n with
  | zero => exact absurd h (by simp [fixedDigits])
  | succ width ih =>
    rcases List.mem_append.mp h with h | h
    · exact ih h
    · rw [List.mem_singleton.mp h]
      exact Nat.mod_lt n hbase

/-- Digits of a base are the lowest digits of the number that they stand for. -/
theorem fixedDigits_ofDigits {base : Nat} {ds : List Nat} (h : ∀ d ∈ ds, d < base) :
    fixedDigits base ds.length (ofDigits base ds) = ds := by
  induction ds using List.reverseRecOn with
  | nil => rfl
  | append_singleton ds d ih =>
    have hd : d < base := h d (by simp)
    have hdiv : (ofDigits base ds * base + d) / base = ofDigits base ds := by
      rw [Nat.mul_comm, Nat.mul_add_div (by omega), Nat.div_eq_of_lt hd, Nat.add_zero]
    rw [List.length_append, List.length_singleton, fixedDigits, ofDigits_append_singleton, hdiv,
      ih fun d hd => h d (List.mem_append_left _ hd), Nat.mul_add_mod', Nat.mod_eq_of_lt hd]

/-- A number of so many digits of a base lies below that power of the base. -/
theorem ofDigits_lt {base : Nat} {ds : List Nat} (hbase : 0 < base) (h : ∀ d ∈ ds, d < base) :
    ofDigits base ds < base.pow ds.length := by
  have hmod := ofDigits_fixedDigits base ds.length (ofDigits base ds)
  rw [fixedDigits_ofDigits h] at hmod
  rw [hmod]
  exact Nat.mod_lt _ (Nat.pow_pos hbase)

theorem digits_ne_nil (base n : Nat) : digits base n ≠ [] := by
  rw [digits]
  split <;> simp

@[simp] theorem length_fixedDigits (base width n : Nat) :
    (fixedDigits base width n).length = width := by
  induction width generalizing n with
  | zero => rfl
  | succ width ih => rw [fixedDigits, List.length_append, ih]; rfl

/-- Only zero is written with a zero in front, and then the zero stands alone. -/
theorem digits_eq_zero_cons {base n : Nat} (hbase : 2 ≤ base) {ds : List Nat}
    (h : digits base n = 0 :: ds) : ds = [] := by
  induction n using Nat.strongRecOn generalizing ds with
  | ind n ih =>
    rw [digits] at h
    split at h
    · exact (List.cons.inj h).2.symm
    · next hn =>
      exfalso
      obtain ⟨front, hfront⟩ : ∃ front, digits base (n / base) = 0 :: front := by
        cases hdigits : digits base (n / base) with
        | nil => exact absurd hdigits (digits_ne_nil _ _)
        | cons d front =>
          rw [hdigits] at h
          exact ⟨front, by rw [(List.cons.inj h).1]⟩
      have hlt : n / base < n := Nat.div_lt_self (by omega) (by omega)
      have hfront' := ih _ hlt hfront
      -- so the number without its last digit is zero, and there was only one digit
      have hzero : n / base = 0 := by
        rw [← ofDigits_digits hbase (n / base), hfront, hfront']
        simp [ofDigits]
      rw [Nat.div_eq_zero_iff] at hzero
      omega

/-- The characters of a number in decimal are decimal digits. -/
theorem mem_decimal {n : Nat} {c : Char} (h : c ∈ (decimal n).toList) :
    ∃ d < 10, c = Digit.lower d := by
  rw [decimal, String.toList_ofList] at h
  obtain ⟨d, hd, rfl⟩ := List.mem_map.mp h
  exact ⟨d, lt_of_mem_digits (by omega) hd, rfl⟩

/-- A number in decimal has a first digit. -/
theorem decimal_eq_cons (n : Nat) :
    ∃ d < 10, ∃ cs, (decimal n).toList = Digit.lower d :: cs := by
  cases hcs : (decimal n).toList with
  | nil =>
    rw [decimal, String.toList_ofList, List.map_eq_nil_iff] at hcs
    exact absurd hcs (digits_ne_nil 10 n)
  | cons c cs =>
    obtain ⟨d, hd, hc⟩ := mem_decimal (n := n) (c := c) (by simp [hcs])
    exact ⟨d, hd, cs, by rw [hc]⟩

/-! ## Reading digits -/

/-- Reading takes the digits of a base one by one. -/
theorem mapM_value? {base : Nat} {write : Nat → Char}
    (hwrite : ∀ d < base, Digit.value? base (write d) = some d) {ds : List Nat}
    (h : ∀ d ∈ ds, d < base) : (ds.map write).mapM (Digit.value? base) = some ds := by
  induction ds with
  | nil => rfl
  | cons d ds ih =>
    rw [List.map_cons, List.mapM_cons, hwrite d (h d (by simp)),
      ih fun d hd => h d (List.mem_cons_of_mem _ hd)]
    rfl

/-- Written digits read as the number that they stand for. -/
theorem natural?_map {base : Nat} {write : Nat → Char}
    (hwrite : ∀ d < base, Digit.value? base (write d) = some d) {ds : List Nat}
    (hne : ds ≠ []) (h : ∀ d ∈ ds, d < base) :
    natural? base (ds.map write) = some (ofDigits base ds) := by
  have hmap := mapM_value? hwrite h
  cases ds with
  | nil => exact absurd rfl hne
  | cons d ds =>
    rw [List.map_cons] at hmap ⊢
    rw [natural?, hmap]
    rfl

/-- A number on a fixed number of digits reads as itself, when there are digits enough. -/
private theorem natural?_fixedDigits {base : Nat} {write : Nat → Char} (hbase : 0 < base)
    (hwrite : ∀ d < base, Digit.value? base (write d) = some d) {width n : Nat}
    (hwidth : 0 < width) (h : n < base.pow width) :
    natural? base ((fixedDigits base width n).map write) = some n := by
  have hne : fixedDigits base width n ≠ [] := by
    rw [← List.length_pos_iff, length_fixedDigits]
    exact hwidth
  rw [natural?_map hwrite hne fun _ => lt_of_mem_fixedDigits hbase, ofDigits_fixedDigits,
    Nat.mod_eq_of_lt h]

/-- A number in upper-case hexadecimal reads as itself, when there are digits enough. -/
theorem natural?_fixedUpperHex {width n : Nat} (hwidth : 0 < width) (h : n < Nat.pow 16 width) :
    natural? 16 (fixedUpperHex width n).toList = some n := by
  rw [fixedUpperHex, String.toList_ofList]
  exact natural?_fixedDigits (by omega) (fun _ => Digit.value?_upper (by omega)) hwidth h

/-- A number in lower-case hexadecimal reads as itself, when there are digits enough. -/
theorem natural?_fixedHex {width n : Nat} (hwidth : 0 < width) (h : n < Nat.pow 16 width) :
    natural? 16 (fixedHex width n).toList = some n := by
  rw [fixedHex, String.toList_ofList]
  exact natural?_fixedDigits (by omega) (fun _ => Digit.value?_lower (by omega)) hwidth h

/-- A number in decimal reads as itself. -/
theorem natural?_decimal (n : Nat) : natural? 10 (decimal n).toList = some n := by
  rw [decimal, String.toList_ofList,
    natural?_map (fun _ => Digit.value?_lower (by omega)) (digits_ne_nil 10 n)
      (fun _ => lt_of_mem_digits (by omega)),
    ofDigits_digits (by omega)]

/-- What does not begin with a digit is no number. -/
theorem natural?_cons_eq_none {base : Nat} {c : Char} (h : Digit.value? base c = none)
    (cs : List Char) : natural? base (c :: cs) = none := by
  rw [natural?, List.mapM_cons, h]
  rfl

/-- A number without a sign is read where a sign may stand, if the bound allows it. -/
theorem unsigned?_of_natural? {base bound n : Nat} {cs : List Char}
    (h : natural? base cs = some n) (hbound : n < bound) : unsigned? base bound cs = some n := by
  have hsome : (some n).filter (fun n => decide (n < bound)) = some n :=
    Option.filter_some_pos (by simpa using hbound)
  cases cs with
  | nil => exact absurd h (by simp [natural?])
  | cons c rest =>
    by_cases hplus : c = '+'
    · -- a plus sign is no digit
      subst hplus
      cases h.symm.trans (natural?_cons_eq_none rfl rest)
    · rw [unsigned?]
      · simpa only [h] using hsome
      · intro rest' heq
        exact hplus (List.cons.inj heq).1

/-- What begins neither with a digit nor with a sign is no number with a sign. -/
theorem int64?_eq_none {text : String} {c : Char} {cs : List Char} (htext : text.toList = c :: cs)
    (hdigit : Digit.value? 10 c = none) (hminus : c ≠ '-') (hplus : c ≠ '+') :
    int64? text = none := by
  rw [int64?, htext]
  split
  · next heq => exact absurd (List.cons.inj heq).1 hminus
  · next heq => exact absurd (List.cons.inj heq).1 hplus
  · rw [natural?_cons_eq_none hdigit]
    rfl

/-- A number in decimal is read as one with a sign, if 63 bits hold it. -/
theorem int64?_decimal (n : Nat) :
    int64? (decimal n) = if n < 0x8000000000000000 then some (Int64.ofNat n) else none := by
  obtain ⟨d, hd, cs, hcs⟩ := decimal_eq_cons n
  have hsign : ∀ d < 10, Digit.lower d ≠ '-' ∧ Digit.lower d ≠ '+' := by decide
  have hnatural := natural?_decimal n
  rw [int64?]
  rw [hcs] at hnatural ⊢
  split
  · next heq => exact absurd (List.cons.inj heq).1 (hsign d hd).1
  · next heq => exact absurd (List.cons.inj heq).1 (hsign d hd).2
  · rw [hnatural]
    show ((some (n : Int)).filter _).map Int64.ofInt = _
    split
    · next hlt =>
      rw [Option.filter_some_pos (by simp; omega), Option.map_some, Int64.ofInt_eq_ofNat]
    · next hge => rw [Option.filter_some_neg (by simp; omega), Option.map_none]

/-- An integer that 64 bits hold is read as it was written. -/
theorem int64?_signedDecimal {n : Int} (hlo : -0x8000000000000000 ≤ n)
    (hhi : n < 0x8000000000000000) : int64? (signedDecimal n) = some (Int64.ofInt n) := by
  cases n with
  | ofNat n =>
    rw [signedDecimal, int64?_decimal, if_pos (by simp at hhi; omega)]
    rfl
  | negSucc n =>
    have hcs : (signedDecimal (.negSucc n)).toList = '-' :: (decimal (n + 1)).toList := by
      rw [signedDecimal, String.toList_append]
      rfl
    rw [int64?, hcs]
    show (((natural? 10 (decimal (n + 1)).toList).map fun n => -(n : Int)).filter _).map _ = _
    rw [natural?_decimal]
    show ((some (Int.negSucc n)).filter _).map Int64.ofInt = _
    rw [Option.filter_some_pos (by simp; omega), Option.map_some]

theorem address?_hex (rest : List Char) :
    address? ('0' :: 'x' :: rest) = (unsigned? 16 UInt64.size rest).map UInt64.ofNat :=
  rfl

/-- A number in decimal is an address. -/
theorem address?_decimal {n : Nat} (h : n < UInt64.size) :
    address? (decimal n).toList = some (UInt64.ofNat n) := by
  have hdigit : ∀ d < 10, Digit.lower d ≠ 'x' ∧ Digit.lower d ≠ 'X' := by decide
  have hx : ∀ c ∈ (decimal n).toList, c ≠ 'x' ∧ c ≠ 'X' := by
    intro c hc
    obtain ⟨d, hd, rfl⟩ := mem_decimal hc
    exact hdigit d hd
  have hunsigned := unsigned?_of_natural? (natural?_decimal n) h
  rw [address?]
  · rw [hunsigned, Option.map_some]
  · intro rest heq
    exact (hx 'x' (by simp [heq])).1 rfl
  · intro rest heq
    exact (hx 'X' (by simp [heq])).2 rfl

/-! ## The one text of an integer -/

/-- Decimal digits without a zero in front, unless it stands alone, and a minus sign before them if
the integer is less than zero. -/
def IsCanonical (cs : List Char) : Prop :=
  cs = ['0'] ∨ ∃ c digits, (cs = c :: digits ∨ cs = '-' :: c :: digits) ∧ c ≠ '0' ∧
    ∀ d ∈ c :: digits, Digit.isDecimal d

/-- A positive number is written without a zero in front. -/
private theorem decimal_of_pos {n : Nat} (h : 0 < n) :
    ∃ c digits, (decimal n).toList = c :: digits ∧ c ≠ '0' ∧
      ∀ d ∈ c :: digits, Digit.isDecimal d := by
  have hchars : ∀ c ∈ (decimal n).toList, Digit.isDecimal c := by
    intro c hc
    obtain ⟨d, hd, rfl⟩ := mem_decimal hc
    exact (Digit.isDecimal_lower hd).1
  have hzero : ∀ d < 10, Digit.lower d = '0' → d = 0 := by decide
  cases hdigits : digits 10 n with
  | nil => exact absurd hdigits (digits_ne_nil 10 n)
  | cons d ds =>
    have htext : (decimal n).toList = Digit.lower d :: ds.map Digit.lower := by
      rw [decimal, String.toList_ofList, hdigits, List.map_cons]
    refine ⟨_, _, htext, ?_, htext ▸ hchars⟩
    intro hd
    obtain rfl : d = 0 := hzero d (lt_of_mem_digits (by omega) (hdigits ▸ List.mem_cons_self)) hd
    -- a zero in front would be the only digit, and the number would be zero
    have hn : ofDigits 10 (digits 10 n) = n := ofDigits_digits (by omega) n
    rw [hdigits, digits_eq_zero_cons (by omega) hdigits] at hn
    exact absurd hn (by simp [ofDigits]; omega)

/-- An integer is written as its one text. -/
theorem isCanonical_signedDecimal (n : Int) : IsCanonical (signedDecimal n).toList := by
  cases n with
  | ofNat n =>
    rcases Nat.eq_zero_or_pos n with rfl | hpos
    · left
      decide +kernel
    · obtain ⟨c, digits, htext, hc, hdigits⟩ := decimal_of_pos hpos
      exact .inr ⟨c, digits, .inl htext, hc, hdigits⟩
  | negSucc n =>
    obtain ⟨c, digits, htext, hc, hdigits⟩ := decimal_of_pos n.succ_pos
    refine .inr ⟨c, digits, .inr ?_, hc, hdigits⟩
    rw [signedDecimal, String.toList_append, htext]
    rfl

end Numeral

end ChunkScope
