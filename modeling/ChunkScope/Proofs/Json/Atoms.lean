import ChunkScope.Json.Basic
import ChunkScope.Json.Reader
import ChunkScope.Proofs.Text.Numerals

/-!
# Atoms that are read back

Integers and strings as the printer writes them, in front of whatever else the text holds. A number
ends where its text ends only if no digit, point or exponent follows; in a text without blanks a
value is followed by a comma, a closing bracket or the end.
-/

namespace ChunkScope.Json

/-- What can stand behind a value in a text without blanks. -/
def Follows (rest : List Char) : Prop :=
  ∀ c, rest.head? = some c → c = ',' ∨ c = ']' ∨ c = '\x7d'

theorem follows_nil : Follows [] := nofun

/-- A comma or a closing bracket may follow a value. -/
theorem follows_cons {c : Char} (h : c = ',' ∨ c = ']' ∨ c = '\x7d') (rest : List Char) :
    Follows (c :: rest) := by
  intro d hd
  obtain rfl : c = d := by simpa using hd
  exact h

/-! ## Integers -/

namespace Number

/-- What may follow a value begins with no digit. -/
private theorem dropWhile_isDecimal {rest : List Char} (h : Follows rest) :
    rest.takeWhile Digit.isDecimal = [] ∧ rest.dropWhile Digit.isDecimal = rest := by
  cases rest with
  | nil => exact ⟨rfl, rfl⟩
  | cons c rest =>
    have hc : Digit.isDecimal c = false := by
      rcases h c rfl with rfl | rfl | rfl <;> rfl
    exact ⟨by simp [hc], by simp [hc]⟩

/-- Digits are taken up to what follows them. -/
theorem digits_append {ds : List Nat} (hds : ∀ d ∈ ds, d < 10) {rest : List Char}
    (h : Follows rest) : digits (ds.map Digit.lower ++ rest) = (ds, rest) := by
  induction ds with
  | nil =>
    obtain ⟨htake, hdrop⟩ := dropWhile_isDecimal h
    rw [List.map_nil, List.nil_append, digits, htake, hdrop]
    rfl
  | cons d ds ih =>
    obtain ⟨hdecimal, hvalue⟩ := Digit.isDecimal_lower (hds d (by simp))
    have ih := ih fun d hd => hds d (List.mem_cons_of_mem _ hd)
    rw [digits] at ih ⊢
    rw [List.map_cons, List.cons_append, List.takeWhile_cons_of_pos hdecimal,
      List.dropWhile_cons_of_pos hdecimal, List.map_cons, hvalue]
    rw [(Prod.mk.inj ih).1, (Prod.mk.inj ih).2]

private theorem head?_any_isDecimal {rest : List Char} (h : Follows rest) :
    rest.head?.any Digit.isDecimal = false := by
  cases rest with
  | nil => rfl
  | cons c rest => rcases h c rfl with rfl | rfl | rfl <;> rfl

/-- The digits of a number are its whole part. -/
theorem whole_decimal (n : Nat) {rest : List Char} (h : Follows rest) :
    whole ((Numeral.decimal n).toList ++ rest) = .ok (Numeral.digits 10 n, rest) := by
  have hlt : ∀ d ∈ Numeral.digits 10 n, d < 10 := fun d => Numeral.lt_of_mem_digits (by omega)
  have hzero : ∀ ds, Numeral.digits 10 n = 0 :: ds → ds = [] :=
    fun ds => Numeral.digits_eq_zero_cons (by omega)
  have hne := Numeral.digits_ne_nil 10 n
  rw [Numeral.decimal, String.toList_ofList]
  generalize Numeral.digits 10 n = ds at hlt hzero hne ⊢
  cases ds with
  | nil => exact absurd rfl hne
  | cons d ds =>
    by_cases hd : d = 0
    · -- a zero in front stands alone
      subst hd
      rw [hzero ds rfl]
      show (if rest.head?.any Digit.isDecimal then Except.error Fault.malformed
        else .ok ([0], rest)) = _
      rw [head?_any_isDecimal h]
      rfl
    · have hdecimal := (Digit.isDecimal_lower (hlt d (by simp))).1
      have hchar : Digit.lower d ≠ '0' := by
        intro heq
        have hvalue := (Digit.isDecimal_lower (hlt d (by simp))).2
        rw [heq] at hvalue
        exact hd hvalue.symm
      have hdigits := digits_append hlt h
      rw [List.map_cons, List.cons_append] at hdigits ⊢
      rw [whole, if_pos hdecimal, hdigits]
      exact hchar

private theorem fraction_eq_none {rest : List Char} (h : Follows rest) :
    fraction rest = .ok (none, rest) := by
  cases rest with
  | nil => rfl
  | cons c rest => rcases h c rfl with rfl | rfl | rfl <;> rfl

private theorem exponent_eq_none {rest : List Char} (h : Follows rest) :
    exponent rest = .ok (none, rest) := by
  cases rest with
  | nil => rfl
  | cons c rest => rcases h c rfl with rfl | rfl | rfl <;> rfl

/-- A number in decimal is read as one without fraction and exponent. -/
theorem unsigned_decimal {negative : Bool} {n : Nat} {value : Int}
    (hvalue : integer? ⟨negative, Numeral.digits 10 n, none, none⟩ = some value)
    {rest : List Char} (h : Follows rest) :
    unsigned negative ((Numeral.decimal n).toList ++ rest) = .ok (.int value, rest) := by
  have hwritten : written negative ((Numeral.decimal n).toList ++ rest) =
      .ok (⟨negative, Numeral.digits 10 n, none, none⟩, rest) := by
    rw [written, whole_decimal n h]
    dsimp only
    rw [fraction_eq_none h]
    dsimp only
    rw [exponent_eq_none h]
  rw [unsigned, hwritten]
  dsimp only
  rw [value?, hvalue]

/-- An integer is read back when 64 bits hold it, signed or not. -/
theorem number_signedDecimal {n : Int} (hlo : -0x8000000000000000 ≤ n)
    (hhi : n < 0x10000000000000000) {rest : List Char} (h : Follows rest) :
    number ((Numeral.signedDecimal n).toList ++ rest) = .ok (.int n, rest) := by
  cases n with
  | ofNat n =>
    have hn : n < UInt64.size := Int.ofNat_lt.mp hhi
    obtain ⟨d, hd, cs, hcs⟩ := Numeral.decimal_eq_cons n
    have hunsigned : unsigned false ((Numeral.decimal n).toList ++ rest) = .ok (.int n, rest) := by
      refine unsigned_decimal ?_ h
      simp [integer?, Numeral.ofDigits_digits, hn]
    show number ((Numeral.decimal n).toList ++ rest) = _
    rw [hcs, List.cons_append] at hunsigned ⊢
    rw [number]
    · exact hunsigned
    · intro rest' heq
      have hminus : ∀ d < 10, Digit.lower d ≠ '-' := by decide
      exact hminus d hd (List.cons.inj heq).1
  | negSucc n =>
    have hn : n + 1 ≤ 0x8000000000000000 := by omega
    rw [Numeral.signedDecimal, String.toList_append, List.append_assoc]
    show unsigned true ((Numeral.decimal (n + 1)).toList ++ rest) = _
    refine unsigned_decimal ?_ h
    simp [integer?, Numeral.ofDigits_digits]
    omega

end Number

/-! ## Strings -/

namespace Scan

/-- A text has at least as many bytes as characters. -/
private theorem utf8Size_pos_sum (cs : List Char) : cs.length ≤ Utf8.size cs := by
  induction cs with
  | nil => exact Nat.le_refl 0
  | cons c cs ih =>
    have hpos := c.utf8Size_pos
    rw [Utf8.size] at ih ⊢
    rw [List.foldr_cons, List.length_cons]
    omega

/-- A number on four hexadecimal digits is read back as a code unit. -/
theorem codeUnit_fixedHex {n : Nat} (hn : n < 0x10000) (rest : List Char) :
    codeUnit ((Numeral.fixedHex 4 n).toList ++ rest) = .ok (n, rest) := by
  rw [Numeral.fixedHex, String.toList_ofList]
  have hvalue : Numeral.ofDigits 16 (Numeral.fixedDigits 16 4 n) = n := by
    rw [Numeral.ofDigits_fixedDigits, Nat.mod_eq_of_lt hn]
  have hlt : ∀ d ∈ Numeral.fixedDigits 16 4 n, d < 16 :=
    fun d => Numeral.lt_of_mem_fixedDigits (by omega)
  obtain ⟨a, b, c, d, hds⟩ : ∃ a b c d, Numeral.fixedDigits 16 4 n = [a, b, c, d] :=
    ⟨_, _, _, _, rfl⟩
  -- the four digits by name, as the reader takes them apart
  rw [hds] at hvalue hlt ⊢
  have ha := Digit.value?_lower (by omega) (hlt a (by simp))
  have hb := Digit.value?_lower (by omega) (hlt b (by simp))
  have hc := Digit.value?_lower (by omega) (hlt c (by simp))
  have hd := Digit.value?_lower (by omega) (hlt d (by simp))
  have hfour : fourDigits? (Digit.lower a) (Digit.lower b) (Digit.lower c) (Digit.lower d) =
      some n := by
    rw [fourDigits?, ha, hb, hc, hd, ← hvalue]
    simp [Numeral.ofDigits]
  have hsize := utf8Size_pos_sum [Digit.lower a, Digit.lower b, Digit.lower c, Digit.lower d]
  show codeUnit (Digit.lower a :: Digit.lower b :: Digit.lower c :: Digit.lower d :: rest) = _
  rw [codeUnit, if_neg (by simpa using hsize), hfour]

/-- An escape below the surrogates is its character. -/
private theorem escapedUnit_of_lt {unit : Nat} (h : unit < 0xD800) (rest : List Char) :
    escapedUnit unit rest = .ok (Char.ofNat unit, rest) := by
  unfold escapedUnit
  rw [if_neg (by omega), if_neg (by omega)]

/-- A control is read back from the four digits of its escape. -/
private theorem escaped_control {c : Char} (h : c.toNat < 0x20) (rest : List Char) :
    escaped ('u' :: ((Numeral.fixedHex 4 c.toNat).toList ++ rest)) = .ok (c, rest) := by
  rw [escaped, codeUnit_fixedHex (by omega)]
  show escapedUnit c.toNat rest = _
  rw [escapedUnit_of_lt (by omega), Char.ofNat_toNat]

/-- Reading takes one written character from the front. -/
theorem stringBody_escape (fuel : Nat) (seen : List Char) (c : Char) (rest : List Char) :
    stringBody (fuel + 1) seen (escape c ++ rest) = stringBody fuel (c :: seen) rest := by
  rw [escape]
  -- the seven characters with an escape of their own, the other controls, and the rest
  split
  · next h => rw [h]; rfl
  split
  · next h => rw [h]; rfl
  split
  · next h => rw [h]; rfl
  split
  · next h => rw [h]; rfl
  split
  · next h => rw [h]; rfl
  split
  · next h => rw [h]; rfl
  split
  · next h => rw [h]; rfl
  split
  · next h =>
    show stringBody (fuel + 1) seen
      ('\\' :: 'u' :: ((Numeral.fixedHex 4 c.toNat).toList ++ rest)) = _
    rw [stringBody, if_neg (by decide), if_pos rfl, escaped_control h]
  · next hquote hbackslash _ _ _ _ _ hcontrol =>
    rw [List.singleton_append, stringBody, if_neg hquote, if_neg hbackslash, if_neg hcontrol]

/-- Reading takes all characters of a written string. -/
theorem stringBody_flatMap_escape (fuel : Nat) (seen cs rest : List Char)
    (h : cs.length < fuel) :
    stringBody fuel seen (cs.flatMap escape ++ '"' :: rest) =
      .ok (String.ofList (seen.reverse ++ cs), rest) := by
  induction cs generalizing fuel seen with
  | nil =>
    obtain ⟨fuel, rfl⟩ := Nat.exists_eq_add_one_of_ne_zero (Nat.ne_zero_of_lt h)
    rw [List.append_nil]
    rfl
  | cons c cs ih =>
    rw [List.length_cons] at h
    obtain ⟨fuel, rfl⟩ := Nat.exists_eq_add_one_of_ne_zero (Nat.ne_zero_of_lt h)
    rw [List.flatMap_cons, List.append_assoc, stringBody_escape, ih fuel (c :: seen) (by omega),
      List.reverse_cons, List.append_assoc]
    rfl

private theorem one_le_length_escape (c : Char) : 1 ≤ (escape c).length := by
  rw [escape]
  repeat' split
  all_goals simp

/-- Escaping does not make a text shorter. -/
private theorem length_le_length_flatMap_escape (cs : List Char) :
    cs.length ≤ (cs.flatMap escape).length := by
  induction cs with
  | nil => exact Nat.le_refl 0
  | cons c cs ih =>
    have hc := one_le_length_escape c
    rw [List.flatMap_cons, List.length_append, List.length_cons]
    omega

/-- A string is read back. -/
theorem string_stringChars (s : String) (rest : List Char) :
    string (s.toList.flatMap escape ++ '"' :: rest) = .ok (s, rest) := by
  have hlength := length_le_length_flatMap_escape s.toList
  rw [string, stringBody_flatMap_escape _ [] s.toList rest (by rw [List.length_append]; omega),
    List.reverse_nil, List.nil_append, String.ofList_toList]

end Scan

end ChunkScope.Json
