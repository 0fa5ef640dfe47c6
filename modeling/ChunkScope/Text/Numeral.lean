/-!
# Numerals

Integers as text. Reading takes one optional sign and at least one digit, with no blanks and no
separators, and refuses what lies outside the range asked for. Writing gives the shortest numeral,
or one of a fixed number of digits.
-/

/-! ## Digits

The value of an ASCII character read as a digit, and the digit written for a value. Letters stand
for the values from ten on, in either case when read; each base takes the digits below it. -/

namespace ChunkScope.Digit

/-- The value of an ASCII digit or letter, a letter counting on from nine. -/
def value (c : Char) : Option Nat :=
  if '0' ≤ c ∧ c ≤ '9' then some (c.toNat - 48)
  else if 'a' ≤ c ∧ c ≤ 'z' then some (c.toNat - 87)
  else if 'A' ≤ c ∧ c ≤ 'Z' then some (c.toNat - 55)
  else none

/-- The value of a digit of a base, nothing for any other character. -/
def value? (base : Nat) (c : Char) : Option Nat :=
  (value c).filter (· < base)

/-- The digit of a value below 36, letters in lower case. -/
def lower (d : Nat) : Char :=
  if d < 10 then Char.ofNat (48 + d) else Char.ofNat (87 + d)

/-- The digit of a value below 36, letters in upper case. -/
def upper (d : Nat) : Char :=
  if d < 10 then Char.ofNat (48 + d) else Char.ofNat (55 + d)

/-- A decimal digit. -/
def isDecimal (c : Char) : Bool :=
  decide ('0' ≤ c ∧ c ≤ '9')

end ChunkScope.Digit

namespace ChunkScope.Numeral

/-! ## Digits of a number -/

/-- The digits of a number, the most significant first, with no leading zero except for zero. -/
def digits (base n : Nat) : List Nat :=
  if base < 2 ∨ n < base then [n] else digits base (n / base) ++ [n % base]
termination_by n
decreasing_by
  exact Nat.div_lt_self (by omega) (by omega)

/-- The lowest `width` digits of a number, the most significant first. -/
def fixedDigits (base : Nat) : Nat → Nat → List Nat
  | 0, _ => []
  | width + 1, n => fixedDigits base width (n / base) ++ [n % base]

/-- The number that a list of digits stands for. -/
def ofDigits (base : Nat) (ds : List Nat) : Nat :=
  ds.foldl (fun n d => n * base + d) 0

/-! ## Writing -/

/-- A number in decimal. -/
def decimal (n : Nat) : String :=
  String.ofList ((digits 10 n).map Digit.lower)

/-- An integer in decimal, with a minus sign when it is negative. -/
def signedDecimal : Int → String
  | .ofNat n => decimal n
  | .negSucc n => "-" ++ decimal (n + 1)

/-- A number in hexadecimal with lower-case letters, on a fixed number of digits. -/
def fixedHex (width n : Nat) : String :=
  String.ofList ((fixedDigits 16 width n).map Digit.lower)

/-- A number in hexadecimal with lower-case letters, on as few digits as it needs. -/
def hex (n : Nat) : String :=
  String.ofList ((digits 16 n).map Digit.lower)

/-- A number in hexadecimal with upper-case letters, on a fixed number of digits. -/
def fixedUpperHex (width n : Nat) : String :=
  String.ofList ((fixedDigits 16 width n).map Digit.upper)

/-! ## Reading -/

/-- The number written by one or more digits of a base and nothing else. -/
def natural? (base : Nat) : List Char → Option Nat
  | [] => none
  | c :: cs => ((c :: cs).mapM (Digit.value? base)).map (ofDigits base)

/-- A number below a bound, with an optional plus sign in front. -/
def unsigned? (base bound : Nat) (text : List Char) : Option Nat :=
  let number := match text with
    | '+' :: rest => natural? base rest
    | _ => natural? base text
  number.filter (· < bound)

/-- A decimal number of 16 bits. -/
def word16? (text : String) : Option UInt16 :=
  (unsigned? 10 UInt16.size text.toList).map UInt16.ofNat

/-- A decimal number of 64 bits. -/
def word64? (text : String) : Option UInt64 :=
  (unsigned? 10 UInt64.size text.toList).map UInt64.ofNat

/-- A signed decimal number of 64 bits. -/
def int64? (text : String) : Option Int64 :=
  let number : Option Int := match text.toList with
    | '-' :: rest => (natural? 10 rest).map fun n => -(n : Int)
    | '+' :: rest => (natural? 10 rest).map fun n => (n : Int)
    | cs => (natural? 10 cs).map fun n => (n : Int)
  (number.filter fun n => -0x8000000000000000 ≤ n ∧ n < 0x8000000000000000).map Int64.ofInt

/-- A number of 64 bits: hexadecimal after `0x` or `0X`, else decimal. -/
def address? : List Char → Option UInt64
  | '0' :: 'x' :: rest => (unsigned? 16 UInt64.size rest).map UInt64.ofNat
  | '0' :: 'X' :: rest => (unsigned? 16 UInt64.size rest).map UInt64.ofNat
  | text => (unsigned? 10 UInt64.size text).map UInt64.ofNat

end ChunkScope.Numeral
