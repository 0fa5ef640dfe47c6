import ChunkScope.Document
import ChunkScope.Text.Numeral

/-!
# JSON values

A value of a JSON text, and the two ways to write it. Integers are exact; any other number is one of
the binary64 format, kept by its bits. The members of an object stand in the order in which they are
written; an object that was read has them in ascending order of their names, each name once.
-/

/-! ## Values -/

namespace ChunkScope

/-- A JSON value. -/
inductive Json where
  | null
  | bool (b : Bool)
  | int (n : Int)
  | float (bits : UInt64)
  | string (s : String)
  | array (items : List Json)
  | object (members : List (String × Json))
deriving Inhabited

namespace Json

/-- Values equal at every place, floats by their bits. -/
def decEq : (a b : Json) → Decidable (a = b)
  | null, null => isTrue rfl
  | bool a, bool b => decidable_of_iff (a = b) (by simp)
  | int a, int b => decidable_of_iff (a = b) (by simp)
  | float a, float b => decidable_of_iff (a = b) (by simp)
  | string a, string b => decidable_of_iff (a = b) (by simp)
  | array a, array b => @decidable_of_iff _ (a = b) (by simp) (decEqItems a b)
  | object a, object b => @decidable_of_iff _ (a = b) (by simp) (decEqMembers a b)
  | null, bool _ | null, int _ | null, float _ | null, string _ | null, array _ | null, object _
  | bool _, null | bool _, int _ | bool _, float _ | bool _, string _ | bool _, array _
  | bool _, object _ | int _, null | int _, bool _ | int _, float _ | int _, string _
  | int _, array _ | int _, object _ | float _, null | float _, bool _ | float _, int _
  | float _, string _ | float _, array _ | float _, object _ | string _, null | string _, bool _
  | string _, int _ | string _, float _ | string _, array _ | string _, object _ | array _, null
  | array _, bool _ | array _, int _ | array _, float _ | array _, string _ | array _, object _
  | object _, null | object _, bool _ | object _, int _ | object _, float _ | object _, string _
  | object _, array _ => isFalse (by simp)
where
  /-- The same for the items of an array. -/
  decEqItems : (a b : List Json) → Decidable (a = b)
    | [], [] => isTrue rfl
    | [], _ :: _ => isFalse (by simp)
    | _ :: _, [] => isFalse (by simp)
    | x :: xs, y :: ys =>
      match decEq x y with
      | isFalse h => isFalse (by simp [h])
      | isTrue h =>
        match decEqItems xs ys with
        | isFalse h' => isFalse (by simp [h'])
        | isTrue h' => isTrue (by rw [h, h'])
  /-- The same for the members of an object. -/
  decEqMembers : (a b : List (String × Json)) → Decidable (a = b)
    | [], [] => isTrue rfl
    | [], _ :: _ => isFalse (by simp)
    | _ :: _, [] => isFalse (by simp)
    | (k, x) :: xs, (l, y) :: ys =>
      match decEq x y with
      | isFalse h => isFalse (by simp [h])
      | isTrue h =>
        match decEqMembers xs ys with
        | isFalse h' => isFalse (by simp [h'])
        | isTrue h' =>
          if hk : k = l then isTrue (by rw [h, h', hk]) else isFalse (by simp [hk])

instance : DecidableEq Json := decEq

end Json

end ChunkScope

/-! ## Shortest decimals

The fewest decimal digits that read back as a given number of the binary64 format, and among those
the ones nearest to it. All of it is exact arithmetic on natural numbers: the number is `m * 2 ^ q`,
and what reads back as it is an interval whose ends belong to it when `m` is even. -/

namespace ChunkScope.Decimal

/-- A positive number of the binary64 format, `mantissa * 2 ^ exponent`. It is narrow when the next
number below is only half a unit of the last place away. -/
structure Binary where
  mantissa : Nat
  exponent : Int
  narrow : Bool

namespace Binary

/-- The magnitude that the 64 bits of a finite number stand for. -/
def ofBits (bits : UInt64) : Binary :=
  let fraction : Nat := bits.toNat % 0x10000000000000
  let biased : Nat := bits.toNat / 0x10000000000000 % 0x800
  if biased = 0 then ⟨fraction, -1074, false⟩
  else ⟨0x10000000000000 + fraction, (biased : Int) - 1075, fraction = 0 ∧ 1 < biased⟩

end Binary

/-- A positive decimal, `digits * 10 ^ exponent`, whose digits do not end in zero. -/
structure Shortest where
  digits : Nat
  exponent : Int
deriving DecidableEq

namespace Shortest

/-- The numerator and the denominator of `a * 2 ^ p * 10 ^ e`. -/
def scaled (a : Nat) (p e : Int) : Nat × Nat :=
  (a * Nat.pow 2 p.toNat * Nat.pow 10 e.toNat, Nat.pow 2 (-p).toNat * Nat.pow 10 (-e).toNat)

/-- The decimal of a grid that reads back as the number, the nearer one if two do and the even one
if both are as near. The grid has the multiples of `10 ^ e`. -/
def onGrid? (x : Binary) (e : Int) : Option Nat :=
  -- the number, its lower and its upper end in quarters of a unit, measured on the grid
  let (mid, den) := scaled (4 * x.mantissa) (x.exponent - 2) (-e)
  let (low, _) := scaled (4 * x.mantissa - if x.narrow then 1 else 2) (x.exponent - 2) (-e)
  let (high, _) := scaled (4 * x.mantissa + 2) (x.exponent - 2) (-e)
  let inside (d : Nat) : Bool :=
    if x.mantissa % 2 = 0 then low ≤ d * den ∧ d * den ≤ high
    else low < d * den ∧ d * den < high
  let below := mid / den
  let above := below + 1
  if inside below ∧ 0 < below then
    if inside above then
      let left := mid - below * den
      let right := above * den - mid
      if left < right ∨ (left = right ∧ below % 2 = 0) then some below else some above
    else some below
  else if inside above then some above
  else none

/-- Tries ever finer grids, from the power of ten `e` on. -/
def search (x : Binary) : Nat → Int → Shortest
  | 0, e => ⟨0, e⟩
  | fuel + 1, e =>
    match onGrid? x e with
    | some d => ⟨d, e⟩
    | none => search x fuel (e - 1)

/-- Drops zeros at the end of the digits. -/
def normalize : Nat → Shortest → Shortest
  | 0, s => s
  | fuel + 1, s =>
    if s.digits % 10 = 0 ∧ s.digits ≠ 0 then normalize fuel ⟨s.digits / 10, s.exponent + 1⟩ else s

/-- An upper bound for the power of ten of the first digit. -/
def leading (x : Binary) : Int :=
  ((x.mantissa.log2 : Int) + 1 + x.exponent) * 30103 / 100000 + 1

/-- The shortest decimal of a positive number: seventeen digits are always enough. -/
def ofBinary (x : Binary) : Shortest :=
  normalize 20 (search x 21 (leading x))

end Shortest

end ChunkScope.Decimal

/-! ## JSON texts

A value is written without any blank, or on indented lines. In both ways the members of an object
come in the order in which the value has them, and a string holds its characters as they are except
for the quote, the backslash and the controls below the space. -/

namespace ChunkScope.Json

/-! ### Strings -/

/-- How one character is written in a string. -/
def escape (c : Char) : List Char :=
  if c = '"' then ['\\', '"']
  else if c = '\\' then ['\\', '\\']
  else if c = '\x08' then ['\\', 'b']
  else if c = '\t' then ['\\', 't']
  else if c = '\n' then ['\\', 'n']
  else if c = '\x0c' then ['\\', 'f']
  else if c = '\r' then ['\\', 'r']
  else if c.toNat < 0x20 then ['\\', 'u'] ++ (Numeral.fixedHex 4 c.toNat).toList
  else [c]

/-- A string between its quotes. -/
def stringChars (s : String) : List Char :=
  '"' :: (s.toList.flatMap escape ++ ['"'])

/-! ### Numbers -/

/-- The digits of a shortest decimal with the point where its value wants it: without an exponent
as long as the point stands within sixteen places after the first digit or five before it. -/
def decimalChars (s : Decimal.Shortest) : List Char :=
  let ds := (Numeral.digits 10 s.digits).map Digit.lower
  let point : Int := s.exponent + ds.length
  if 0 ≤ s.exponent ∧ point ≤ 16 then ds ++ List.replicate s.exponent.toNat '0' ++ ['.', '0']
  else if 0 < point ∧ point ≤ 16 then ds.take point.toNat ++ '.' :: ds.drop point.toNat
  else if -5 < point ∧ point ≤ 0 then '0' :: '.' :: (List.replicate (-point).toNat '0' ++ ds)
  else
    let mantissa := if ds.length = 1 then ds else ds.take 1 ++ '.' :: ds.drop 1
    mantissa ++ 'e' :: (Numeral.signedDecimal (point - 1)).toList

/-- A number of the binary64 format; what is not finite has no text and is written as `null`. -/
def floatChars (bits : UInt64) : List Char :=
  let magnitude := bits.toNat % 0x8000000000000000
  if 0x7FF0000000000000 ≤ magnitude then ['n', 'u', 'l', 'l']
  else
    let sign := if bits.toNat < 0x8000000000000000 then [] else ['-']
    if magnitude = 0 then sign ++ ['0', '.', '0']
    else sign ++ decimalChars (Decimal.Shortest.ofBinary (Decimal.Binary.ofBits bits))

/-! ### Values -/

/-- The texts of atoms, the same in both ways of writing. -/
def atomChars : Json → List Char
  | bool true => ['t', 'r', 'u', 'e']
  | bool false => ['f', 'a', 'l', 's', 'e']
  | int n => (Numeral.signedDecimal n).toList
  | float bits => floatChars bits
  | string s => stringChars s
  | _ => ['n', 'u', 'l', 'l']

mutual

/-- A value without blanks. -/
def compactChars : Json → List Char
  | array items => '[' :: compactItems items
  | object members => '\x7b' :: compactMembers members
  | atom => atomChars atom

/-- The items of an array and its closing bracket. -/
def compactItems : List Json → List Char
  | [] => [']']
  | item :: rest => compactChars item ++ compactMoreItems rest

/-- The items of an array after another one, and its closing bracket. -/
def compactMoreItems : List Json → List Char
  | [] => [']']
  | item :: rest => ',' :: (compactChars item ++ compactMoreItems rest)

/-- The members of an object and its closing brace. -/
def compactMembers : List (String × Json) → List Char
  | [] => ['\x7d']
  | (name, value) :: rest =>
    stringChars name ++ ':' :: (compactChars value ++ compactMoreMembers rest)

/-- The members of an object after another one, and its closing brace. -/
def compactMoreMembers : List (String × Json) → List Char
  | [] => ['\x7d']
  | (name, value) :: rest =>
    ',' :: (stringChars name ++ ':' :: (compactChars value ++ compactMoreMembers rest))

end

/-- A value without blanks. -/
def compact (value : Json) : String :=
  String.ofList value.compactChars

/-- A new line at a depth, indented by two spaces for each level. -/
def lineBreak (depth : Nat) : List Char :=
  '\n' :: List.replicate (2 * depth) ' '

mutual

/-- A value on indented lines; an array or object without contents stays on its line. -/
def prettyChars (depth : Nat) : Json → List Char
  | array [] => ['[', ']']
  | array (item :: rest) =>
    '[' :: (lineBreak (depth + 1) ++ prettyChars (depth + 1) item ++ prettyItems depth rest)
  | object [] => ['\x7b', '\x7d']
  | object ((name, value) :: rest) =>
    '\x7b' :: (lineBreak (depth + 1) ++ stringChars name ++ [':', ' '] ++
      prettyChars (depth + 1) value ++ prettyMembers depth rest)
  | atom => atomChars atom

/-- The items of an array after another one, and its closing bracket. -/
def prettyItems (depth : Nat) : List Json → List Char
  | [] => lineBreak depth ++ [']']
  | item :: rest =>
    ',' :: (lineBreak (depth + 1) ++ prettyChars (depth + 1) item ++ prettyItems depth rest)

/-- The members of an object after another one, and its closing brace. -/
def prettyMembers (depth : Nat) : List (String × Json) → List Char
  | [] => lineBreak depth ++ ['\x7d']
  | (name, value) :: rest =>
    ',' :: (lineBreak (depth + 1) ++ stringChars name ++ [':', ' '] ++
      prettyChars (depth + 1) value ++ prettyMembers depth rest)

end

/-- A value on indented lines. -/
def pretty (value : Json) : String :=
  String.ofList (value.prettyChars 0)

end ChunkScope.Json
