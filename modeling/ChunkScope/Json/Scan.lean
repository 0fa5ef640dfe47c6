import ChunkScope.Json.Basic
import ChunkScope.Text.Encoding
import ChunkScope.Text.Numeral

/-!
# Reading JSON, character by character

What goes wrong when a JSON text is read, and what is read of it without asking for anything:
blanks, the three words, strings, numbers, and values that are skipped. Each function takes the
characters that are left and gives back those behind what it read.
-/

namespace ChunkScope.Json

/-- Why a JSON text was refused: it holds a value of another form than the one asked for, it breaks
a rule of JSON, or it ends too early. -/
inductive Fault where
  | mismatch
  | malformed
  | truncated
deriving DecidableEq, Inhabited

/-- What reading from some characters gives: a value and the characters behind it, or a fault. -/
abbrev Scan (α : Type) := Except Fault (α × List Char)

namespace Scan

/-- A blank between the parts of a text. -/
def isBlank (c : Char) : Bool :=
  c == ' ' || c == '\t' || c == '\n' || c == '\r'

/-- The characters behind any blanks. -/
def skipBlanks (cs : List Char) : List Char :=
  cs.dropWhile isBlank

/-- The characters behind a word. -/
def word : List Char → List Char → Except Fault (List Char)
  | [], cs => .ok cs
  | _ :: _, [] => .error .truncated
  | w :: ws, c :: cs => if c = w then word ws cs else .error .malformed

/-! ## Strings -/

/-- The number that four hexadecimal digits write. -/
def fourDigits? (a b c d : Char) : Option Nat := do
  let a ← Digit.value? 16 a
  let b ← Digit.value? 16 b
  let c ← Digit.value? 16 c
  let d ← Digit.value? 16 d
  return ((a * 16 + b) * 16 + c) * 16 + d

/-- The code unit that follows `\u`; it is too short when fewer than four bytes are left. -/
def codeUnit (cs : List Char) : Scan Nat :=
  if Utf8.size (cs.take 4) < 4 then .error .truncated
  else
    match cs with
    | a :: b :: c :: d :: rest =>
      match fourDigits? a b c d with
      | some unit => .ok (unit, rest)
      | none => .error .malformed
    | _ => .error .malformed

/-- The character that an escape of one letter stands for. -/
def shortEscape? (c : Char) : Option Char :=
  if c = '"' then some '"'
  else if c = '\\' then some '\\'
  else if c = '/' then some '/'
  else if c = 'b' then some '\x08'
  else if c = 'f' then some '\x0c'
  else if c = 'n' then some '\n'
  else if c = 'r' then some '\r'
  else if c = 't' then some '\t'
  else none

/-- The character of two code units that make a pair. -/
def ofSurrogates (high low : Nat) : Char :=
  Char.ofNat ((high - 0xD800) * 0x400 + (low - 0xDC00) + 0x10000)

/-- The character whose first code unit has been read; the second half of a pair must follow the
first one, in an escape of its own. -/
def escapedUnit (unit : Nat) (cs : List Char) : Scan Char :=
  if 0xDC00 ≤ unit ∧ unit ≤ 0xDFFF then .error .malformed
  else if 0xD800 ≤ unit ∧ unit ≤ 0xDBFF then
    match cs with
    | [] | ['\\'] => .error .truncated
    | '\\' :: 'u' :: rest =>
      match codeUnit rest with
      | .error fault => .error fault
      | .ok (low, rest) =>
        if 0xDC00 ≤ low ∧ low ≤ 0xDFFF then .ok (ofSurrogates unit low, rest)
        else .error .malformed
    | _ => .error .malformed
  else .ok (Char.ofNat unit, cs)

/-- The character that an escape stands for, from behind its backslash. -/
def escaped : List Char → Scan Char
  | [] => .error .truncated
  | 'u' :: rest =>
    match codeUnit rest with
    | .error fault => .error fault
    | .ok (unit, rest) => escapedUnit unit rest
  | c :: rest =>
    match shortEscape? c with
    | some c => .ok (c, rest)
    | none => .error .malformed

/-- The characters of a string, from behind its first quote to its last one; `seen` holds those
already read, the last one first. -/
def stringBody : Nat → List Char → List Char → Scan String
  | 0, _, _ | _, _, [] => .error .truncated
  | fuel + 1, seen, c :: rest =>
    if c = '"' then .ok (String.ofList seen.reverse, rest)
    else if c = '\\' then
      match escaped rest with
      | .error fault => .error fault
      | .ok (c, rest) => stringBody fuel (c :: seen) rest
    else if c.toNat < 0x20 then .error .malformed
    else stringBody fuel (c :: seen) rest

/-- The string whose first quote has been read. -/
def string (cs : List Char) : Scan String :=
  stringBody (cs.length + 1) [] cs

/-! ## Strings that are skipped -/

/-- The characters behind an escape, from behind its backslash: its code unit may be any. -/
def skipEscape : List Char → Except Fault (List Char)
  | [] => .error .truncated
  | 'u' :: rest => (codeUnit rest).map (·.2)
  | c :: rest => if (shortEscape? c).isSome then .ok rest else .error .malformed

/-- The characters behind a string, from behind its first quote. -/
def skipStringBody : Nat → List Char → Except Fault (List Char)
  | 0, _ | _, [] => .error .truncated
  | fuel + 1, c :: rest =>
    if c = '"' then .ok rest
    else if c = '\\' then
      match skipEscape rest with
      | .error fault => .error fault
      | .ok rest => skipStringBody fuel rest
    else if c.toNat < 0x20 then .error .malformed
    else skipStringBody fuel rest

/-- The characters behind a string whose first quote has been read. -/
def skipString (cs : List Char) : Except Fault (List Char) :=
  skipStringBody (cs.length + 1) cs

end Scan

end ChunkScope.Json

/-! ## Numbers

A number without fraction and exponent is an integer when 64 bits hold it, signed or not; minus
zero and every other number are of the binary64 format. Such a number is made of the leading digits
that fit into 64 bits and a power of ten, so that its last bits are those of one rounded
multiplication or division. -/

namespace ChunkScope.Json.Number

/-- The digits at the front of some characters, and what follows them. -/
def digits (cs : List Char) : List Nat × List Char :=
  ((cs.takeWhile Digit.isDecimal).map fun c => c.toNat - 48, cs.dropWhile Digit.isDecimal)

/-- A number as it is written: whether there is a minus sign, the digits before the point, and those
behind it and the exponent, if there are any. -/
structure Written where
  negative : Bool
  whole : List Nat
  fraction : Option (List Nat)
  exponent : Option Int

/-! ### The parts of a number -/

/-- The digits before the point: a zero stands alone. -/
def whole : List Char → Scan (List Nat)
  | [] => .error .truncated
  | '0' :: rest =>
    if rest.head?.any Digit.isDecimal then .error .malformed else .ok ([0], rest)
  | c :: rest => if Digit.isDecimal c then .ok (digits (c :: rest)) else .error .malformed

/-- The point and at least one digit, if a point comes next. -/
def fraction : List Char → Scan (Option (List Nat))
  | '.' :: rest =>
    match digits rest with
    | ([], []) => .error .truncated
    | ([], _ :: _) => .error .malformed
    | (ds, rest) => .ok (some ds, rest)
  | cs => .ok (none, cs)

/-- The sign of an exponent, which may be left out: whether it is a minus. -/
def exponentSign : List Char → Bool × List Char
  | '+' :: rest => (false, rest)
  | '-' :: rest => (true, rest)
  | cs => (false, cs)

/-- The mark, the sign and at least one digit, if an exponent comes next. -/
def exponent : List Char → Scan (Option Int)
  | [] => .ok (none, [])
  | c :: rest =>
    if c = 'e' ∨ c = 'E' then
      let (negative, rest) := exponentSign rest
      match digits rest with
      | ([], []) => .error .truncated
      | ([], _ :: _) => .error .malformed
      | (ds, rest) =>
        let n : Int := Numeral.ofDigits 10 ds
        .ok (some (if negative then -n else n), rest)
    else .ok (none, c :: rest)

/-- A number from behind its sign. -/
def written (negative : Bool) (cs : List Char) : Scan Written :=
  match whole cs with
  | .error fault => .error fault
  | .ok (whole, cs) =>
    match fraction cs with
    | .error fault => .error fault
    | .ok (fraction, cs) =>
      match exponent cs with
      | .error fault => .error fault
      | .ok (exponent, cs) => .ok (⟨negative, whole, fraction, exponent⟩, cs)

/-! ### Its value -/

/-- Puts digits behind a number as long as 64 bits hold it: the number, how many digits it took,
and how many it did not. -/
def accumulate (n : Nat) (taken : Nat) : List Nat → Nat × Nat × Nat
  | [] => (n, taken, 0)
  | d :: ds =>
    if n * 10 + d < UInt64.size then accumulate (n * 10 + d) (taken + 1) ds
    else (n, taken, (d :: ds).length)

/-- A power of ten, rounded to the format. -/
def powerOfTen (n : Nat) : Float :=
  Float.ofScientific 1 false n

/-- A number divided by a power of ten, in steps that the format can hold. -/
def scaleDown (x : Float) (n : Nat) : Float :=
  if n ≤ 308 then x / powerOfTen n
  else if x == 0 then x
  else scaleDown (x / powerOfTen 308) (n - 308)
termination_by n

/-- A number times a power of ten, unless that is too large for the format. -/
def scaleUp? (x : Float) (n : Nat) : Option Float :=
  if n ≤ 308 then
    let y := x * powerOfTen n
    if y.isInf then none else some y
  else if x == 0 then some x
  else none

/-- The magnitude of a number of the binary64 format; exponents of more than 31 bits make it zero
or too large. -/
def magnitude? (written : Written) : Option Float :=
  let (n, _, dropped) := accumulate 0 0 written.whole
  let (n, taken, _) := accumulate n 0 (written.fraction.getD [])
  let exponent := written.exponent.getD 0
  if 0x80000000 ≤ exponent.natAbs then
    if n ≠ 0 ∧ 0 ≤ exponent then none else some 0
  else
    let exponent := exponent + dropped - taken
    let x := (UInt64.ofNat n).toFloat
    if 0 ≤ exponent then scaleUp? x exponent.toNat else some (scaleDown x exponent.natAbs)

/-- The value as an integer, when it is written as one that 64 bits hold. -/
def integer? (written : Written) : Option Int :=
  let n := Numeral.ofDigits 10 written.whole
  if written.fraction.isSome ∨ written.exponent.isSome then none
  else if written.negative then
    if 0 < n ∧ n ≤ 0x8000000000000000 then some (-(n : Int)) else none
  else if n < UInt64.size then some n
  else none

/-- The value of a number, unless it is too large for the format. -/
def value? (written : Written) : Option Json :=
  match integer? written with
  | some n => some (.int n)
  | none =>
    (magnitude? written).map fun x => .float (if written.negative then -x else x).toBits

/-- The number whose sign has been read. -/
def unsigned (negative : Bool) (cs : List Char) : Scan Json :=
  match written negative cs with
  | .error fault => .error fault
  | .ok (number, cs) =>
    match value? number with
    | some value => .ok (value, cs)
    | none => .error .malformed

/-- A number, sign and all. -/
def number : List Char → Scan Json
  | '-' :: rest => unsigned true rest
  | cs => unsigned false cs

/-! ### Numbers that are skipped -/

/-- The digits that must come next, or the text breaks a rule even where it ends. -/
def skipDigits (cs : List Char) : Except Fault (List Char) :=
  match digits cs with
  | ([], _) => .error .malformed
  | (_, rest) => .ok rest

/-- The characters behind an exponent, if one comes next. -/
def skipExponent : List Char → Except Fault (List Char)
  | [] => .ok []
  | c :: rest =>
    if c = 'e' ∨ c = 'E' then skipDigits (exponentSign rest).2 else .ok (c :: rest)

/-- The characters behind a number that is read for its form alone. -/
def skip (cs : List Char) : Except Fault (List Char) :=
  let cs := match cs with
    | '-' :: rest => rest
    | cs => cs
  match whole cs with
  | .error _ => .error .malformed
  | .ok (_, '.' :: rest) => do skipExponent (← skipDigits rest)
  | .ok (_, rest) => skipExponent rest

end ChunkScope.Json.Number

/-! ## Values that are skipped

A value nobody asked for is read for its form alone: its arrays and objects may nest to any depth,
its numbers may be of any size, and its strings may hold halves of pairs. -/

namespace ChunkScope.Json.Skip

/-- What an opening bracket begins. -/
inductive Container where
  | array
  | object
deriving DecidableEq

namespace Container

/-- The bracket that ends a container. -/
def closer : Container → Char
  | array => ']'
  | object => '\x7d'

end Container

/-- Where a value is skipped: before a value, or behind one or an opening bracket in the innermost
container, where a comma is taken when `filled` says that there is an item before it. -/
inductive Place where
  | value
  | within (filled : Bool)

/-- The name of a member and its colon. -/
def memberName (cs : List Char) : Except Fault (List Char) :=
  match Scan.skipBlanks cs with
  | [] => .error .truncated
  | '"' :: rest =>
    match Scan.skipString rest with
    | .error fault => .error fault
    | .ok rest =>
      match Scan.skipBlanks rest with
      | [] => .error .truncated
      | ':' :: rest => .ok rest
      | _ :: _ => .error .malformed
  | _ :: _ => .error .malformed

/-- The characters in front of the next value of a container. -/
def toValue : Container → List Char → Except Fault (List Char)
  | .array, cs => .ok cs
  | .object, cs => memberName cs

/-- The characters behind an atom. -/
def atom : List Char → Except Fault (List Char)
  | [] => .error .truncated
  | 'n' :: rest => Scan.word ['u', 'l', 'l'] rest
  | 't' :: rest => Scan.word ['r', 'u', 'e'] rest
  | 'f' :: rest => Scan.word ['a', 'l', 's', 'e'] rest
  | '"' :: rest => Scan.skipString rest
  | c :: rest =>
    if c = '-' ∨ Digit.isDecimal c then Number.skip (c :: rest) else .error .malformed

/-- The characters behind the open containers, the innermost one first. -/
def run : Nat → Place → List Container → List Char → Except Fault (List Char)
  | 0, _, _, _ => .error .truncated
  | fuel + 1, .value, stack, cs =>
    match Scan.skipBlanks cs with
    | '[' :: rest => run fuel (.within false) (.array :: stack) rest
    | '\x7b' :: rest => run fuel (.within false) (.object :: stack) rest
    | cs =>
      match atom cs with
      | .error fault => .error fault
      | .ok rest => run fuel (.within true) stack rest
  | _ + 1, .within _, [], cs => .ok cs
  | fuel + 1, .within filled, container :: outer, cs =>
    match Scan.skipBlanks cs with
    | [] => .error .truncated
    | c :: rest =>
      if c = container.closer then run fuel (.within true) outer rest
      else if c = ',' ∧ filled then
        match toValue container rest with
        | .error fault => .error fault
        | .ok rest => run fuel .value (container :: outer) rest
      else if filled then .error .malformed
      else
        match toValue container (c :: rest) with
        | .error fault => .error fault
        | .ok rest => run fuel .value (container :: outer) rest

/-- The characters behind the next value. -/
def value (cs : List Char) : Except Fault (List Char) :=
  run (2 * cs.length + 2) .value [] cs

end ChunkScope.Json.Skip
