import ChunkScope.Text.Numeral

/-!
# Words of a TOML text

Blanks, line ends, comments, strings, numbers, dates and times. A reading takes the characters that
are left and gives a value and the characters behind it, or nothing.
-/

namespace ChunkScope.Toml

/-- What reading from some characters gives. -/
abbrev Scan (α : Type) := Option (α × List Char)

namespace Scan

/-- A blank within a line. -/
def isBlank (c : Char) : Bool :=
  c == ' ' || c == '\t'

/-- The characters behind any blanks. -/
def skipBlanks (cs : List Char) : List Char :=
  cs.dropWhile isBlank

/-- A character that may stand in a comment, and in any string without an escape but for the quote
and the backslash. -/
def isPlain (c : Char) : Bool :=
  c == '\t' || (0x20 ≤ c.toNat && c.toNat != 0x7F)

/-- The characters behind the end of a line. -/
def newline? : List Char → Option (List Char)
  | '\n' :: rest => some rest
  | '\r' :: '\n' :: rest => some rest
  | _ => none

/-- The characters behind a comment, if one comes next. -/
def skipComment : List Char → List Char
  | '#' :: rest => rest.dropWhile isPlain
  | cs => cs

/-- The characters behind the rest of a line, which is blank or a comment. -/
def endLine? (cs : List Char) : Option (List Char) :=
  match skipComment (skipBlanks cs) with
  | [] => some []
  | rest => newline? rest

/-- The characters behind any blanks, comments and ends of lines; a comment needs its line's end. -/
def skipLines : Nat → List Char → Option (List Char)
  | 0, _ => none
  | fuel + 1, cs =>
    match skipBlanks cs with
    | '#' :: rest => (newline? (rest.dropWhile isPlain)).bind (skipLines fuel)
    | '\r' :: rest => (newline? ('\r' :: rest)).bind (skipLines fuel)
    | '\n' :: rest => skipLines fuel rest
    | rest => some rest

/-- The characters behind any blanks, comments and ends of lines. -/
def skipLayout (cs : List Char) : Option (List Char) :=
  skipLines (cs.length + 1) cs

/-! ## Digits -/

/-- Digits of a base behind a first one, with single underscores between them. -/
def moreDigits (base : Nat) : List Char → Scan (List Nat)
  | [] => some ([], [])
  | '_' :: c :: rest =>
    match Digit.value? base c with
    | some d => (moreDigits base rest).map fun (ds, rest) => (d :: ds, rest)
    | none => none
  | ['_'] => none
  | c :: rest =>
    match Digit.value? base c with
    | some d => (moreDigits base rest).map fun (ds, rest) => (d :: ds, rest)
    | none => some ([], c :: rest)

/-- At least one digit of a base, with single underscores between them. -/
def digits (base : Nat) : List Char → Scan (List Nat)
  | [] => none
  | c :: rest =>
    match Digit.value? base c with
    | some d => (moreDigits base rest).map fun (ds, rest) => (d :: ds, rest)
    | none => none

/-- A sign, which may be left out: whether it is a minus. -/
def sign : List Char → Bool × List Char
  | '+' :: rest => (false, rest)
  | '-' :: rest => (true, rest)
  | cs => (false, cs)

/-- A fixed number of decimal digits, as a number up to a bound. -/
def fixed (count bound : Nat) (cs : List Char) : Scan Nat :=
  let ds := cs.take count
  if ds.length = count ∧ ds.all Digit.isDecimal then
    let n := Numeral.ofDigits 10 (ds.map fun c => c.toNat - 48)
    if n ≤ bound then some (n, cs.drop count) else none
  else none

/-- The characters behind one that must come next. -/
def char? (c : Char) : List Char → Option (List Char)
  | [] => none
  | d :: rest => if d = c then some rest else none

/-- The characters behind a word that must come next. -/
def word? : List Char → List Char → Option (List Char)
  | [], cs => some cs
  | w :: ws, cs => (char? w cs).bind (word? ws)

end Scan

end ChunkScope.Toml

/-! ## Strings

Four kinds: between double quotes with escapes, or between single quotes as they stand; and each of
them between three quotes, where it may run over several lines. The end of a line is one line feed
whatever it was written as, and right behind the opening quotes it does not count. -/

namespace ChunkScope.Toml.Text

/-! ### Escapes -/

/-- The character whose code point some digits write, all of which must be there. -/
def codePoint (count : Nat) (cs : List Char) : Scan Char :=
  let ds := cs.take count
  if ds.length = count then
    (Numeral.natural? 16 ds).bind fun n =>
      if n.isValidChar then some (Char.ofNat n, cs.drop count) else none
  else none

/-- The character that an escape stands for, from behind its backslash. -/
def escaped : List Char → Scan Char
  | 'b' :: rest => some ('\x08', rest)
  | 't' :: rest => some ('\t', rest)
  | 'n' :: rest => some ('\n', rest)
  | 'f' :: rest => some ('\x0c', rest)
  | 'r' :: rest => some ('\r', rest)
  | '"' :: rest => some ('"', rest)
  | '\\' :: rest => some ('\\', rest)
  | 'u' :: rest => codePoint 4 rest
  | 'U' :: rest => codePoint 8 rest
  | _ => none

/-! ### One line -/

/-- A string between double quotes, from behind the first one; `seen` holds the characters already
read, the last one first. -/
def basicBody : Nat → List Char → List Char → Scan (List Char)
  | 0, _, _ | _, _, [] => none
  | fuel + 1, seen, c :: rest =>
    if c = '"' then some (seen.reverse, rest)
    else if c = '\\' then (escaped rest).bind fun (c, rest) => basicBody fuel (c :: seen) rest
    else if Scan.isPlain c then basicBody fuel (c :: seen) rest
    else none

/-- A string between double quotes, from behind the first one. -/
def basic (cs : List Char) : Scan (List Char) :=
  basicBody (cs.length + 1) [] cs

/-- A character that may stand between single quotes. -/
def isLiteral (c : Char) : Bool :=
  Scan.isPlain c && c != '\x27'

/-- A string between single quotes, from behind the first one. -/
def literal (cs : List Char) : Scan (List Char) :=
  (Scan.char? '\x27' (cs.dropWhile isLiteral)).map fun rest => (cs.takeWhile isLiteral, rest)

/-! ### Several lines -/

/-- How many quotes of a run of them are text, and how many are taken from it: a run of three ends
the string, and up to two quotes before the three that end it are text. -/
def quoteRun (length : Nat) : Nat × Option Nat :=
  if length < 3 then (length, none) else (min length 5 - 3, some (min length 5))

/-- The characters behind any blanks and ends of lines. -/
def skipWhite : List Char → List Char
  | '\r' :: '\n' :: rest => skipWhite rest
  | c :: rest => if c = '\n' ∨ Scan.isBlank c then skipWhite rest else c :: rest
  | [] => []

/-- The characters behind a backslash at the end of a line: the blanks and ends of lines after it
are left out. -/
def joinLines (cs : List Char) : Option (List Char) :=
  (Scan.newline? (Scan.skipBlanks cs)).map skipWhite

/-- A string of several lines between three quotes of a kind, from behind the first three. -/
def linesBody (quote : Char) : Nat → List Char → List Char → Scan (List Char)
  | 0, _, _ | _, _, [] => none
  | fuel + 1, seen, c :: rest =>
    if c = quote then
      let run := ((c :: rest).takeWhile (· == quote)).length
      let behind := (c :: rest).drop run
      match quoteRun run with
      | (text, none) => linesBody quote fuel (List.replicate text quote ++ seen) behind
      | (text, some taken) =>
        some ((List.replicate text quote ++ seen).reverse, (c :: rest).drop taken)
    else if c = '\\' ∧ quote = '"' then
      match joinLines rest with
      | some rest => linesBody quote fuel seen rest
      | none => (escaped rest).bind fun (c, rest) => linesBody quote fuel (c :: seen) rest
    else if Scan.isPlain c then linesBody quote fuel (c :: seen) rest
    else
      match Scan.newline? (c :: rest) with
      | some rest => linesBody quote fuel ('\n' :: seen) rest
      | none => none

/-- A string of several lines between three quotes of a kind, from behind the first three. -/
def lines (quote : Char) (cs : List Char) : Scan (List Char) :=
  let cs := (Scan.newline? cs).getD cs
  linesBody quote (cs.length + 1) [] cs

/-! ### Any string -/

/-- A string of one of the four kinds, if a quote comes next. -/
def string : List Char → Scan String
  | '"' :: '"' :: '"' :: rest => (lines '"' rest).map fun (cs, rest) => (String.ofList cs, rest)
  | '"' :: rest => (basic rest).map fun (cs, rest) => (String.ofList cs, rest)
  | '\x27' :: '\x27' :: '\x27' :: rest =>
    (lines '\x27' rest).map fun (cs, rest) => (String.ofList cs, rest)
  | '\x27' :: rest => (literal rest).map fun (cs, rest) => (String.ofList cs, rest)
  | _ => none

/-! ### Names -/

/-- A character of a name without quotes. -/
def isBare (c : Char) : Bool :=
  c.isAlphanum || c == '-' || c == '_'

/-- A name: bare, or a string of one line. -/
def name : List Char → Scan String
  | '"' :: rest => (basic rest).map fun (cs, rest) => (String.ofList cs, rest)
  | '\x27' :: rest => (literal rest).map fun (cs, rest) => (String.ofList cs, rest)
  | cs =>
    match cs.takeWhile isBare with
    | [] => none
    | name => some (String.ofList name, cs.dropWhile isBare)

/-- Names with points between them and blanks around each, behind a first one. -/
def moreNames : Nat → List Char → Scan (List String)
  | 0, _ => none
  | fuel + 1, cs =>
    match Scan.skipBlanks cs with
    | '.' :: rest =>
      match name (Scan.skipBlanks rest) with
      | some (n, rest) => (moreNames fuel rest).map fun (ns, rest) => (n :: ns, rest)
      | none => none
    | rest => some ([], rest)

/-- How many names a path may have. -/
def maxPath : Nat := 79

/-- A path: names with points between them, the first ones and the last one. -/
def path (cs : List Char) : Scan (List String × String) :=
  (name (Scan.skipBlanks cs)).bind fun (n, rest) =>
    (moreNames (rest.length + 1) rest).bind fun (ns, rest) =>
      if ns.length < maxPath then
        some (((n :: ns).dropLast, (n :: ns).getLast (by simp)), rest)
      else none

end ChunkScope.Toml.Text

/-! ## Numbers

Integers have 64 bits with sign; in another base than ten they have no sign written. No setting is
a number with fraction or exponent, so of those it is only told whether they are well-formed: one
that is too large for the binary64 format is refused, unless it is negative. -/

namespace ChunkScope.Toml.Number

/-- Decimal digits without a zero in front, but for zero itself. -/
def decimalDigits : List Char → Scan (List Nat)
  | '0' :: rest => some ([0], rest)
  | cs => Scan.digits 10 cs

/-- An integer of 64 bits with a sign. -/
def inRange? (n : Int) : Option Int :=
  if -0x8000000000000000 ≤ n ∧ n < 0x8000000000000000 then some n else none

/-- An integer. -/
def integer : List Char → Scan Int
  | '0' :: 'x' :: rest => based 16 rest
  | '0' :: 'o' :: rest => based 8 rest
  | '0' :: 'b' :: rest => based 2 rest
  | cs =>
    let (negative, cs) := Scan.sign cs
    (decimalDigits cs).bind fun (ds, rest) =>
      let n : Int := Numeral.ofDigits 10 ds
      (inRange? (if negative then -n else n)).map fun n => (n, rest)
where
  /-- The digits of an integer in another base. -/
  based (base : Nat) (cs : List Char) : Scan Int :=
    (Scan.digits base cs).bind fun (ds, rest) =>
      (inRange? (Numeral.ofDigits base ds)).map fun n => (n, rest)

/-! ### Fractions and exponents -/

/-- Whether `digits * 10 ^ exponent` rounds to infinity in the binary64 format. -/
def overflows (digits : List Nat) (exponent : Int) : Bool :=
  let digits := digits.dropWhile (· == 0)
  let magnitude := exponent + digits.length
  if digits = [] ∨ magnitude < 300 then false
  else if 320 < magnitude then true
  else
    let n := Numeral.ofDigits 10 digits
    let bound := Nat.pow 2 1024 - Nat.pow 2 970
    bound * Nat.pow 10 (-exponent).toNat ≤ n * Nat.pow 10 exponent.toNat

/-- An exponent. -/
def exponent : List Char → Scan Int
  | [] => none
  | c :: rest =>
    if c = 'e' ∨ c = 'E' then
      let (negative, rest) := Scan.sign rest
      (Scan.digits 10 rest).map fun (ds, rest) =>
        let n : Int := Numeral.ofDigits 10 ds
        (if negative then -n else n, rest)
    else none

/-- A number with a fraction or an exponent, of which one must be there. -/
def fractional (cs : List Char) : Option (List Char) :=
  let (negative, cs) := Scan.sign cs
  let finish (digits : List Nat) (exponent : Int) (rest : List Char) : Option (List Char) :=
    if overflows digits exponent && !negative then none else some rest
  (decimalDigits cs).bind fun (whole, rest) =>
    match rest with
    | '.' :: rest =>
      (Scan.digits 10 rest).bind fun (fraction, rest) =>
        match exponent rest with
        | some (e, rest) => finish (whole ++ fraction) (e - fraction.length) rest
        | none => finish (whole ++ fraction) (-fraction.length) rest
    | rest => (exponent rest).bind fun (e, rest) => finish whole e rest

/-- A number that is not finite or none at all. -/
def special (cs : List Char) : Option (List Char) :=
  let (_, cs) := Scan.sign cs
  match Scan.word? ['i', 'n', 'f'] cs with
  | some rest => some rest
  | none => Scan.word? ['n', 'a', 'n'] cs

end ChunkScope.Toml.Number

/-! ## Dates and times

A date, a time, or both with or without an offset. No setting is one of them, so it is only told
whether they are well-formed. -/

namespace ChunkScope.Toml.Moment

/-- The days of a month. -/
def daysIn (year month : Nat) : Nat :=
  if month = 2 then
    if year % 4 = 0 ∧ (year % 100 ≠ 0 ∨ year % 400 = 0) then 29 else 28
  else if month = 4 ∨ month = 6 ∨ month = 9 ∨ month = 11 then 30
  else 31

/-- The characters behind a date. -/
def date (cs : List Char) : Option (List Char) := do
  let (year, cs) ← Scan.fixed 4 9999 cs
  let (month, cs) ← Scan.fixed 2 12 (← Scan.char? '-' cs)
  let (day, cs) ← Scan.fixed 2 31 (← Scan.char? '-' cs)
  if 0 < month ∧ 0 < day ∧ day ≤ daysIn year month then return cs else none

/-- The characters behind a fraction of a second, if one comes next. -/
def fraction : List Char → List Char
  | '.' :: c :: rest =>
    if Digit.isDecimal c then rest.dropWhile Digit.isDecimal else '.' :: c :: rest
  | cs => cs

/-- The characters behind a time of day; a minute may have a leap second. -/
def time (cs : List Char) : Option (List Char) := do
  let (_, cs) ← Scan.fixed 2 23 cs
  let (_, cs) ← Scan.fixed 2 59 (← Scan.char? ':' cs)
  let (_, cs) ← Scan.fixed 2 60 (← Scan.char? ':' cs)
  return fraction cs

/-- The characters behind an offset, if one comes next. -/
def offset : List Char → Option (List Char)
  | [] => some []
  | c :: rest =>
    if c = 'Z' ∨ c = 'z' then some rest
    else if c = '+' ∨ c = '-' then do
      let (_, cs) ← Scan.fixed 2 23 rest
      let (_, cs) ← Scan.fixed 2 59 (← Scan.char? ':' cs)
      return cs
    else some (c :: rest)

/-- Whether a character separates a date from a time. -/
def separates (c : Char) : Bool :=
  c == 'T' || c == 't' || c == ' '

/-- The characters behind a date and what may follow it. -/
def dateAndTime (cs : List Char) : Option (List Char) :=
  (date cs).bind fun behind =>
    match behind with
    | [] => some []
    | c :: rest =>
      if separates c then
        match time rest with
        | some rest => offset rest
        | none => some (c :: rest)
      else some (c :: rest)

/-- The characters behind a date, a time or both. -/
def skip (cs : List Char) : Option (List Char) :=
  match dateAndTime cs with
  | some rest => some rest
  | none => time cs

end ChunkScope.Toml.Moment
