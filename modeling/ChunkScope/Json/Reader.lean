import ChunkScope.Document
import ChunkScope.Json.Scan

/-!
# Typed readings of JSON texts

A reading asks a JSON text for a value of a certain form and stops at the first fault, so which
fault a text has depends on what was asked for. At most 127 containers may be open at a time; what
is skipped does not count.

A record is written as an object or as an array of its fields in order. An object may have members
that are no fields, but no field twice; an array may end before fields that are not required. One of
several names is written as a string or as the only member of an object, with the value `null`.
-/

namespace ChunkScope.Json

/-- A reading of some characters; the number says how many more containers may be opened. -/
def Reader (α : Type) := Nat → List Char → Scan α

namespace Reader

variable {α β : Type}

/-- Changes the value that a reading gives. -/
def map (f : α → β) (reader : Reader α) : Reader β := fun depth cs =>
  match reader depth cs with
  | .error fault => .error fault
  | .ok (a, rest) => .ok (f a, rest)

/-- Changes the value that a reading gives, or refuses it. -/
def filterMap (f : α → Option β) (reader : Reader α) : Reader β := fun depth cs =>
  match reader depth cs with
  | .error fault => .error fault
  | .ok (a, rest) =>
    match f a with
    | some b => .ok (b, rest)
    | none => .error .mismatch

/-- The fault of a text whose next value is not of the form asked for: that value is read up to
where its form shows, and faults on the way come first. -/
def refuse : List Char → Scan α
  | [] => .error .truncated
  | 'n' :: rest => (Scan.word ['u', 'l', 'l'] rest).bind fun _ => .error .mismatch
  | 't' :: rest => (Scan.word ['r', 'u', 'e'] rest).bind fun _ => .error .mismatch
  | 'f' :: rest => (Scan.word ['a', 'l', 's', 'e'] rest).bind fun _ => .error .mismatch
  | '"' :: rest => (Scan.string rest).bind fun _ => .error .mismatch
  | c :: rest =>
    if c = '[' ∨ c = '\x7b' then .error .mismatch
    else if c = '-' ∨ Digit.isDecimal c then
      (Number.number (c :: rest)).bind fun _ => .error .mismatch
    else .error .malformed

/-! ## Atoms -/

/-- A text. -/
def text : Reader String := fun _ cs =>
  match Scan.skipBlanks cs with
  | '"' :: rest => Scan.string rest
  | cs => refuse cs

/-- One of the words `true` and `false`. -/
def flag : Reader Bool := fun _ cs =>
  match Scan.skipBlanks cs with
  | 't' :: rest => (Scan.word ['r', 'u', 'e'] rest).map fun rest => (true, rest)
  | 'f' :: rest => (Scan.word ['a', 'l', 's', 'e'] rest).map fun rest => (false, rest)
  | cs => refuse cs

/-- The word `null`. -/
def null : Reader Unit := fun _ cs =>
  match Scan.skipBlanks cs with
  | 'n' :: rest => (Scan.word ['u', 'l', 'l'] rest).map fun rest => ((), rest)
  | cs => refuse cs

/-- An integer from zero up to a bound. -/
def natural (bound : Nat) : Reader Nat := fun _ cs =>
  match Scan.skipBlanks cs with
  | [] => .error .truncated
  | c :: rest =>
    if c = '-' ∨ Digit.isDecimal c then
      match Number.number (c :: rest) with
      | .error fault => .error fault
      | .ok (.int (.ofNat n), rest) => if n < bound then .ok (n, rest) else .error .mismatch
      | .ok _ => .error .mismatch
    else refuse (c :: rest)

/-- A value that may be `null`. -/
def optional (reader : Reader α) : Reader (Option α) := fun depth cs =>
  match Scan.skipBlanks cs with
  | 'n' :: rest => (Scan.word ['u', 'l', 'l'] rest).map fun rest => (none, rest)
  | cs => map some reader depth cs

/-! ## Arrays -/

/-- Whether an array goes on, and the characters from its next item or its closing bracket on. -/
def nextItem (first : Bool) (cs : List Char) : Scan Bool :=
  match Scan.skipBlanks cs with
  | [] => .error .truncated
  | ']' :: rest => .ok (false, ']' :: rest)
  | c :: rest =>
    if first then .ok (true, c :: rest)
    else if c = ',' then
      match Scan.skipBlanks rest with
      | [] => .error .truncated
      | ']' :: _ => .error .malformed
      | rest => .ok (true, rest)
    else .error .malformed

/-- The characters behind the closing bracket of an array, which must come next. -/
def closeArray (cs : List Char) : Except Fault (List Char) :=
  match Scan.skipBlanks cs with
  | [] => .error .truncated
  | ']' :: rest => .ok rest
  | _ :: _ => .error .malformed

/-- The items of an array up to its closing bracket; `seen` holds those already read, the last one
first. -/
def items (item : List Char → Scan α) : Nat → List α → List Char → Scan (List α)
  | 0, _, _ => .error .truncated
  | fuel + 1, seen, cs =>
    match nextItem seen.isEmpty cs with
    | .error fault => .error fault
    | .ok (false, rest) => .ok (seen.reverse, rest)
    | .ok (true, rest) =>
      match item rest with
      | .error fault => .error fault
      | .ok (a, rest) => items item fuel (a :: seen) rest

/-- Closes the array from whose contents a value was read. -/
def closing (contents : Scan α) : Scan α :=
  match contents with
  | .error fault => .error fault
  | .ok (a, rest) => (closeArray rest).map fun rest => (a, rest)

/-- An array whose items have one form. -/
def list (item : Reader α) : Reader (List α) := fun depth cs =>
  match Scan.skipBlanks cs, depth with
  | '[' :: _, 0 => .error .malformed
  | '[' :: rest, depth + 1 => closing (items (item depth) (rest.length + 1) [] rest)
  | cs, _ => refuse cs

/-! ## Objects -/

/-- Whether an object goes on, and the characters behind the quote that opens the name of its next
member, or behind its closing brace. -/
def nextMember (first : Bool) (cs : List Char) : Scan Bool :=
  match Scan.skipBlanks cs with
  | [] => .error .truncated
  | '\x7d' :: rest => .ok (false, rest)
  | c :: rest =>
    let name : List Char → Scan Bool
      | [] => .error .truncated
      | '"' :: rest => .ok (true, rest)
      | _ :: _ => .error .malformed
    if first then name (c :: rest)
    else if c = ',' then name (Scan.skipBlanks rest)
    else .error .malformed

/-- The characters behind the colon of a member. -/
def colon (cs : List Char) : Except Fault (List Char) :=
  match Scan.skipBlanks cs with
  | [] => .error .truncated
  | ':' :: rest => .ok rest
  | _ :: _ => .error .malformed

/-- The value of a member, from its colon on. -/
def memberValue (value : List Char → Scan α) (cs : List Char) : Scan α :=
  match colon cs with
  | .error fault => .error fault
  | .ok rest => value rest

/-- The members of an object up to its closing brace. Each changes a state, by its name and the
characters from its colon on. -/
def members {σ : Type} (member : σ → String → List Char → Scan σ) :
    Nat → Bool → σ → List Char → Scan σ
  | 0, _, _, _ => .error .truncated
  | fuel + 1, first, state, cs =>
    match nextMember first cs with
    | .error fault => .error fault
    | .ok (false, rest) => .ok (state, rest)
    | .ok (true, rest) =>
      match Scan.string rest with
      | .error fault => .error fault
      | .ok (name, rest) =>
        match member state name rest with
        | .error fault => .error fault
        | .ok (state, rest) => members member fuel false state rest

/-! ## Any value -/

/-- A value of any form; of the members of one name in an object the last one stays. -/
def value (depth : Nat) (cs : List Char) : Scan Json :=
  match Scan.skipBlanks cs with
  | [] => .error .truncated
  | 'n' :: rest => (Scan.word ['u', 'l', 'l'] rest).map fun rest => (.null, rest)
  | 't' :: rest => (Scan.word ['r', 'u', 'e'] rest).map fun rest => (.bool true, rest)
  | 'f' :: rest => (Scan.word ['a', 'l', 's', 'e'] rest).map fun rest => (.bool false, rest)
  | '"' :: rest => (Scan.string rest).map fun (s, rest) => (.string s, rest)
  | '[' :: rest =>
    match depth with
    | 0 => .error .malformed
    | depth + 1 =>
      (closing (items (value depth) (rest.length + 1) [] rest)).map fun (vs, rest) =>
        (.array vs, rest)
  | '\x7b' :: rest =>
    match depth with
    | 0 => .error .malformed
    | depth + 1 =>
      let member (found : List (String × Json)) (name : String) (cs : List Char) :
          Scan (List (String × Json)) :=
        match memberValue (value depth) cs with
        | .error fault => .error fault
        | .ok (v, rest) => .ok (Keyed.insert name v found, rest)
      (members member (rest.length + 1) true [] rest).map fun (found, rest) =>
        (.object found, rest)
  | c :: rest =>
    if c = '-' ∨ Digit.isDecimal c then Number.number (c :: rest) else .error .malformed

/-! ## Records -/

/-- A record that is being read from an object: the record so far, and the fields it was given. -/
abbrev Draft (α : Type) := α × List String

/-- Takes one member of an object into a record. -/
def takeMember (fields : List (RecordField Reader α)) (depth : Nat) (draft : Draft α)
    (name : String) (cs : List Char) : Scan (Draft α) :=
  match fields.find? fun field => field.name = name with
  | none =>
    match colon cs with
    | .error fault => .error fault
    | .ok rest => (Skip.value rest).map fun rest => (draft, rest)
  | some field =>
    if name ∈ draft.2 then .error .mismatch
    else
      match memberValue (field.update depth) cs with
      | .error fault => .error fault
      | .ok (set, rest) => .ok ((set draft.1, name :: draft.2), rest)

/-- The record of the members of an object, from behind its opening brace. -/
def ofObject (start : α) (fields : List (RecordField Reader α)) : Reader α := fun depth cs =>
  match members (takeMember fields depth) (cs.length + 1) true (start, []) cs with
  | .error fault => .error fault
  | .ok (draft, rest) =>
    if fields.all fun field => !field.isRequired || field.name ∈ draft.2 then .ok (draft.1, rest)
    else .error .mismatch

/-- The record of the items of an array, from behind its opening bracket or another field on. -/
def ofItems : List (RecordField Reader α) → Bool → α → Reader α
  | [], _, record, _, cs => .ok (record, cs)
  | field :: fields, first, record, depth, cs =>
    match nextItem first cs with
    | .error fault => .error fault
    | .ok (false, rest) =>
      if (field :: fields).any (·.isRequired) then .error .mismatch else .ok (record, rest)
    | .ok (true, rest) =>
      match field.update depth rest with
      | .error fault => .error fault
      | .ok (set, rest) => ofItems fields false (set record) depth rest

/-- A record: an object, or an array of the fields in order. -/
def record (start : α) (fields : List (RecordField Reader α)) : Reader α := fun depth cs =>
  match Scan.skipBlanks cs, depth with
  | '[' :: _, 0 | '\x7b' :: _, 0 => .error .malformed
  | '[' :: rest, depth + 1 => closing (ofItems fields true start depth rest)
  | '\x7b' :: rest, depth + 1 => ofObject start fields depth rest
  | cs, _ => refuse cs

/-- One of the values that have a name. -/
def choice (named : String → Option α) : Reader α := fun depth cs =>
  match Scan.skipBlanks cs with
  | [] => .error .truncated
  | '"' :: rest => filterMap named (fun _ cs => Scan.string cs) depth rest
  | '\x7b' :: rest =>
    if depth = 0 then .error .malformed
    else
      match filterMap named text depth rest with
      | .error fault => .error fault
      | .ok (a, rest) =>
        match memberValue (null depth) rest with
        | .error fault => .error fault
        | .ok ((), rest) =>
          match Scan.skipBlanks rest with
          | [] => .error .truncated
          | '\x7d' :: rest => .ok (a, rest)
          | _ :: _ => .error .malformed
  | _ :: _ => .error .malformed

instance : Decoding Reader where
  map := map
  text := text
  word16 := map UInt16.ofNat (natural UInt16.size)
  word64 := map UInt64.ofNat (natural UInt64.size)
  list := list
  choice := choice
  record := record

/-! ## Whole texts -/

/-- How many containers may be open at a time. -/
def maxDepth : Nat := 127

/-- Reads a text to its end. -/
def run (reader : Reader α) (source : String) : Except Fault α :=
  match reader maxDepth source.toList with
  | .error fault => .error fault
  | .ok (a, rest) => if Scan.skipBlanks rest = [] then .ok a else .error .malformed

/-- What stands for bytes that are no text. Half of a pair may be skipped in a string, but not be
read, and outside of strings and behind a backslash neither character may stand. -/
def broken : String := "\uFFFD\\udc00"

/-- Reads bytes to their end. Only strings that are skipped may have bytes in them that are no
text. -/
def runBytes (reader : Reader α) (source : Bytes) : Except Fault α :=
  reader.run (Utf8.decodeWith broken source)

end Reader

end ChunkScope.Json
