import ChunkScope.Document
import ChunkScope.Toml.Scan

/-!
# TOML documents

A text is a list of statements, one a line: a value under a path, or the header of a table or of
another element of an array, to which the values on the next lines belong. What is asked of the
table that it makes is decoded from its values.
-/

/-! ## Tables

A table remembers where it comes from, because that decides what may still be added to it: a table
that was only passed through on the way to another one may get a header of its own, a table made by
a path with points grows by such paths alone, and one between braces is closed. -/

namespace ChunkScope

/-- Where a table comes from: it is written between braces, opened by a header of its own, as the
table of the whole text is, passed through by the header of another table, or made by a path with
points. -/
inductive Toml.Origin where
  | inline
  | header
  | implied
  | dotted
deriving DecidableEq

/-- A TOML value. Of numbers that are no integers and of dates and times nothing is kept. An array
is open to more elements when headers make it. -/
inductive Toml where
  | string (s : String)
  | integer (n : Int)
  | boolean (b : Bool)
  | float
  | moment
  | array (isOpen : Bool) (items : List Toml)
  | table (origin : Toml.Origin) (entries : List (String × Toml))

namespace Toml

/-- The contents of a table, in ascending order of their names. -/
abbrev Entries := List (String × Toml)

/-! ### Going down into tables -/

/-- Changes the table at the end of a path. Tables that are not there yet are made on the way; of
the elements of an open array the last one is meant. A path with points does not lead into a table
that has a header, and no path leads into a table between braces. -/
def update (dotted : Bool) (change : Origin → Entries → Option Entries) :
    List String → Origin → Entries → Option Entries
  | [], origin, entries => change origin entries
  | name :: path, _, entries =>
    match Keyed.find? name entries with
    | none => do
      let origin := if dotted then .dotted else .implied
      let inner ← update dotted change path origin []
      return Keyed.insert name (.table origin inner) entries
    | some (.table origin inner) =>
      if origin = .inline ∨ (dotted ∧ origin = .header) then none
      else do
        let inner ← update dotted change path origin inner
        return Keyed.insert name (.table origin inner) entries
    | some (.array true items) =>
      match items.getLast? with
      | some (.table origin inner) => do
        let inner ← update dotted change path origin inner
        return Keyed.insert name (.array true (items.dropLast ++ [.table origin inner])) entries
      | _ => none
    | some _ => none

/-! ### What a text adds -/

/-- Adds a value under a path with points. The last table on the way must have been made by such a
path, and the name must be free. -/
def put (path : List String) (name : String) (value : Toml) (entries : Entries) : Option Entries :=
  update true (fun origin entries =>
    if (origin = .dotted) = (path ≠ []) ∧ (Keyed.find? name entries).isNone then
      some (Keyed.insert name value entries)
    else none) path .header entries

/-- Opens a table by its header: it must be new, or only passed through before. -/
def openTable (name : String) (entries : Entries) : Option Entries :=
  match Keyed.find? name entries with
  | none => some (Keyed.insert name (.table .header []) entries)
  | some (.table .implied inner) => some (Keyed.insert name (.table .header inner) entries)
  | some _ => none

/-- Opens another element of an array by its header. -/
def openElement (name : String) (entries : Entries) : Option Entries :=
  match Keyed.find? name entries with
  | none => some (Keyed.insert name (.array true [.table .header []]) entries)
  | some (.array true items) =>
    some (Keyed.insert name (.array true (items ++ [.table .header []])) entries)
  | some _ => none

end Toml

end ChunkScope

/-! ## Values

Arrays and tables between braces may nest up to 79 levels deep. -/

namespace ChunkScope.Toml.Value

/-- A number, a date or a time. -/
def numeric (cs : List Char) : Scan Toml :=
  match Moment.skip cs with
  | some rest => some (.moment, rest)
  | none =>
    match Number.fractional cs with
    | some rest => some (.float, rest)
    | none =>
      match Number.special cs with
      | some rest => some (.float, rest)
      | none => (Number.integer cs).map fun (n, rest) => (.integer n, rest)

/-- The items of an array up to its closing bracket; `seen` holds those already read, the last one
first. A comma may follow the last item. -/
def items (value : List Char → Scan Toml) : Nat → List Toml → List Char → Scan (List Toml)
  | 0, _, _ => none
  | fuel + 1, seen, cs =>
    (Scan.skipLayout cs).bind fun cs =>
      match cs with
      | ']' :: rest => some (seen.reverse, rest)
      | cs =>
        (value cs).bind fun (item, rest) =>
          (Scan.skipLayout rest).bind fun rest =>
            match rest with
            | ',' :: rest => items value fuel (item :: seen) rest
            | ']' :: rest => some ((item :: seen).reverse, rest)
            | _ => none

/-- A path, an equals sign and a value. -/
def pair (value : List Char → Scan Toml) (cs : List Char) :
    Scan (List String × String × Toml) :=
  (Text.path cs).bind fun ((path, name), rest) =>
    (Scan.char? '=' rest).bind fun rest =>
      (value (Scan.skipBlanks rest)).map fun (v, rest) => ((path, name, v), rest)

/-- The pairs of a table up to its closing brace, all on one line. -/
def pairs (value : List Char → Scan Toml) : Nat → Entries → List Char → Scan Entries
  | 0, _, _ => none
  | fuel + 1, entries, cs =>
    (pair value cs).bind fun ((path, name, v), rest) =>
      (put path name v entries).bind fun entries =>
        match Scan.skipBlanks rest with
        | ',' :: rest => pairs value fuel entries rest
        | '\x7d' :: rest => some (entries, rest)
        | _ => none

/-- A value; the number says how many more levels it may have. -/
def read (depth : Nat) (cs : List Char) : Scan Toml :=
  match cs with
  | [] => none
  | '"' :: _ | '\x27' :: _ => (Text.string cs).map fun (s, rest) => (.string s, rest)
  | '[' :: rest =>
    match depth with
    | 0 => none
    | depth + 1 =>
      (items (read depth) (rest.length + 1) [] rest).map fun (vs, rest) => (.array false vs, rest)
  | '\x7b' :: rest =>
    match depth with
    | 0 => none
    | depth + 1 =>
      match Scan.skipBlanks rest with
      | '\x7d' :: rest => some (.table .inline [], rest)
      | rest =>
        (pairs (read depth) (rest.length + 1) [] rest).map fun (entries, rest) =>
          (.table .inline entries, rest)
  | 't' :: rest => (Scan.word? ['r', 'u', 'e'] rest).map fun rest => (.boolean true, rest)
  | 'f' :: rest => (Scan.word? ['a', 'l', 's', 'e'] rest).map fun rest => (.boolean false, rest)
  | _ => numeric cs

/-- How deep arrays and tables between braces may nest. -/
def maxDepth : Nat := 79

end ChunkScope.Toml.Value

/-! ## Statements -/

namespace ChunkScope.Toml

/-- One statement of a text: it puts a value under a path, opens a table, or opens another element
of an array. -/
inductive Statement where
  | pair (path : List String) (name : String) (value : Toml)
  | table (path : List String) (name : String)
  | element (path : List String) (name : String)

namespace Statement

/-- One statement, up to the end of its line. -/
def read (cs : List Char) : Scan Statement :=
  match cs with
  | '[' :: '[' :: rest =>
    (Text.path rest).bind fun ((path, name), rest) =>
      (Scan.word? [']', ']'] rest).bind fun rest =>
        (Scan.endLine? rest).map fun rest => (element path name, rest)
  | '[' :: rest =>
    (Text.path rest).bind fun ((path, name), rest) =>
      (Scan.char? ']' rest).bind fun rest =>
        (Scan.endLine? rest).map fun rest => (table path name, rest)
  | cs =>
    (Value.pair (Value.read Value.maxDepth) cs).bind fun ((path, name, value), rest) =>
      (Scan.endLine? rest).map fun rest => (pair path name value, rest)

end Statement

/-- The statements of a text, with blank lines and comments around them. -/
def statements : Nat → List Char → Option (List Statement)
  | 0, _ => none
  | fuel + 1, cs =>
    match Scan.skipBlanks cs with
    | [] => some []
    | '#' :: rest => (Scan.endLine? ('#' :: rest)).bind (statements fuel)
    | c :: rest =>
      if c = '\n' ∨ c = '\r' then (Scan.newline? (c :: rest)).bind (statements fuel)
      else
        (Statement.read (c :: rest)).bind fun (statement, rest) =>
          (statements fuel rest).map (statement :: ·)

/-- What the statements up to some line have made: the table of the whole text, and the path of the
table that values are put into. -/
structure Draft where
  entries : Entries
  path : List String

namespace Draft

/-- Carries out one statement. -/
def apply (draft : Draft) : Statement → Option Draft
  | .pair path name value => do
    let entries ← update false (fun _ => put path name value) draft.path .header draft.entries
    return ⟨entries, draft.path⟩
  | .table path name => do
    let entries ← update false (fun _ => openTable name) path .header draft.entries
    return ⟨entries, path ++ [name]⟩
  | .element path name => do
    let entries ← update false (fun _ => openElement name) path .header draft.entries
    return ⟨entries, path ++ [name]⟩

end Draft

/-- A text without the byte order mark at its front. -/
def dropMark : List Char → List Char
  | '\uFEFF' :: rest => rest
  | cs => cs

/-- The table that a text stands for. -/
def parse? (text : String) : Option Toml := do
  let cs := dropMark text.toList
  let statements ← statements (cs.length + 1) cs
  let draft ← statements.foldlM Draft.apply ⟨[], []⟩
  return .table .header draft.entries

/-! ## Decoding

A record is a table, or an array with the fields in order; entries that are no fields and items
behind the last field are left alone. A date or time is a record without fields. One of several
names is a string, or the only name in a table, with an empty table or array as its value. -/

/-- A decoding of a value. -/
def Decoder (α : Type) := Toml → Option α

namespace Decoder

variable {α β : Type}

/-- Changes the value that a decoding gives. -/
def map (f : α → β) (decoder : Decoder α) : Decoder β := fun v => (decoder v).map f

/-- A string. -/
def text : Decoder String
  | string s => some s
  | _ => none

/-- An integer from zero up to a bound. -/
def natural (bound : Nat) : Decoder Nat
  | integer (.ofNat n) => if n < bound then some n else none
  | _ => none

/-- The items of an array. -/
def list (item : Decoder α) : Decoder (List α)
  | array _ items => items.mapM item
  | _ => none

/-- One of the values that have a name. -/
def choice (named : String → Option α) : Decoder α
  | string s => named s
  | table _ [(name, array _ [])] | table _ [(name, table _ [])] => named name
  | _ => none

/-- The record of the entries of a table. -/
def ofEntries (entries : Entries) : List (RecordField Decoder α) → α → Option α
  | [], record => some record
  | field :: fields, record =>
    match Keyed.find? field.name entries with
    | some v => (field.update v).bind fun set => ofEntries entries fields (set record)
    | none => if field.isRequired then none else ofEntries entries fields record

/-- The record of the items of an array. -/
def ofItems : List Toml → List (RecordField Decoder α) → α → Option α
  | _, [], record => some record
  | [], fields, record => if fields.any (·.isRequired) then none else some record
  | v :: items, field :: fields, record =>
    (field.update v).bind fun set => ofItems items fields (set record)

/-- A record. -/
def record (start : α) (fields : List (RecordField Decoder α)) : Decoder α
  | table _ entries => ofEntries entries fields start
  | array _ items => ofItems items fields start
  | moment => ofEntries [] fields start
  | _ => none

instance : Decoding Decoder where
  map := map
  text := text
  word16 := map UInt16.ofNat (natural UInt16.size)
  word64 := map UInt64.ofNat (natural UInt64.size)
  list := list
  choice := choice
  record := record

/-- Decodes a text. -/
def run (decoder : Decoder α) (source : String) : Option α :=
  (parse? source).bind decoder

end Decoder

end ChunkScope.Toml
