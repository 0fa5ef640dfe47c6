/-!
# Documents

What the formats of documents share: the members of an object as a list in the order of their names,
and the description of a record by its fields.
-/

/-! ## Keyed lists

Pairs of a key and a value, in ascending order of the keys and with each key once. Such a list is
the canonical form of a finite map, so two of them are the same map only when they are equal. -/

namespace ChunkScope.Keyed

variable {κ α : Type} [LT κ] [DecidableLT κ] [DecidableEq κ]

/-- The value of a key. -/
def find? (key : κ) : List (κ × α) → Option α
  | [] => none
  | (k, a) :: rest => if key = k then some a else find? key rest

/-- Sets the value of a key, in place of the value it had. -/
def insert (key : κ) (a : α) : List (κ × α) → List (κ × α)
  | [] => [(key, a)]
  | (k, b) :: rest =>
    if key < k then (key, a) :: (k, b) :: rest
    else if key = k then (key, a) :: rest
    else (k, b) :: insert key a rest

/-- Drops a key and its value. -/
def erase (key : κ) (entries : List (κ × α)) : List (κ × α) :=
  entries.filter fun entry => key ≠ entry.1

/-- The total of a measure over all values. -/
def total (measure : α → Nat) (entries : List (κ × α)) : Nat :=
  entries.foldr (fun entry total => measure entry.2 + total) 0

end ChunkScope.Keyed

/-! ## Decoding

Texts, words, lists, names out of a fixed choice, and records. A record is described by its fields,
each of which says how its value is read and where it goes, so one description serves every
format. -/

namespace ChunkScope

/-- A field of a record that is read from a document. Its value is read and then changes the record;
a record without a required field is refused. -/
structure RecordField (R : Type → Type) (α : Type) where
  name : String
  isRequired : Bool
  update : R (α → α)

namespace RecordField

variable {R : Type → Type} [Functor R] {α β : Type}

/-- A field that must be there. -/
def required (name : String) (value : R β) (set : β → α → α) : RecordField R α :=
  ⟨name, true, set <$> value⟩

/-- A field that may be left out, and then stays as it was at the start. -/
def optional (name : String) (value : R β) (set : β → α → α) : RecordField R α :=
  ⟨name, false, set <$> value⟩

end RecordField

/-- A format of documents: how values are read from it. A choice is one of the values that have a
name, and a record is a start value and the fields that change it. -/
class Decoding (R : Type → Type) extends Functor R where
  text : R String
  word16 : R UInt16
  word64 : R UInt64
  list : {α : Type} → R α → R (List α)
  choice : {α : Type} → (String → Option α) → R α
  record : {α : Type} → α → List (RecordField R α) → R α

end ChunkScope
