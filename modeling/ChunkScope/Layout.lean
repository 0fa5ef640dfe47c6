import ChunkScope.Chunk
import ChunkScope.Document
import ChunkScope.Json.Basic
import ChunkScope.Text.Encoding

/-!
# Layouts

A layout names the fields that lie one after the other at the start of a chunk. A field of text
takes all bytes that are left.
-/

namespace ChunkScope

/-- A field of a layout, and what its bytes are read as. -/
structure Layout.Field where
  name : String
  kind : ElementKind
deriving DecidableEq, Inhabited

/-- A flat structure that is read field by field. -/
structure Layout where
  name : String
  fields : List Layout.Field
deriving DecidableEq, Inhabited

namespace Layout

variable {R : Type → Type} [Decoding R]

/-- Reads a field from a document. -/
def Field.decode : R Field :=
  Decoding.record default [
    .required "name" Decoding.text fun name field => { field with name },
    .required "kind" (Decoding.choice ElementKind.ofName?) fun kind field => { field with kind }]

/-- A field as a document. -/
def Field.toJson (field : Field) : Json :=
  .object [("name", .string field.name), ("kind", .string field.kind.name)]

/-- Reads a layout from a document. -/
def decode : R Layout :=
  Decoding.record default [
    .required "name" Decoding.text fun name layout => { layout with name },
    .required "fields" (Decoding.list Field.decode) fun fields layout => { layout with fields }]

/-- A layout as a document. -/
def toJson (layout : Layout) : Json :=
  .object [("name", .string layout.name), ("fields", .array (layout.fields.map Field.toJson))]

end Layout

/-! ## Structured objects

A chunk read as a layout. The fields are read one after the other from the first byte on; bytes
behind the last field are left alone. The value is an object with the fields as its members, of two
fields of one name the later one. -/

/-- A chunk of some size, read as a named structure. -/
structure TypedObject where
  typeName : String
  size : UInt64
  value : Json
deriving DecidableEq, Inhabited

namespace Layout

/-- Why a chunk could not be read as a structure: no structure has the name, or the chunk ends
before or inside a field that begins at `position`. -/
inductive Misfit where
  | unknownType (name : String)
  | tooShort (field : Field) (position : Nat)
deriving DecidableEq

/-- What is said of a chunk that could not be read. -/
def Misfit.message : Misfit → String
  | unknownType name => "unknown type " ++ name
  | tooShort field position =>
    "chunk too short for field " ++ field.name ++ " (" ++ field.kind.name ++ ") at byte " ++
      Numeral.decimal position

/-- The value of one field and the place behind it. -/
def Field.read (field : Field) (cursor : Cursor) : Except Misfit (Json × Cursor) :=
  match field.kind with
  | .text =>
    let (bytes, next) := cursor.takeRest
    .ok (.string (Latin1.decode bytes), next)
  | .number width =>
    match cursor.element? width with
    | some (element, next) => .ok (.int element.value, next)
    | none => .error (.tooShort field cursor.position)

/-- The values of fields, added to those found before. -/
def readFields (found : List (String × Json)) (cursor : Cursor) :
    List Field → Except Misfit (List (String × Json))
  | [] => .ok found
  | field :: fields =>
    match field.read cursor with
    | .error misfit => .error misfit
    | .ok (value, next) => readFields (Keyed.insert field.name value found) next fields

/-- A chunk read as a layout. -/
def read (layout : Layout) (data : Bytes) : Except Misfit TypedObject :=
  match readFields [] (Cursor.start data) layout.fields with
  | .error misfit => .error misfit
  | .ok found => .ok ⟨layout.name, UInt64.ofNat data.length, .object found⟩

end Layout

/-! ## Registries

The layouts that a node knows, by their names. Names are matched exactly, and a later layout takes
the place of an earlier one of its name. -/

/-- The layouts of a node, each under its name, in ascending order of the names. -/
structure Registry where
  entries : List (String × Layout)
deriving DecidableEq, Inhabited

namespace Registry

/-- The registry without a layout. -/
def empty : Registry := ⟨[]⟩

/-- Adds a layout. -/
def register (layout : Layout) (registry : Registry) : Registry :=
  ⟨Keyed.insert layout.name layout registry.entries⟩

/-- The registry that layouts make when added one after the other. -/
def ofLayouts (layouts : List Layout) : Registry :=
  layouts.foldl (fun registry layout => registry.register layout) empty

/-- The layout of a name. -/
def get? (registry : Registry) (name : String) : Option Layout :=
  Keyed.find? name registry.entries

/-- The names of the layouts, in ascending order. -/
def names (registry : Registry) : List String :=
  registry.entries.map (·.1)

/-- The layouts, in ascending order of their names. -/
def layouts (registry : Registry) : List Layout :=
  registry.entries.map (·.2)

/-- A chunk read as the layout of a name. -/
def read (registry : Registry) (name : String) (data : Bytes) :
    Except Layout.Misfit TypedObject :=
  match registry.get? name with
  | none => .error (.unknownType name)
  | some layout => layout.read data

end Registry

end ChunkScope
