import ChunkScope.Node.Api
import ChunkScope.Proofs.Chunk.Cursors
import ChunkScope.Proofs.Json.Values
import ChunkScope.Proofs.Keyed

/-!
# Layouts that fit

Some bytes have room for a layout when no number in it comes behind a text and the numbers do not
take more bytes than there are. Exactly then they are read as the layout: each name has the value of
the last field of that name, and a field is read where the numbers before it end. Otherwise the
first field that has no room is named, with the number of bytes that the fields before it use up.
-/

/-! ## Looking up layouts

A registry has every layout under the layout's own name, so whatever is read under a name says that
it is of that name. -/

namespace ChunkScope

/-- What is read by a layout is of its name. -/
theorem Layout.typeName_of_read {layout : Layout} {data : Bytes} {object : TypedObject}
    (h : layout.read data = .ok object) : object.typeName = layout.name := by
  rw [read] at h
  split at h
  · cases h
  · cases h
    rfl

namespace Registry

/-- A layout that is registered takes the place of the one of its name, and of no other. -/
theorem get?_register (layout : Layout) (registry : Registry) (name : String) :
    (registry.register layout).get? name =
      if name = layout.name then some layout else registry.get? name :=
  Keyed.find?_insert name layout.name layout registry.entries

/-- The layout of a name is the last one that was added under it. -/
theorem get?_ofLayouts (layouts : List Layout) (name : String) :
    (ofLayouts layouts).get? name = layouts.reverse.find? fun layout => name = layout.name := by
  rw [ofLayouts, List.foldl_eq_foldr_reverse]
  induction layouts.reverse with
  | nil => rfl
  | cons layout earlier ih =>
    rw [List.foldr_cons, get?_register, ih, List.find?_cons]
    by_cases hname : name = layout.name
    · rw [if_pos hname, decide_eq_true hname]
    · rw [if_neg hname, decide_eq_false hname]

/-- What is found under a name has that name. -/
theorem name_of_get?_ofLayouts {layouts : List Layout} {name : String} {layout : Layout}
    (h : (ofLayouts layouts).get? name = some layout) : layout.name = name := by
  rw [get?_ofLayouts] at h
  have hname := List.find?_some h
  exact (of_decide_eq_true hname).symm

/-- A registry holds its layouts in ascending order of their names, each under its own. -/
theorem entries_ofLayouts (layouts : List Layout) :
    ((ofLayouts layouts).entries.Pairwise fun entry later => entry.1 < later.1) ∧
      ∀ entry ∈ (ofLayouts layouts).entries, entry.1 = entry.2.name := by
  rw [ofLayouts, List.foldl_eq_foldr_reverse]
  induction layouts.reverse with
  | nil => exact ⟨.nil, fun _ hentry => absurd hentry List.not_mem_nil⟩
  | cons layout earlier ih =>
    refine ⟨Keyed.pairwise_insert_text layout.name layout ih.1, fun entry hentry => ?_⟩
    rcases Keyed.eq_or_mem_of_mem_insert hentry with rfl | hentry
    · rfl
    · exact ih.2 entry hentry

/-- A layout of a registry is the one that is found under its name. -/
theorem get?_of_mem_layouts {layouts : List Layout} {layout : Layout}
    (h : layout ∈ (ofLayouts layouts).layouts) :
    (ofLayouts layouts).get? layout.name = some layout := by
  obtain ⟨hascending, hnames⟩ := entries_ofLayouts layouts
  obtain ⟨entry, hentry, rfl⟩ := List.mem_map.mp h
  refine (Keyed.find?_text_eq_some_iff_mem hascending).mpr ?_
  rw [← hnames entry hentry]
  exact hentry

end Registry

namespace Store

variable {store : Store} {id : ChunkId} {typeName : String} {object : TypedObject}

/-- A chunk is read as a structure by the layout that the node has under the name. -/
theorem typed?_eq_some_iff :
    store.typed? id typeName = some object ↔
      ∃ data layout, store.get? id = some data ∧ store.types.get? typeName = some layout ∧
        layout.read data = .ok object := by
  rw [typed?, Option.bind_eq_some_iff]
  refine exists_congr fun data => ?_
  rw [Registry.read]
  cases store.types.get? typeName with
  | none => simp [Except.toOption]
  | some layout => cases hread : layout.read data <;> simp [hread, Except.toOption]

/-- What is read under a name is of that name. -/
theorem typeName_of_typed? {layouts : List Layout} (htypes : store.types = .ofLayouts layouts)
    (h : store.typed? id typeName = some object) : object.typeName = typeName := by
  obtain ⟨data, layout, -, hlayout, hread⟩ := typed?_eq_some_iff.mp h
  rw [htypes] at hlayout
  rw [Layout.typeName_of_read hread, Registry.name_of_get?_ofLayouts hlayout]

end Store

end ChunkScope

namespace ChunkScope.Layout

/-! ## Fields and the bytes they take -/

/-- The bytes of a number; a text takes what there is. -/
def Field.width (field : Field) : Nat :=
  (field.kind.width?.map Width.bytes).getD 0

/-- How many bytes the numbers among some fields take. -/
def numberBytes : List Field → Nat
  | [] => 0
  | field :: fields => field.width + numberBytes fields

/-- Some fields with a text among them. -/
def HasText (fields : List Field) : Prop :=
  ∃ field ∈ fields, field.kind = .text

instance : DecidablePred HasText := fun fields =>
  inferInstanceAs (Decidable (∃ field ∈ fields, field.kind = .text))

/-- Fields for which some bytes have room: no number comes behind a text, and there are bytes enough
for the numbers. -/
structure Fits (fields : List Field) (data : Bytes) : Prop where
  textsLast : fields.Pairwise fun field later => field.kind = .text → later.kind = .text
  room : numberBytes fields ≤ data.length

/-- How many bytes some fields use up: all of them, if there is a text among the fields. -/
def consumed (fields : List Field) (data : Bytes) : Nat :=
  if HasText fields then data.length else numberBytes fields

/-- The bytes of two pieces of fields add up. -/
theorem numberBytes_append (front back : List Field) :
    numberBytes (front ++ back) = numberBytes front + numberBytes back := by
  induction front with
  | nil => rw [List.nil_append, numberBytes, Nat.zero_add]
  | cons field front ih => rw [List.cons_append, numberBytes, ih, numberBytes, Nat.add_assoc]

theorem numberBytes_concat (fields : List Field) (field : Field) :
    numberBytes (fields ++ [field]) = numberBytes fields + field.width :=
  numberBytes_append fields [field]

/-- One more field brings a text when it is one. -/
theorem hasText_concat {fields : List Field} {field : Field} :
    HasText (fields ++ [field]) ↔ HasText fields ∨ field.kind = .text := by
  simp only [HasText, List.mem_append, List.mem_singleton, or_and_right, exists_or,
    exists_eq_left]

/-- There is room for one more field when no number comes behind a text and its bytes are there. -/
theorem fits_concat_iff {fields : List Field} {field : Field} {data : Bytes} :
    Fits (fields ++ [field]) data ↔ Fits fields data ∧ (HasText fields → field.kind = .text) ∧
      numberBytes fields + field.width ≤ data.length := by
  constructor
  · rintro ⟨htexts, hroom⟩
    rw [numberBytes_concat] at hroom
    rw [List.pairwise_append] at htexts
    refine ⟨⟨htexts.1, by omega⟩, ?_, hroom⟩
    rintro ⟨text, hmem, htext⟩
    exact htexts.2.2 text hmem field List.mem_cons_self htext
  · rintro ⟨⟨htexts, -⟩, htext, hroom⟩
    refine ⟨?_, by rwa [numberBytes_concat]⟩
    rw [List.pairwise_append]
    refine ⟨htexts, List.pairwise_singleton _ _, ?_⟩
    intro text hmem later hlater hkind
    rw [List.mem_singleton.mp hlater]
    exact htext ⟨text, hmem, hkind⟩

theorem fits_nil (data : Bytes) : Fits [] data :=
  ⟨.nil, Nat.zero_le _⟩

/-- Where there is room for some fields, there is for the first ones of them. -/
theorem Fits.front {front back : List Field} {data : Bytes} (h : Fits (front ++ back) data) :
    Fits front data := by
  refine ⟨(List.pairwise_append.mp h.textsLast).1, ?_⟩
  have hroom := h.room
  rw [numberBytes_append] at hroom
  exact Nat.le_trans (Nat.le_add_right _ _) hroom

/-- A text uses up all bytes. -/
theorem consumed_of_hasText {fields : List Field} (h : HasText fields) (data : Bytes) :
    consumed fields data = data.length :=
  if_pos h

/-- Numbers use up the bytes that they take. -/
theorem consumed_of_not_hasText {fields : List Field} (h : ¬ HasText fields) (data : Bytes) :
    consumed fields data = numberBytes fields :=
  if_neg h

/-- Fields that fit do not use up more bytes than there are. -/
theorem Fits.consumed_le {fields : List Field} {data : Bytes} (h : Fits fields data) :
    consumed fields data ≤ data.length := by
  by_cases htext : HasText fields
  · rw [consumed_of_hasText htext]
  · rw [consumed_of_not_hasText htext]
    exact h.room

/-! ## Reading one field -/

/-- The place behind some fields that were read. -/
def cursorBehind (before : List Field) (data : Bytes) : Cursor :=
  ⟨consumed before data, data.drop (consumed before data)⟩

/-- The value of a field that comes behind some others: the integer that its bytes write, or the
text of all bytes that are left, which are none behind another text. -/
def valueBehind (before : List Field) (data : Bytes) (field : Field) : Json :=
  match field.kind with
  | .number width => .int (Element.signed ((data.drop (numberBytes before)).take width.bytes))
  | .text => .string (Latin1.decode (if HasText before then [] else data.drop (numberBytes before)))

theorem cursorBehind_nil (data : Bytes) : cursorBehind [] data = Cursor.start data := by
  have hnone : ¬ HasText [] := fun h => absurd h.choose_spec.1 List.not_mem_nil
  rw [cursorBehind, consumed, if_neg hnone]
  rfl

section Reading

variable {field : Field} {width : Width}

theorem Field.width_of_text (hkind : field.kind = .text) : field.width = 0 := by
  rw [Field.width, hkind]
  rfl

theorem Field.width_of_number (hkind : field.kind = .number width) : field.width = width.bytes := by
  rw [Field.width, hkind]
  rfl

/-- A field of text is all that is left, and is always read. -/
theorem Field.read_text (hkind : field.kind = .text) (cursor : Cursor) :
    field.read cursor = .ok (.string (Latin1.decode cursor.rest),
      ⟨cursor.position + cursor.rest.length, []⟩) := by
  rw [read, hkind]
  rfl

/-- A field of a number is read just when its bytes are left. -/
theorem Field.read_number (hkind : field.kind = .number width) (cursor : Cursor) :
    field.read cursor = if width.bytes ≤ cursor.rest.length then
      .ok (.int (Element.signed (cursor.rest.take width.bytes)),
        ⟨cursor.position + width.bytes, cursor.rest.drop width.bytes⟩)
      else .error (.tooShort field cursor.position) := by
  rw [read, hkind]
  dsimp only
  rw [Cursor.element?_eq_ite]
  by_cases hle : width.bytes ≤ cursor.rest.length
  · have hlength : (cursor.rest.take width.bytes).length = width.bytes := by
      rw [List.length_take]
      omega
    rw [if_pos hle, if_pos hle, ← Element.value_ofBytes hlength]
  · rw [if_neg hle, if_neg hle]

end Reading

/-- A field that fits is read where the ones before it end. -/
theorem Field.read_of_fits {before : List Field} {field : Field} {data : Bytes}
    (h : Fits (before ++ [field]) data) : field.read (cursorBehind before data) =
      .ok (valueBehind before data field, cursorBehind (before ++ [field]) data) := by
  have hle := h.front.consumed_le
  obtain ⟨-, htext, hroom⟩ := fits_concat_iff.mp h
  rw [cursorBehind, cursorBehind, valueBehind]
  cases hkind : field.kind with
  | text =>
    have hafter : HasText (before ++ [field]) := hasText_concat.mpr (.inr hkind)
    rw [read_text hkind, consumed_of_hasText hafter, List.length_drop, Nat.add_sub_cancel' hle,
      List.drop_length]
    dsimp only
    by_cases hbefore : HasText before
    · rw [if_pos hbefore, consumed_of_hasText hbefore, List.drop_length]
    · rw [if_neg hbefore, consumed_of_not_hasText hbefore]
  | number width =>
    rw [width_of_number hkind] at hroom
    have hbefore : ¬ HasText before := fun hbefore => nomatch hkind ▸ htext hbefore
    have hafter : ¬ HasText (before ++ [field]) := by
      rw [hasText_concat, hkind]
      exact fun h => h.elim hbefore nofun
    rw [read_number hkind, consumed_of_not_hasText hbefore, consumed_of_not_hasText hafter,
      numberBytes_concat, width_of_number hkind, if_pos (by rw [List.length_drop]; omega),
      List.drop_drop]

/-- A field that does not fit is not read. -/
theorem Field.read_of_not_fits {before : List Field} {field : Field} {data : Bytes}
    (hbefore : Fits before data) (h : ¬ Fits (before ++ [field]) data) :
    field.read (cursorBehind before data) = .error (.tooShort field (consumed before data)) := by
  have hle := hbefore.consumed_le
  have hroom := hbefore.room
  rw [fits_concat_iff] at h
  cases hkind : field.kind with
  | text =>
    rw [width_of_text hkind] at h
    exact absurd ⟨hbefore, fun _ => hkind, hroom⟩ h
  | number width =>
    have hpos := width.bytes_pos
    rw [width_of_number hkind] at h
    have hshort : data.length < consumed before data + width.bytes := by
      by_cases htext : HasText before
      · rw [consumed_of_hasText htext]
        omega
      · rw [consumed_of_not_hasText htext]
        exact Nat.lt_of_not_le fun hle => h ⟨hbefore, fun h => absurd h htext, hle⟩
    rw [read_number hkind, cursorBehind, if_neg]
    rw [List.length_drop]
    omega

/-! ## The values of names -/

/-- The value that the last field of a name has. -/
def IsLastValue (fields : List Field) (data : Bytes) (name : String) (value : Json) : Prop :=
  ∃ before field after, fields = before ++ field :: after ∧ field.name = name ∧
    (∀ later ∈ after, later.name ≠ name) ∧ value = valueBehind before data field

/-- Members with what some fields say: each name of a field once, in ascending order, with what the
last field of the name says. -/
structure Lists (fields : List Field) (data : Bytes) (members : List (String × Json)) : Prop where
  ascending : members.Pairwise fun member later => member.1 < later.1
  mem_iff : ∀ name value, (name, value) ∈ members ↔ IsLastValue fields data name value

/-- One more field says what its own name is, and leaves the others. -/
theorem isLastValue_concat {fields : List Field} {field : Field} {data : Bytes} {name : String}
    {value : Json} :
    IsLastValue (fields ++ [field]) data name value ↔
      if name = field.name then value = valueBehind fields data field
      else IsLastValue fields data name value := by
  constructor
  · rintro ⟨before, last, after, heq, rfl, hafter, rfl⟩
    rcases List.eq_nil_or_concat after with rfl | ⟨after, later, rfl⟩
    · obtain ⟨rfl, hlast⟩ := List.append_inj' heq rfl
      obtain rfl : field = last := by simpa using hlast
      rw [if_pos rfl]
    · rw [List.concat_eq_append] at heq hafter
      rw [← List.cons_append, ← List.append_assoc] at heq
      obtain ⟨rfl, hlast⟩ := List.append_inj' heq rfl
      obtain rfl : field = later := by simpa using hlast
      rw [if_neg fun h => hafter field (by simp) h.symm]
      exact ⟨before, last, after, rfl, rfl,
        fun later hlater => hafter later (by simp [hlater]), rfl⟩
  · split
    · rintro rfl
      next hname => exact ⟨fields, field, [], rfl, hname.symm, by simp, rfl⟩
    · rintro ⟨before, last, after, rfl, hlast, hafter, rfl⟩
      next hname =>
      refine ⟨before, last, after ++ [field], by simp, hlast, ?_, rfl⟩
      intro later hlater
      rcases List.mem_append.mp hlater with hlater | hlater
      · exact hafter later hlater
      · rw [List.mem_singleton.mp hlater]
        exact fun h => hname h.symm

theorem lists_nil (data : Bytes) : Lists [] data [] := by
  refine ⟨.nil, fun name value => iff_of_false List.not_mem_nil ?_⟩
  rintro ⟨before, field, after, heq, -⟩
  simp at heq

/-- Members stay those of the fields when one more field sets its member. -/
theorem Lists.concat {fields : List Field} {data : Bytes} {members : List (String × Json)}
    (h : Lists fields data members) (field : Field) :
    Lists (fields ++ [field]) data
      (Keyed.insert field.name (valueBehind fields data field) members) := by
  refine ⟨Keyed.pairwise_insert_text _ _ h.ascending, fun name value => ?_⟩
  rw [Keyed.mem_insert_text_iff h.ascending, isLastValue_concat, h.mem_iff]

/-! ## Reading all fields -/

/-- Reading goes on behind fields that were read: either all of the others are read as well, or one
of them is the first that does not fit. -/
private theorem readFields_behind {before fields : List Field} {data : Bytes}
    {members : List (String × Json)} (hfits : Fits before data)
    (hlists : Lists before data members) :
    (Fits (before ++ fields) data ∧ ∃ all, Lists (before ++ fields) data all ∧
      readFields members (cursorBehind before data) fields = .ok all) ∨
    ∃ front field back, before ++ fields = front ++ field :: back ∧ Fits front data ∧
      ¬ Fits (front ++ [field]) data ∧ readFields members (cursorBehind before data) fields =
        .error (.tooShort field (consumed front data)) := by
  induction fields generalizing before members with
  | nil =>
    rw [List.append_nil]
    exact .inl ⟨hfits, members, hlists, rfl⟩
  | cons field fields ih =>
    by_cases hfield : Fits (before ++ [field]) data
    · rw [readFields, Field.read_of_fits hfield, List.append_cons]
      exact ih hfield (hlists.concat field)
    · refine .inr ⟨before, field, fields, rfl, hfits, hfield, ?_⟩
      rw [readFields, Field.read_of_not_fits hfits hfield]

/-- Fields are read from the first byte on, if the bytes have room for them. -/
theorem readFields_of_fits {fields : List Field} {data : Bytes} (h : Fits fields data) :
    ∃ members, Lists fields data members ∧
      readFields [] (Cursor.start data) fields = .ok members := by
  rw [← cursorBehind_nil]
  rcases readFields_behind (fits_nil data) (lists_nil data) with
    ⟨-, hread⟩ | ⟨front, field, back, heq, -, hmisfit, -⟩
  · exact hread
  · rw [List.nil_append] at heq
    rw [heq, List.append_cons] at h
    exact absurd h.front hmisfit

/-- Otherwise the first one that does not fit is named. -/
theorem readFields_of_not_fits {fields : List Field} {data : Bytes} (h : ¬ Fits fields data) :
    ∃ front field back, fields = front ++ field :: back ∧ Fits front data ∧
      ¬ Fits (front ++ [field]) data ∧ readFields [] (Cursor.start data) fields =
        .error (.tooShort field (consumed front data)) := by
  rw [← cursorBehind_nil]
  rcases readFields_behind (fits_nil data) (lists_nil data) with ⟨hfits, -⟩ | hmisfit
  · exact absurd hfits h
  · exact hmisfit

/-- The names of some fields are those that have a last value. -/
theorem exists_isLastValue_iff {fields : List Field} {data : Bytes} {name : String} :
    (∃ value, IsLastValue fields data name value) ↔ ∃ field ∈ fields, field.name = name := by
  constructor
  · rintro ⟨value, before, field, after, rfl, hname, -⟩
    exact ⟨field, by simp, hname⟩
  · rintro ⟨field, hfield, rfl⟩
    induction fields using List.reverseRecOn with
    | nil => cases hfield
    | append_singleton fields last ih =>
      simp only [isLastValue_concat]
      by_cases hname : field.name = last.name
      · exact ⟨_, by rw [if_pos hname]⟩
      · rcases List.mem_append.mp hfield with hfield | hfield
        · simpa only [if_neg hname] using ih hfield
        · rw [List.mem_singleton.mp hfield] at hname
          exact absurd rfl hname

end ChunkScope.Layout

namespace ChunkScope.Registry

open Layout

/-- A layout of a registry is read of some bytes exactly. It is read just when the bytes have room
for it; what is read has its name, the size of the bytes and the names of its fields, each once and
with the last value of the name. If it is not read, the first field that does not fit is named, and
how many bytes those before it use up. -/
structure ReadsExactly (registry : Registry) (layout : Layout) (data : Bytes) : Prop where
  succeeds_iff : (∃ object, registry.read layout.name data = .ok object) ↔ Fits layout.fields data
  object : ∀ object, registry.read layout.name data = .ok object →
    object.typeName = layout.name ∧ object.size = UInt64.ofNat data.length ∧
      ∃ members, object.value = .object members ∧ Lists layout.fields data members ∧
        ∀ name, (∃ value, (name, value) ∈ members) ↔ ∃ field ∈ layout.fields, field.name = name
  misfit : ∀ misfit, registry.read layout.name data = .error misfit →
    ∃ front field back, layout.fields = front ++ field :: back ∧ Fits front data ∧
      ¬ Fits (front ++ [field]) data ∧ misfit = .tooShort field (consumed front data) ∧
        misfit.message = "chunk too short for field " ++ field.name ++ " (" ++ field.kind.name ++
          ") at byte " ++ Numeral.decimal (consumed front data)

/-- Every layout of a registry is read exactly. -/
theorem readsExactly_of_mem {layouts : List Layout} {layout : Layout}
    (h : layout ∈ (ofLayouts layouts).layouts) (data : Bytes) :
    ReadsExactly (ofLayouts layouts) layout data := by
  have hread : (ofLayouts layouts).read layout.name data = layout.read data := by
    rw [read, get?_of_mem_layouts h]
  by_cases hfits : Fits layout.fields data
  · obtain ⟨members, hlists, hmembers⟩ := readFields_of_fits hfits
    rw [Layout.read, hmembers] at hread
    refine ⟨iff_of_true ⟨_, hread⟩ hfits, fun object hobject => ?_, fun misfit hmisfit => ?_⟩
    · obtain rfl := Except.ok.inj (hread.symm.trans hobject)
      refine ⟨rfl, rfl, members, rfl, hlists, fun name => ?_⟩
      simp only [hlists.mem_iff]
      exact exists_isLastValue_iff
    · rw [hread] at hmisfit
      cases hmisfit
  · obtain ⟨front, field, back, heq, hfront, hfield, hmembers⟩ := readFields_of_not_fits hfits
    rw [Layout.read, hmembers] at hread
    refine ⟨iff_of_false ?_ hfits, fun object hobject => ?_, fun misfit hmisfit => ?_⟩
    · rintro ⟨object, hobject⟩
      rw [hread] at hobject
      cases hobject
    · rw [hread] at hobject
      cases hobject
    · obtain rfl := Except.error.inj (hread.symm.trans hmisfit)
      exact ⟨front, field, back, heq, hfront, hfield, rfl, rfl⟩

/-- A number and a text behind it are read of three bytes. -/
theorem readsExactly_edge :
    (⟨"Edge", [⟨"weight", .number .short⟩, ⟨"label", .text⟩]⟩ : Layout) ∈
      (ofLayouts [⟨"Edge", [⟨"weight", .number .short⟩, ⟨"label", .text⟩]⟩]).layouts ∧
    ReadsExactly (ofLayouts [⟨"Edge", [⟨"weight", .number .short⟩, ⟨"label", .text⟩]⟩])
      ⟨"Edge", [⟨"weight", .number .short⟩, ⟨"label", .text⟩]⟩ [0xFF, 0xFE, 0x68] := by
  have hmem : (⟨"Edge", [⟨"weight", .number .short⟩, ⟨"label", .text⟩]⟩ : Layout) ∈
      (ofLayouts [⟨"Edge", [⟨"weight", .number .short⟩, ⟨"label", .text⟩]⟩]).layouts :=
    List.mem_cons_self
  exact ⟨hmem, readsExactly_of_mem hmem _⟩

end ChunkScope.Registry

/-! ## Values of structures

A chunk that was read as a structure has a value without floats, with integers that 64 bits hold and
with its members in ascending order, so it survives being written as JSON and read back. -/

namespace ChunkScope

open Json.Reader (Kept)

namespace Layout

/-- The value of a field is kept by its text, in whatever depth. -/
private theorem Field.kept_of_read {field : Field} {cursor next : Cursor} {v : Json}
    (h : field.read cursor = .ok (v, next)) (depth : Nat) : Kept depth v := by
  rw [Field.read] at h
  split at h
  · cases h
    exact .string depth _
  · split at h
    · next element _ _ =>
      cases h
      obtain ⟨hlo, hhi⟩ := element.value_bounds
      exact .int depth hlo (by omega)
    · cases h

/-- The last value that a name has is one that a field was read as. -/
private theorem Fits.kept_of_isLastValue {fields : List Field} {data : Bytes}
    (hfits : Fits fields data) {name : String} {value : Json}
    (h : IsLastValue fields data name value) (depth : Nat) : Kept depth value := by
  obtain ⟨before, field, after, rfl, -, -, rfl⟩ := h
  rw [List.append_cons] at hfits
  exact Field.kept_of_read (Field.read_of_fits hfits.front) depth

/-- The value of a structure is kept by its text. -/
theorem kept_of_read {layout : Layout} {data : Bytes} {object : TypedObject}
    (h : layout.read data = .ok object) (depth : Nat) : Kept (depth + 1) object.value := by
  rw [read] at h
  by_cases hfits : Fits layout.fields data
  · obtain ⟨members, hlists, hmembers⟩ := readFields_of_fits hfits
    rw [hmembers] at h
    cases h
    exact .object hlists.ascending fun member hmember =>
      hfits.kept_of_isLastValue ((hlists.mem_iff member.1 member.2).mp hmember) depth
  · obtain ⟨front, field, back, -, -, -, hmisfit⟩ := readFields_of_not_fits hfits
    rw [hmisfit] at h
    cases h

end Layout

/-- The value of a structure that a node reads is kept by its text. -/
theorem Store.kept_of_typed? {store : Store} {id : ChunkId} {typeName : String}
    {object : TypedObject} (h : store.typed? id typeName = some object) (depth : Nat) :
    Kept (depth + 1) object.value := by
  obtain ⟨data, layout, -, -, hread⟩ := typed?_eq_some_iff.mp h
  exact Layout.kept_of_read hread depth

end ChunkScope
