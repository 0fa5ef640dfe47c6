import ChunkScope.Proofs.Node.Reading
import ChunkScope.Proofs.Node.Writing
import ChunkScope.Proofs.Text.Spellings

/-!
# Spellings of chunk ids

A chunk id is written in one way and read in many. Which texts are read, and as which id, is told
by their digits alone; and a node does not tell the spellings of an id apart: whichever of them the
path of a request has, and however it is escaped there, the response and the store behind it are
the same.
-/

namespace ChunkScope

namespace ChunkId

/-- A text that spells a number as chunk ids are spelled: as an address, with blanks around. -/
def Spells (s : String) (n : Nat) : Prop :=
  ∃ core, Blank.Trims s.toList core ∧ Numeral.SpellsAddress core n

/-- A text is read as a chunk id just when it spells it. -/
theorem parse?_eq_some_iff {s : String} {id : ChunkId} :
    parse? s = some id ↔ Spells s id.raw.toNat := by
  rw [parse?, Option.map_eq_some_iff]
  constructor
  · rintro ⟨w, hw, rfl⟩
    exact ⟨_, Blank.trims_trim _, Numeral.address?_eq_some_iff.mp hw⟩
  · rintro ⟨core, htrims, hspells⟩
    refine ⟨id.raw, ?_, rfl⟩
    rw [htrims.trim_eq]
    exact Numeral.address?_eq_some_iff.mpr hspells

example : parse? "\u2003 0X+00aB\n" = some ⟨0xAB⟩ := by decide +kernel

example : parse? "+0xAB" = none := by decide +kernel

/-- The texts that are read are the spellings of the numbers of 64 bits. -/
theorem isSome_parse?_iff {s : String} : (parse? s).isSome ↔ ∃ n < UInt64.size, Spells s n := by
  rw [Option.isSome_iff_exists]
  constructor
  · rintro ⟨id, hid⟩
    exact ⟨_, id.raw.toNat_lt, parse?_eq_some_iff.mp hid⟩
  · rintro ⟨n, hn, hspells⟩
    refine ⟨⟨.ofNat n⟩, parse?_eq_some_iff.mpr ?_⟩
    rwa [UInt64.toNat_ofNat_of_lt' hn]

end ChunkId

namespace Node

open Http

/-! ## Segments of a path -/

namespace Route

/-- A segment of a path that stands for a text, with any of its bytes escaped. There is something in
it, and no slash, which would end it. -/
structure IsSegment (segment : List Char) (text : String) : Prop where
  nonempty : segment ≠ []
  slash : '/' ∉ segment
  decoded : Percent.decode? segment = some text

/-- Bytes that may stand in a segment as they are: nothing that ends it or begins an escape. -/
def KeepsSegments (keep : UInt8 → Bool) : Prop :=
  Percent.Keepable keep ∧ ∀ b, keep b → ∀ c ∈ ['/', '?', '#'], c ≠ Char.ofNat b.toNat

/-- Nothing in an encoded text ends a segment or the path. -/
theorem KeepsSegments.not_mem_encode {keep : UInt8 → Bool} (h : KeepsSegments keep) (text : String)
    {c : Char} (hc : c ∈ ['/', '?', '#']) : c ∉ Percent.encode keep text := by
  have hpercent : '%' ∉ ['/', '?', '#'] := by decide
  have hdigit : ∀ d < 16, Digit.upper d ∉ ['/', '?', '#'] := by decide
  refine Percent.not_mem_encode (fun b hb => h.2 b hb c hc) ?_ ?_
  · rintro rfl
    exact hpercent hc
  · rintro d hd rfl
    exact hdigit d hd hc

/-- A text that is escaped for a segment is a segment that stands for it. -/
theorem isSegment_encode {keep : UInt8 → Bool} (h : KeepsSegments keep) {text : String}
    (htext : text ≠ "") : IsSegment (Percent.encode keep text) text where
  nonempty := by
    intro hempty
    have hdecode := Percent.decode?_encode h.1 text
    rw [hempty] at hdecode
    exact htext (Option.some.inj hdecode).symm
  slash := h.not_mem_encode text (by simp)
  decoded := Percent.decode?_encode h.1 text

/-- The text of a chunk id stands in a path as it is. -/
theorem isSegment_text (id : ChunkId) : IsSegment id.text.toList id.text where
  nonempty := by
    rw [ChunkId.toList_text]
    exact List.cons_ne_nil _ _
  slash := id.slash_not_mem_text
  decoded := ChunkId.decode?_text id

end Route

namespace Api

open Route (IsSegment KeepsSegments)

/-! ## Requests about a chunk -/

/-- A request about a chunk: for the chunk, or for the chunk as the structure of a name. The path
has the id in any of its spellings. -/
inductive About (id : ChunkId) (request : Request) : Option String → Prop where
  | chunk {segment : List Char} {text : String}
    (hpath : Route.path request.target = "/api/chunks/".toList ++ segment)
    (hsegment : IsSegment segment text) (hid : ChunkId.Spells text id.raw.toNat) :
    About id request none
  | typed {segment last : List Char} {text typeName : String}
    (hpath : Route.path request.target =
      "/api/chunks/".toList ++ segment ++ "/typed/".toList ++ last)
    (hsegment : IsSegment segment text) (hid : ChunkId.Spells text id.raw.toNat)
    (hlast : IsSegment last typeName) :
    About id request (some typeName)

/-- A request is answered for what it is about, and not for how the path puts it. -/
theorem About.handle_eq {id : ChunkId} {request : Request} {what : Option String}
    (h : About id request what) (store : Store) :
    handle request store =
      if request.method = .options then (.bare 200, store)
      else answerAbout request.method id what store := by
  rw [handle]
  cases h with
  | chunk hpath hsegment hspells =>
    rw [Route.ofTarget?_eq_chunk_iff.mpr ⟨hpath, hsegment.nonempty, hsegment.slash⟩]
    dsimp only
    rw [onRoute_chunk hsegment.decoded (ChunkId.parse?_eq_some_iff.mpr hspells)]
  | typed hpath hsegment hspells hlast =>
    rw [Route.ofTarget?_eq_typed_iff.mpr ⟨hpath, ⟨hsegment.nonempty, hsegment.slash⟩,
      hlast.nonempty, hlast.slash⟩]
    dsimp only
    rw [onRoute_typed hsegment.decoded (ChunkId.parse?_eq_some_iff.mpr hspells) hlast.decoded]

/-- Two requests about the same that ask for the same have the same outcome. -/
theorem About.respond_eq {id : ChunkId} {request other : Request} {what : Option String}
    (h : About id request what) (hother : About id other what)
    (hmethod : request.method = other.method) (store : Store) :
    respond request store = respond other store := by
  rw [respond, respond, h.handle_eq, hother.handle_eq, hmethod]

/-- The target of a request about a chunk, with the id spelled in some way and escaped. -/
def targetAbout (keep : UInt8 → Bool) (text : String) (what : Option String) : String :=
  String.ofList ("/api/chunks/".toList ++ Percent.encode keep text ++
    what.elim [] fun typeName => "/typed/".toList ++ Percent.encode keep typeName)

theorem toList_targetAbout (keep : UInt8 → Bool) (text : String) (what : Option String) :
    (targetAbout keep text what).toList = "/api/chunks/".toList ++ Percent.encode keep text ++
      what.elim [] fun typeName => "/typed/".toList ++ Percent.encode keep typeName :=
  String.toList_ofList

private theorem path_targetAbout {keep : UInt8 → Bool} (h : KeepsSegments keep) (text : String)
    (what : Option String) :
    Route.path (targetAbout keep text what) = (targetAbout keep text what).toList := by
  have hencode (text : String) : ∀ c ∈ Percent.encode keep text, c ≠ '?' ∧ c ≠ '#' := by
    refine fun c hc => ⟨?_, ?_⟩ <;> rintro rfl
    · exact h.not_mem_encode text (by simp) hc
    · exact h.not_mem_encode text (by simp) hc
  have hnames : (∀ c ∈ "/api/chunks/".toList, c ≠ '?' ∧ c ≠ '#') ∧
      ∀ c ∈ "/typed/".toList, c ≠ '?' ∧ c ≠ '#' := by simp
  refine Route.path_eq_self ?_
  rw [toList_targetAbout, List.forall_mem_append, List.forall_mem_append]
  refine ⟨⟨hnames.1, hencode text⟩, ?_⟩
  cases what with
  | none =>
    rw [Option.elim_none]
    exact List.forall_mem_nil _
  | some typeName =>
    rw [Option.elim_some, List.forall_mem_append]
    exact ⟨hnames.2, hencode typeName⟩

/-- A spelling of an id says so in the path of a request, whatever is escaped in it. -/
theorem about_of_target_eq {keep : UInt8 → Bool} (h : KeepsSegments keep) {id : ChunkId}
    {text : String} (htext : ChunkId.Spells text id.raw.toNat) {what : Option String}
    (hwhat : what ≠ some "") {request : Request}
    (htarget : request.target = targetAbout keep text what) : About id request what := by
  have hpath : Route.path request.target = (targetAbout keep text what).toList := by
    rw [htarget, path_targetAbout h]
  rw [toList_targetAbout] at hpath
  have hsegment : IsSegment (Percent.encode keep text) text := by
    refine Route.isSegment_encode h ?_
    rintro rfl
    cases ChunkId.parse?_eq_some_iff.mpr htext
  cases what with
  | none =>
    rw [Option.elim_none, List.append_nil] at hpath
    exact .chunk hpath hsegment htext
  | some typeName =>
    have hname : typeName ≠ "" := fun hname => hwhat (congrArg some hname)
    rw [Option.elim_some, ← List.append_assoc] at hpath
    exact .typed hpath hsegment htext (Route.isSegment_encode h hname)

/-- What holds of a chunk id and the texts that it is written as. A text is read as a chunk id just
when it spells a number of 64 bits, and as the id just when it spells the number of the id. The id
is written with sixteen digits, which stand for its number, and that is one of its spellings. Every
spelling can stand in the path of a request, for the chunk or for a structure, and requests about
the same that ask for the same have the same outcome. -/
structure SpelledAlike (id : ChunkId) (store : Store) : Prop where
  accepted : ∀ text, (ChunkId.parse? text).isSome ↔ ∃ n < 2 ^ 64, ChunkId.Spells text n
  value : ∀ text, ChunkId.parse? text = some id ↔ ChunkId.Spells text id.raw.toNat
  written : ∃ digits : List Nat, id.text.toList = "0x".toList ++ digits.map Digit.upper ∧
    digits.length = 16 ∧ (∀ d ∈ digits, d < 16) ∧ Nat.ofDigits 16 digits.reverse = id.raw.toNat
  back : ChunkId.parse? id.text = some id
  sayable : ∀ text, ChunkId.Spells text id.raw.toNat → ∀ keep, KeepsSegments keep →
    ∀ what, what ≠ some "" → ∀ request : Request, request.target = targetAbout keep text what →
      About id request what
  alike : ∀ what request other, About id request what → About id other what →
    request.method = other.method → respond request store = respond other store

/-- A chunk id has one text, many spellings and one meaning. -/
theorem spelledAlike (id : ChunkId) (store : Store) : SpelledAlike id store where
  accepted := fun _ => ChunkId.isSome_parse?_iff
  value := fun _ => ChunkId.parse?_eq_some_iff
  written := by
    refine ⟨Numeral.fixedDigits 16 16 id.raw.toNat, ?_, Numeral.length_fixedDigits _ _ _,
      fun d hd => Numeral.lt_of_mem_fixedDigits (by omega) hd, ?_⟩
    · rw [ChunkId.text, String.toList_append]
      exact congrArg _ String.toList_ofList
    · rw [← Numeral.ofDigits_eq, Numeral.ofDigits_fixedDigits]
      exact Nat.mod_eq_of_lt id.raw.toNat_lt
  back := ChunkId.parse?_text id
  sayable := fun _ htext _ hkeep _ hwhat _ htarget => about_of_target_eq hkeep htext hwhat htarget
  alike := fun _ _ _ hrequest hother hmethod => hrequest.respond_eq hother hmethod store

end Api

end Node

end ChunkScope
