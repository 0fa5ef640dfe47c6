import ChunkScope.Proofs.Config.Documents
import ChunkScope.Proofs.Inspect.Naming
import ChunkScope.Proofs.Inspect.Orders
import ChunkScope.Terminal

/-!
# Requests in words

What is asked for can be said in words: the chunk by the text of its id or by its node and its local
id, its options in either order. The words are typed one by one and then taken for the call that was
meant, with every option as it was said.

A number of bytes is said in decimal, and from 2⁶³ on such a word is typed as a text. Where it
stands for a number of bytes it is refused as one. In front of the options, though, it begins the
order of the kind, and is refused as the name of a kind.
-/

namespace ChunkScope

/-! ## Letters and digits -/

namespace Digit

/-- An upper-case letter of ASCII is no decimal digit. -/
private theorem value?_ofNat {n : Nat} (hlo : 65 ≤ n) (hhi : n ≤ 90) :
    value? 10 (Char.ofNat n) = none ∧ Char.ofNat n ≠ '-' ∧ Char.ofNat n ≠ '+' := by
  have hletters : ∀ k < 26, value? 10 (Char.ofNat (65 + k)) = none ∧
      Char.ofNat (65 + k) ≠ '-' ∧ Char.ofNat (65 + k) ≠ '+' := by decide
  obtain ⟨k, rfl⟩ := Nat.exists_eq_add_of_le hlo
  exact hletters k (by omega)

/-- A letter that begins the name of a kind in lower case is no decimal digit and no sign. -/
theorem value?_of_toLower {c : Char} (h : c.toLower ∈ ['b', 's', 'i', 'l']) :
    value? 10 c = none ∧ c ≠ '-' ∧ c ≠ '+' := by
  by_cases hupper : c.val ≥ 'A'.val ∧ c.val ≤ 'Z'.val
  · have hlo : 65 ≤ c.toNat := UInt32.le_iff_toNat_le.mp hupper.1
    have hhi : c.toNat ≤ 90 := UInt32.le_iff_toNat_le.mp hupper.2
    rw [← Char.ofNat_toNat c]
    exact value?_ofNat hlo hhi
  · have hlower : c.toLower = c := dif_neg hupper
    rw [hlower] at h
    have hletters : ∀ c ∈ ['b', 's', 'i', 'l'], value? 10 c = none ∧ c ≠ '-' ∧ c ≠ '+' := by
      simp [value?, value]
    exact hletters c h

end Digit

namespace Inspect

/-! ## Words -/

/-- The call that some words make. -/
def parseWords (words : List String) : Except Failure Call :=
  Call.parse (words.map Argument.classify)

/-- Words that name a chunk, and the target that they name it by: the text of the id, or the node
and the local id. -/
inductive ChunkWords (id : ChunkId) : List String → Target → Prop where
  | text : ChunkWords id [id.text] (.chunk (some id))
  | parts : ChunkWords id
      [Numeral.decimal id.node.value.toNat, Numeral.decimal id.slot.value.toNat]
      (.split (some id.node) (some id.slot))

/-- A word that is the name of a kind in some mix of ASCII cases. -/
def IsNameOf (word : String) (kind : ElementKind) : Prop :=
  word.map Char.toLower = kind.name

/-- The word for a base. -/
def radixWord : Radix → String
  | .hex => "hex"
  | .decimal => "dec"

/-- The word for a number of bytes, or for none. -/
def sizeWord : Option UInt64 → String
  | none => "_"
  | some n => Numeral.decimal n.toNat

/-- The least number that is too wide for an argument. -/
def sizeBound : Nat := 0x8000000000000000

/-- A number of bytes, or none, that an argument can hold. -/
def IsNarrow (size : Option UInt64) : Prop :=
  ∀ n, size = some n → n.toNat < sizeBound

/-- The name of a kind begins with one of four letters. -/
theorem IsNameOf.toList_eq_cons {word : String} {kind : ElementKind} (h : IsNameOf word kind) :
    ∃ c cs, word.toList = c :: cs ∧ c.toLower ∈ ['b', 's', 'i', 'l'] := by
  have hlist : word.toList.map Char.toLower = kind.name.toList := by
    rw [← String.toList_map, h]
  have hfirst : ∃ c ∈ ['b', 's', 'i', 'l'], ∃ cs, kind.name.toList = c :: cs := by
    rcases kind with (_ | _ | _ | _) | _
    · exact ⟨'b', by simp, _, rfl⟩
    · exact ⟨'s', by simp, _, rfl⟩
    · exact ⟨'i', by simp, _, rfl⟩
    · exact ⟨'l', by simp, _, rfl⟩
    · exact ⟨'s', by simp, _, rfl⟩
  obtain ⟨d, hd, ds, hname⟩ := hfirst
  rw [hname] at hlist
  obtain ⟨c, cs, hword, hc, -⟩ := List.map_eq_cons_iff.mp hlist
  exact ⟨c, cs, hword, hc ▸ hd⟩

namespace Argument

/-- The name of a kind is typed as a text. -/
theorem classify_of_isNameOf {word : String} {kind : ElementKind} (h : IsNameOf word kind) :
    classify word = text word := by
  have hword : word ∉ reserved := by
    intro hreserved
    have hnames : ∀ other ∈ reserved,
        other.map Char.toLower ∉ ["byte", "short", "int", "long", "string"] := by decide +kernel
    refine hnames word hreserved (h ▸ ?_)
    rcases kind with (_ | _ | _ | _) | _ <;> simp [ElementKind.name]
  obtain ⟨c, cs, hlist, hc⟩ := h.toList_eq_cons
  obtain ⟨hdigit, hminus, hplus⟩ := Digit.value?_of_toLower hc
  rw [classify_of_not_mem_reserved hword, Numeral.int64?_eq_none hlist hdigit hminus hplus]
  rfl

/-- The name of a kind, in any case, is read as the kind. -/
theorem toKind_of_isNameOf {word : String} {kind : ElementKind} (h : IsNameOf word kind) :
    toKind (text word) = .ok kind := by
  rw [toKind, ElementKind.parse?, h, ElementKind.ofName?_name]

theorem classify_radixWord (radix : Radix) :
    classify (radixWord radix) = text (radixWord radix) := by
  cases radix <;> decide +kernel

theorem toRadix_radixWord (radix : Radix) : toRadix (text (radixWord radix)) = .ok radix := by
  have hname : radixOfName? (radixWord radix) = some radix := by cases radix <;> decide +kernel
  rw [toRadix, hname]

/-- A number in decimal is a text when it is too wide for a number. -/
theorem classify_decimal_of_le {n : Nat} (h : sizeBound ≤ n) :
    classify (Numeral.decimal n) = text (Numeral.decimal n) := by
  rw [classify_decimal]
  exact if_neg (Nat.not_lt.mpr h)

/-- The word for a size that fits is read as the size. -/
theorem toSize_sizeWord {size : Option UInt64} (h : IsNarrow size) (position : Position) :
    optional (toSize position) (some (classify (sizeWord size))) = .ok size := by
  cases size with
  | none => rfl
  | some n =>
    have hn : n.toNat < 0x8000000000000000 := h n rfl
    have hsize : toSize position (ofNat n.toNat) = .ok n := by
      rw [ofNat, toSize, word?_ofNat hn, UInt64.ofNat_toNat]
    rw [sizeWord, classify_decimal, if_pos hn]
    exact congrArg (Except.map some) hsize

/-- A number that is too wide for an argument is no number of bytes. -/
theorem toSize_of_le {n : Nat} (h : sizeBound ≤ n) (position : Position) :
    optional (toSize position) (some (classify (Numeral.decimal n))) =
      .error (.invalidArgument position (Numeral.decimal n)) := by
  rw [classify_decimal_of_le h]
  rfl

/-- The word for a number of bytes that an argument can hold is not taken for a text. -/
theorem classify_sizeWord_ne_text {size : Option UInt64} (h : IsNarrow size) (name : String) :
    classify (sizeWord size) ≠ text name := by
  intro htext
  have hsize := toSize_sizeWord h .offset
  rw [htext] at hsize
  cases hsize

/-- A number in decimal is the name of no kind. -/
theorem toKind_decimal (n : Nat) :
    toKind (text (Numeral.decimal n)) = .error (.unsupportedKind (Numeral.decimal n)) := by
  obtain ⟨d, hd, cs, hcs⟩ := Numeral.decimal_eq_cons n
  have hdigit : ∀ d < 10, (Digit.lower d).toLower = Digit.lower d ∧
      Digit.lower d ∉ ['b', 's', 'i', 'l'] := by decide
  have hne (name : String) (hname : ∃ c ∈ ['b', 's', 'i', 'l'], name.toList.head? = some c) :
      (Numeral.decimal n).map Char.toLower ≠ name := by
    rintro rfl
    obtain ⟨c, hc, hfirst⟩ := hname
    rw [String.toList_map, hcs, List.map_cons, (hdigit d hd).1, List.head?_cons] at hfirst
    exact (hdigit d hd).2 (Option.some.inj hfirst ▸ hc)
  have hparse : ElementKind.parse? (Numeral.decimal n) = none := by
    rw [ElementKind.parse?, ElementKind.ofName?, if_neg (hne _ ⟨'b', by simp, rfl⟩),
      if_neg (hne _ ⟨'s', by simp, rfl⟩), if_neg (hne _ ⟨'i', by simp, rfl⟩),
      if_neg (hne _ ⟨'l', by simp, rfl⟩),
      if_neg (not_or.mpr ⟨hne _ ⟨'s', by simp, rfl⟩, hne _ ⟨'s', by simp, rfl⟩⟩)]
  rw [toKind, hparse]

end Argument

/-! ## Options in words -/

/-- The arguments that the name of a kind, a base and two more words are typed as. -/
def spoken (word : String) (radix : Radix) (offset length : String) : Options.Arguments :=
  ⟨.text word, .text (radixWord radix), .classify offset, .classify length⟩

section Spoken

variable {word : String} {kind : ElementKind} (h : IsNameOf word kind) (radix : Radix)
  (offset length : String)
include h

/-- Words in the order of the kind are the arguments that are spoken. -/
theorem map_classify_kindFirst :
    [word, radixWord radix, offset, length].map Argument.classify =
      (spoken word radix offset length).kindFirst := by
  rw [List.map_cons, List.map_cons, Argument.classify_of_isNameOf h, Argument.classify_radixWord]
  rfl

/-- Words in the order of the range are the arguments that are spoken. -/
theorem map_classify_rangeFirst :
    [offset, length, word, radixWord radix].map Argument.classify =
      (spoken word radix offset length).rangeFirst := by
  rw [List.map_cons, List.map_cons, List.map_cons, List.map_cons,
    Argument.classify_of_isNameOf h, Argument.classify_radixWord]
  rfl

theorem optional_toKind_spoken :
    optional Argument.toKind (some (spoken word radix offset length).kind) = .ok (some kind) :=
  congrArg (Except.map some) (Argument.toKind_of_isNameOf h)

omit h in
theorem optional_toRadix_spoken :
    optional Argument.toRadix (some (spoken word radix offset length).radix) =
      .ok (some radix) :=
  congrArg (Except.map some) (Argument.toRadix_radixWord radix)

/-- Nothing is wrong with the name of a kind and a base. -/
theorem formFaults_spoken : (spoken word radix offset length).formFaults = [] := by
  rw [Options.Arguments.formFaults, optional_toKind_spoken h, optional_toRadix_spoken]
  rfl

/-- A length that is too wide is the only fault. -/
theorem faults_wide_length {size : Option UInt64} (hoffset : IsNarrow size) {n : Nat}
    (hn : sizeBound ≤ n) :
    (spoken word radix (sizeWord size) (Numeral.decimal n)).faults =
      [.invalidArgument .length (Numeral.decimal n)] := by
  have hsize : optional (Argument.toSize .offset)
      (some (spoken word radix (sizeWord size) (Numeral.decimal n)).offset) = .ok size :=
    Argument.toSize_sizeWord hoffset .offset
  have hwide : optional (Argument.toSize .length)
      (some (spoken word radix (sizeWord size) (Numeral.decimal n)).length) = .error _ :=
    Argument.toSize_of_le hn .length
  rw [Options.Arguments.faults, formFaults_spoken h, Options.Arguments.rangeFaults, hsize, hwide]
  rfl

/-- An offset that is too wide is the first fault. -/
theorem head?_faults_wide_offset {n : Nat} (hn : sizeBound ≤ n) :
    (spoken word radix (Numeral.decimal n) length).faults.head? =
      some (.invalidArgument .offset (Numeral.decimal n)) := by
  have hwide : optional (Argument.toSize .offset)
      (some (spoken word radix (Numeral.decimal n) length).offset) = .error _ :=
    Argument.toSize_of_le hn .offset
  rw [Options.Arguments.faults, formFaults_spoken h, Options.Arguments.rangeFaults, hwide]
  rfl

end Spoken

/-- Options that an argument can hold are given by their words. -/
theorem give_spoken {word : String} {options : Options} (h : IsNameOf word options.kind)
    (hoffset : IsNarrow options.offset) (hlength : IsNarrow options.length) :
    (spoken word options.radix (sizeWord options.offset) (sizeWord options.length)).Give
      options :=
  ⟨_, _, _, _, optional_toKind_spoken h _ _ _, optional_toRadix_spoken _ _ _,
    Argument.toSize_sizeWord hoffset .offset, Argument.toSize_sizeWord hlength .length, rfl⟩

/-! ## Requests in words -/

section Requests

variable {id : ChunkId} {names : List String} {target : Target} {word : String} {kind : ElementKind}

/-- The words behind those that name a chunk are taken for its options. -/
theorem parseWords_append (h : ChunkWords id names target) (rest : List String) :
    parseWords (names ++ rest) = Call.after target (rest.map Argument.classify) := by
  cases h with
  | text =>
    show Call.parse (.classify id.text :: rest.map Argument.classify) = _
    rw [Argument.classify_text, Call.parse_text]
  | parts =>
    have hnode : id.node.value.toNat < 0x10000 := id.node.value.toNat_lt
    have hslot : id.slot.value.toNat < 0x1000000000000 := id.slot_value_lt
    show Call.parse (.classify (Numeral.decimal id.node.value.toNat) ::
      .classify (Numeral.decimal id.slot.value.toNat) :: rest.map Argument.classify) = _
    rw [Argument.classify_decimal, if_pos (by omega), Argument.classify_decimal,
      if_pos (by omega), Call.parse_parts]

/-- Words in the order of the kind make a call for the chunk that is named. -/
theorem parseWords_kindFirst (hnames : ChunkWords id names target) (hword : IsNameOf word kind)
    (radix : Radix) (offset length : String) :
    parseWords (names ++ [word, radixWord radix, offset, length]) =
      (Options.kindFirst (spoken word radix offset length).kindFirst).map
        (Call.kindFirst target) := by
  rw [parseWords_append hnames, map_classify_kindFirst hword]
  exact Call.after_text target word _ _

/-- So do words in the order of the range, when the offset fits. -/
theorem parseWords_rangeFirst (hnames : ChunkWords id names target) (hword : IsNameOf word kind)
    (radix : Radix) {offset : Option UInt64} (hoffset : IsNarrow offset) (length : String) :
    parseWords (names ++ [sizeWord offset, length, word, radixWord radix]) =
      (Options.rangeFirst (spoken word radix (sizeWord offset) length).rangeFirst).map
        (Call.rangeFirst target) := by
  rw [parseWords_append hnames, map_classify_rangeFirst hword]
  exact Call.after_of_not_text target (Argument.classify_sizeWord_ne_text hoffset) _

/-- In front of the options, a number that is too wide is taken for the name of a kind. -/
theorem parseWords_wide_front (hnames : ChunkWords id names target) {n : Nat}
    (hn : sizeBound ≤ n) (second : String) (rest : List String) :
    parseWords (names ++ Numeral.decimal n :: second :: rest) =
      .error (.unsupportedKind (Numeral.decimal n)) := by
  have hkind : optional Argument.toKind (some (.text (Numeral.decimal n))) =
      .error (.unsupportedKind (Numeral.decimal n)) :=
    congrArg (Except.map some) (Argument.toKind_decimal n)
  rw [parseWords_append hnames, List.map_cons, List.map_cons, Argument.classify_decimal_of_le hn,
    Call.after_text]
  show (optional Argument.toKind (some (.text (Numeral.decimal n))) >>= _).map _ = _
  rw [hkind]
  rfl

/-- What becomes of a request in words. In either order it is the call that was meant. A length that
is too wide is refused as a length in both orders. An offset that is too wide is refused as an
offset in the order of the kind, and as the name of a kind in the order of the range. -/
structure Understood (names : List String) (target : Target) (word : String) (options : Options) :
    Prop where
  rangeFirst : IsNarrow options.offset → IsNarrow options.length →
    parseWords (names ++ [sizeWord options.offset, sizeWord options.length, word,
      radixWord options.radix]) = .ok (.rangeFirst target options)
  kindFirst : IsNarrow options.offset → IsNarrow options.length →
    parseWords (names ++ [word, radixWord options.radix, sizeWord options.offset,
      sizeWord options.length]) = .ok (.kindFirst target options)
  wideLength : IsNarrow options.offset → ∀ n, sizeBound ≤ n →
    parseWords (names ++ [sizeWord options.offset, Numeral.decimal n, word,
      radixWord options.radix]) = .error (.invalidArgument .length (Numeral.decimal n)) ∧
    parseWords (names ++ [word, radixWord options.radix, sizeWord options.offset,
      Numeral.decimal n]) = .error (.invalidArgument .length (Numeral.decimal n))
  wideOffset : ∀ n, sizeBound ≤ n → ∀ length,
    parseWords (names ++ [word, radixWord options.radix, Numeral.decimal n, length]) =
      .error (.invalidArgument .offset (Numeral.decimal n))
  wideFront : ∀ n, sizeBound ≤ n → ∀ length,
    parseWords (names ++ [Numeral.decimal n, length, word, radixWord options.radix]) =
      .error (.unsupportedKind (Numeral.decimal n))

/-- Whatever chunk and options are asked for, and however the kind is spelled, words that say so are
understood. -/
theorem understood_of_names (hnames : ChunkWords id names target) (options : Options)
    (hword : IsNameOf word options.kind) : Understood names target word options where
  rangeFirst hoffset hlength := by
    rw [parseWords_rangeFirst hnames hword _ hoffset,
      Options.Arguments.rangeFirst_eq_ok_iff.mpr (give_spoken hword hoffset hlength)]
    rfl
  kindFirst hoffset hlength := by
    rw [parseWords_kindFirst hnames hword,
      Options.Arguments.kindFirst_eq_ok_iff.mpr (give_spoken hword hoffset hlength)]
    rfl
  wideLength hoffset n hn := by
    obtain ⟨hkind, hrange⟩ := Options.Arguments.error_of_single
      (faults_wide_length hword options.radix hoffset hn)
    rw [parseWords_rangeFirst hnames hword _ hoffset, parseWords_kindFirst hnames hword, hkind,
      hrange]
    exact ⟨rfl, rfl⟩
  wideOffset n hn length := by
    have hfault := Options.Arguments.fault?_kindFirst
      (spoken word options.radix (Numeral.decimal n) length)
    rw [head?_faults_wide_offset hword _ _ hn] at hfault
    rw [parseWords_kindFirst hnames hword, eq_error_of_fault? hfault]
    rfl
  wideFront n hn length := parseWords_wide_front hnames hn length _

end Requests

/-- The chunk 2 of the node 1 as numbers of four bytes, from the fifth byte on. -/
theorem understood_int :
    parseWords ["0x0001000000000002", "4", "_", "Int", "dec"] =
      .ok (.rangeFirst (.chunk (some ⟨0x0001000000000002⟩))
        ⟨.number .int, .decimal, some 4, none⟩) := by
  have hid : (ChunkId.mk 0x0001000000000002).text = "0x0001000000000002" := by decide +kernel
  have hnames : ChunkWords ⟨0x0001000000000002⟩ ["0x0001000000000002"]
      (.chunk (some ⟨0x0001000000000002⟩)) := by
    rw [← hid]
    exact .text
  have hword : IsNameOf "Int" (.number .int) := by
    rw [IsNameOf]
    decide +kernel
  have hoffset : IsNarrow (some 4) := by
    intro n hn
    cases hn
    decide
  have hfour : Numeral.decimal 4 = "4" := by decide +kernel
  rw [← hfour]
  exact (understood_of_names hnames ⟨.number .int, .decimal, some 4, none⟩ hword).rangeFirst
    hoffset nofun

/-- An offset of 2⁶³ in front of the options is not refused as an offset. -/
theorem parseWords_offset_as_kind :
    let words := ["0x0001000000000002", "9223372036854775808", "8", "int", "hex"]
    parseWords words = .error (.unsupportedKind "9223372036854775808") ∧
      ∀ value, parseWords words ≠ .error (.invalidArgument .offset value) := by
  intro words
  have hfault : fault? (parseWords words) = some (.unsupportedKind "9223372036854775808") := by
    decide +kernel
  have herror := eq_error_of_fault? hfault
  refine ⟨herror, fun value hoffset => ?_⟩
  cases herror.symm.trans hoffset

end Inspect

end ChunkScope

/-! ## Words and the texts of their arguments

A word is typed, and the argument that it becomes has a text of its own: a number loses its plus
sign and the zeros in front, a skipped position is called `null`. That text is typed as the same
argument again. An inspection knows its words only by what they are typed as, so it goes the same
way when each word is replaced by the text of its argument. -/

namespace ChunkScope.Inspect

namespace Argument

/-- The text of what a word is typed as. -/
def reword (word : String) : String :=
  (classify word).toText

/-- A number that is shown is typed as itself, the least one too. -/
theorem classify_toText_number (n : Int64) : classify (number n).toText = number n := by
  have hlo : -0x8000000000000000 ≤ n.toInt := n.le_toInt
  have hhi : n.toInt < 0x8000000000000000 := n.toInt_lt
  refine classify_of_int64? ?_
  rw [toText, Numeral.int64?_signedDecimal hlo hhi, Int64.ofInt_toInt]

/-- The text of what a word is typed as is typed as the same. -/
theorem classify_reword (word : String) : classify (reword word) = classify word := by
  by_cases hword : word ∈ reserved
  · have hreserved : ∀ other ∈ reserved, classify (reword other) = classify other := by
      decide +kernel
    exact hreserved word hword
  · have hclassify := classify_of_not_mem_reserved hword
    rw [reword]
    cases hint : Numeral.int64? word with
    | some n =>
      rw [hint] at hclassify
      rw [hclassify]
      exact classify_toText_number n
    | none =>
      -- a text is shown as the word that it is
      rw [hint] at hclassify
      rw [hclassify]
      exact hclassify

end Argument

/-- Words that an inspection does not tell from some others: they make the same call or are refused
alike, and the inspection is the same, whoever has the chunks, and so is the command that makes
it. -/
structure SameWords (words others : List String) : Prop where
  parse : parseWords words = parseWords others
  run : ∀ {ε : Type} {m : Type → Type} [Monad m] (source : Source ε m),
    run source (words.map Argument.classify) = run source (others.map Argument.classify)
  get : ∀ {m : Type → Type} [Monad m] (files : Files.Access m) (transport : Client.Transport m)
    (client : Client), Terminal.command files transport client ("get" :: words) =
      Terminal.command files transport client ("get" :: others)

/-- Words that are typed alike are not told apart. -/
theorem sameWords_of_map_classify {words others : List String}
    (h : words.map Argument.classify = others.map Argument.classify) : SameWords words others where
  parse := congrArg Call.parse h
  run source := congrArg (Inspect.run source) h
  get files transport client := by
    rw [Terminal.command, Terminal.command, h]

/-- Words and numbers are typed as what the texts of their arguments are, and an inspection does not
tell words from these texts. -/
theorem sameWords_reword :
    (∀ word, Argument.classify (Argument.reword word) = Argument.classify word) ∧
    (∀ n, Argument.classify (Argument.number n).toText = .number n) ∧
    ∀ words, SameWords (words.map Argument.reword) words := by
  refine ⟨Argument.classify_reword, Argument.classify_toText_number, fun words => ?_⟩
  refine sameWords_of_map_classify ?_
  rw [List.map_map]
  exact List.map_congr_left fun word _ => Argument.classify_reword word

example : ["+007", "-00", "_", "0x07"].map Argument.reword = ["7", "0", "null", "0x07"] := by
  decide +kernel

end ChunkScope.Inspect
