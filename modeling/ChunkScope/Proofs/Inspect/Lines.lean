import ChunkScope.Proofs.Chunk.Ids
import ChunkScope.Proofs.Inspect.Pipeline

/-!
# Failures on one line

What is said of a failure goes out as one line of error. Texts of the caller are quoted in it, and
quoting leaves no line break in them; ids and positions have none to begin with. Only the name of a
structure is shown as it stands, so a failure to read one is on one line exactly when the name is.
-/

namespace ChunkScope

/-! ## Line breaks -/

/-- A character that ends no line. -/
def StaysInLine (c : Char) : Prop :=
  c ≠ '\n' ∧ c ≠ '\r'

instance : DecidablePred StaysInLine := fun c =>
  inferInstanceAs (Decidable (c ≠ '\n' ∧ c ≠ '\r'))

/-- A text on one line: it holds no line feed and no carriage return. -/
def IsLine (text : String) : Prop :=
  ∀ c ∈ text.toList, StaysInLine c

instance : DecidablePred IsLine := fun text =>
  List.decidableBAll StaysInLine text.toList

/-- Two texts are in one line when both are. -/
theorem isLine_append_iff {text other : String} :
    IsLine (text ++ other) ↔ IsLine text ∧ IsLine other := by
  rw [IsLine, String.toList_append, List.forall_mem_append]
  rfl

theorem IsLine.append {text other : String} (h : IsLine text) (hother : IsLine other) :
    IsLine (text ++ other) :=
  isLine_append_iff.mpr ⟨h, hother⟩

/-! ## Texts in messages -/

namespace Quoted

/-- However a character is written between quotes, it ends no line. -/
private theorem staysInLine_of_mem_escape {c d : Char} (h : d ∈ escape c) : StaysInLine d := by
  have hshort : ∀ e ∈ ['0', 't', 'r', 'n', '"', '\\'], ∀ d ∈ ['\\', e], StaysInLine d := by
    simp [StaysInLine]
  unfold escape at h
  split at h
  · exact hshort '0' (by simp) d h
  split at h
  · exact hshort 't' (by simp) d h
  split at h
  · exact hshort 'r' (by simp) d h
  next hreturn =>
  split at h
  · exact hshort 'n' (by simp) d h
  next hfeed =>
  split at h
  · exact hshort '"' (by simp) d h
  split at h
  · exact hshort '\\' (by simp) d h
  split at h
  -- the line breaks have been written as escapes, so what is visible here is none
  · rw [List.mem_singleton.mp h]
    exact ⟨hfeed, hreturn⟩
  · have hdigit : ∀ n < 16, StaysInLine (Digit.lower n) := by decide
    have haround : ∀ d ∈ ['\\', 'u', '\x7b', '\x7d'], StaysInLine d := by
      simp [StaysInLine]
    rcases List.mem_append.mp h with h | h
    · rcases List.mem_append.mp h with h | h
      · exact haround d (List.mem_append_left ['\x7d'] h)
      · rw [Numeral.hex, String.toList_ofList] at h
        obtain ⟨n, hn, rfl⟩ := List.mem_map.mp h
        exact hdigit n (Numeral.lt_of_mem_digits (by omega) hn)
    · exact haround d (List.mem_append_right ['\\', 'u', '\x7b'] h)

/-- A quoted text is on one line, whatever the text. -/
theorem isLine_quote (text : String) : IsLine (quote text) := by
  have hquote : StaysInLine '"' := by decide
  rw [IsLine, quote, String.toList_ofList, List.forall_mem_append, List.forall_mem_cons,
    List.forall_mem_singleton]
  refine ⟨⟨hquote, ?_⟩, hquote⟩
  intro d hd
  obtain ⟨c, -, hd⟩ := List.mem_flatMap.mp hd
  exact staysInLine_of_mem_escape hd

end Quoted

/-- The text of a chunk id is in one line. -/
theorem ChunkId.isLine_text (id : ChunkId) : IsLine id.text :=
  forall_mem_text (by decide) (by decide) id

namespace Inspect

theorem Position.isLine_name (position : Position) : IsLine position.name := by
  cases position <;> decide +kernel

/-- What is said of a failure is on one line, unless a structure was not read whose name is not. -/
theorem Failure.isLine_message_iff (failure : Failure) :
    IsLine failure.message ↔
      ∀ id typeName, failure = .typedFailed id typeName → IsLine typeName := by
  obtain ⟨hnode, hslot, hchunk⟩ : IsLine "no nid specified" ∧ IsLine "no lid specified" ∧
      IsLine "no cid or nid|lid specified" := by decide +kernel
  obtain ⟨hcid, hinvalid, hargument, hkind⟩ : IsLine "invalid cid " ∧ IsLine "invalid " ∧
      IsLine " argument " ∧ IsLine "unsupported data type " := by decide +kernel
  obtain ⟨hgetting, hchunk', hfrom, hfailed⟩ : IsLine "getting " ∧ IsLine "getting chunk " ∧
      IsLine " from chunk " ∧ IsLine " failed" := by decide +kernel
  cases failure with
  | missingNode => exact iff_of_true hnode nofun
  | missingSlot => exact iff_of_true hslot nofun
  | missingChunk => exact iff_of_true hchunk nofun
  | invalidId text => exact iff_of_true (hcid.append (Quoted.isLine_quote text)) nofun
  | invalidArgument position value =>
    exact iff_of_true (((hinvalid.append position.isLine_name).append hargument).append
      (Quoted.isLine_quote value)) nofun
  | fetchFailed id => exact iff_of_true ((hchunk'.append id.isLine_text).append hfailed) nofun
  | typedFailed id typeName =>
    constructor
    · rintro h _ _ ⟨⟩
      have hfront := (isLine_append_iff.mp (isLine_append_iff.mp (isLine_append_iff.mp h).1).1).1
      exact (isLine_append_iff.mp hfront).2
    · intro h
      have hname := h id typeName rfl
      exact (((hgetting.append hname).append hfrom).append id.isLine_text).append hfailed
  | unsupportedKind text => exact iff_of_true (hkind.append (Quoted.isLine_quote text)) nofun

/-! ## Inspections -/

variable {ε σ : Type}

/-- Arguments that name a chunk and ask for it as a structure whose name has a line break in it. -/
def AsksBroken (source : Source ε (StateM σ)) (arguments : List Argument) (s : σ) : Prop :=
  ∃ target typeName id, Call.parse arguments = .ok (.structured target typeName) ∧
    target.Names source s id ∧ ¬ IsLine typeName

/-- A fault of the arguments is told on one line. -/
private theorem isLine_message_of_isRefusal {failure : Failure} (h : failure.isRefusal) :
    IsLine failure.message := by
  rw [Failure.isLine_message_iff]
  rintro id typeName rfl
  cases h

/-- That the chunk of a call was not read is told on one line, unless the call asks for a structure
whose name is not on one. -/
private theorem isLine_message_unread_iff (id : ChunkId) (call : Call) :
    IsLine (call.unread id).message ↔
      ∀ target typeName, call = .structured target typeName → IsLine typeName := by
  rw [Failure.isLine_message_iff]
  cases call with
  | structured target typeName =>
    constructor
    · rintro h _ _ ⟨⟩
      exact h id typeName rfl
    · rintro h _ _ ⟨⟩
      exact h target typeName rfl
  | kindFirst _ _ | rangeFirst _ _ => exact iff_of_true nofun nofun

/-- Whatever the arguments and whatever its source answers, a failed inspection says one text, and
says it on one line unless it was asked for a structure whose name is not on one. -/
theorem isLine_error_iff (source : Source ε (StateM σ)) (arguments : List Argument) (s : σ)
    {failure : Failure} (h : ((run source arguments).run s).1.result = .error failure) :
    ∃ text, ((run source arguments).run s).1.errors = [text] ∧
      (IsLine text ↔ ¬ AsksBroken source arguments s) := by
  have hcourse := run_course source arguments s
  rw [run_logged_fst] at hcourse
  -- only the course says what the report is
  generalize ((run source arguments).run s).1 = report at hcourse h ⊢
  generalize ((run source.logged arguments).run (s, [])).2.2 = log at hcourse
  cases hcourse with
  | refused failure hparse =>
    refine ⟨_, rfl, iff_of_true (isLine_message_of_isRefusal ?_) ?_⟩
    · exact parse_refuses arguments failure hparse
    · rintro ⟨target, typeName, id, hcall, -⟩
      cases hparse.symm.trans hcall
  | unnamed call failure hparse hrefusal hnames _ =>
    refine ⟨_, rfl, iff_of_true (isLine_message_of_isRefusal hrefusal) ?_⟩
    rintro ⟨target, typeName, id, hcall, hnamed, -⟩
    cases hparse.symm.trans hcall
    exact hnames id hnamed
  | asked call id result hparse hnames hresult =>
    cases result with
    | ok outcome => cases h
    | error unread =>
      refine ⟨_, rfl, ?_⟩
      rw [hresult unread rfl, isLine_message_unread_iff]
      constructor
      · rintro hline ⟨target, typeName, other, hcall, -, hbroken⟩
        exact hbroken (hline target typeName (Except.ok.inj (hparse.symm.trans hcall)))
      · rintro hasks target typeName rfl
        by_contra hbroken
        exact hasks ⟨target, typeName, id, hparse, hnames, hbroken⟩

/-- A source that is never reached, as a text with a line break in it is no chunk id: the text is
quoted, and its line break with it. -/
theorem isLine_error_quoted :
    let source : Source Empty (StateM Unit) :=
      { combine := fun node slot => pure (.pack node slot)
        fetch := fun _ => pure (.ok ⟨0, []⟩)
        typed := fun _ _ => pure (.ok none) }
    let report := ((run source [.text "no\nid"]).run ()).1
    report.result = .error (.invalidId "no\nid") ∧
      ∃ text, report.errors = [text] ∧ IsLine text := by
  intro source report
  have hparse : Call.parse [.text "no\nid"] = .error (.invalidId "no\nid") := by
    have hid : ChunkId.parse? "no\nid" = none := by decide +kernel
    rw [Call.parse, hid]
  have hresult : report.result = .error (.invalidId "no\nid") := by
    show ((run source [.text "no\nid"]).run ()).1.result = _
    rw [run_of_error source hparse]
    rfl
  obtain ⟨text, herrors, hline⟩ := isLine_error_iff source [.text "no\nid"] () hresult
  refine ⟨hresult, text, herrors, hline.mpr ?_⟩
  rintro ⟨target, typeName, id, hcall, -⟩
  cases hparse.symm.trans hcall

/-- A structure whose name has a line feed in it, and which the source does not find, is told of on
two lines. -/
theorem broken_name_shown :
    let id : ChunkId := ⟨0x0001000000000001⟩
    let source : Source Empty (StateM Unit) :=
      { combine := fun node slot => pure (.pack node slot)
        fetch := fun _ => pure (.ok ⟨0, []⟩)
        typed := fun _ _ => pure (.ok none) }
    let report := ((run source [.text "0x0001000000000001", .text "a\nb"]).run ()).1
    report.result = .error (.typedFailed id "a\nb") ∧
      report.errors = ["getting a\nb from chunk 0x0001000000000001 failed"] ∧
      ¬ ∀ text ∈ report.errors, IsLine text := by
  intro id source report
  have hparse : Call.parse [.text "0x0001000000000001", .text "a\nb"] =
      .ok (.structured (.chunk (some id)) "a\nb") := by
    have hid : ChunkId.parse? "0x0001000000000001" = some id := by decide +kernel
    rw [Call.parse, hid]
    rfl
  have hreport : report = .ofResult (.error (.typedFailed id "a\nb")) := by
    show ((run source [.text "0x0001000000000001", .text "a\nb"]).run ()).1 = _
    rw [run_of_ok source hparse]
    rfl
  have hmessage : (Failure.typedFailed id "a\nb").message =
      "getting a\nb from chunk 0x0001000000000001 failed" := by decide +kernel
  have herrors : report.errors = ["getting a\nb from chunk 0x0001000000000001 failed"] := by
    rw [hreport, ← hmessage]
    rfl
  refine ⟨by rw [hreport]; rfl, herrors, ?_⟩
  rw [herrors, List.forall_mem_singleton]
  decide +kernel

end Inspect

end ChunkScope
