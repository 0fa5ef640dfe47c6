import ChunkScope.Proofs.Inspect.Pipeline

/-!
# Answers with one chunk

An inspection that shows bytes asks for a single chunk, and what it makes of the answer hangs on two
things that need not agree: how many chunks the answer counts, and which ones it holds. An answer
that counts one chunk is shown by the first that it holds, and every other answer is a failure.

So the rule that only an answer with exactly one chunk is shown is kept by all answers but one kind:
those that count one chunk and hold more of them.
-/

namespace ChunkScope.Inspect

variable {ε σ : Type}

/-! ## Answers -/

/-- An answer that counts one chunk and holds one. -/
def HoldsOne : Except ε Fetched → Prop
  | .ok fetched => fetched.count = 1 ∧ fetched.chunks.length = 1
  | .error _ => False

/-- An answer that counts one chunk and holds more than that. -/
def HoldsSurplus : Except ε Fetched → Prop
  | .ok fetched => fetched.count = 1 ∧ 1 < fetched.chunks.length
  | .error _ => False

/-- The chunk of an answer is the first one of an answer that counts one. -/
theorem theChunk_eq_ok_iff {id : ChunkId} {answer : Except ε Fetched} {chunk : Chunk} :
    theChunk id answer = .ok chunk ↔ ∃ rest, answer = .ok ⟨1, chunk :: rest⟩ := by
  unfold theChunk
  split
  · next first rest => simp
  · next hother =>
    refine iff_of_false nofun ?_
    rintro ⟨rest, rfl⟩
    exact hother chunk rest rfl

/-- There is only one way for an answer not to give its chunk. -/
theorem theChunk_eq_error {id : ChunkId} {answer : Except ε Fetched}
    (h : ∀ chunk rest, answer ≠ .ok ⟨1, chunk :: rest⟩) :
    theChunk id answer = .error (.fetchFailed id) := by
  unfold theChunk
  split
  · next chunk rest => exact absurd rfl (h chunk rest)
  · rfl

/-- The answers that count one chunk and hold some are those with exactly one and those with
more. -/
theorem counts_one_iff {answer : Except ε Fetched} :
    (∃ chunk rest, answer = .ok ⟨1, chunk :: rest⟩) ↔ HoldsOne answer ∨ HoldsSurplus answer := by
  rcases answer with e | ⟨count, _ | ⟨first, rest⟩⟩
  · simp [HoldsOne, HoldsSurplus]
  · simp [HoldsOne, HoldsSurplus]
  · cases rest <;> simp [HoldsOne, HoldsSurplus]

/-- An answer with exactly one chunk has no surplus. -/
theorem not_holdsSurplus_of_holdsOne {answer : Except ε Fetched} (h : HoldsOne answer) :
    ¬ HoldsSurplus answer := by
  cases answer with
  | error e => exact h.elim
  | ok fetched =>
    intro hsurplus
    have hone : fetched.chunks.length = 1 := h.2
    have hmore : 1 < fetched.chunks.length := hsurplus.2
    omega

/-! ## What is asked and shown -/

/-- The options of a call that shows bytes. -/
def Call.options? : Call → Option Options
  | structured _ _ => none
  | kindFirst _ options | rangeFirst _ options => some options

/-- What a source answers when it is asked for the chunk of a target. -/
def answerFor (source : Source ε (StateM σ)) (s : σ) (target : Target) (id : ChunkId) :
    Except ε Fetched :=
  ((source.fetch [id]).run ((resolve source target).run s).2).1

/-- Only an answer with exactly one chunk is shown; every other one ends in one error line, which
says that the chunk was not fetched. -/
structure ShowsOnlyOne (id : ChunkId) (answer : Except ε Fetched) (report : Report) : Prop where
  success_iff : (∃ outcome, report.result = .ok outcome) ↔ HoldsOne answer
  failure : ¬ HoldsOne answer →
    report = ⟨.error (.fetchFailed id), [], [(Failure.fetchFailed id).message]⟩

/-- What an inspection that shows bytes makes of the answer. It shows the first chunk of an answer
that counts one, and fails on every other answer. So it shows nothing but answers with exactly one
chunk, unless an answer that counts one holds more. -/
structure Judges (id : ChunkId) (options : Options) (answer : Except ε Fetched)
    (report : Report) : Prop where
  shown : ∀ chunk rest, answer = .ok ⟨1, chunk :: rest⟩ →
    report = .ofResult (.ok (.ofChunk options chunk))
  failed : (∀ chunk rest, answer ≠ .ok ⟨1, chunk :: rest⟩) →
    report = .ofResult (.error (.fetchFailed id))
  showsOnlyOne_iff : ShowsOnlyOne id answer report ↔ ¬ HoldsSurplus answer

/-- An inspection makes of the answer what the rules say. -/
private theorem judges_theChunk (id : ChunkId) (options : Options) (answer : Except ε Fetched) :
    Judges id options answer
      (.ofResult ((theChunk id answer).map (Outcome.ofChunk options))) := by
  have hshown : ∀ chunk rest, answer = .ok ⟨1, chunk :: rest⟩ →
      theChunk id answer = .ok chunk :=
    fun _ rest h => theChunk_eq_ok_iff.mpr ⟨rest, h⟩
  refine ⟨fun chunk rest h => by rw [hshown chunk rest h]; rfl,
    fun h => by rw [theChunk_eq_error h]; rfl, ?_⟩
  by_cases hcounts : ∃ chunk rest, answer = .ok ⟨1, chunk :: rest⟩
  · obtain ⟨chunk, rest, hanswer⟩ := hcounts
    rw [hshown chunk rest hanswer]
    constructor
    · rintro ⟨hsuccess, -⟩
      exact not_holdsSurplus_of_holdsOne (hsuccess.mp ⟨_, rfl⟩)
    · intro hsurplus
      have hone : HoldsOne answer :=
        (counts_one_iff.mp ⟨chunk, rest, hanswer⟩).resolve_right hsurplus
      exact ⟨iff_of_true ⟨_, rfl⟩ hone, fun h => absurd hone h⟩
  · have hnone : ¬ HoldsOne answer := fun h => hcounts (counts_one_iff.mpr (.inl h))
    rw [theChunk_eq_error fun chunk rest h => hcounts ⟨chunk, rest, h⟩]
    refine iff_of_true ⟨iff_of_false nofun hnone, fun _ => rfl⟩ ?_
    exact fun h => hcounts (counts_one_iff.mpr (.inr h))

/-- An inspection that shows bytes says what it makes of the answer for its chunk. -/
private theorem run_of_names {source : Source ε (StateM σ)} {arguments : List Argument} {s : σ}
    {call : Call} {options : Options} {id : ChunkId} (hparse : Call.parse arguments = .ok call)
    (hoptions : call.options? = some options) (hnames : call.target.Names source s id) :
    ((run source arguments).run s).1 =
      .ofResult ((theChunk id (answerFor source s call.target id)).map
        (Outcome.ofChunk options)) := by
  have hread : call.read source id = readBytes source id options := by
    cases call <;> cases hoptions <;> rfl
  have hresolve : (resolve source call.target).run s =
      (.ok id, ((resolve source call.target).run s).2) := by
    rw [← (resolve_eq_ok_iff source s call.target id).mpr hnames]
    rfl
  rw [run_of_ok source hparse, StateT.run_bind, answer_named hresolve, hread]
  rfl

/-- A call that leaves out a part of the name of its chunk ends without an answer. -/
private theorem run_of_not_names {source : Source ε (StateM σ)} {arguments : List Argument} {s : σ}
    {call : Call} (hparse : Call.parse arguments = .ok call)
    (hnames : ∀ id, ¬ call.target.Names source s id) :
    ∃ failure : Failure, failure.isRefusal ∧
      ((run source arguments).run s).1 = .ofResult (.error failure) ∧
      ∀ query ∈ ((run source.logged arguments).run (s, [])).2.2, ¬ query.isReading := by
  have hcourse := run_course source arguments s
  rw [run_logged_fst] at hcourse
  generalize ((run source arguments).run s).1 = report at hcourse ⊢
  generalize ((run source.logged arguments).run (s, [])).2.2 = log at hcourse ⊢
  cases hcourse with
  | refused failure hrefused => rw [hparse] at hrefused; cases hrefused
  | unnamed _ failure _ hrefusal => exact ⟨failure, hrefusal, rfl, nofun⟩
  | asked other id _ hother hnamed =>
    rw [hparse] at hother
    cases hother
    exact absurd hnamed (hnames id)

/-! ## Inspections -/

/-- What becomes of an inspection that shows bytes. When its arguments name a chunk, all hangs on
the answer for it. When they leave out a part of the name, it fails for that and asks for no
chunk. -/
structure Fetches (source : Source ε (StateM σ)) (arguments : List Argument) (s : σ) (call : Call)
    (options : Options) : Prop where
  judged : ∀ id, call.target.Names source s id →
    Judges id options (answerFor source s call.target id) ((run source arguments).run s).1
  unnamed : (∀ id, ¬ call.target.Names source s id) → ∃ failure : Failure, failure.isRefusal ∧
    ((run source arguments).run s).1 = .ofResult (.error failure) ∧
    ∀ query ∈ ((run source.logged arguments).run (s, [])).2.2, ¬ query.isReading

/-- Whatever a source answers, an inspection that shows bytes shows the first chunk of an answer
that counts one, and fails on every other answer. -/
theorem fetches_of_parse (source : Source ε (StateM σ)) {arguments : List Argument} (s : σ)
    {call : Call} {options : Options} (hparse : Call.parse arguments = .ok call)
    (hoptions : call.options? = some options) : Fetches source arguments s call options where
  judged id hnames := by
    rw [run_of_names hparse hoptions hnames]
    exact judges_theChunk id options _
  unnamed hnames := run_of_not_names hparse hnames

private theorem parse_text_one : Call.parse [.text "0x0001000000000001"] =
    .ok (.rangeFirst (.chunk (some ⟨0x0001000000000001⟩)) {}) := by
  have hid : ChunkId.parse? "0x0001000000000001" = some ⟨0x0001000000000001⟩ := by decide +kernel
  rw [Call.parse, hid]
  rfl

/-- A source that is asked for a chunk and answers with it alone. -/
theorem fetches_single :
    let id : ChunkId := ⟨0x0001000000000001⟩
    let source : Source Empty (StateM Unit) :=
      { combine := fun node slot => pure (.pack node slot)
        fetch := fun _ => pure (.ok ⟨1, [⟨id, [0x41]⟩]⟩)
        typed := fun _ _ => pure (.ok none) }
    let arguments : List Argument := [.text "0x0001000000000001"]
    let call : Call := .rangeFirst (.chunk (some id)) {}
    Call.parse arguments = .ok call ∧ call.options? = some {} ∧
      HoldsOne (answerFor source () call.target id) ∧
      ((run source arguments).run ()).1.result = .ok (.ofChunk {} ⟨id, [0x41]⟩) := by
  intro id source arguments call
  have hjudged := (fetches_of_parse source () parse_text_one rfl).judged id (.given id)
  refine ⟨parse_text_one, rfl, ⟨rfl, rfl⟩, ?_⟩
  rw [hjudged.shown ⟨id, [0x41]⟩ [] rfl]
  rfl

/-- An answer that counts one chunk and holds two is shown, by the first of them. -/
theorem surplus_shown :
    let id : ChunkId := ⟨0x0001000000000001⟩
    let source : Source Empty (StateM Unit) :=
      { combine := fun node slot => pure (.pack node slot)
        fetch := fun _ => pure (.ok ⟨1, [⟨id, [0x41]⟩, ⟨id, [0x42]⟩]⟩)
        typed := fun _ _ => pure (.ok none) }
    let report := ((run source [.text "0x0001000000000001"]).run ()).1
    report.lines = ["Chunk data of 0x0001000000000001 (chunksize 1):", "A"] ∧
      ¬ ShowsOnlyOne id (answerFor source () (.chunk (some id)) id) report := by
  intro id source report
  have hreport : report = .ofResult (.ok (.ofChunk {} ⟨id, [0x41]⟩)) := by
    show ((run source [.text "0x0001000000000001"]).run ()).1 = _
    rw [run_of_ok source parse_text_one]
    rfl
  refine ⟨?_, fun h => ?_⟩
  · rw [hreport]
    decide +kernel
  · have hone := h.success_iff.mp ⟨_, by rw [hreport]; rfl⟩
    exact absurd hone.2 (by decide)

end ChunkScope.Inspect
