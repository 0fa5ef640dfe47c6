import ChunkScope.Proofs.Inspect.Steps

/-!
# The order of an inspection

An inspection parses its arguments, settles on one chunk id, asks its source for that chunk and only
then says something. The source is any one at all: it has a state that its answers hang on and may
change it, and its answers may be errors.

`run_course` lists the three ways in which an inspection can go, and `run_orderly` reads the rules
off that list.
-/

namespace ChunkScope.Inspect

variable {ε σ α β : Type}

/-! ## Targets and failures -/

/-- The chunk id that a target comes to: the id that is given, or what the source makes of both
halves of a split one. -/
inductive Target.Names (source : Source ε (StateM σ)) (s : σ) : Target → ChunkId → Prop where
  | given (id : ChunkId) : Names source s (.chunk (some id)) id
  | combined (node : NodeId) (slot : LocalId) :
    Names source s (.split (some node) (some slot)) ((source.combine node slot).run s).1

/-- The requests that settle what a target names. -/
def Target.combines : Target → List Query
  | split (some node) (some slot) => [.combine node slot]
  | _ => []

/-- The request that reads a chunk for a call. -/
def Call.reading (id : ChunkId) : Call → Query
  | structured _ typeName => .typed id typeName
  | kindFirst _ _ | rangeFirst _ _ => .fetch [id]

/-- The failure to read a chunk for a call. -/
def Call.unread (id : ChunkId) : Call → Failure
  | structured _ typeName => .typedFailed id typeName
  | kindFirst _ _ | rangeFirst _ _ => .fetchFailed id

/-- Whether a failure finds fault with the arguments. -/
def Failure.isRefusal : Failure → Bool
  | missingNode | missingSlot | missingChunk => true
  | invalidId _ | invalidArgument _ _ | unsupportedKind _ => true
  | fetchFailed _ | typedFailed _ _ => false

/-! ## Faults of arguments -/

/-- Whatever fails in a reading of arguments is the fault of the arguments. -/
def Refuses (x : Except Failure α) : Prop :=
  ∀ failure, x = .error failure → failure.isRefusal

private theorem refuses_ok (a : α) : Refuses (.ok a : Except Failure α) := by
  intro failure h
  cases h

private theorem refuses_error {failure : Failure} (h : failure.isRefusal) :
    Refuses (.error failure : Except Failure α) := by
  intro other heq
  cases heq
  exact h

/-- Steps that fail in refusals only do so one after the other. -/
private theorem Refuses.bind {x : Except Failure α} {f : α → Except Failure β} (hx : Refuses x)
    (hf : ∀ a, Refuses (f a)) : Refuses (x >>= f) := by
  intro failure h
  cases x with
  | error e => exact hx failure (by simpa [Bind.bind, Except.bind] using h)
  | ok a => exact hf a failure h

private theorem Refuses.map {x : Except Failure α} (hx : Refuses x) (f : α → β) :
    Refuses (x.map f) := by
  intro failure h
  cases x with
  | error e => exact hx failure (by simpa [Except.map] using h)
  | ok a => cases h

/-- An argument that may be left out fails in refusals only when the argument does. -/
private theorem optional_refuses {read : Argument → Except Failure α}
    (h : ∀ argument, Refuses (read argument)) (argument : Option Argument) :
    Refuses (optional read argument) := by
  unfold optional
  split
  · exact refuses_ok none
  · exact refuses_ok none
  · exact (h _).map some

namespace Argument

/-- A kind fails in refusals only. -/
private theorem toKind_refuses (argument : Argument) : Refuses argument.toKind := by
  unfold toKind
  split
  · split
    · exact refuses_ok _
    · exact refuses_error rfl
  · exact refuses_error rfl

private theorem toRadix_refuses (argument : Argument) : Refuses argument.toRadix := by
  unfold toRadix
  split
  · exact refuses_ok _
  · exact refuses_ok _
  · split
    · exact refuses_ok _
    · exact refuses_error rfl
  · exact refuses_error rfl

private theorem toSize_refuses (position : Position) (argument : Argument) :
    Refuses (argument.toSize position) := by
  unfold toSize
  split
  · split
    · exact refuses_ok _
    · exact refuses_error rfl
  · exact refuses_error rfl

private theorem toChunkId_refuses (argument : Argument) : Refuses argument.toChunkId := by
  unfold toChunkId
  split
  · split
    · exact refuses_ok _
    · exact refuses_error rfl
  · exact refuses_error rfl

private theorem toNodeId_refuses (argument : Argument) : Refuses argument.toNodeId := by
  unfold toNodeId
  split
  · split
    · exact refuses_ok _
    · exact refuses_error rfl
  · exact refuses_error rfl

private theorem toLocalId_refuses (argument : Argument) : Refuses argument.toLocalId := by
  unfold toLocalId
  split
  · split
    · exact refuses_ok _
    · exact refuses_error rfl
  · split
    · exact refuses_ok _
    · exact refuses_error rfl
  · exact refuses_error rfl

end Argument

/-- Options in the order of the kind fail in refusals only. -/
private theorem kindFirst_refuses (arguments : List Argument) :
    Refuses (Options.kindFirst arguments) :=
  (optional_refuses Argument.toKind_refuses _).bind fun _ =>
    (optional_refuses Argument.toRadix_refuses _).bind fun _ =>
      (optional_refuses (Argument.toSize_refuses .offset) _).bind fun _ =>
        (optional_refuses (Argument.toSize_refuses .length) _).bind fun _ => refuses_ok _

private theorem rangeFirst_refuses (arguments : List Argument) :
    Refuses (Options.rangeFirst arguments) :=
  (optional_refuses (Argument.toSize_refuses .offset) _).bind fun _ =>
    (optional_refuses (Argument.toSize_refuses .length) _).bind fun _ =>
      (optional_refuses Argument.toKind_refuses _).bind fun _ =>
        (optional_refuses Argument.toRadix_refuses _).bind fun _ => refuses_ok _

/-- What follows the name of the chunk fails in refusals only. -/
private theorem after_refuses (target : Target) (arguments : List Argument) :
    Refuses (Call.after target arguments) := by
  unfold Call.after
  split
  · exact refuses_ok _
  · exact (kindFirst_refuses _).map _
  · exact (rangeFirst_refuses _).map _

/-- A list of arguments that makes no call is at fault itself. -/
theorem parse_refuses (arguments : List Argument) : Refuses (Call.parse arguments) := by
  unfold Call.parse
  split
  · exact refuses_error rfl
  · split
    · exact after_refuses _ _
    · exact refuses_error rfl
  · exact (optional_refuses Argument.toChunkId_refuses _).bind fun _ => refuses_ok _
  · exact (optional_refuses Argument.toNodeId_refuses _).bind fun _ =>
      (optional_refuses Argument.toLocalId_refuses _).bind fun _ => after_refuses _ _

/-! ## The course of an inspection -/

/-- What a target comes to is what `resolve` answers. -/
theorem resolve_eq_ok_iff (source : Source ε (StateM σ)) (s : σ) (target : Target) (id : ChunkId) :
    ((resolve source target).run s).1 = .ok id ↔ target.Names source s id := by
  constructor
  · intro h
    rcases target with (_ | _) | ⟨_ | node, _ | slot⟩
    case chunk.some =>
      cases h
      exact .given id
    case split.some.some =>
      cases h
      exact .combined node slot
    all_goals cases h
  · intro h
    cases h <;> rfl

/-- A target either comes to a chunk id, after the one request that it may take, or has a part
missing, and then nothing is asked. -/
private theorem resolve_logged (source : Source ε (StateM σ)) (s : σ) (target : Target) :
    (∃ id s', target.Names source s id ∧
      (resolve source.logged target).run (s, []) = (.ok id, s', target.combines)) ∨
    (∃ failure, failure.isRefusal ∧ (∀ id, ¬ target.Names source s id) ∧ target.combines = [] ∧
      (resolve source.logged target).run (s, []) = (.error failure, s, [])) := by
  rcases target with (_ | _) | ⟨_ | node, _ | slot⟩
  case chunk.some => exact .inl ⟨_, s, .given _, rfl⟩
  case split.some.some => exact .inl ⟨_, _, .combined node slot, rfl⟩
  all_goals exact .inr ⟨_, rfl, nofun, rfl, rfl⟩

/-- The ways in which an inspection can go, with the report and the log of each: the arguments make
no call, or the call leaves out a part of the name of the chunk, or the chunk is asked for. -/
inductive Course (source : Source ε (StateM σ)) (arguments : List Argument) (s : σ) :
    Report → List Query → Prop where
  | refused (failure : Failure) (hparse : Call.parse arguments = .error failure) :
    Course source arguments s (.ofResult (.error failure)) []
  | unnamed (call : Call) (failure : Failure) (hparse : Call.parse arguments = .ok call)
      (hrefusal : failure.isRefusal) (hnames : ∀ id, ¬ call.target.Names source s id)
      (hcombines : call.target.combines = []) :
    Course source arguments s (.ofResult (.error failure)) []
  | asked (call : Call) (id : ChunkId) (result : Except Failure Outcome)
      (hparse : Call.parse arguments = .ok call) (hnames : call.target.Names source s id)
      (hresult : ∀ failure, result = .error failure → failure = call.unread id) :
    Course source arguments s (.ofResult result) (call.target.combines ++ [call.reading id])

/-- What is left of a call once its chunk id is settled. -/
def Call.read (source : Source ε (StateM σ)) (id : ChunkId) :
    Call → StateM σ (Except Failure Outcome)
  | structured _ typeName => readAs source id typeName
  | kindFirst _ options | rangeFirst _ options => readBytes source id options

/-- Whatever is wrong with an answer, the chunk was not fetched. -/
private theorem theChunk_map_error {id : ChunkId} {answer : Except ε Fetched}
    {options : Options} {failure : Failure}
    (h : (theChunk id answer).map (Outcome.ofChunk options) = .error failure) :
    failure = .fetchFailed id := by
  unfold theChunk at h
  split at h
  · cases h
  · cases h
    rfl

/-- A reading of bytes asks for the one chunk, and when it fails says which. -/
private theorem readBytes_logged (source : Source ε (StateM σ)) (s : σ) (log : List Query)
    (id : ChunkId) (options : Options) :
    ∃ result s', (readBytes source.logged id options).run (s, log) =
        (result, s', log ++ [.fetch [id]]) ∧
      ∀ failure, result = .error failure → failure = .fetchFailed id := by
  refine ⟨_, _, rfl, ?_⟩
  intro failure h
  exact theChunk_map_error h

/-- A reading as a structure asks for it once, and when it fails says which chunk and structure. -/
private theorem readAs_logged (source : Source ε (StateM σ)) (s : σ) (log : List Query)
    (id : ChunkId) (typeName : String) :
    ∃ result s', (readAs source.logged id typeName).run (s, log) =
        (result, s', log ++ [.typed id typeName]) ∧
      ∀ failure, result = .error failure → failure = .typedFailed id typeName := by
  -- what is found is taken apart by cases, so it is named before it goes into the log
  rcases hanswer : (source.typed id typeName).run s with ⟨answer, s'⟩
  have hlogged : (source.logged.typed id typeName).run (s, log) =
      (answer, s', log ++ [.typed id typeName]) := by
    show (((source.typed id typeName).run s).1, ((source.typed id typeName).run s).2, _) = _
    rw [hanswer]
  rw [readAs, StateT.run_bind, hlogged]
  rcases answer with _ | _ | object
  case ok.some => exact ⟨.ok (.structured id object), s', rfl, nofun⟩
  all_goals
    refine ⟨.error (.typedFailed id typeName), s', rfl, ?_⟩
    intro failure h
    cases h
    rfl

/-- Once its chunk id is settled, a call makes one request, and when it fails says for what. -/
private theorem read_logged (source : Source ε (StateM σ)) (s : σ) (log : List Query)
    (id : ChunkId) (call : Call) :
    ∃ result s', (call.read source.logged id).run (s, log) =
        (result, s', log ++ [call.reading id]) ∧
      ∀ failure, result = .error failure → failure = call.unread id := by
  cases call with
  | structured _ typeName => exact readAs_logged source s log id typeName
  | kindFirst _ options => exact readBytes_logged source s log id options
  | rangeFirst _ options => exact readBytes_logged source s log id options

/-- A call is answered by settling its chunk id and reading the chunk. -/
theorem answer_eq (source : Source ε (StateM σ)) (call : Call) :
    answer source call = (resolve source call.target >>= fun
      | .error failure => pure (.error failure)
      | .ok id => call.read source id) :=
  rfl

/-- A target that does not resolve gives up the inspection. -/
private theorem answer_unnamed {source : Source ε (StateM σ)} {call : Call} {s s' : σ}
    {failure : Failure} (h : (resolve source call.target).run s = (.error failure, s')) :
    (answer source call).run s = (.error failure, s') := by
  rw [answer_eq, StateT.run_bind, h]
  rfl

/-- Once its chunk id is settled, a call is answered by what is read of the chunk. -/
theorem answer_named {source : Source ε (StateM σ)} {call : Call} {s s' : σ} {id : ChunkId}
    (h : (resolve source call.target).run s = (.ok id, s')) :
    (answer source call).run s = (call.read source id).run s' := by
  rw [answer_eq, StateT.run_bind, h]
  rfl

/-- However it goes, an inspection goes in one of the three ways. -/
theorem run_course (source : Source ε (StateM σ)) (arguments : List Argument) (s : σ) :
    Course source arguments s ((run source.logged arguments).run (s, [])).1
      ((run source.logged arguments).run (s, [])).2.2 := by
  cases hparse : Call.parse arguments with
  | error failure =>
    rw [run_of_error source.logged hparse]
    exact .refused failure hparse
  | ok call =>
    rw [run_of_ok source.logged hparse, StateT.run_bind]
    -- the log of the reading begins with that of the target
    rcases resolve_logged source s call.target with
      ⟨id, s', hnames, hresolve⟩ | ⟨failure, hrefusal, hnames, hcombines, hresolve⟩
    · rw [answer_named hresolve]
      obtain ⟨result, s'', hread, hresult⟩ := read_logged source s' call.target.combines id call
      rw [hread]
      exact .asked call id result hparse hnames hresult
    · rw [answer_unnamed hresolve]
      exact .unnamed call failure hparse hrefusal hnames hcombines

/-! ## The rules -/

/-- The rules that an inspection keeps to. It asks at most once to combine, and then at most once
for a single chunk. It reads just when the arguments make a call whose target resolves, and then the
chunk that the target names; it combines just when they make a call that has both halves. When the
arguments are at fault, nothing is read. A success shows two lines and no error, a failure says its
message and nothing else, and a chunk that was not fetched, or not read as a structure, is the one
that the call named, and so is the structure. -/
structure Orderly (source : Source ε (StateM σ)) (arguments : List Argument) (s : σ)
    (report : Report) (log : List Query) : Prop where
  shape : ∃ combines readings, log = combines ++ readings ∧
    combines.length ≤ 1 ∧ (∀ query ∈ combines, ∃ node slot, query = .combine node slot) ∧
    readings.length ≤ 1 ∧ ∀ query ∈ readings,
      (∃ id, query = .fetch [id]) ∨ ∃ id typeName, query = .typed id typeName
  reading_iff : ∀ query : Query, query.isReading → (query ∈ log ↔
    ∃ call id, Call.parse arguments = .ok call ∧ call.target.Names source s id ∧
      query = call.reading id)
  combine_iff : ∀ node slot, .combine node slot ∈ log ↔
    ∃ call, Call.parse arguments = .ok call ∧ call.target = .split (some node) (some slot)
  refusal : ∀ failure, report.result = .error failure → failure.isRefusal →
    ∀ query ∈ log, ¬ query.isReading
  success : ∀ outcome, report.result = .ok outcome →
    report.lines = outcome.lines ∧ report.lines.length = 2 ∧ report.errors = []
  failure : ∀ failure, report.result = .error failure →
    report.errors = [failure.message] ∧ report.lines = []
  fetchFailed : ∀ id, report.result = .error (.fetchFailed id) →
    ∃ call, Call.parse arguments = .ok call ∧ call.target.Names source s id
  typedFailed : ∀ id typeName, report.result = .error (.typedFailed id typeName) →
    ∃ target, Call.parse arguments = .ok (.structured target typeName) ∧ target.Names source s id

/-- A target names one chunk at most. -/
theorem Target.Names.unique {source : Source ε (StateM σ)} {s : σ} {target : Target}
    {id other : ChunkId} (h : target.Names source s id) (h' : target.Names source s other) :
    id = other := by
  cases h <;> cases h' <;> rfl

private theorem Outcome.length_lines (outcome : Outcome) : outcome.lines.length = 2 := by
  cases outcome <;> rfl

private theorem ofResult_success {result : Except Failure Outcome} {outcome : Outcome}
    (h : (Report.ofResult result).result = .ok outcome) :
    (Report.ofResult result).lines = outcome.lines ∧
      (Report.ofResult result).lines.length = 2 ∧ (Report.ofResult result).errors = [] := by
  cases result with
  | error failure => cases h
  | ok shown =>
    cases h
    exact ⟨rfl, outcome.length_lines, rfl⟩

private theorem ofResult_failure {result : Except Failure Outcome} {failure : Failure}
    (h : (Report.ofResult result).result = .error failure) :
    (Report.ofResult result).errors = [failure.message] ∧
      (Report.ofResult result).lines = [] := by
  cases result with
  | ok shown => cases h
  | error e =>
    cases h
    exact ⟨rfl, rfl⟩

private theorem ofResult_result (result : Except Failure Outcome) :
    (Report.ofResult result).result = result := by
  cases result <;> rfl

/-- A target asks to combine its two halves, if it has both. -/
private theorem Target.mem_combines_iff {target : Target} {query : Query} :
    query ∈ target.combines ↔
      ∃ node slot, target = .split (some node) (some slot) ∧ query = .combine node slot := by
  rcases target with (_ | _) | ⟨_ | node, _ | slot⟩
  case split.some.some => simp [combines, and_assoc]
  all_goals simp [combines]

/-- A call reads the one chunk, as bytes or as a structure. -/
private theorem Call.reading_cases (id : ChunkId) (call : Call) :
    call.reading id = .fetch [id] ∨ ∃ typeName, call.reading id = .typed id typeName := by
  cases call <;> simp [reading]

private theorem Call.isReading_reading (id : ChunkId) (call : Call) :
    (call.reading id).isReading := by
  cases call <;> rfl

/-- A chunk that was not read is no refusal. -/
private theorem Call.unread_not_isRefusal (id : ChunkId) (call : Call) :
    ¬ (call.unread id).isRefusal := by
  cases call <;> simp [unread, Failure.isRefusal]

/-- An inspection that asks nothing, because the arguments are at fault, keeps to the rules. -/
private theorem orderly_refused {source : Source ε (StateM σ)} {arguments : List Argument} {s : σ}
    {failure : Failure} (hrefusal : failure.isRefusal)
    (hcall : ∀ call, Call.parse arguments = .ok call →
      (∀ id, ¬ call.target.Names source s id) ∧ call.target.combines = []) :
    Orderly source arguments s (.ofResult (.error failure)) [] where
  shape := ⟨[], [], by simp⟩
  reading_iff query hquery := by
    refine ⟨nofun, ?_⟩
    rintro ⟨call, id, hparse, hnames, -⟩
    exact absurd hnames ((hcall call hparse).1 id)
  combine_iff node slot := by
    refine ⟨nofun, ?_⟩
    rintro ⟨call, hparse, htarget⟩
    have hnone := (hcall call hparse).2
    rw [htarget] at hnone
    cases hnone
  refusal _ _ _ := nofun
  success _ h := ofResult_success h
  failure _ h := ofResult_failure h
  fetchFailed id h := by
    cases h
    cases hrefusal
  typedFailed id typeName h := by
    cases h
    cases hrefusal

/-- An inspection that asks for its chunk keeps to the rules. -/
private theorem orderly_asked {source : Source ε (StateM σ)} {arguments : List Argument} {s : σ}
    {call : Call} {id : ChunkId} {result : Except Failure Outcome}
    (hparse : Call.parse arguments = .ok call) (hnames : call.target.Names source s id)
    (hresult : ∀ failure, result = .error failure → failure = call.unread id) :
    Orderly source arguments s (.ofResult result) (call.target.combines ++ [call.reading id]) where
  shape := by
    refine ⟨_, _, rfl, ?_, ?_, by simp, ?_⟩
    · rcases call.target with (_ | _) | ⟨_ | node, _ | slot⟩ <;> simp [Target.combines]
    · intro query hquery
      obtain ⟨node, slot, -, rfl⟩ := Target.mem_combines_iff.mp hquery
      exact ⟨node, slot, rfl⟩
    · intro query hquery
      rw [List.mem_singleton.mp hquery]
      rcases call.reading_cases id with h | ⟨typeName, h⟩
      · exact .inl ⟨id, h⟩
      · exact .inr ⟨id, typeName, h⟩
  reading_iff query hquery := by
    -- the only reading in the log is the last request
    constructor
    · intro hmem
      rcases List.mem_append.mp hmem with h | h
      · obtain ⟨node, slot, -, rfl⟩ := Target.mem_combines_iff.mp h
        cases hquery
      · exact ⟨call, id, hparse, hnames, List.mem_singleton.mp h⟩
    · rintro ⟨other, named, hother, hnamed, rfl⟩
      rw [hparse] at hother
      cases hother
      rw [hnamed.unique hnames]
      simp
  combine_iff node slot := by
    constructor
    · intro hmem
      rcases List.mem_append.mp hmem with h | h
      · obtain ⟨node, slot, htarget, hquery⟩ := Target.mem_combines_iff.mp h
        cases hquery
        exact ⟨call, hparse, htarget⟩
      · have hreading := call.isReading_reading id
        rw [← List.mem_singleton.mp h] at hreading
        cases hreading
    · rintro ⟨other, hother, htarget⟩
      rw [hparse] at hother
      cases hother
      exact List.mem_append_left _ (Target.mem_combines_iff.mpr ⟨node, slot, htarget, rfl⟩)
  refusal failure h hrefusal := by
    rw [ofResult_result] at h
    rw [hresult failure h] at hrefusal
    exact absurd hrefusal (call.unread_not_isRefusal id)
  success _ h := ofResult_success h
  failure _ h := ofResult_failure h
  fetchFailed other h := by
    rw [ofResult_result] at h
    have hunread := hresult _ h
    cases call with
    | structured _ _ => cases hunread
    | kindFirst _ _ | rangeFirst _ _ =>
      cases hunread
      exact ⟨_, hparse, hnames⟩
  typedFailed other typeName h := by
    rw [ofResult_result] at h
    have hunread := hresult _ h
    cases call with
    | structured target _ =>
      cases hunread
      exact ⟨target, hparse, hnames⟩
    | kindFirst _ _ | rangeFirst _ _ => cases hunread

/-- Whatever the arguments and whatever its source answers, an inspection keeps to the rules. -/
theorem run_orderly (source : Source ε (StateM σ)) (arguments : List Argument) (s : σ) :
    Orderly source arguments s ((run source.logged arguments).run (s, [])).1
      ((run source.logged arguments).run (s, [])).2.2 := by
  have hcourse := run_course source arguments s
  -- only the course says what the report and the log are
  generalize ((run source.logged arguments).run (s, [])).1 = report at hcourse ⊢
  generalize ((run source.logged arguments).run (s, [])).2.2 = log at hcourse ⊢
  cases hcourse with
  | refused failure hparse =>
    refine orderly_refused (parse_refuses arguments failure hparse) ?_
    intro call hcall
    rw [hparse] at hcall
    cases hcall
  | unnamed call failure hparse hrefusal hnames hcombines =>
    refine orderly_refused hrefusal ?_
    intro other hother
    rw [hparse] at hother
    cases hother
    exact ⟨hnames, hcombines⟩
  | asked call id result hparse hnames hresult => exact orderly_asked hparse hnames hresult

end ChunkScope.Inspect
