import ChunkScope.Proofs.Inspect.Steps

/-!
# The two orders of the options

Each option is read from an argument of its own, without regard to the other three. So both orders
give the same options from the same four arguments, and the order decides no more than which fault
is reported when there are several. An inspection of a chunk shows the same in either order, or
fails in both, and as long as the options are at fault nothing is asked.
-/

namespace ChunkScope.Inspect

variable {ε σ α β γ δ ρ : Type}

/-! ## Faults -/

/-- The fault that a reading has found, if it has found one. -/
def fault? : Except Failure α → Option Failure
  | .ok _ => none
  | .error failure => some failure

/-- Two steps succeed when both do. -/
theorem ok_of_bind {x : Except Failure α} {f : α → Except Failure β} {b : β}
    (h : (x >>= f) = .ok b) : ∃ a, x = .ok a ∧ f a = .ok b := by
  cases x with
  | error failure => cases h
  | ok a => exact ⟨a, rfl, h⟩

theorem bind_of_ok {x : Except Failure α} {f : α → Except Failure β} {a : α} (h : x = .ok a) :
    (x >>= f) = f a := by
  rw [h]
  rfl

/-- What has a fault fails with it. -/
theorem eq_error_of_fault? {x : Except Failure α} {failure : Failure}
    (h : fault? x = some failure) : x = .error failure := by
  cases x with
  | ok a => cases h
  | error other => rw [Option.some.inj h]

/-- Of four readings one after the other the first fault counts. -/
private theorem fault?_readings (a : Except Failure α) (b : Except Failure β)
    (c : Except Failure γ) (d : Except Failure δ) (make : α → β → γ → δ → ρ) :
    fault? (a >>= fun a => b >>= fun b => c >>= fun c => d >>= fun d => pure (make a b c d)) =
      ([fault? a, fault? b].reduceOption ++ [fault? c, fault? d].reduceOption).head? := by
  cases a <;> cases b <;> cases c <;> cases d <;> rfl

namespace Options

/-- An argument for each of the options. -/
structure Arguments where
  kind : Argument
  radix : Argument
  offset : Argument
  length : Argument

namespace Arguments

/-- The arguments in the order that begins with the kind. -/
def kindFirst (arguments : Arguments) : List Argument :=
  [arguments.kind, arguments.radix, arguments.offset, arguments.length]

/-- The arguments in the order that begins with the range. -/
def rangeFirst (arguments : Arguments) : List Argument :=
  [arguments.offset, arguments.length, arguments.kind, arguments.radix]

/-- Each of the options is what its own argument says, or its default when that is skipped. -/
def Give (arguments : Arguments) (options : Options) : Prop :=
  ∃ kind radix offset length,
    optional Argument.toKind (some arguments.kind) = .ok kind ∧
    optional Argument.toRadix (some arguments.radix) = .ok radix ∧
    optional (Argument.toSize .offset) (some arguments.offset) = .ok offset ∧
    optional (Argument.toSize .length) (some arguments.length) = .ok length ∧
    options = ofGiven kind radix offset length

/-- The faults in what says how the bytes are read. -/
def formFaults (arguments : Arguments) : List Failure :=
  [fault? (optional Argument.toKind (some arguments.kind)),
    fault? (optional Argument.toRadix (some arguments.radix))].reduceOption

/-- The faults in what says which bytes are read. -/
def rangeFaults (arguments : Arguments) : List Failure :=
  [fault? (optional (Argument.toSize .offset) (some arguments.offset)),
    fault? (optional (Argument.toSize .length) (some arguments.length))].reduceOption

/-- The faults of all four arguments. -/
def faults (arguments : Arguments) : List Failure :=
  arguments.formFaults ++ arguments.rangeFaults

variable {arguments : Arguments} {options : Options} {failure : Failure}

/-- In the order of the kind the options are those that the arguments give. -/
theorem kindFirst_eq_ok_iff :
    Options.kindFirst arguments.kindFirst = .ok options ↔ arguments.Give options := by
  constructor
  · intro h
    obtain ⟨kind, hkind, h⟩ := ok_of_bind h
    obtain ⟨radix, hradix, h⟩ := ok_of_bind h
    obtain ⟨offset, hoffset, h⟩ := ok_of_bind h
    obtain ⟨length, hlength, h⟩ := ok_of_bind h
    exact ⟨kind, radix, offset, length, hkind, hradix, hoffset, hlength, (Except.ok.inj h).symm⟩
  · rintro ⟨kind, radix, offset, length, hkind, hradix, hoffset, hlength, rfl⟩
    exact (bind_of_ok hkind).trans <| (bind_of_ok hradix).trans <|
      (bind_of_ok hoffset).trans (bind_of_ok hlength)

/-- So they are in the order of the range. -/
theorem rangeFirst_eq_ok_iff :
    Options.rangeFirst arguments.rangeFirst = .ok options ↔ arguments.Give options := by
  constructor
  · intro h
    obtain ⟨offset, hoffset, h⟩ := ok_of_bind h
    obtain ⟨length, hlength, h⟩ := ok_of_bind h
    obtain ⟨kind, hkind, h⟩ := ok_of_bind h
    obtain ⟨radix, hradix, h⟩ := ok_of_bind h
    exact ⟨kind, radix, offset, length, hkind, hradix, hoffset, hlength, (Except.ok.inj h).symm⟩
  · rintro ⟨kind, radix, offset, length, hkind, hradix, hoffset, hlength, rfl⟩
    exact (bind_of_ok hoffset).trans <| (bind_of_ok hlength).trans <|
      (bind_of_ok hkind).trans (bind_of_ok hradix)

/-- The order that begins with the kind reports the first fault in that order. -/
theorem fault?_kindFirst (arguments : Arguments) :
    fault? (Options.kindFirst arguments.kindFirst) = arguments.faults.head? :=
  fault?_readings _ _ _ _ ofGiven

/-- The order that begins with the range reports the first fault in that order. -/
theorem fault?_rangeFirst (arguments : Arguments) :
    fault? (Options.rangeFirst arguments.rangeFirst) =
      (arguments.rangeFaults ++ arguments.formFaults).head? :=
  fault?_readings _ _ _ _ fun offset length kind radix => ofGiven kind radix offset length

example :
    fault? (Options.kindFirst [.text "octal", .skip, .flag true, .skip]) =
      some (.unsupportedKind "octal") ∧
    fault? (Options.rangeFirst [.flag true, .skip, .text "octal", .skip]) =
      some (.invalidArgument .offset "true") := by
  decide +kernel

/-- A fault that is the only one is reported in both orders. -/
theorem error_of_single (h : arguments.faults = [failure]) :
    Options.kindFirst arguments.kindFirst = .error failure ∧
      Options.rangeFirst arguments.rangeFirst = .error failure := by
  have hswap : arguments.rangeFaults ++ arguments.formFaults = [failure] :=
    List.perm_singleton.mp (h ▸ List.perm_append_comm)
  constructor
  · apply eq_error_of_fault?
    rw [fault?_kindFirst, h, List.head?_cons]
  · apply eq_error_of_fault?
    rw [fault?_rangeFirst, hswap, List.head?_cons]

/-- Options that are not given are refused in both orders. -/
theorem refused_of_not_give (h : ∀ options, ¬ arguments.Give options) :
    (∃ failure, Options.kindFirst arguments.kindFirst = .error failure) ∧
      ∃ failure, Options.rangeFirst arguments.rangeFirst = .error failure := by
  constructor
  · cases hoptions : Options.kindFirst arguments.kindFirst with
    | ok options => exact absurd (kindFirst_eq_ok_iff.mp hoptions) (h options)
    | error failure => exact ⟨failure, rfl⟩
  · cases hoptions : Options.rangeFirst arguments.rangeFirst with
    | ok options => exact absurd (rangeFirst_eq_ok_iff.mp hoptions) (h options)
    | error failure => exact ⟨failure, rfl⟩

end Arguments

end Options

/-! ## Inspections in the two orders -/

/-- Behind the name of a chunk, a text in front of other arguments begins the order of the kind. -/
theorem Call.after_text (target : Target) (name : String) (second : Argument)
    (rest : List Argument) :
    after target (.text name :: second :: rest) =
      (Options.kindFirst (.text name :: second :: rest)).map (kindFirst target) :=
  rfl

/-- Behind the name of a chunk, anything else than a text begins the order of the range. -/
theorem Call.after_of_not_text (target : Target) {first : Argument}
    (h : ∀ name, first ≠ .text name) (rest : List Argument) :
    after target (first :: rest) =
      (Options.rangeFirst (first :: rest)).map (rangeFirst target) := by
  cases first with
  | text name => exact absurd rfl (h name)
  | skip | flag b | number n => rfl

/-- Arguments whose order shows in the first one of them: the kind is a text and the offset is
none. -/
structure Options.Arguments.OrderShows (arguments : Options.Arguments) : Prop where
  kind : ∃ name, arguments.kind = .text name
  offset : ∀ name, arguments.offset ≠ .text name

namespace Options.Arguments.OrderShows

variable {arguments : Options.Arguments} {options : Options} (h : arguments.OrderShows)
include h

/-- Arguments in the order of the kind make a call of that order. -/
theorem after_kindFirst (target : Target) :
    Call.after target arguments.kindFirst =
      (Options.kindFirst arguments.kindFirst).map (Call.kindFirst target) := by
  obtain ⟨name, hname⟩ := h.kind
  rw [kindFirst, hname]
  exact Call.after_text target name _ _

/-- Arguments in the order of the range make a call of that order. -/
theorem after_rangeFirst (target : Target) :
    Call.after target arguments.rangeFirst =
      (Options.rangeFirst arguments.rangeFirst).map (Call.rangeFirst target) :=
  Call.after_of_not_text target h.offset _

end Options.Arguments.OrderShows

/-- A text that is no chunk id is refused. -/
theorem Call.parse_of_eq_none {cid : String} (h : ChunkId.parse? cid = none)
    (rest : List Argument) : parse (.text cid :: rest) = .error (.invalidId cid) := by
  rw [parse, h]

/-- Behind a text that is a chunk id the rest is for this chunk. -/
theorem Call.parse_of_eq_some {cid : String} {id : ChunkId} (h : ChunkId.parse? cid = some id)
    (rest : List Argument) : parse (.text cid :: rest) = after (.chunk (some id)) rest := by
  rw [parse, h]

section Runs

variable {m : Type → Type} [Monad m] (source : Source ε m) {list : List Argument}
  {arguments : Options.Arguments} (cid : String)

/-- What is refused behind the name of a chunk is refused before anything is done. -/
private theorem run_of_after_error {failure : Failure}
    (h : ∀ target, Call.after target list = .error failure) :
    ∃ failure, run source (.text cid :: list) = pure (.ofResult (.error failure)) := by
  cases hid : ChunkId.parse? cid with
  | none => exact ⟨_, run_of_error source (Call.parse_of_eq_none hid list)⟩
  | some id => exact ⟨failure, run_of_error source ((Call.parse_of_eq_some hid list).trans (h _))⟩

/-- Once the options are given, an inspection does the same in both orders. -/
theorem run_eq_of_give (h : arguments.OrderShows) {options : Options}
    (hgive : arguments.Give options) :
    run source (.text cid :: arguments.kindFirst) =
      run source (.text cid :: arguments.rangeFirst) := by
  cases hid : ChunkId.parse? cid with
  | none =>
    rw [run_of_error source (Call.parse_of_eq_none hid _),
      run_of_error source (Call.parse_of_eq_none hid _)]
  | some id =>
    have hkind : Call.parse (.text cid :: arguments.kindFirst) =
        .ok (.kindFirst (.chunk (some id)) options) := by
      rw [Call.parse_of_eq_some hid, h.after_kindFirst,
        Options.Arguments.kindFirst_eq_ok_iff.mpr hgive]
      rfl
    have hrange : Call.parse (.text cid :: arguments.rangeFirst) =
        .ok (.rangeFirst (.chunk (some id)) options) := by
      rw [Call.parse_of_eq_some hid, h.after_rangeFirst,
        Options.Arguments.rangeFirst_eq_ok_iff.mpr hgive]
      rfl
    -- from here on nothing tells the two calls apart
    rw [run_of_ok source hkind, run_of_ok source hrange]
    rfl

/-- Unless the options are given, an inspection fails in both orders and does nothing else. -/
theorem run_of_not_give (h : arguments.OrderShows) (hgive : ∀ options, ¬ arguments.Give options) :
    (∃ failure, run source (.text cid :: arguments.kindFirst) =
      pure (.ofResult (.error failure))) ∧
    ∃ failure, run source (.text cid :: arguments.rangeFirst) =
      pure (.ofResult (.error failure)) := by
  obtain ⟨⟨failure, hkind⟩, other, hrange⟩ := Options.Arguments.refused_of_not_give hgive
  have hafter (target : Target) : Call.after target arguments.kindFirst = .error failure := by
    rw [h.after_kindFirst, hkind]
    rfl
  have hafter' (target : Target) : Call.after target arguments.rangeFirst = .error other := by
    rw [h.after_rangeFirst, hrange]
    rfl
  exact ⟨run_of_after_error source cid hafter, run_of_after_error source cid hafter'⟩

end Runs

/-- Two lists of arguments with which an inspection shows the same: the same outcome comes of both,
or both fail, the same lines are shown, and the same is asked and leaves the source in the same
state. -/
structure SameShown (source : Source ε (StateM σ)) (s : σ) (list other : List Argument) :
    Prop where
  outcome_iff : ∀ outcome, ((run source.logged list).run (s, [])).1.result = .ok outcome ↔
    ((run source.logged other).run (s, [])).1.result = .ok outcome
  lines_eq : ((run source.logged list).run (s, [])).1.lines =
    ((run source.logged other).run (s, [])).1.lines
  asked_eq : ((run source.logged list).run (s, [])).2 = ((run source.logged other).run (s, [])).2

section Shown

variable (source : Source ε (StateM σ)) (s : σ) {arguments : Options.Arguments} (cid : String)

/-- An inspection shows the same in both orders if the arguments show which one it is. -/
theorem sameShown_of_orderShows (h : arguments.OrderShows) :
    SameShown source s (.text cid :: arguments.kindFirst) (.text cid :: arguments.rangeFirst) := by
  by_cases hgive : ∃ options, arguments.Give options
  · obtain ⟨options, hgive⟩ := hgive
    have hrun := run_eq_of_give source.logged cid h hgive
    exact ⟨fun _ => by rw [hrun], by rw [hrun], by rw [hrun]⟩
  · obtain ⟨⟨failure, hkind⟩, other, hrange⟩ :=
      run_of_not_give source.logged cid h (not_exists.mp hgive)
    refine ⟨fun outcome => ?_, ?_, ?_⟩ <;> rw [hkind, hrange]
    · exact iff_of_false nofun nofun
    · rfl
    · rfl

/-- Nothing is asked in either order when the options are refused. -/
theorem unasked_of_refused (h : arguments.OrderShows) {failure : Failure}
    (hrefused : Options.kindFirst arguments.kindFirst = .error failure) :
    ((run source.logged (.text cid :: arguments.kindFirst)).run (s, [])).2 = (s, []) ∧
      ((run source.logged (.text cid :: arguments.rangeFirst)).run (s, [])).2 = (s, []) := by
  have hgive : ∀ options, ¬ arguments.Give options := by
    intro options hgive
    cases hrefused.symm.trans (Options.Arguments.kindFirst_eq_ok_iff.mpr hgive)
  obtain ⟨⟨_, hkind⟩, _, hrange⟩ := run_of_not_give source.logged cid h hgive
  rw [hkind, hrange]
  exact ⟨rfl, rfl⟩

end Shown

/-- The order of four arguments for the options makes no difference, but for which of several faults
is reported. The same options are given, and a fault that is the only one is reported in both
orders. Behind the text of a chunk id the same is shown, and nothing is asked for the sake of
options that are refused. -/
structure OrdersAgree (source : Source ε (StateM σ)) (s : σ) (arguments : Options.Arguments) :
    Prop where
  ok_iff : ∀ options, Options.kindFirst arguments.kindFirst = .ok options ↔
    Options.rangeFirst arguments.rangeFirst = .ok options
  error : ∀ failure, arguments.faults = [failure] →
    Options.kindFirst arguments.kindFirst = .error failure ∧
      Options.rangeFirst arguments.rangeFirst = .error failure
  same : arguments.OrderShows → ∀ cid, SameShown source s
    (.text cid :: arguments.kindFirst) (.text cid :: arguments.rangeFirst)
  unasked : arguments.OrderShows → ∀ failure,
    Options.kindFirst arguments.kindFirst = .error failure → ∀ cid,
      ((run source.logged (.text cid :: arguments.kindFirst)).run (s, [])).2 = (s, []) ∧
        ((run source.logged (.text cid :: arguments.rangeFirst)).run (s, [])).2 = (s, [])

/-- Whatever the four arguments and whatever the source, both orders come to the same. -/
theorem orders_agree (source : Source ε (StateM σ)) (s : σ) (arguments : Options.Arguments) :
    OrdersAgree source s arguments where
  ok_iff _ := Options.Arguments.kindFirst_eq_ok_iff.trans
    Options.Arguments.rangeFirst_eq_ok_iff.symm
  error _ h := Options.Arguments.error_of_single h
  same h cid := sameShown_of_orderShows source s cid h
  unasked h _ hrefused cid := unasked_of_refused source s cid h hrefused

end ChunkScope.Inspect
