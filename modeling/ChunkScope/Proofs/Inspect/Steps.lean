import ChunkScope.Inspect

/-!
# Steps of inspections

An inspection is refused for its arguments, or it takes the steps of the call that they make.

A relation between the steps of two monads goes along with whole programs when it holds of what
does nothing and of one step after another. Inspections of two sources are then related when the
requests to the sources are. A source that keeps a log is related in this way to the one without.
-/

namespace ChunkScope

/-! ## What arguments come to -/

namespace Inspect

variable {m : Type → Type} [Monad m] {ε : Type} (source : Source ε m) {arguments : List Argument}

/-- Arguments that make no call are refused before anything is done. -/
theorem run_of_error {failure : Failure} (h : Call.parse arguments = .error failure) :
    run source arguments = pure (.ofResult (.error failure)) := by
  rw [run, h]

/-- An inspection reports on the answer to the call that its arguments make. -/
theorem run_of_ok {call : Call} (h : Call.parse arguments = .ok call) :
    run source arguments = answer source call >>= fun result => pure (.ofResult result) := by
  rw [run, h]

end Inspect

/-! ## Related steps -/

/-- A relation between the steps of two monads that goes along with programs: it holds of two
programs that do nothing and give the same, and of two that go on in the same way after related
steps. -/
structure StepRelation (m n : Type → Type) [Monad m] [Monad n] where
  Holds : {α : Type} → m α → n α → Prop
  protected pure {α : Type} (a : α) : Holds (Pure.pure a) (Pure.pure a)
  protected bind {α β : Type} {x : m α} {y : n α} {f : α → m β} {g : α → n β} :
    Holds x y → (∀ a, Holds (f a) (g a)) → Holds (x >>= f) (y >>= g)

namespace StepRelation

open Inspect

variable {m n : Type → Type} [Monad m] [Monad n] (T : StepRelation m n) {ε : Type}
  {source : Source ε m} {other : Source ε n}

variable (source other) in
/-- Resolving a target is related when combining is. -/
theorem holds_resolve [LawfulMonad m] [LawfulMonad n]
    (h : ∀ node slot, T.Holds (source.combine node slot) (other.combine node slot))
    (target : Target) : T.Holds (resolve source target) (resolve other target) := by
  rcases target with (_ | _) | ⟨_ | node, _ | slot⟩
  case split.some.some =>
    rw [resolve, resolve, map_eq_pure_bind, map_eq_pure_bind]
    exact T.bind (h node slot) fun id => T.pure (Except.ok id)
  all_goals exact T.pure _

/-- Showing bytes is related when fetching the chunk is. -/
theorem holds_readBytes {id : ChunkId} (h : T.Holds (source.fetch [id]) (other.fetch [id]))
    (options : Options) : T.Holds (readBytes source id options) (readBytes other id options) :=
  T.bind h fun _ => T.pure _

/-- Showing a structure is related when reading it is. -/
theorem holds_readAs {id : ChunkId} {typeName : String}
    (h : T.Holds (source.typed id typeName) (other.typed id typeName)) :
    T.Holds (readAs source id typeName) (readAs other id typeName) := by
  refine T.bind h fun result => ?_
  rcases result with _ | _ | object
  all_goals exact T.pure _

/-- The chunk that a call settles on is read by one request, which the call alone decides. -/
theorem holds_answer {call : Call}
    (hresolve : T.Holds (resolve source call.target) (resolve other call.target))
    (hfetch : ∀ id, T.Holds (source.fetch [id]) (other.fetch [id]))
    (htyped : ∀ id typeName, T.Holds (source.typed id typeName) (other.typed id typeName)) :
    T.Holds (answer source call) (answer other call) := by
  refine T.bind hresolve fun resolved => ?_
  cases resolved with
  | error failure => exact T.pure _
  | ok id =>
    cases call with
    | structured _ typeName => exact T.holds_readAs (htyped id typeName)
    | kindFirst _ options => exact T.holds_readBytes (hfetch id) options
    | rangeFirst _ options => exact T.holds_readBytes (hfetch id) options

/-- Whole inspections are related when those of the call are that the arguments make. -/
theorem holds_run {arguments : List Argument}
    (h : ∀ call, Call.parse arguments = .ok call →
      T.Holds (answer source call) (answer other call)) :
    T.Holds (run source arguments) (run other arguments) := by
  cases hparse : Call.parse arguments with
  | error failure =>
    rw [run_of_error source hparse, run_of_error other hparse]
    exact T.pure _
  | ok call =>
    rw [run_of_ok source hparse, run_of_ok other hparse]
    exact T.bind (h call hparse) fun result => T.pure (Report.ofResult result)

end StepRelation

end ChunkScope

/-! ## Logs of inspections

What an inspection asks of its source can be kept in a log. The source with a log answers as the
source without one, so an inspection says the same with either. -/

namespace ChunkScope.Inspect

/-! ### What a source is asked -/

/-- A request to a source. -/
inductive Query where
  | combine (node : NodeId) (slot : LocalId)
  | fetch (ids : List ChunkId)
  | typed (id : ChunkId) (typeName : String)
deriving DecidableEq

/-- Whether a request reads a chunk. -/
def Query.isReading : Query → Bool
  | combine _ _ => false
  | fetch _ | typed _ _ => true

variable {ε σ α β : Type}

/-- An answer to a request, which goes to the end of the log. -/
def Query.logged (query : Query) (answer : StateM σ α) : StateM (σ × List Query) α :=
  fun (s, log) => ((answer.run s).1, (answer.run s).2, log ++ [query])

/-- The source whose requests are kept in a log. -/
def Source.logged (source : Source ε (StateM σ)) : Source ε (StateM (σ × List Query)) where
  combine node slot := (Query.combine node slot).logged (source.combine node slot)
  fetch ids := (Query.fetch ids).logged (source.fetch ids)
  typed id typeName := (Query.typed id typeName).logged (source.typed id typeName)

/-! ### What a log changes -/

/-- A step with a log does what the one without does, and at most adds to the log. -/
def Mirrors (logging : StateM (σ × List Query) α) (plain : StateM σ α) : Prop :=
  ∀ s log, ∃ queries,
    logging.run (s, log) = ((plain.run s).1, (plain.run s).2, log ++ queries)

/-- Mirroring goes along with programs. -/
private def mirroring : StepRelation (StateM (σ × List Query)) (StateM σ) where
  Holds := Mirrors
  pure a := by
    intro s log
    refine ⟨[], ?_⟩
    rw [List.append_nil]
    rfl
  bind {α β logging plain f g} h hf := by
    intro s log
    obtain ⟨front, hfront⟩ := h s log
    obtain ⟨back, hback⟩ := hf (plain.run s).1 (plain.run s).2 (log ++ front)
    refine ⟨front ++ back, ?_⟩
    rw [StateT.run_bind, StateT.run_bind, hfront, ← List.append_assoc]
    exact hback

/-- A query that is logged mirrors the one that is not. -/
private theorem mirrors_logged (query : Query) (plain : StateM σ α) :
    Mirrors (query.logged plain) plain :=
  fun _ _ => ⟨[query], rfl⟩

/-- An inspection with a log goes as the one without. -/
theorem mirrors_run (source : Source ε (StateM σ)) (arguments : List Argument) :
    Mirrors (run source.logged arguments) (run source arguments) := by
  refine mirroring.holds_run fun call _ => mirroring.holds_answer ?_ ?_ ?_
  · exact mirroring.holds_resolve source.logged source
      (fun node slot => mirrors_logged _ (source.combine node slot)) call.target
  · exact fun id => mirrors_logged _ (source.fetch [id])
  · exact fun id typeName => mirrors_logged _ (source.typed id typeName)

/-- An inspection with a log says what the one without says. -/
theorem run_logged_fst (source : Source ε (StateM σ)) (arguments : List Argument) (s : σ)
    (log : List Query) :
    ((run source.logged arguments).run (s, log)).1 = ((run source arguments).run s).1 := by
  obtain ⟨queries, hrun⟩ := mirrors_run source arguments s log
  rw [hrun]

end ChunkScope.Inspect
