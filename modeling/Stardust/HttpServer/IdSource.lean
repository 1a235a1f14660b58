import Stardust.Uuid.Manager

/-!
# Servers and the ID source

Every HTTP server that is made hands its configured worker ID to `InitWorker` and drops the error.
The ID source of the package so goes through a sequence of calls, some of them made by servers,
and the requests for IDs between them. Requests panic after a worker ID out of range; a worker
that is made again in the millisecond of a request starts to count anew.
-/

namespace Stardust.HttpServer

open Stardust.Core Stardust.Uuid

/-- The settings that `NewHttpServer` reads. -/
structure HttpServerConfig where
  port : Int64
  address : String
  path : String
  cors : Bool
  requestLog : Bool
  access : Bool
  workerID : Int64
  deriving DecidableEq, Repr

/-- What the engine of a server uses. -/
inductive EngineMiddleware where
  | recovery
  | cors
  | request
  | access
  deriving DecidableEq, Repr

/-- The fields of a new server that come from its configuration. -/
structure HttpServerFields where
  addr : String
  path : String
  middlewares : List EngineMiddleware
  deriving DecidableEq, Repr

/-- What a call of `NewHttpServer` comes to. -/
inductive NewHttpServer where
  | server (srv : HttpServerFields)
  | failed (err : String)
  | panicked (msg : String)
  deriving DecidableEq, Repr

/-- Make a server from what its configuration decodes to, with the worker it leaves in the
package. -/
def newHttpServer (config : Except String HttpServerConfig) (uuidWorker : Option UuidWorker) :
    NewHttpServer × Option UuidWorker :=
  match config with
  | .error err => (.panicked ("Failed to parse HTTP server configuration: " ++ err), uuidWorker)
  | .ok config =>
    let uuidWorker := (initWorker config.workerID).1
    let addr := config.address ++ ":" ++ toString config.port.toInt
    let middlewares : List EngineMiddleware :=
      [.recovery] ++ (if config.cors then [.cors] else []) ++
        (if config.requestLog then [.request] else []) ++ (if config.access then [.access] else [])
    if config.path ≠ "" ∧ config.path.toList.head? ≠ some '/' then
      (.failed "the http.path must start with a /", uuidWorker)
    else (.server ⟨addr, config.path, middlewares⟩, uuidWorker)

/-- Whether the server can be made or not, its worker ID was handed on. -/
theorem newHttpServer_worker (config : HttpServerConfig) (uuidWorker : Option UuidWorker) :
    (newHttpServer (.ok config) uuidWorker).2 = (initWorker config.workerID).1 := by
  unfold newHttpServer
  dsimp only
  split <;> rfl

/-- A call that concerns the ID source. -/
inductive SourceCall where
  | initWorker (workerID : Int64)
  | newHttpServer (config : Except String HttpServerConfig)
  /-- With the readings of the clock that it makes. -/
  | request (f : IdFunction) (readings : List Int64)

/-- The worker ID that a call hands to `InitWorker`. -/
def SourceCall.hands : SourceCall → Option Int64
  | .initWorker workerID => some workerID
  | .newHttpServer (.ok config) => some config.workerID
  | .newHttpServer (.error _) => none
  | .request _ _ => none

/-- What a call returns. -/
inductive SourceAnswer where
  | initialised (err : Option String)
  | made (result : NewHttpServer)
  | answered (answer : Answer)
  deriving DecidableEq, Repr

/-- The variable of the package, and the answers to the calls so far. -/
structure IdSource where
  uuidWorker : Option UuidWorker
  answers : List SourceAnswer
  deriving DecidableEq, Repr

namespace IdSource

/-- One call, with its answer. -/
def step (s : IdSource) : SourceCall → Option IdSource
  | .initWorker workerID =>
    let (uuidWorker, err) := Uuid.initWorker workerID
    some ⟨uuidWorker, s.answers ++ [.initialised err]⟩
  | .newHttpServer config =>
    let (result, uuidWorker) := HttpServer.newHttpServer config s.uuidWorker
    some ⟨uuidWorker, s.answers ++ [.made result]⟩
  | .request f readings =>
    (f.request s.uuidWorker readings).map fun (answer, uuidWorker) =>
      ⟨uuidWorker, s.answers ++ [.answered answer]⟩

/-- The package as `init` leaves it, with worker 0. -/
def loaded : IdSource := ⟨(Uuid.initWorker 0).1, []⟩

/-- Sequences of calls after the package is loaded. -/
def idSources : System IdSource SourceCall := ⟨(· = loaded), step⟩

/-- The IDs that were issued. -/
def ids (s : IdSource) : List Int64 :=
  s.answers.filterMap fun
    | .answered (.issued id _) => some id
    | _ => none

/-- The worker ID last handed to `InitWorker`, 0 before the first one. -/
def lastHanded (calls : List SourceCall) : Int64 :=
  (calls.filterMap SourceCall.hands).getLast?.getD 0

/-- What a call does to the source. -/
inductive Moves (s : IdSource) : SourceCall → IdSource → Prop where
  | hand {call : SourceCall} {workerID : Int64} {answer : SourceAnswer}
      (hhands : call.hands = some workerID) (hanswer : ∀ a, answer ≠ .answered a) :
      Moves s call ⟨(Uuid.initWorker workerID).1, s.answers ++ [answer]⟩
  /-- The configuration of a server does not decode. -/
  | malformed (err : String) (answer : SourceAnswer) (hanswer : ∀ a, answer ≠ .answered a) :
      Moves s (.newHttpServer (.error err)) { s with answers := s.answers ++ [answer] }
  | panic (f : IdFunction) (hnil : s.uuidWorker = none) :
      Moves s (.request f []) ⟨none, s.answers ++ [.answered .nilDereference]⟩
  | issue {w w' : UuidWorker} {id : Int64} {readings : List Int64} (f : IdFunction)
      (hworker : s.uuidWorker = some w) (hget : w.get readings = some (id, w', [])) :
      Moves s (.request f readings)
        ⟨some w', s.answers ++ [.answered (.issued id (f.returned id))]⟩

/-- Every call is one of the moves. -/
theorem step_moves {s s' : IdSource} {call : SourceCall} (h : s.step call = some s') :
    s.Moves call s' := by
  cases call with
  | initWorker workerID =>
    cases h
    exact .hand rfl (by simp)
  | newHttpServer config =>
    simp only [step, Option.some.injEq] at h
    subst h
    cases config with
    | error err => exact .malformed err _ (by simp)
    | ok config =>
      rw [newHttpServer_worker]
      exact .hand rfl (by simp)
  | request f readings =>
    obtain ⟨⟨answer, uuidWorker⟩, hrequest, rfl⟩ := Option.map_eq_some_iff.mp h
    rcases IdFunction.request_cases hrequest with ⟨hnil, rfl, rfl, rfl⟩ |
      ⟨w, w', id, hworker, hget, rfl, rfl⟩
    · exact .panic f hnil
    · exact .issue f hworker hget

/-- A call leaves a worker in the variable exactly when the worker ID handed over last is valid. -/
theorem Moves.isSome_iff {s s' : IdSource} {call : SourceCall} (h : s.Moves call s')
    {workerID : Int64} (hs : s.uuidWorker.isSome ↔ ValidWorker workerID) :
    s'.uuidWorker.isSome ↔ ValidWorker (call.hands.getD workerID) := by
  cases h with
  | hand hhands hanswer =>
    rw [hhands]
    exact initWorker_isSome_iff
  | malformed err answer hanswer => exact hs
  | panic f hnil =>
    rw [hnil] at hs
    exact hs
  | issue f hworker hget =>
    rw [hworker] at hs
    exact hs

private theorem lastHanded_concat (calls : List SourceCall) (call : SourceCall) :
    lastHanded (calls ++ [call]) = call.hands.getD (lastHanded calls) := by
  unfold lastHanded
  rw [List.filterMap_append]
  cases hhands : call.hands with
  | none => simp [List.filterMap, hhands]
  | some workerID => simp [List.filterMap, hhands]

section Usable

variable {s s' : IdSource} {calls : List SourceCall}

private theorem isSome_iff_of_run (hinit : idSources.init s)
    (hrun : idSources.run s calls = some s') :
    s'.uuidWorker.isSome ↔ ValidWorker (lastHanded calls) := by
  induction calls using List.reverseRecOn generalizing s' with
  | nil =>
    cases hinit
    cases hrun
    exact initWorker_isSome_iff
  | append_singleton calls call ih =>
    obtain ⟨t, hbefore, hlast⟩ := idSources.run_append_iff.mp hrun
    obtain ⟨_, hstep, heq⟩ := idSources.run_cons_iff.mp hlast
    cases heq
    rw [lastHanded_concat]
    exact (step_moves hstep).isSome_iff (ih hbefore)

/-- A call panics exactly when it is a request without a worker. -/
theorem Moves.nilDereference_mem_iff {call : SourceCall} (h : s.Moves call s') :
    .answered .nilDereference ∈ s'.answers ↔ .answered .nilDereference ∈ s.answers ∨
      s.uuidWorker = none ∧ ∃ f readings, call = .request f readings := by
  cases h with
  | hand hhands hanswer =>
    have hrequest : ¬∃ f readings, call = .request f readings := by
      rintro ⟨f, readings, rfl⟩
      cases hhands
    simp [(hanswer .nilDereference).symm, hrequest]
  | malformed err answer hanswer => simp [(hanswer .nilDereference).symm]
  | panic f hnil => simp [hnil]
  | issue f hworker hget => simp [hworker]

/-- A sequence of calls panics exactly when some request comes after an invalid worker ID that
was not followed by a valid one. -/
theorem nilDereference_iff (hinit : idSources.init s) (hrun : idSources.run s calls = some s') :
    .answered .nilDereference ∈ s'.answers ↔
      ∃ before f readings after, calls = before ++ .request f readings :: after ∧
        ¬ValidWorker (lastHanded before) := by
  induction calls using List.reverseRecOn generalizing s' with
  | nil =>
    cases hinit
    cases hrun
    simp [loaded]
  | append_singleton calls call ih =>
    obtain ⟨t, hbefore, hlast⟩ := idSources.run_append_iff.mp hrun
    obtain ⟨_, hstep, heq⟩ := idSources.run_cons_iff.mp hlast
    cases heq
    have hnil : t.uuidWorker = none ↔ ¬ValidWorker (lastHanded calls) := by
      rw [← isSome_iff_of_run hinit hbefore, Option.not_isSome_iff_eq_none]
    rw [(step_moves hstep).nilDereference_mem_iff, ih hbefore, hnil]
    constructor
    · rintro (⟨before, f, readings, after, rfl, hbad⟩ | ⟨hbad, f, readings, rfl⟩)
      · exact ⟨before, f, readings, after ++ [call], by simp, hbad⟩
      · exact ⟨calls, f, readings, [], rfl, hbad⟩
    · rintro ⟨before, f, readings, after, heq, hbad⟩
      rcases List.eq_nil_or_concat after with rfl | ⟨after, last, rfl⟩
      · obtain ⟨rfl, hcall⟩ := List.append_inj' heq rfl
        exact .inr ⟨hbad, f, readings, List.singleton_inj.mp hcall⟩
      · rw [List.concat_eq_append, ← List.cons_append, ← List.append_assoc] at heq
        obtain ⟨rfl, -⟩ := List.append_inj' heq rfl
        exact .inl ⟨before, f, readings, after, rfl, hbad⟩

/-- Every worker ID that a call hands over is valid. -/
def HandsValid (call : SourceCall) : Prop := ∀ workerID ∈ call.hands, ValidWorker workerID

instance : DecidablePred HandsValid := fun call =>
  decidable_of_iff (call.hands.all (ValidWorker ·) = true) (by
    unfold HandsValid
    cases call.hands <;> simp)

private theorem lastHanded_valid (h : ∀ call ∈ calls, HandsValid call) :
    ValidWorker (lastHanded calls) := by
  rw [lastHanded]
  cases hlast : (calls.filterMap SourceCall.hands).getLast? with
  | none => decide
  | some workerID =>
    obtain ⟨call, hcall, hhands⟩ := List.mem_filterMap.mp (List.mem_of_getLast? hlast)
    exact h call hcall workerID hhands

/-- Each call of `InitWorker` in a sequence that fails leaves the worker that was there. -/
def FailuresKeep (s : IdSource) (calls : List SourceCall) : Prop :=
  ∀ before call after t t', calls = before ++ call :: after → idSources.run s before = some t →
    idSources.step t call = some t' → ∀ workerID ∈ call.hands,
      (Uuid.initWorker workerID).2 ≠ none → t'.uuidWorker = t.uuidWorker

private theorem failuresKeep_iff (hinit : idSources.init s)
    (hrun : idSources.run s calls = some s') :
    FailuresKeep s calls ↔ ∀ call ∈ calls, HandsValid call := by
  constructor
  · intro hkeep
    by_contra hbad
    simp only [not_forall] at hbad
    obtain ⟨bad, hmem, hinvalid⟩ := hbad
    obtain ⟨call, hfind⟩ : ∃ call, calls.find? (fun call => ¬HandsValid call) = some call :=
      Option.isSome_iff_exists.mp (List.find?_isSome.mpr ⟨bad, hmem, by simpa using hinvalid⟩)
    obtain ⟨hfails, before, after, hsplit, hvalid⟩ := List.find?_eq_some_iff_append.mp hfind
    rw [hsplit] at hrun
    obtain ⟨t, hbefore, hafter⟩ := idSources.run_append_iff.mp hrun
    obtain ⟨t', hstep, -⟩ := idSources.run_cons_iff.mp hafter
    obtain ⟨workerID, hhands, hout⟩ : ∃ workerID ∈ call.hands, ¬ValidWorker workerID := by
      simpa [HandsValid] using hfails
    have hsame := hkeep before call after t t' hsplit hbefore hstep workerID hhands
      (initWorker_failed_iff.mpr hout)
    have hworker := (isSome_iff_of_run hinit hbefore).mpr
      (lastHanded_valid fun c hc => by simpa using hvalid c hc)
    rw [← hsame, (step_moves hstep).isSome_iff (isSome_iff_of_run hinit hbefore), hhands]
      at hworker
    exact hout hworker
  · intro hvalid before call after t t' heq _ _ workerID hhands hfailed
    have hmem : call ∈ calls := by
      rw [heq]
      simp
    exact absurd (hvalid call hmem workerID hhands) (initWorker_failed_iff.mp hfailed)

/-- Failed calls of `InitWorker` leave the worker in place exactly when none fails; and no request
dereferences a nil worker exactly when for each of them the worker ID handed over last is valid. -/
theorem id_source_usable_iff (hinit : idSources.init s)
    (hrun : idSources.run s calls = some s') :
    (FailuresKeep s calls ↔ ∀ call ∈ calls, HandsValid call) ∧
      (.answered .nilDereference ∉ s'.answers ↔
        ∀ before f readings after, calls = before ++ .request f readings :: after →
          ValidWorker (lastHanded before)) := by
  refine ⟨failuresKeep_iff hinit hrun, ?_⟩
  rw [nilDereference_iff hinit hrun]
  push Not
  exact Iff.rfl

/-- Two workers with IDs at both ends of the range, and a request between them. -/
def twoWorkers : List SourceCall :=
  [.initWorker 1023, .request .genSessionId [epoch], .initWorker 0]

/-- Two workers are made, one after the other. -/
theorem id_source_usable_two_workers : ∃ s', idSources.run loaded twoWorkers = some s' ∧
    FailuresKeep loaded twoWorkers ∧ .answered .nilDereference ∉ s'.answers := by
  obtain ⟨s', hrun⟩ := Option.isSome_iff_exists.mp
    (show (idSources.run loaded twoWorkers).isSome by decide)
  have hvalid : ∀ call ∈ twoWorkers, HandsValid call := by decide
  obtain ⟨hkeep, hpanic⟩ := id_source_usable_iff rfl hrun
  refine ⟨s', hrun, hkeep.mpr hvalid, hpanic.mpr fun before f readings after heq => ?_⟩
  refine lastHanded_valid fun call hcall => hvalid call ?_
  rw [heq]
  exact List.mem_append_left _ hcall

/-- The configuration of a server with a worker ID out of range. -/
def strayConfig : HttpServerConfig := ⟨8080, "", "/", false, false, false, 1024⟩

/-- The server is made, and the first request for an ID after it panics. -/
theorem stray_worker_panics :
    idSources.run loaded [.newHttpServer (.ok strayConfig), .request .genSessionId []] =
      some ⟨none, [.made (.server ⟨":8080", "/", [.recovery]⟩), .answered .nilDereference]⟩ := by
  decide

end Usable

end IdSource

end Stardust.HttpServer
