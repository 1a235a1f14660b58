import Stardust.Core.Pool
import Stardust.Load.Shedder

/-!
# The adaptive shedding middleware

Requests of one server share one shedder and interleave at its sections. A request
that panics in a later handler unwinds through the middleware into the outermost
recovery, past both calls of the promise.
-/

namespace Stardust.HttpServer

open Load

/-- Where one request stands in the middleware. -/
inductive Phase where
  | arrived
  /-- The overload check of `shouldDrop` was positive. -/
  | overloaded
  /-- `shouldDrop` returned true. -/
  | dropping
  /-- `shouldDrop` returned false. -/
  | admitting
  /-- Answered with 503. -/
  | shed
  /-- Admitted at `start`, inside `c.Next`. -/
  | running (start : Int)
  /-- `c.Next` returned and the response has this status. -/
  | ended (start status : Int)
  /-- `Pass` has measured `rt` and given its unit back. -/
  | recording (start now : Int)
  /-- The middleware returned. -/
  | finished
  /-- A later handler panicked and the outermost recovery caught it. -/
  | recovered
  deriving DecidableEq, Repr

/-- Admitted, and a handler of the chain, this middleware included, still holds the promise. -/
def Phase.inFlight : Phase → Bool
  | .running _ | .ended _ _ => true
  | _ => false

/-- Left through a panic. -/
def Phase.panicked : Phase → Bool
  | .recovered => true
  | _ => false

/-- The server has not finished with the request. -/
def Phase.inProgress : Phase → Bool
  | .shed | .finished | .recovered => false
  | _ => true

/-- One shedder and the requests that came through the middleware, by arrival. -/
structure Middleware where
  /-- The shedder shared by all requests. -/
  shedder : AdaptiveShedder
  requests : List Phase
  deriving DecidableEq, Repr

/-- One atomic section of one request, with the readings it takes. -/
inductive Action where
  | check (r : Readings)
  | compare (r : Readings)
  | drop (now : Int)
  | acquire (now : Int)
  | handlersReturn (status : Int)
  | handlersPanic
  | resolve (now : Int)
  | record (passNow rtNow : Int)
  deriving DecidableEq, Repr

/-- A request arrives, or the request at `i` runs its next section. -/
inductive Label where
  | arrive
  | act (i : Nat) (a : Action)
  deriving DecidableEq, Repr

/-- What one section does to its request and to the shedder. -/
def advance (as : AdaptiveShedder) : Action → Phase → Option (Phase × AdaptiveShedder)
  | .check r, .arrived =>
    match as.systemOverloaded r with
    | (true, as) => some (.overloaded, as)
    | (false, as) => some (.admitting, as)
  | .compare r, .overloaded =>
    (as.exceedsMaxFlight r).map fun
      | (true, as) => (.dropping, as)
      | (false, as) => (.admitting, as)
  | .drop now, .dropping => some (.shed, as.drop now)
  | .acquire now, .admitting => some (.running now, as.acquire)
  | .handlersReturn status, .running start => some (.ended start status, as)
  | .handlersPanic, .running _ => some (.recovered, as)
  | .resolve now, .ended start status =>
    if status ≥ 500 then some (.finished, as.release) else some (.recording start now, as.release)
  | .record passNow rtNow, .recording start now =>
    some (.finished, (as.recordPass start now passNow rtNow).getD as)
  | _, _ => none

/-- One step of the middleware as a whole. -/
def Middleware.step (m : Middleware) : Label → Option Middleware
  | .arrive => some { m with requests := m.requests ++ [.arrived] }
  | .act i a =>
    (m.requests[i]?).bind fun phase =>
      (advance m.shedder a phase).map fun (phase', as) =>
        { shedder := as, requests := m.requests.set i phase' }

/-- The middleware from a freshly constructed shedder on. -/
def sheddingSystem : Core.System Middleware Label where
  init m := m.requests = [] ∧
    ∃ opts now cpuSeconds, newAdaptiveShedder opts now cpuSeconds = some m.shedder
  step := Middleware.step

/-- The counter is the number of requests in flight, hence zero when none is in progress. -/
def Middleware.Conserved (m : Middleware) : Prop :=
  m.shedder.flying = m.requests.countP Phase.inFlight ∧
    ((∀ phase ∈ m.requests, phase.inProgress = false) → m.shedder.flying = 0)

/-- A request that holds a unit of the counter, rightly or not. -/
def Phase.holdsUnit (phase : Phase) : Bool := phase.inFlight || phase.panicked

/-- Every section moves the counter by what its own request takes or gives back. -/
theorem advance_flying {as as' : AdaptiveShedder} {a : Action} {phase phase' : Phase}
    (h : advance as a phase = some (phase', as')) :
    as'.flying + Core.weight Phase.holdsUnit phase =
      as.flying + Core.weight Phase.holdsUnit phase' := by
  unfold advance at h
  split at h
  · rename_i r
    have hflying := as.systemOverloaded_flying r
    split at h <;> rename_i heq <;> cases h <;> rw [heq] at hflying <;> rw [← hflying] <;> rfl
  · obtain ⟨⟨drop, mid⟩, hmid, h⟩ := Option.map_eq_some_iff.mp h
    rw [← AdaptiveShedder.exceedsMaxFlight_flying hmid]
    cases drop <;> cases h <;> rfl
  · cases h
    rfl
  · cases h
    simp [AdaptiveShedder.acquire, Core.weight, Phase.holdsUnit, Phase.inFlight, Phase.panicked]
  · cases h
    rfl
  · cases h
    rfl
  · split at h <;> cases h <;>
      simp [AdaptiveShedder.release, Core.weight, Phase.holdsUnit, Phase.inFlight, Phase.panicked]
  · cases h
    rename_i passNow rtNow start now
    cases hrec : as.recordPass start now passNow rtNow with
    | none => rfl
    | some mid =>
      rw [Option.getD_some, AdaptiveShedder.recordPass_flying hrec]
      rfl
  · cases h

/-- Only a panic of the later handlers turns a request into a panicked one. -/
theorem advance_panicked {as as' : AdaptiveShedder} {a : Action} {phase phase' : Phase}
    (h : advance as a phase = some (phase', as')) :
    phase.panicked = false ∧ phase'.panicked = decide (a = .handlersPanic) := by
  unfold advance at h
  split at h
  · split at h <;> cases h <;> exact ⟨rfl, rfl⟩
  · obtain ⟨⟨drop, mid⟩, -, h⟩ := Option.map_eq_some_iff.mp h
    cases drop <;> cases h <;> exact ⟨rfl, rfl⟩
  · cases h; exact ⟨rfl, rfl⟩
  · cases h; exact ⟨rfl, rfl⟩
  · cases h; exact ⟨rfl, rfl⟩
  · cases h; exact ⟨rfl, rfl⟩
  · split at h <;> cases h <;> exact ⟨rfl, rfl⟩
  · cases h; exact ⟨rfl, rfl⟩
  · cases h

/-- The counter is the number of requests that hold a unit. -/
def Middleware.Accounted (m : Middleware) : Prop :=
  m.shedder.flying = m.requests.countP Phase.holdsUnit

variable {m m' : Middleware}

/-- A section of one request exposes the request's phases on both sides. -/
theorem Middleware.step_act {i : Nat} {a : Action} (h : m.step (.act i a) = some m') :
    ∃ phase phase', m.requests[i]? = some phase ∧
      advance m.shedder a phase = some (phase', m'.shedder) ∧
      m'.requests = m.requests.set i phase' := by
  obtain ⟨phase, hphase, h⟩ := Option.bind_eq_some_iff.mp h
  obtain ⟨⟨phase', as⟩, hadv, rfl⟩ := Option.map_eq_some_iff.mp h
  exact ⟨phase, phase', hphase, hadv, rfl⟩

/-- Every step keeps the books. -/
theorem Middleware.Accounted.step {l : Label} (hm : m.Accounted) (h : m.step l = some m') :
    m'.Accounted := by
  unfold Middleware.Accounted at hm ⊢
  cases l with
  | arrive =>
    cases h
    rw [Core.countP_concat, hm]
    rfl
  | act i a =>
    obtain ⟨phase, phase', hphase, hadv, hrequests⟩ := Middleware.step_act h
    have hcount := Core.countP_set_add_weight Phase.holdsUnit hphase phase'
    have hflying := advance_flying hadv
    rw [hrequests]
    omega

/-- A run keeps the books from a fresh shedder on. -/
theorem shedding_run_accounted {m₀ m : Middleware} {ls : List Label}
    (hinit : sheddingSystem.init m₀) (hrun : sheddingSystem.run m₀ ls = some m) :
    m.Accounted := by
  obtain ⟨hempty, opts, now, cpuSeconds, hnew⟩ := hinit
  have hstart : m₀.Accounted := by
    unfold Middleware.Accounted
    rw [newAdaptiveShedder_flying hnew, hempty]
    rfl
  exact sheddingSystem.run_invariant (fun _ _ _ hm hstep => hm.step hstep) hstart hrun

/-- Whether the label is a panic of some request's later handlers. -/
def Label.isPanic : Label → Bool
  | .act _ a => decide (a = .handlersPanic)
  | .arrive => false

/-- A step adds a panicked request exactly when its label is a panic. -/
theorem Middleware.step_panicked {l : Label} (h : m.step l = some m') :
    m'.requests.countP Phase.panicked =
      m.requests.countP Phase.panicked + Core.weight Label.isPanic l := by
  cases l with
  | arrive =>
    cases h
    rw [Core.countP_concat]
    rfl
  | act i a =>
    obtain ⟨phase, phase', hphase, hadv, hrequests⟩ := Middleware.step_act h
    have hcount := Core.countP_set_add_weight Phase.panicked hphase phase'
    obtain ⟨hbefore, hafter⟩ := advance_panicked hadv
    rw [hrequests]
    simp only [Core.weight, hbefore, hafter, Label.isPanic] at hcount ⊢
    simpa using hcount

/-- Along a run the panicked requests grow by the panics of its labels. -/
theorem shedding_run_panicked {ls : List Label} (hrun : sheddingSystem.run m ls = some m') :
    m'.requests.countP Phase.panicked =
      m.requests.countP Phase.panicked + ls.countP Label.isPanic := by
  induction ls generalizing m with
  | nil =>
    cases hrun
    rfl
  | cons l ls ih =>
    obtain ⟨t, hstep, hrest⟩ := sheddingSystem.run_cons_iff.mp hrun
    rw [ih hrest, Middleware.step_panicked hstep, List.countP_cons, Core.weight]
    omega

/-- The units held are those in flight and those lost to a panic. -/
theorem countP_holdsUnit (requests : List Phase) :
    requests.countP Phase.holdsUnit =
      requests.countP Phase.inFlight + requests.countP Phase.panicked := by
  induction requests with
  | nil => rfl
  | cons phase requests ih =>
    simp only [List.countP_cons, ih]
    cases phase <;> simp [Phase.holdsUnit, Phase.inFlight, Phase.panicked] <;> omega

/-- With nothing in progress nothing is in flight. -/
theorem countP_inFlight_of_idle {requests : List Phase}
    (h : ∀ phase ∈ requests, phase.inProgress = false) : requests.countP Phase.inFlight = 0 := by
  rw [List.countP_eq_zero]
  intro phase hmem
  have hidle := h phase hmem
  cases phase <;> simp_all [Phase.inProgress, Phase.inFlight]

/-- The books are conserved exactly when no unit was lost to a panic. -/
theorem Middleware.Accounted.conserved_iff {m : Middleware} (hm : m.Accounted) :
    m.Conserved ↔ m.requests.countP Phase.panicked = 0 := by
  unfold Middleware.Accounted at hm
  rw [countP_holdsUnit] at hm
  constructor
  · rintro ⟨hflying, -⟩
    omega
  · intro hnone
    have hflying : m.shedder.flying = m.requests.countP Phase.inFlight := by omega
    refine ⟨hflying, fun hidle => ?_⟩
    rw [hflying, countP_inFlight_of_idle hidle]
    rfl

/-- At the end of every run, the in-flight count is conserved exactly when no admitted
request panicked in a later handler. -/
theorem shedding_conserved_iff_no_panic {m₀ m : Middleware} {ls : List Label}
    (hinit : sheddingSystem.init m₀) (hrun : sheddingSystem.run m₀ ls = some m) :
    m.Conserved ↔ ∀ i, .act i .handlersPanic ∉ ls := by
  have hcount := shedding_run_panicked hrun
  rw [hinit.1, List.countP_nil, Nat.zero_add] at hcount
  rw [(shedding_run_accounted hinit hrun).conserved_iff, hcount, List.countP_eq_zero]
  constructor
  · intro hnone i hmem
    exact hnone _ hmem rfl
  · intro hnone l hmem hpanic
    cases l with
    | arrive => cases hpanic
    | act i a =>
      have ha : a = .handlersPanic := of_decide_eq_true hpanic
      exact hnone i (ha ▸ hmem)

/-- A shedder without CPU check and one bucket, before the first request. -/
def quietMiddleware : Middleware :=
  ⟨⟨0, 5 * 10 ^ 9, 1, 0, 0, false, newRollingCounter 1 (5 * 10 ^ 9) 0,
    newRollingCounter 1 (5 * 10 ^ 9) 0, 0, 0⟩, []⟩

/-- The quiet middleware is what its options construct. -/
theorem quietMiddleware_init : sheddingSystem.init quietMiddleware :=
  ⟨rfl, [.withBuckets 1, .withCpuThreshold 0], 0, 0, rfl⟩

/-- Two overlapping requests that end with 200 and 500. -/
def overlappingRequests : List Label :=
  [.arrive, .arrive, .act 0 (.check ⟨0, 0, 1, 0, 0, 0⟩), .act 0 (.acquire 1),
    .act 1 (.check ⟨0, 0, 1, 0, 0, 0⟩), .act 1 (.acquire 2), .act 0 (.handlersReturn 200),
    .act 1 (.handlersReturn 500), .act 1 (.resolve 3), .act 0 (.resolve 4), .act 0 (.record 5 6)]

/-- Requests that overlap and return leave the count conserved. -/
theorem shedding_conserved_two_requests :
    ∃ m, sheddingSystem.run quietMiddleware overlappingRequests = some m ∧ m.Conserved := by
  obtain ⟨m, hm⟩ := Option.isSome_iff_exists.mp
    (show (sheddingSystem.run quietMiddleware overlappingRequests).isSome from rfl)
  refine ⟨m, hm, ?_⟩
  rw [shedding_conserved_iff_no_panic quietMiddleware_init hm]
  simp [overlappingRequests]

/-- One panicking request leaves a unit in the counter with no request in progress. -/
theorem shedding_leak_after_panic :
    ∃ m, sheddingSystem.init quietMiddleware ∧ sheddingSystem.run quietMiddleware
        [.arrive, .act 0 (.check ⟨0, 0, 1, 0, 0, 0⟩), .act 0 (.acquire 1),
          .act 0 .handlersPanic] = some m ∧
      (∀ phase ∈ m.requests, phase.inProgress = false) ∧ m.shedder.flying = 1 ∧
      ¬ m.Conserved := by
  refine ⟨_, quietMiddleware_init, rfl, by decide, rfl, ?_⟩
  rintro ⟨hflying, -⟩
  revert hflying
  decide

end Stardust.HttpServer
