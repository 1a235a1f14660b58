import Stardust.HttpServer.GrpcAddress

/-!
# Starting several protocols

`MultiServer.Startup` starts the HTTP server and then the gRPC server. The HTTP server listens in
a goroutine of its own and never returns an error. The gRPC server opens its listener, encodes its
etcd settings, registers itself and serves. Each failure returns at once and takes nothing back:
an HTTP server serves on when the gRPC server cannot listen, and the listener stays open when the
settings cannot be encoded.
-/

namespace Stardust.HttpServer.Multi

open Stardust.Core

/-- The etcd settings that `Startup` registers with. -/
structure EtcdService where
  serviceName : String
  tags : List String
  deriving DecidableEq

/-- The settings of the gRPC server. -/
structure GrpcServer where
  listenOn : String
  /-- `conf.Etcd`, or nil. -/
  etcd : Option EtcdService
  deriving DecidableEq

/-- The servers that are configured. -/
structure MultiServer where
  /-- Whether there is an HTTP server. -/
  httpServer : Bool
  grpcServer : Option GrpcServer
  deriving DecidableEq

/-- What the operations of a call come to. -/
structure Environment where
  /-- The error of `ListenAndServe` in its goroutine, if it does not get to serve. -/
  listenAndServe : Option String
  /-- The address of the listener, by what it is to listen on. -/
  listen : String → Except String String
  /-- The error of `json.Marshal`. -/
  marshal : EtcdService → Option String
  /-- The error of `NewEtcdRegister`, which is only logged. -/
  newEtcdRegister : EtcdService → Option String
  /-- The session that `ServiceRegistry.Register` generates. -/
  sessionId : String

/-- A goroutine that serves. -/
inductive Goroutine where
  | absent
  | spawned
  | serving
  | ended
  deriving DecidableEq

/-- Where a call of `Startup` stands. -/
inductive Stage where
  | http
  | grpc
  /-- The gRPC listener is open, and the etcd settings are encoded next. -/
  | marshal (etcd : EtcdService)
  | register (etcd : EtcdService)
  | serve
  | returned (err : Option String)
  deriving DecidableEq

/-- How far the startup is. -/
structure State where
  stage : Stage
  http : Goroutine
  /-- The address of the gRPC listener while it is open. -/
  listener : Option String
  /-- What was handed to etcd. -/
  registered : Option Register.ServiceInfo
  grpc : Goroutine

/-- Who takes the next step. -/
inductive Label where
  /-- The next step of the call. -/
  | startup
  /-- A step of the goroutine that serves HTTP. -/
  | http
  /-- A step of the goroutine that serves gRPC. -/
  | grpc
  deriving DecidableEq

variable (ms : MultiServer) (env : Environment)

/-- `GrpcServer.Startup` up to its listener. -/
def listen (s : State) : State :=
  match ms.grpcServer with
  | none => { s with stage := .returned none }
  | some conf =>
    match env.listen conf.listenOn with
    | .error err => { s with stage := .returned (some err) }
    | .ok addr =>
      match conf.etcd with
      | none => { s with listener := some addr, stage := .serve }
      | some etcd => { s with listener := some addr, stage := .marshal etcd }

/-- The registration, whose own result is dropped. -/
def register (etcd : EtcdService) (s : State) : State :=
  match env.newEtcdRegister etcd with
  | some _ => { s with stage := .serve }
  | none =>
    { s with
      registered := s.listener.map (startupInfo etcd.serviceName etcd.tags env.sessionId)
      stage := .serve }

/-- The next step of `Startup`. -/
def startup (s : State) : Option State :=
  match s.stage with
  | .http =>
    some { s with http := if ms.httpServer then .spawned else s.http, stage := .grpc }
  | .grpc => some (listen ms env s)
  | .marshal etcd =>
    match env.marshal etcd with
    | some err => some { s with stage := .returned (some err) }
    | none => some { s with stage := .register etcd }
  | .register etcd => some (register env etcd s)
  | .serve => some { s with grpc := .spawned, stage := .returned none }
  | .returned _ => none

/-- One step of the call or of a goroutine. -/
def step (s : State) : Label → Option State
  | .startup => startup ms env s
  | .http =>
    if s.http = .spawned then
      some { s with http := if env.listenAndServe = none then .serving else .ended }
    else none
  | .grpc => if s.grpc = .spawned then some { s with grpc := .serving } else none

/-- A call of `Startup` and the goroutines that it starts. -/
def multiStartup : System State Label where
  init s := s = ⟨.http, .absent, none, none, .absent⟩
  step := step ms env

/-- When the call returns an error, then and ever after no HTTP server serves and no listener is
open. -/
def AllOrNothing : Prop :=
  ∀ s, (multiStartup ms env).Reachable s → ∀ err, s.stage = .returned (some err) →
    s.http ≠ .serving ∧ s.listener = none

/-- Where the call stands tells which operations have succeeded. -/
def Reached (s : State) : Stage → Prop
  | .http => s.http = .absent ∧ s.listener = none
  | .grpc => s.listener = none
  | .marshal etcd => ∃ conf addr, ms.grpcServer = some conf ∧ conf.etcd = some etcd ∧
      env.listen conf.listenOn = .ok addr ∧ s.listener = some addr
  | .register _ => True
  | .serve => True
  | .returned none => True
  | .returned (some err) => ∃ conf, ms.grpcServer = some conf ∧
      ((env.listen conf.listenOn = .error err ∧ s.listener = none) ∨
        ∃ addr etcd, env.listen conf.listenOn = .ok addr ∧ conf.etcd = some etcd ∧
          env.marshal etcd = some err)

/-- What holds in every state of a call. -/
structure Invariant (s : State) : Prop where
  reached : Reached ms env s s.stage
  configured : s.http ≠ .absent → ms.httpServer = true
  listens : s.http = .serving → env.listenAndServe = none

section Steps

variable {ms env} {s s' : State}

private theorem Reached.listen (hreached : s.listener = none) :
    Reached ms env (listen ms env s) (listen ms env s).stage := by
  unfold Multi.listen
  cases hgrpc : ms.grpcServer with
  | none => trivial
  | some conf =>
    dsimp only
    cases hlisten : env.listen conf.listenOn with
    | error err => exact ⟨conf, hgrpc, .inl ⟨hlisten, hreached⟩⟩
    | ok addr =>
      dsimp only
      cases hetcd : conf.etcd with
      | none => trivial
      | some etcd => exact ⟨conf, addr, hgrpc, hetcd, hlisten, rfl⟩

/-- The goroutines do not change what the call has reached. -/
theorem Reached.frame {stage : Stage} (h : Reached ms env s stage)
    (hhttp : stage = .http → s'.http = s.http) (hlistener : s'.listener = s.listener) :
    Reached ms env s' stage := by
  cases stage with
  | http => exact ⟨(hhttp rfl).trans h.1, hlistener.trans h.2⟩
  | grpc => exact hlistener.trans h
  | marshal etcd =>
    obtain ⟨conf, addr, hgrpc, hetcd, hlisten, hopen⟩ := h
    exact ⟨conf, addr, hgrpc, hetcd, hlisten, hlistener.trans hopen⟩
  | register etcd => trivial
  | serve => trivial
  | returned err =>
    cases err with
    | none => trivial
    | some err =>
      obtain ⟨conf, hgrpc, ⟨hlisten, hclosed⟩ | hmarshal⟩ := h
      · exact ⟨conf, hgrpc, .inl ⟨hlisten, hlistener.trans hclosed⟩⟩
      · exact ⟨conf, hgrpc, .inr hmarshal⟩

private theorem listen_http (ms : MultiServer) (env : Environment) (s : State) :
    (listen ms env s).http = s.http := by
  unfold Multi.listen
  split
  · rfl
  · split
    · rfl
    · split <;> rfl

private theorem Invariant.startup (h : Invariant ms env s) (hstep : startup ms env s = some s') :
    Invariant ms env s' := by
  obtain ⟨hreached, hconfigured, hlistens⟩ := h
  unfold Multi.startup at hstep
  cases hstage : s.stage with
  | http =>
    rw [hstage] at hstep hreached
    obtain ⟨habsent, hclosed⟩ := hreached
    obtain rfl := Option.some.inj hstep
    cases hhttp : ms.httpServer with
    | true => exact ⟨hclosed, fun _ => hhttp, fun hserving => by cases hserving⟩
    | false => exact ⟨hclosed, hconfigured, hlistens⟩
  | grpc =>
    rw [hstage] at hstep hreached
    obtain rfl := Option.some.inj hstep
    rw [← listen_http ms env s] at hconfigured hlistens
    exact ⟨Reached.listen hreached, hconfigured, hlistens⟩
  | marshal etcd =>
    rw [hstage] at hstep hreached
    obtain ⟨conf, addr, hgrpc, hetcd, hlisten, -⟩ := hreached
    dsimp only at hstep
    cases hmarshal : env.marshal etcd with
    | some err =>
      rw [hmarshal] at hstep
      obtain rfl := Option.some.inj hstep
      exact ⟨⟨conf, hgrpc, .inr ⟨addr, etcd, hlisten, hetcd, hmarshal⟩⟩, hconfigured, hlistens⟩
    | none =>
      rw [hmarshal] at hstep
      obtain rfl := Option.some.inj hstep
      exact ⟨trivial, hconfigured, hlistens⟩
  | register etcd =>
    rw [hstage] at hstep
    obtain rfl := Option.some.inj hstep
    unfold Multi.register
    split <;> exact ⟨trivial, hconfigured, hlistens⟩
  | serve =>
    rw [hstage] at hstep
    obtain rfl := Option.some.inj hstep
    exact ⟨trivial, hconfigured, hlistens⟩
  | returned err =>
    rw [hstage] at hstep
    cases hstep

private theorem Invariant.step {l : Label} (h : Invariant ms env s)
    (hstep : step ms env s l = some s') : Invariant ms env s' := by
  cases l with
  | startup => exact h.startup hstep
  | http =>
    obtain ⟨hspawned, hs⟩ := Option.ite_none_right_eq_some.mp hstep
    obtain rfl := Option.some.inj hs
    have hconfigured : ms.httpServer = true := h.configured (by rw [hspawned]; simp)
    have hbegun : s.stage ≠ .http := by
      intro hstage
      have hreached := h.reached
      rw [hstage] at hreached
      exact absurd (hreached.1.symm.trans hspawned) (by simp)
    refine ⟨h.reached.frame (fun hstage => absurd hstage hbegun) rfl, fun _ => hconfigured, ?_⟩
    intro hserving
    by_contra hlistens
    dsimp only at hserving
    rw [if_neg hlistens] at hserving
    cases hserving
  | grpc =>
    obtain ⟨-, hs⟩ := Option.ite_none_right_eq_some.mp hstep
    obtain rfl := Option.some.inj hs
    exact ⟨h.reached.frame (fun _ => rfl) rfl, h.configured, h.listens⟩

private theorem Invariant.of_reachable (h : (multiStartup ms env).Reachable s) :
    Invariant ms env s := by
  refine System.Reachable.invariant (fun s hinit => ?_) (fun s l s' hs hstep => hs.step hstep) h
  obtain rfl : s = ⟨.http, .absent, none, none, .absent⟩ := hinit
  exact ⟨⟨rfl, rfl⟩, fun h => absurd rfl h, fun h => by cases h⟩

end Steps

section Failures

variable {ms env} {conf : GrpcServer}

/-- An HTTP server that gets to serve before the gRPC server fails to listen. -/
theorem reachable_serving {err : String} (hhttp : ms.httpServer = true)
    (hserves : env.listenAndServe = none) (hgrpc : ms.grpcServer = some conf)
    (hlisten : env.listen conf.listenOn = .error err) :
    (multiStartup ms env).Reachable
      ⟨.returned (some err), .serving, none, none, .absent⟩ := by
  refine ⟨_, [.startup, .http, .startup], rfl, ?_⟩
  simp [System.run, multiStartup, step, startup, listen, hhttp, hserves, hgrpc, hlisten]

/-- A listener whose server fails to encode its settings. -/
theorem reachable_listening {err addr : String} {etcd : EtcdService}
    (hgrpc : ms.grpcServer = some conf) (hlisten : env.listen conf.listenOn = .ok addr)
    (hetcd : conf.etcd = some etcd) (hmarshal : env.marshal etcd = some err) :
    (multiStartup ms env).Reachable ⟨.returned (some err),
      if ms.httpServer then .spawned else .absent, some addr, none, .absent⟩ := by
  refine ⟨_, [.startup, .startup, .startup], rfl, ?_⟩
  simp [System.run, multiStartup, step, startup, listen, hgrpc, hlisten, hetcd, hmarshal]

end Failures

/-- A call is all or nothing exactly when its gRPC server, if it has one, fails to listen only
without an HTTP server that gets to serve, and does not fail after it listens. -/
theorem startup_allOrNothing_iff :
    AllOrNothing ms env ↔ ∀ conf, ms.grpcServer = some conf →
      (∀ err, env.listen conf.listenOn = .error err →
        ms.httpServer = false ∨ env.listenAndServe ≠ none) ∧
      ∀ addr etcd, env.listen conf.listenOn = .ok addr → conf.etcd = some etcd →
        env.marshal etcd = none := by
  constructor
  · intro hall conf hgrpc
    constructor
    · intro err hlisten
      by_contra hserves
      rw [not_or, Bool.not_eq_false, not_not] at hserves
      exact (hall _ (reachable_serving hserves.1 hserves.2 hgrpc hlisten) err rfl).1 rfl
    · intro addr etcd hlisten hetcd
      by_contra hmarshal
      obtain ⟨err, herr⟩ := Option.ne_none_iff_exists'.mp hmarshal
      cases (hall _ (reachable_listening hgrpc hlisten hetcd herr) err rfl).2
  · intro hconf s hs err hstage
    have hinv := Invariant.of_reachable hs
    have hreached := hinv.reached
    rw [hstage] at hreached
    obtain ⟨conf, hgrpc, ⟨hlisten, hclosed⟩ | ⟨addr, etcd, hlisten, hetcd, hmarshal⟩⟩ := hreached
    · refine ⟨fun hserving => ?_, hclosed⟩
      rcases (hconf conf hgrpc).1 err hlisten with hnone | hfails
      · have hsome := hinv.configured (by rw [hserving]; simp)
        rw [hnone] at hsome
        cases hsome
      · exact hfails (hinv.listens hserving)
    · have hnone := (hconf conf hgrpc).2 addr etcd hlisten hetcd
      rw [hmarshal] at hnone
      cases hnone

/-- Both protocols are configured, and the port of the gRPC server is taken: the error is returned
while the HTTP server serves. -/
theorem startup_leaves_http_serving :
    let env : Environment := ⟨none, fun _ => .error "bind: address already in use", fun _ => none,
      fun _ => none, "session"⟩
    ∃ s, (multiStartup ⟨true, some ⟨"0.0.0.0:9090", none⟩⟩ env).Reachable s ∧
      s.stage = .returned (some "bind: address already in use") ∧ s.http = .serving :=
  ⟨_, reachable_serving rfl rfl rfl rfl, rfl, rfl⟩

end Stardust.HttpServer.Multi
