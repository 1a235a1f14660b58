import Stardust.Core.System
import Stardust.Register.Requests

/-!
# Leader mode of the APISIX gateway

Each service registered in leader mode has a controller with two goroutines. That of `run` takes
part in the election and calls `OnStoppedLeading` when the election loop ends; winning the lease
starts that of `OnStartedLeading`, which stores the flag of leadership and writes to APISIX. What
the election decides, which goroutine moves next and what Kubernetes and APISIX answer are inputs.

`RegisterService`, `DeregisterService` and `Close` run as calls of their own, any number at a
time, in the atomic sections that `leaderMu` and the mutex of a controller delimit. The requests
of one direct registration or deregistration are one section.
-/

namespace Stardust.Register

open Stardust.Core

/-- The settings of leader mode. -/
structure LeaderSettings where
  /-- The namespace of the lease, empty for that of the pod. -/
  leaderLeaseNamespace : String
  /-- The name of the lease, empty for one made from the service. -/
  leaderLeaseName : String
  /-- The identity of the candidate, empty for the name of the pod. -/
  leaderIdentity : String
  /-- How long a lease is valid. -/
  leaseDurationSeconds : Int64
  /-- How long the leader tries to renew. -/
  renewDeadlineSeconds : Int64
  /-- How long candidates wait between attempts. -/
  retryPeriodSeconds : Int64
  /-- How long the leader waits between registrations. -/
  reconcileIntervalSeconds : Int64
  deriving DecidableEq, Repr

/-- What a process finds around itself, absent where reading it fails. -/
structure Environment where
  podNamespace : String
  /-- The variable `NAMESPACE`. -/
  namespaceVar : String
  /-- The namespace file of the service account. -/
  namespaceFile : Option String
  podName : String
  hostname : Option String
  deriving DecidableEq, Repr

/-- What a candidate hands to the election. -/
structure LeaseConfig where
  leaseName : String
  leaseNamespace : String
  identity : String
  leaseDuration : Int64
  renewDeadline : Int64
  retryPeriod : Int64
  /-- How long the leader waits between registrations. -/
  reconcileInterval : Int64
  deriving DecidableEq, Repr

/-- Seconds as nanoseconds, with a fallback for what is not positive. -/
def durationOrDefault (seconds fallbackSeconds : Int64) : Int64 :=
  (if seconds ≤ 0 then fallbackSeconds else seconds) * 1000000000

/-- The first source of a namespace that is not blank. -/
def Environment.defaultLeaseNamespace (env : Environment) : String :=
  if trimSpace env.podNamespace ≠ "" then trimSpace env.podNamespace
  else if trimSpace env.namespaceVar ≠ "" then trimSpace env.namespaceVar
  else match env.namespaceFile with
    | none => ""
    | some text => trimSpace text

/-- The first source of an identity that is not blank. -/
def Environment.defaultLeaderIdentity (env : Environment) : String :=
  if trimSpace env.podName ≠ "" then trimSpace env.podName
  else match env.hostname with
    | none => ""
    | some name => trimSpace name

/-- Where the goroutine of `run` stands. -/
inductive Election where
  /-- Not started. -/
  | idle
  /-- `RunOrDie` campaigns for the lease. -/
  | acquiring
  /-- `RunOrDie` holds the lease and renews it. -/
  | leading
  /-- The election loop has ended and `OnStoppedLeading` is still to be called. -/
  | ended
  /-- `RunOrDie` has returned or its panic was recovered. -/
  | returned
  /-- The channel `done` is closed. -/
  | closed
  deriving DecidableEq, Repr

/-- Where the goroutine of `OnStartedLeading` stands. -/
inductive Callback where
  /-- The lease was never won. -/
  | absent
  /-- Started, and nothing done yet. -/
  | spawned
  /-- The flag is stored and the first registration comes next. -/
  | stored
  /-- Waiting for the next tick. -/
  | serving
  /-- Left with its context. -/
  | left
  deriving DecidableEq, Repr

/-- A controller with its goroutines. -/
structure Controller where
  /-- The service it registers. -/
  service : GatewayService
  /-- What it hands to the election. -/
  lease : LeaseConfig
  /-- Started and not stopped. -/
  started : Bool
  /-- The context of `run` is cancelled. -/
  cancelled : Bool
  /-- The goroutine of `run`. -/
  election : Election
  /-- The goroutine of `OnStartedLeading`. -/
  callback : Callback
  /-- The flag that `IsLeader` reads. -/
  isLeader : Bool
  /-- Some call of `Stop` has returned. -/
  stopped : Bool
  deriving DecidableEq, Repr

variable (settings : LeaderSettings)

/-- The namespace of the lease. -/
def LeaderSettings.leaseNamespace (env : Environment) : String :=
  if trimSpace settings.leaderLeaseNamespace = "" then env.defaultLeaseNamespace
  else trimSpace settings.leaderLeaseNamespace

/-- The name of the lease of a service. -/
def LeaderSettings.leaseName (service : GatewayService) : String :=
  if trimSpace settings.leaderLeaseName = "" then service.id ++ "-apisix-lock"
  else trimSpace settings.leaderLeaseName

/-- The identity of the candidate. -/
def LeaderSettings.identity (env : Environment) : String :=
  if trimSpace settings.leaderIdentity = "" then env.defaultLeaderIdentity
  else trimSpace settings.leaderIdentity

/-- A controller for the service, unless it has no namespace or no identity. -/
def newApisixLeaderController (env : Environment) (service : GatewayService) :
    Except String Controller :=
  if settings.leaseNamespace env = "" then
    .error "leader mode requires lease namespace (set leader_lease_namespace or POD_NAMESPACE)"
  else if settings.identity env = "" then
    .error "leader mode requires identity (set leader_identity or POD_NAME)"
  else
    .ok
      { service := service
        lease :=
          { leaseName := settings.leaseName service
            leaseNamespace := settings.leaseNamespace env
            identity := settings.identity env
            leaseDuration := durationOrDefault settings.leaseDurationSeconds 15
            renewDeadline := durationOrDefault settings.renewDeadlineSeconds 10
            retryPeriod := durationOrDefault settings.retryPeriodSeconds 2
            reconcileInterval := durationOrDefault settings.reconcileIntervalSeconds 30 }
        started := false
        cancelled := false
        election := .idle
        callback := .absent
        isLeader := false
        stopped := false }

/-- Whether Kubernetes can be reached from inside the cluster. -/
inductive ClusterAccess where
  | available
  | noConfig (err : String)
  | noClient (err : String)
  deriving DecidableEq, Repr

namespace Controller

/-- Start the goroutine of `run` unless the controller is started already. -/
def start (ctl : Controller) (access : ClusterAccess) : Except String Controller :=
  if ctl.started then .ok ctl
  else match access with
    | .noConfig err => .error ("leader mode requires in-cluster kubernetes config: " ++ err)
    | .noClient err => .error ("create kubernetes client failed: " ++ err)
    | .available => .ok { ctl with started := true, election := .acquiring }

/-- What the goroutines of a controller and its election do. -/
inductive Event where
  /-- The lease is acquired and `OnStartedLeading` gets its goroutine. -/
  | win
  /-- The held lease could not be renewed. -/
  | lose
  /-- The election loop sees that its context is cancelled. -/
  | withdraw
  /-- `RunOrDie` panics on the configuration, and `run` recovers. -/
  | die
  /-- `OnStoppedLeading` runs and `RunOrDie` returns. -/
  | stoppedLeading
  /-- `run` closes `done`. -/
  | closeDone
  /-- `OnStartedLeading` stores the flag. -/
  | storeTrue
  /-- `OnStartedLeading` registers, at first or at a tick. -/
  | reconcile
  /-- `OnStartedLeading` sees that its context is done. -/
  | leave
  /-- The context given to `Start` is cancelled by its owner. -/
  | cancelContext
  deriving DecidableEq, Repr

/-- The controller after an event, which may not be possible. -/
def event (ctl : Controller) : Event → Option Controller
  | .win =>
    if ctl.election = .acquiring then some { ctl with election := .leading, callback := .spawned }
    else none
  | .lose => if ctl.election = .leading then some { ctl with election := .ended } else none
  | .withdraw =>
    if ctl.cancelled ∧ (ctl.election = .acquiring ∨ ctl.election = .leading) then
      some { ctl with election := .ended }
    else none
  | .die =>
    if ctl.election = .acquiring then
      some { ctl with election := .returned, isLeader := false }
    else none
  | .stoppedLeading =>
    if ctl.election = .ended then some { ctl with election := .returned, isLeader := false }
    else none
  | .closeDone => if ctl.election = .returned then some { ctl with election := .closed } else none
  | .storeTrue =>
    if ctl.callback = .spawned then some { ctl with callback := .stored, isLeader := true }
    else none
  | .reconcile =>
    if ctl.callback = .stored ∨ ctl.callback = .serving then some { ctl with callback := .serving }
    else none
  | .leave =>
    if ctl.callback = .serving ∧ (ctl.cancelled ∨ ctl.election ≠ .leading) then
      some { ctl with callback := .left }
    else none
  | .cancelContext => some { ctl with cancelled := true }

/-- The controller has won the lease at some time. -/
def Won (ctl : Controller) : Prop := ctl.callback ≠ .absent

instance (ctl : Controller) : Decidable ctl.Won := inferInstanceAs (Decidable (_ ≠ _))

/-- What each event does, and when it is possible. -/
inductive Move (ctl : Controller) : Event → Controller → Prop where
  | win (h : ctl.election = .acquiring) :
      Move ctl .win { ctl with election := .leading, callback := .spawned }
  | lose (h : ctl.election = .leading) : Move ctl .lose { ctl with election := .ended }
  | withdrawAcquiring (hcancelled : ctl.cancelled = true) (h : ctl.election = .acquiring) :
      Move ctl .withdraw { ctl with election := .ended }
  | withdrawLeading (hcancelled : ctl.cancelled = true) (h : ctl.election = .leading) :
      Move ctl .withdraw { ctl with election := .ended }
  | die (h : ctl.election = .acquiring) :
      Move ctl .die { ctl with election := .returned, isLeader := false }
  | stoppedLeading (h : ctl.election = .ended) :
      Move ctl .stoppedLeading { ctl with election := .returned, isLeader := false }
  | closeDone (h : ctl.election = .returned) : Move ctl .closeDone { ctl with election := .closed }
  | storeTrue (h : ctl.callback = .spawned) :
      Move ctl .storeTrue { ctl with callback := .stored, isLeader := true }
  | reconcileFirst (h : ctl.callback = .stored) :
      Move ctl .reconcile { ctl with callback := .serving }
  | reconcileAgain (h : ctl.callback = .serving) :
      Move ctl .reconcile { ctl with callback := .serving }
  | leave (h : ctl.callback = .serving) : Move ctl .leave { ctl with callback := .left }
  | cancelContext : Move ctl .cancelContext { ctl with cancelled := true }

/-- Events do nothing else. -/
theorem event_move {ctl ctl' : Controller} {e : Event} (h : ctl.event e = some ctl') :
    ctl.Move e ctl' := by
  cases e <;> simp only [event, Option.ite_none_right_eq_some, Option.some.injEq] at h
  case win => obtain ⟨hwhen, rfl⟩ := h; exact .win hwhen
  case lose => obtain ⟨hwhen, rfl⟩ := h; exact .lose hwhen
  case withdraw =>
    obtain ⟨⟨hcancelled, hacquiring | hleading⟩, rfl⟩ := h
    · exact .withdrawAcquiring hcancelled hacquiring
    · exact .withdrawLeading hcancelled hleading
  case die => obtain ⟨hwhen, rfl⟩ := h; exact .die hwhen
  case stoppedLeading => obtain ⟨hwhen, rfl⟩ := h; exact .stoppedLeading hwhen
  case closeDone => obtain ⟨hwhen, rfl⟩ := h; exact .closeDone hwhen
  case storeTrue => obtain ⟨hwhen, rfl⟩ := h; exact .storeTrue hwhen
  case reconcile =>
    obtain ⟨hstored | hserving, rfl⟩ := h
    · exact .reconcileFirst hstored
    · exact .reconcileAgain hserving
  case leave => obtain ⟨hwhen, rfl⟩ := h; exact .leave hwhen.1
  case cancelContext => subst h; exact .cancelContext

/-- Events concern the goroutines only; a closed `done` stays closed, a lease won stays won and
a cancelled context stays cancelled. -/
theorem event_frame {ctl ctl' : Controller} {e : Event} (h : ctl.event e = some ctl') :
    ctl'.service = ctl.service ∧ ctl'.started = ctl.started ∧ ctl'.stopped = ctl.stopped ∧
      (ctl.election = .closed → ctl'.election = .closed) ∧ (ctl.Won → ctl'.Won) ∧
      (ctl.cancelled = true → ctl'.cancelled = true) := by
  cases event_move h <;> simp_all [Won]

/-- A new controller that starts campaigns for the lease and has done nothing else. -/
theorem start_of_new {settings : LeaderSettings} {env : Environment} {svc : GatewayService}
    {access : ClusterAccess} {ctl ctl' : Controller}
    (hnew : newApisixLeaderController settings env svc = .ok ctl)
    (hstart : ctl.start access = .ok ctl') :
    ctl'.service = svc ∧ ctl'.started = true ∧ ctl'.cancelled = false ∧
      ctl'.election = .acquiring ∧ ctl'.callback = .absent ∧ ctl'.isLeader = false ∧
      ctl'.stopped = false := by
  simp only [newApisixLeaderController] at hnew
  split at hnew
  · cases hnew
  · split at hnew
    · cases hnew
    · cases hnew
      cases access with
      | available =>
        cases hstart
        exact ⟨rfl, rfl, rfl, rfl, rfl, rfl, rfl⟩
      | noConfig err => cases hstart
      | noClient err => cases hstart

end Controller

/-- The calls on a gateway. -/
inductive Op where
  | registerService (svc : GatewayService)
  | deregisterService (serviceID : String)
  | close
  deriving DecidableEq, Repr

/-- Where a call of `Stop` stands. -/
inductive StopPc where
  /-- Before its section under the mutex. -/
  | lock
  /-- Before `cancel`. -/
  | cancel
  /-- Waiting for `done`. -/
  | wait
  deriving DecidableEq, Repr

/-- Where a call stands. -/
inductive Pc where
  | entry
  /-- Inside `Stop` of a controller, with more to stop after it. -/
  | stopping (c : Nat) (rest : List Nat) (pc : StopPc)
  /-- Nothing left to stop; the last controller stopped, if any. -/
  | stopped (c : Option Nat)
  /-- About to delete, on behalf of a controller if there was one. -/
  | deleting (c : Option Nat)
  /-- Returned, with its error. -/
  | returned (err : Option String)
  deriving DecidableEq, Repr

/-- A call in progress. -/
structure Call where
  op : Op
  pc : Pc
  deriving DecidableEq, Repr

/-- A batch of requests to APISIX. -/
structure Issue where
  service : String
  /-- The controller on whose behalf it is sent. -/
  controller : Option Nat
  /-- The call that sends it, none for the goroutine of a controller. -/
  call : Option Nat
  /-- The routes recorded for the service when it is sent. -/
  tracked : List String
  requests : List Request
  deriving DecidableEq, Repr

/-- A gateway with its controllers and the calls in progress. -/
structure ApisixGateway where
  /-- The table of routes and the resources of APISIX. -/
  gateway : Gateway
  settings : LeaderSettings
  env : Environment
  /-- The controllers that were started. -/
  controllers : Nat → Option Controller
  /-- How many there are. -/
  created : Nat
  /-- The controller recorded for each service. -/
  leaderControllers : List (String × Nat)
  /-- The call that holds `leaderMu` over several sections. -/
  leaderMu : Option Nat
  calls : Nat → Option Call
  invoked : Nat
  /-- The requests sent to APISIX. -/
  issued : List Issue

/-- What the outside answers to a section of a call. -/
structure Outcome where
  /-- The answers of APISIX. -/
  answers : Answers
  /-- The answer of Kubernetes. -/
  access : ClusterAccess
  /-- The order in which a map is read. -/
  order : List Nat

/-- What can happen next. -/
inductive Label where
  /-- A new call is made. -/
  | invoke (op : Op)
  /-- A call executes its next section. -/
  | proceed (i : Nat) (o : Outcome)
  /-- The election or a goroutine of a controller moves. -/
  | elect (c : Nat) (e : Controller.Event) (ans : Answers)

namespace ApisixGateway

variable (s : ApisixGateway)

/-- The controller recorded for a service. -/
def lookup (serviceID : String) : Option Nat :=
  (s.leaderControllers.find? fun p => p.1 = serviceID).map Prod.snd

/-- The call stands elsewhere from now on. -/
def setCall (i : Nat) (op : Op) (pc : Pc) : ApisixGateway :=
  { s with calls := Function.update s.calls i (some ⟨op, pc⟩) }

/-- The controller has changed. -/
def setController (c : Nat) (ctl : Controller) : ApisixGateway :=
  { s with controllers := Function.update s.controllers c (some ctl) }

/-- Take over a gateway that has sent further requests, and record them. -/
def issue (g : Gateway) (service : String) (controller call : Option Nat) : ApisixGateway :=
  { s with
    gateway := g
    issued := s.issued ++
      [⟨service, controller, call, s.gateway.routeIDs service,
        g.requests.drop s.gateway.requests.length⟩] }

/-- The first section of a call. -/
def enter (i : Nat) (op : Op) (o : Outcome) : Option ApisixGateway :=
  match op with
  | .registerService svc =>
    match s.gateway.config.mode with
    | .off => some (s.setCall i op (.returned none))
    | .single =>
      let (err, g) := s.gateway.registerServiceDirect o.answers svc
      some ((s.issue g svc.id none (some i)).setCall i op (.returned err))
    | .leader =>
      if s.leaderMu.isSome then none
      else
        let pc := match s.lookup svc.id with
          | some old => Pc.stopping old [] .lock
          | none => .stopped none
        some { s.setCall i op pc with leaderMu := some i }
  | .deregisterService serviceID =>
    match s.gateway.config.mode with
    | .off => some (s.setCall i op (.returned none))
    | .single =>
      if s.gateway.config.shouldDeregisterOnShutdown then some (s.setCall i op (.deleting none))
      else some (s.setCall i op (.returned none))
    | .leader =>
      if s.leaderMu.isSome then none
      else
        let pc := match s.lookup serviceID with
          | some c => Pc.stopping c [] .lock
          | none => .stopped none
        some { s.setCall i op pc with
          leaderControllers := s.leaderControllers.filter fun p => p.1 ≠ serviceID }
  | .close =>
    if s.leaderMu.isSome then none
    else if o.order.Perm (s.leaderControllers.map Prod.snd) then
      let pc := match o.order with
        | c :: rest => Pc.stopping c rest .lock
        | [] => .stopped none
      some { s.setCall i op pc with leaderControllers := [] }
    else none

/-- Where a call goes when `Stop` of a controller has returned. -/
def afterStop (c : Nat) : List Nat → Pc
  | [] => .stopped (some c)
  | next :: rest => .stopping next rest .lock

/-- The next section of `Stop`. -/
def stop (i : Nat) (op : Op) (c : Nat) (rest : List Nat) (pc : StopPc) : Option ApisixGateway :=
  match s.controllers c with
  | none => none
  | some ctl =>
    match pc with
    | .lock =>
      if ctl.started then
        some ((s.setController c { ctl with started := false }).setCall i op
          (.stopping c rest .cancel))
      else
        some ((s.setController c { ctl with stopped := true }).setCall i op (afterStop c rest))
    | .cancel =>
      some ((s.setController c { ctl with cancelled := true }).setCall i op
        (.stopping c rest .wait))
    | .wait =>
      if ctl.election = .closed then
        some ((s.setController c { ctl with stopped := true }).setCall i op (afterStop c rest))
      else none

/-- The section after everything is stopped. -/
def conclude (i : Nat) (op : Op) (c : Option Nat) (o : Outcome) : Option ApisixGateway :=
  match op with
  | .registerService svc =>
    match newApisixLeaderController s.settings s.env svc with
    | .error err => some { s.setCall i op (.returned (some err)) with leaderMu := none }
    | .ok controller =>
      match controller.start o.access with
      | .error err => some { s.setCall i op (.returned (some err)) with leaderMu := none }
      | .ok controller =>
        some { (s.setController s.created controller).setCall i op (.returned none) with
          created := s.created + 1
          leaderControllers :=
            (svc.id, s.created) :: s.leaderControllers.filter fun p => p.1 ≠ svc.id
          leaderMu := none }
  | .deregisterService _ =>
    if s.gateway.config.shouldDeregisterOnShutdown then
      match c.bind s.controllers with
      | some ctl =>
        if ctl.isLeader then some (s.setCall i op (.deleting c))
        else some (s.setCall i op (.returned none))
      | none => some (s.setCall i op (.deleting c))
    else some (s.setCall i op (.returned none))
  | .close => some (s.setCall i op (.returned none))

/-- The direct deregistration at the end of a call. -/
def delete (i : Nat) (op : Op) (c : Option Nat) (o : Outcome) : Option ApisixGateway :=
  match op with
  | .deregisterService serviceID =>
    let (err, g) := s.gateway.deregisterServiceDirect o.answers serviceID
    some ((s.issue g serviceID c (some i)).setCall i op (.returned err))
  | _ => none

/-- The next section of a call. -/
def proceed (i : Nat) (o : Outcome) : Option ApisixGateway :=
  match s.calls i with
  | none => none
  | some ⟨op, .entry⟩ => s.enter i op o
  | some ⟨op, .stopping c rest pc⟩ => s.stop i op c rest pc
  | some ⟨op, .stopped c⟩ => s.conclude i op c o
  | some ⟨op, .deleting c⟩ => s.delete i op c o
  | some ⟨_, .returned _⟩ => none

/-- An event of a controller; registrations of the leader write to APISIX. -/
def elect (c : Nat) (e : Controller.Event) (ans : Answers) : Option ApisixGateway :=
  match s.controllers c with
  | none => none
  | some ctl =>
    match ctl.event e with
    | none => none
    | some ctl' =>
      if e = .reconcile then
        let (_, g) := s.gateway.registerServiceDirect ans ctl.service
        some ((s.issue g ctl.service.id (some c) none).setController c ctl')
      else some (s.setController c ctl')

/-- One step of the gateway. -/
def step : Label → Option ApisixGateway
  | .invoke op =>
    some { s.setCall s.invoked op .entry with invoked := s.invoked + 1 }
  | .proceed i o => s.proceed i o
  | .elect c e ans => s.elect c e ans

end ApisixGateway

/-- The gateways in leader mode, starting with no controller, no call and nothing sent. -/
def leaderSystem : Core.System ApisixGateway Label where
  init s := s.gateway.config.mode = .leader ∧ s.gateway.requests = [] ∧
    s.gateway.routeIDs = (fun _ => []) ∧ s.controllers = (fun _ => none) ∧ s.created = 0 ∧
    s.leaderControllers = [] ∧ s.leaderMu = none ∧ s.calls = (fun _ => none) ∧ s.invoked = 0 ∧
    s.issued = []
  step := ApisixGateway.step

end Stardust.Register
