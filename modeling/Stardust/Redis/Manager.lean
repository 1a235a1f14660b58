import Mathlib.Logic.Function.Basic
import Stardust.Core.System

/-!
# Clients of the package

`Init` loads a list of configurations. The first call that asks for a client creates a client for
each of them, once. The client of the first configuration is published as soon as it is created, and
the manager when all were created. A panic in between uses up the one attempt.
-/

namespace Stardust.Redis

open Stardust.Core Function

/-- A configuration, by the fields that are read to create a client. -/
structure Config where
  name : String
  addrs : List String
  password : String
  dbIndex : Int
  dialTimeout : Int
  readTimeout : Int
  writeTimeout : Int
  readOnly : Bool
  poolSize : Int
  poolTimeout : Int
  useCluster : Bool
  /-- The TLS settings by reference. -/
  tlsConfig : Option Nat
  deriving DecidableEq

/-- The settings of a client. -/
structure ClientOptions where
  /-- All addresses of a cluster, or the one of a server. -/
  addrs : List String
  /-- The database of a server, or whether a cluster is only read. -/
  target : Int ⊕ Bool
  password : String
  dialTimeout : Int
  readTimeout : Int
  writeTimeout : Int
  poolSize : Int
  poolTimeout : Int
  tlsConfig : Option Nat
  deriving DecidableEq

/-- A client by its number among all that were created. -/
structure RedisCmd where
  id : Nat
  options : ClientOptions
  deriving DecidableEq

/-- How a call panics. -/
inductive ManagerPanic where
  | emptyConfig
  | parseFailed
  | addrsEmpty
  | nilConfig
  deriving DecidableEq

/-- The size of a pool that is not configured. -/
def defaultPoolSize : Int := 10

/-- Four seconds. -/
def defaultPoolTimeout : Int := 4000000000

/-- The client with a number, unless there is no address. -/
def newRedisCmd (id : Nat) (c : Config) : Except ManagerPanic RedisCmd :=
  match c.addrs with
  | [] => .error .addrsEmpty
  | addr :: _ =>
    let poolSize := if c.poolSize ≤ 0 then defaultPoolSize else c.poolSize
    let poolTimeout := if c.poolTimeout ≤ 0 then defaultPoolTimeout else c.poolTimeout
    .ok ⟨id, {
      addrs := if c.useCluster then c.addrs else [addr]
      target := if c.useCluster then .inr c.readOnly else .inl c.dbIndex
      password := c.password
      dialTimeout := c.dialTimeout
      readTimeout := c.readTimeout
      writeTimeout := c.writeTimeout
      poolSize
      poolTimeout
      tlsConfig := c.tlsConfig }⟩

/-- The variables of the package. A configuration in a list may be nil. -/
structure Package where
  managerConfig : List (Option Config)
  managerOnce : Bool
  redisCon : Option RedisCmd
  /-- The clients of the manager by name. -/
  manager : Option (String → Option RedisCmd)
  /-- The number of clients created. -/
  created : Nat

/-- What is given to `Init`, as it is decoded. -/
inductive InitInput where
  | empty
  /-- An object with the fields of a configuration. -/
  | single (c : Config)
  /-- An array of configurations, or null for none. -/
  | multiple (cs : List (Option Config))
  | malformed

/-- The calls on the package. -/
inductive ManagerCall where
  | init (config : InitInput)
  | getRedisDb
  | getRedisManager

namespace Package

variable {p p' : Package} {l : ManagerCall}

/-- The variables before any call. -/
def start : Package := ⟨[], false, none, none, 0⟩

/-- The configurations that `Init` loads. An object without a name is no array either. -/
def load : InitInput → Except ManagerPanic (List (Option Config))
  | .empty => .error .emptyConfig
  | .single c => if c.name ≠ "" then .ok [some c] else .error .parseFailed
  | .multiple cs => .ok cs
  | .malformed => .error .parseFailed

/-- `Init`: decode the configuration and keep it. -/
def init (p : Package) (config : InitInput) : Except ManagerPanic Unit × Package :=
  match load config with
  | .ok cs => (.ok (), { p with managerConfig := cs })
  | .error e => (.error e, p)

/-- Create the clients one by one. The first of all becomes the default. -/
def createAll (index : Nat) (p : Package) (redisCmds : String → Option RedisCmd) :
    List (Option Config) → Except ManagerPanic (String → Option RedisCmd) × Package
  | [] => (.ok redisCmds, p)
  | none :: _ => (.error .nilConfig, p)
  | some cfg :: cfgs =>
    match newRedisCmd p.created cfg with
    | .error e => (.error e, p)
    | .ok cli =>
      let redisCon := if index = 0 then some cli else p.redisCon
      createAll (index + 1) { p with redisCon, created := p.created + 1 }
        (update redisCmds cfg.name (some cli)) cfgs

/-- A panic leaves what was done before it, and the attempt counts. -/
def ensureRedisInitialized (p : Package) : Except ManagerPanic Unit × Package :=
  if p.managerConfig = [] ∨ p.managerOnce = true then (.ok (), p)
  else
    match createAll 0 { p with managerOnce := true } (fun _ => none) p.managerConfig with
    | (.ok redisCmds, p) => (.ok (), { p with manager := some redisCmds })
    | (.error e, p) => (.error e, p)

/-- The first client, created on demand. -/
def getRedisDb (p : Package) : Except ManagerPanic (Option RedisCmd) × Package :=
  let (outcome, p) := p.ensureRedisInitialized
  (outcome.map fun _ => p.redisCon, p)

/-- The clients of a manager, of an empty one if there is none yet. -/
def clients (p : Package) : String → Option RedisCmd := p.manager.getD fun _ => none

/-- The clients by name, created on demand. -/
def getRedisManager (p : Package) :
    Except ManagerPanic (String → Option RedisCmd) × Package :=
  let (outcome, p) := p.ensureRedisInitialized
  (outcome.map fun _ => p.clients, p)

/-- The caller recovers from every panic. -/
def step (p : Package) : ManagerCall → Option Package
  | .init config => some (p.init config).2
  | .getRedisDb => some p.getRedisDb.2
  | .getRedisManager => some p.getRedisManager.2

/-- All sequences of calls. -/
def calls : System Package ManagerCall where
  init p := p = start
  step := step

/-- The names in a list of configurations. -/
def names (cs : List (Option Config)) : List String := cs.filterMap (Option.map Config.name)

/-- No client is published. -/
def Unpublished (p : Package) : Prop := p.redisCon = none ∧ ∀ name, p.clients name = none

/-- The manager has a client for every name in a list, and the default is that of the first. -/
def Serves (p : Package) (cs : List (Option Config)) : Prop :=
  (∀ name ∈ names cs, (p.clients name).isSome = true) ∧
    ∃ first rest, cs = some first :: rest ∧ p.redisCon = p.clients first.name

/-- The package serves all clients or none. -/
def AllOrNothing (p : Package) : Prop := p.Unpublished ∨ p.Serves p.managerConfig

/-- A client can be created. -/
def Opens (c : Option Config) : Prop := ∃ cfg ∈ c, cfg.addrs ≠ []

/-- Nothing is created, or every client is and the first keeps its name. -/
def Sound : List (Option Config) → Prop
  | [] => True
  | c :: cs => ¬Opens c ∨ (∀ c' ∈ cs, Opens c') ∧ ∀ cfg ∈ c, cfg.name ∉ names cs

/-- Clients are created only from a sound list, and once there are any, only lists are loaded that
they serve. -/
def Safe (p : Package) : ManagerCall → Prop
  | .init config => ∀ cs, load config = .ok cs → p.Unpublished ∨ p.Serves cs
  | .getRedisDb | .getRedisManager => p.managerOnce = false → Sound p.managerConfig

section Creation

variable {c : Option Config} {cs : List (Option Config)} {cfg : Config} {index : Nat}
  {redisCmds redisCmds' : String → Option RedisCmd}

private theorem opens_some : Opens (some cfg) ↔ cfg.addrs ≠ [] := by
  simp [Opens]

private theorem newRedisCmd_of_addrs (id : Nat) (h : cfg.addrs ≠ []) :
    ∃ cli : RedisCmd, newRedisCmd id cfg = .ok cli ∧ cli.id = id := by
  cases haddrs : cfg.addrs with
  | nil => exact absurd haddrs h
  | cons addr addrs =>
    unfold newRedisCmd
    rw [haddrs]
    exact ⟨_, rfl, rfl⟩

/-- A configuration that opens adds a new client under its name. -/
theorem createAll_of_opens (h : cfg.addrs ≠ []) (index : Nat) (p : Package)
    (redisCmds : String → Option RedisCmd) (cs : List (Option Config)) :
    ∃ cli : RedisCmd, cli.id = p.created ∧ createAll index p redisCmds (some cfg :: cs) =
      createAll (index + 1)
        { p with
          redisCon := if index = 0 then some cli else p.redisCon, created := p.created + 1 }
        (update redisCmds cfg.name (some cli)) cs := by
  obtain ⟨cli, hnew, hid⟩ := newRedisCmd_of_addrs p.created h
  refine ⟨cli, hid, ?_⟩
  rw [createAll, hnew]

/-- At one that does not, nothing more happens. -/
theorem createAll_of_not_opens (h : ¬Opens c) (index : Nat) (p : Package)
    (redisCmds : String → Option RedisCmd) (cs : List (Option Config)) :
    ∃ e, createAll index p redisCmds (c :: cs) = (.error e, p) := by
  cases c with
  | none => exact ⟨_, rfl⟩
  | some cfg =>
    have haddrs : cfg.addrs = [] := not_not.mp fun haddrs => h (opens_some.mpr haddrs)
    refine ⟨.addrsEmpty, ?_⟩
    rw [createAll, newRedisCmd, haddrs]

/-- What creating the clients of a list after the first leaves unchanged, and what it adds. -/
structure Added (p : Package) (redisCmds : String → Option RedisCmd) (cs : List (Option Config))
    (outcome : Except ManagerPanic (String → Option RedisCmd)) (p' : Package) : Prop where
  config : p'.managerConfig = p.managerConfig
  once : p'.managerOnce = p.managerOnce
  redisCon : p'.redisCon = p.redisCon
  manager : p'.manager = p.manager
  failed : ∀ e, outcome = .error e → ∃ c ∈ cs, ¬Opens c
  opens : ∀ redisCmds', outcome = .ok redisCmds' → ∀ c ∈ cs, Opens c
  kept : ∀ redisCmds', outcome = .ok redisCmds' →
    ∀ name ∉ names cs, redisCmds' name = redisCmds name
  added : ∀ redisCmds', outcome = .ok redisCmds' →
    ∀ name ∈ names cs, ∃ cli : RedisCmd, redisCmds' name = some cli ∧ p.created ≤ cli.id

/-- By induction on the list. A later client may replace one of the same name. -/
theorem added_createAll (cs : List (Option Config)) :
    ∀ (index : Nat) (p : Package) (redisCmds : String → Option RedisCmd), index ≠ 0 →
      Added p redisCmds cs (createAll index p redisCmds cs).1
        (createAll index p redisCmds cs).2 := by
  induction cs with
  | nil =>
    intro index p redisCmds hindex
    refine ⟨rfl, rfl, rfl, rfl, nofun, nofun, ?_, nofun⟩
    rintro redisCmds' ⟨⟩ name _
    rfl
  | cons c cs ih =>
    intro index p redisCmds hindex
    by_cases hopens : Opens c
    · obtain ⟨cfg, rfl, haddrs⟩ := hopens
      obtain ⟨cli, hid, heq⟩ := createAll_of_opens haddrs index p redisCmds cs
      rw [heq, if_neg hindex]
      have hrest := ih (index + 1) { p with created := p.created + 1 }
        (update redisCmds cfg.name (some cli)) (Nat.succ_ne_zero index)
      refine ⟨hrest.config, hrest.once, hrest.redisCon, hrest.manager, fun e he => ?_,
        fun redisCmds' hok => ?_, fun redisCmds' hok name hname => ?_,
        fun redisCmds' hok name hname => ?_⟩
      · obtain ⟨c, hc, hnot⟩ := hrest.failed e he
        exact ⟨c, List.mem_cons_of_mem _ hc, hnot⟩
      · exact List.forall_mem_cons.mpr ⟨opens_some.mpr haddrs, hrest.opens redisCmds' hok⟩
      · have hnot : name ≠ cfg.name ∧ name ∉ names cs := not_or.mp (by simpa [names] using hname)
        rw [hrest.kept redisCmds' hok name hnot.2, update_of_ne hnot.1]
      · by_cases hlater : name ∈ names cs
        · obtain ⟨cli', hcli, hle⟩ := hrest.added redisCmds' hok name hlater
          exact ⟨cli', hcli, Nat.le_of_succ_le hle⟩
        · have hname : name = cfg.name := by
            rcases List.mem_cons.mp hname with hname | hname
            · exact hname
            · exact absurd hname hlater
          refine ⟨cli, ?_, Nat.le_of_eq hid.symm⟩
          rw [hrest.kept redisCmds' hok name hlater, hname, update_self]
    · obtain ⟨e, heq⟩ := createAll_of_not_opens hopens index p redisCmds cs
      rw [heq]
      exact ⟨rfl, rfl, rfl, rfl, fun _ _ => ⟨c, List.mem_cons_self .., hopens⟩, nofun, nofun,
        nofun⟩

end Creation

/-- What asking for a client does to the variables. -/
inductive Ensured (p : Package) : Package → Prop
  | skipped (h : p.managerOnce = false → p.managerConfig = []) : Ensured p p
  /-- The first client cannot be created. -/
  | refused {c : Option Config} {cs : List (Option Config)} (hconfig : p.managerConfig = c :: cs)
    (hopens : ¬Opens c) : Ensured p { p with managerOnce := true }
  /-- The first is created, and a later one cannot be. -/
  | stuck {first : Config} {cs : List (Option Config)} {p' : Package} {cli : RedisCmd}
    (hconfig : p.managerConfig = some first :: cs) (honce : p.managerOnce = false)
    (hfailed : ∃ c ∈ cs, ¬Opens c) (hcon : p'.redisCon = some cli)
    (hopens : first.addrs ≠ [])
    (hsame : p'.managerConfig = p.managerConfig ∧ p'.managerOnce = true ∧
      p'.manager = p.manager) : Ensured p p'
  | created {first : Config} {cs : List (Option Config)} {p' : Package} {cli : RedisCmd}
    (hconfig : p.managerConfig = some first :: cs) (honce : p.managerOnce = false)
    (hopens : first.addrs ≠ []) (hall : ∀ c ∈ cs, Opens c) (hcon : p'.redisCon = some cli)
    (hsame : p'.managerConfig = p.managerConfig ∧ p'.managerOnce = true)
    (hfirst : first.name ∉ names cs → p'.clients first.name = some cli)
    (hlater : ∀ name ∈ names cs, ∃ cli', p'.clients name = some cli' ∧ cli' ≠ cli) :
    Ensured p p'

private theorem ensured (p : Package) : p.Ensured p.ensureRedisInitialized.2 := by
  rcases p with ⟨config, _ | _, con, manager, made⟩
  · cases config with
    | nil => exact .skipped fun _ => rfl
    | cons c cs =>
      unfold ensureRedisInitialized
      rw [if_neg (by simp)]
      by_cases hopens : Opens c
      · obtain ⟨first, rfl, haddrs⟩ := hopens
        obtain ⟨cli, hid, heq⟩ := createAll_of_opens haddrs 0 ⟨some first :: cs, true, con, manager,
          made⟩ (fun _ => none) cs
        rw [heq, if_pos rfl]
        have hadded := added_createAll cs (0 + 1) ⟨some first :: cs, true, some cli, manager,
          made + 1⟩ (update (fun _ => none) first.name (some cli)) Nat.one_ne_zero
        rcases hrest : createAll (0 + 1) ⟨some first :: cs, true, some cli, manager, made + 1⟩
          (update (fun _ => none) first.name (some cli)) cs with ⟨e | redisCmds, p'⟩
        · rw [hrest] at hadded
          exact .stuck rfl rfl (hadded.failed e rfl) hadded.redisCon haddrs
            ⟨hadded.config, hadded.once, hadded.manager⟩
        · rw [hrest] at hadded
          refine .created rfl rfl haddrs (hadded.opens redisCmds rfl) hadded.redisCon
            ⟨hadded.config, hadded.once⟩ (fun hname => ?_) (fun name hname => ?_)
          · exact (hadded.kept redisCmds rfl _ hname).trans (update_self ..)
          · obtain ⟨cli', hcli, hle⟩ := hadded.added redisCmds rfl name hname
            refine ⟨cli', hcli, ?_⟩
            rintro rfl
            rw [hid] at hle
            exact Nat.not_succ_le_self _ hle
      · obtain ⟨e, heq⟩ := createAll_of_not_opens hopens 0 ⟨c :: cs, true, con, manager, made⟩
          (fun _ => none) cs
        rw [heq]
        exact .refused rfl hopens
  · unfold ensureRedisInitialized
    rw [if_pos (.inr rfl)]
    exact .skipped nofun

/-- Before the attempt nothing is published. -/
def Fresh (p : Package) : Prop := p.managerOnce = false → p.redisCon = none ∧ p.manager = none

private theorem Fresh.ensured (h : p.Fresh) (hensured : p.Ensured p') : p'.Fresh := by
  cases hensured with
  | skipped => exact h
  | refused => exact nofun
  | stuck _ _ _ _ _ hsame =>
    intro honce
    rw [hsame.2.1] at honce
    cases honce
  | created _ _ _ _ _ hsame =>
    intro honce
    rw [hsame.2] at honce
    cases honce

private theorem Fresh.step (h : p.Fresh) (hstep : p.step l = some p') : p'.Fresh := by
  cases l with
  | init config =>
    cases hstep
    unfold init
    cases load config <;> exact h
  | getRedisDb =>
    cases hstep
    exact h.ensured p.ensured
  | getRedisManager =>
    cases hstep
    exact h.ensured p.ensured

private theorem Fresh.unpublished (h : p.Fresh) (honce : p.managerOnce = false) :
    p.Unpublished := by
  refine ⟨(h honce).1, fun name => ?_⟩
  rw [clients, (h honce).2]
  rfl

private theorem not_unpublished_of_redisCon {cli : RedisCmd} (hcon : p.redisCon = some cli) :
    ¬p.Unpublished := by
  intro h
  rw [h.1] at hcon
  cases hcon

private theorem mem_names_cons (first : Config) (cs : List (Option Config)) (name : String) :
    name ∈ names (some first :: cs) ↔ name = first.name ∨ name ∈ names cs := by
  simp [names]

/-- When the attempt comes to its end, all is published exactly if the first client keeps its
name. -/
theorem allOrNothing_of_created {first : Config} {cs : List (Option Config)} {cli : RedisCmd}
    (hconfig : p'.managerConfig = some first :: cs) (hcon : p'.redisCon = some cli)
    (hfirst : first.name ∉ names cs → p'.clients first.name = some cli)
    (hlater : ∀ name ∈ names cs, ∃ cli', p'.clients name = some cli' ∧ cli' ≠ cli) :
    p'.AllOrNothing ↔ first.name ∉ names cs := by
  constructor
  · rintro (hnone | ⟨-, first', rest, hlist, hdefault⟩) hmem
    · exact not_unpublished_of_redisCon hcon hnone
    · rw [hconfig] at hlist
      cases hlist
      obtain ⟨cli', hcli, hne⟩ := hlater first.name hmem
      rw [hcon, hcli] at hdefault
      exact hne (Option.some.inj hdefault).symm
  · intro hnot
    refine .inr ⟨fun name hname => ?_, first, cs, hconfig, ?_⟩
    · rw [hconfig, mem_names_cons] at hname
      rcases hname with rfl | hname
      · rw [hfirst hnot]
        rfl
      · obtain ⟨cli', hcli, -⟩ := hlater name hname
        rw [hcli]
        rfl
    · rw [hcon, hfirst hnot]

private theorem allOrNothing_ensured_iff (hfresh : p.Fresh) (h : p.AllOrNothing)
    (hensured : p.Ensured p') :
    p'.AllOrNothing ↔ (p.managerOnce = false → Sound p.managerConfig) := by
  cases hensured with
  | skipped hskip =>
    refine iff_of_true h fun honce => ?_
    rw [hskip honce]
    trivial
  | @refused c cs hconfig hopens =>
    by_cases honce : p.managerOnce = false
    · refine iff_of_true (.inl (hfresh.unpublished honce)) fun _ => ?_
      rw [hconfig]
      exact .inl hopens
    · exact iff_of_true h fun hfalse => absurd hfalse honce
  | @stuck first cs _ cli hconfig honce hfailed hcon hopens hsame =>
    refine iff_of_false ?_ fun hsound => ?_
    · rintro (hnone | ⟨hnames, -⟩)
      · exact not_unpublished_of_redisCon hcon hnone
      · rw [hsame.1, hconfig] at hnames
        have hsome := hnames first.name ((mem_names_cons ..).mpr (.inl rfl))
        rw [clients, hsame.2.2, (hfresh honce).2] at hsome
        cases hsome
    · obtain ⟨c, hc, hnot⟩ := hfailed
      have hsound := hsound honce
      rw [hconfig] at hsound
      rcases hsound with hnone | ⟨hall, -⟩
      · exact hnone (opens_some.mpr hopens)
      · exact hnot (hall c hc)
  | @created first cs _ cli hconfig honce hopens hall hcon hsame hfirst hlater =>
    rw [allOrNothing_of_created (hsame.1.trans hconfig) hcon hfirst hlater, hconfig]
    constructor
    · intro hnot _
      refine .inr ⟨hall, fun cfg hcfg => ?_⟩
      cases hcfg
      exact hnot
    · intro hsound
      rcases hsound honce with hnone | ⟨-, hname⟩
      · exact absurd (opens_some.mpr hopens) hnone
      · exact hname first rfl

/-- A call keeps all or nothing published exactly when it is safe. -/
theorem AllOrNothing.step_iff (hfresh : p.Fresh) (h : p.AllOrNothing)
    (hstep : p.step l = some p') : p'.AllOrNothing ↔ p.Safe l := by
  cases l with
  | init config =>
    cases hstep
    unfold init Safe
    cases hload : load config with
    | error e =>
      refine iff_of_true h fun cs hok => ?_
      rw [hload] at hok
      cases hok
    | ok cs =>
      constructor
      · intro hall cs' hok
        cases hload.symm.trans hok
        exact hall
      · exact fun hall => hall cs hload
  | getRedisDb =>
    cases hstep
    exact allOrNothing_ensured_iff hfresh h p.ensured
  | getRedisManager =>
    cases hstep
    exact allOrNothing_ensured_iff hfresh h p.ensured

/-- In every sequence of calls, all or nothing is published in every state exactly when every call
is safe. -/
theorem allOrNothing_iff_safe {ls : List ManagerCall} {p : Package}
    (hrun : calls.run start ls = some p) :
    (∀ before after q, ls = before ++ after → calls.run start before = some q →
      q.AllOrNothing) ↔ calls.Guarded Safe start ls :=
  calls.forall_states_iff_guarded (fun _ _ _ => Fresh.step) (fun _ _ _ => AllOrNothing.step_iff)
    (fun _ => ⟨rfl, rfl⟩) (.inl ⟨rfl, fun _ => rfl⟩) hrun

/-- A configuration with a name and addresses. -/
def server (name : String) (addrs : List String) : Config :=
  ⟨name, addrs, "", 0, 0, 0, 0, false, 0, 0, false, none⟩

/-- Two servers, and calls for a client and the manager. -/
def twoServers : List ManagerCall :=
  [.init (.multiple [some (server "default" ["a:6379"]), some (server "cache" ["b:6379"])]),
    .getRedisDb, .getRedisManager]

/-- Both servers answer. -/
theorem allOrNothing_twoServers :
    ∃ p, calls.run start twoServers = some p ∧ p.redisCon.isSome = true ∧ p.AllOrNothing := by
  refine ⟨_, rfl, rfl, (allOrNothing_iff_safe rfl).mpr ?_ twoServers [] _ rfl rfl⟩
  refine ⟨fun cs _ => .inl ⟨rfl, fun _ => rfl⟩, fun p hstep => ?_⟩
  cases hstep
  refine ⟨fun _ => .inr ⟨by simp [Opens, server], by simp [names, server]⟩, fun p hstep => ?_⟩
  cases hstep
  exact ⟨nofun, fun _ _ => trivial⟩

/-- With a second configuration without addresses, the default client is published and the manager
stays empty. With a second configuration of the same name, the default client is not the one under
its name. -/
theorem half_published :
    (∃ p, calls.run start
        [.init (.multiple [some (server "default" ["a:6379"]), some (server "cache" [])]),
          .getRedisDb] = some p ∧
      p.redisCon.isSome = true ∧ p.clients "default" = none ∧ ¬p.AllOrNothing) ∧
    ∃ p, calls.run start
        [.init (.multiple [some (server "default" ["a:6379"]),
          some (server "default" ["b:6379"])]), .getRedisDb] = some p ∧
      p.redisCon.map RedisCmd.id = some 0 ∧ (p.clients "default").map RedisCmd.id = some 1 ∧
      ¬p.AllOrNothing := by
  refine ⟨⟨_, rfl, rfl, rfl, ?_⟩, ⟨_, rfl, rfl, rfl, ?_⟩⟩
  · rintro (⟨hnone, -⟩ | ⟨hnames, -⟩)
    · cases hnone
    · exact absurd (hnames "default" (List.mem_cons_self ..)) Bool.false_ne_true
  · rintro (⟨hnone, -⟩ | ⟨-, first, rest, hlist, hdefault⟩)
    · cases hnone
    · cases hlist
      cases hdefault

end Package

end Stardust.Redis
