import Stardust.Core.System
import Stardust.Register.Etcd

/-!
# The register as a set of instances

A register is meant to be a set: registering adds an instance, deregistering removes the one
with the given identifier. The set is recorded beside the store by what the calls mean, and
the keys in the store are compared with it after every call. The register remembers one lease,
that of the last registration, so the two agree as long as only the last registered instance
is deregistered.
-/

namespace Stardust.Register

open Stardust.Core

/-- A call on the register. -/
inductive InstanceCall where
  | register (info : ServiceInfo)
  | deregister (serviceID : String)
  deriving DecidableEq, Repr

/-- A register with its store, and beside them the set it stands for. -/
structure Instances where
  register : EtcdRegister
  etcd : Etcd
  /-- The instances registered and not deregistered by their own identifier. -/
  live : List ServiceInfo
  /-- All instances ever registered, the last one first. -/
  registered : List ServiceInfo

variable {s s' : Instances}

namespace Instances

/-- One call whose requests all succeed. Identifiers are not registered twice. -/
def step (s : Instances) : InstanceCall → Option Instances
  | .register info =>
    if ∃ other ∈ s.registered, other.id = info.id then none
    else
      match s.register.register s.etcd .none info with
      | (register, etcd, none) => some ⟨register, etcd, info :: s.live, info :: s.registered⟩
      | (_, _, some _) => none
  | .deregister serviceID =>
    match s.register.deregister s.etcd none serviceID with
    | (etcd, none) =>
      some { s with etcd := etcd, live := s.live.filter (·.id ≠ serviceID) }
    | (_, some _) => none

/-- A new register on a store that has no instance keys yet. -/
def Fresh (s : Instances) : Prop :=
  (∃ config, s.register = newEtcdRegister config) ∧ s.live = [] ∧ s.registered = [] ∧
    ∀ entry ∈ s.etcd.entries, under s.register.keyPrefix entry.key = false

/-- Sequences of calls on one register. -/
def instances : System Instances InstanceCall := ⟨Fresh, step⟩

/-- The store has the entry of an instance. -/
def Present (s : Instances) (key : String) (value : Value) : Prop :=
  ∃ entry ∈ s.etcd.entries,
    under s.register.keyPrefix entry.key = true ∧ entry.key = key ∧ entry.value = value

/-- The instance keys in the store are exactly those of the set. -/
def Exact (s : Instances) : Prop :=
  ∀ key value, s.Present key value ↔
    ∃ info ∈ s.live, key = s.register.serviceKey info ∧ value = .service info

/-- A registration uses a key of its own, and a deregistration that removes an instance of the
set is for the last registered one and removes no other. -/
def Fits (s : Instances) : InstanceCall → Prop
  | .register info => ∀ other ∈ s.live, s.register.serviceKey other ≠ s.register.serviceKey info
  | .deregister serviceID =>
    ∀ info ∈ s.live, info.id = serviceID ↔ s.registered.head? = some info

instance (s : Instances) : ∀ call, Decidable (s.Fits call)
  | .register info => inferInstanceAs (Decidable (∀ other ∈ s.live,
      s.register.serviceKey other ≠ s.register.serviceKey info))
  | .deregister serviceID => inferInstanceAs (Decidable (∀ info ∈ s.live,
      info.id = serviceID ↔ s.registered.head? = some info))

/-- What the remembered lease is bound to. -/
structure Tracked (s : Instances) : Prop where
  /-- Instance keys hold registered instances. -/
  recorded : ∀ entry ∈ s.etcd.entries, under s.register.keyPrefix entry.key = true →
    ∃ info ∈ s.registered, entry.value = .service info
  /-- The remembered lease is that of the last registered instance. -/
  newest : ∀ entry ∈ s.etcd.entries, under s.register.keyPrefix entry.key = true →
    (entry.lease = s.register.leaseID ↔
      ∃ info, s.registered.head? = some info ∧ entry.value = .service info)
  /-- There is a remembered lease from the first registration on. -/
  leased : s.register.leaseID = 0 → s.registered = []
  /-- The set has registered instances only. -/
  live : ∀ info ∈ s.live, info ∈ s.registered

/-- A registration: the new lease, the new entry and the new instance. -/
theorem step_register {info : ServiceInfo} (h : s.step (.register info) = some s') :
    (∀ other ∈ s.registered, other.id ≠ info.id) ∧
      s'.register = { s.register with leaseID := s.etcd.granted + 1 } ∧
      s'.etcd.entries = LeaseStore.putEntries s.etcd.entries
        ⟨s.register.serviceKey info, .service info, s.etcd.granted + 1⟩ ∧
      s'.live = info :: s.live ∧ s'.registered = info :: s.registered := by
  obtain ⟨etcd', hregister, hentries⟩ := s.register.register_spec s.etcd info
  simp only [step, hregister] at h
  split at h
  · cases h
  · next hnew =>
    cases h
    refine ⟨fun other hother heq => hnew ⟨other, hother, heq⟩, rfl, hentries, rfl, rfl⟩

/-- A deregistration: nothing happens without a lease, and otherwise its entries go. -/
theorem step_deregister {serviceID : String} (h : s.step (.deregister serviceID) = some s') :
    s'.register = s.register ∧ s'.live = s.live.filter (·.id ≠ serviceID) ∧
      s'.registered = s.registered ∧
      (s.register.leaseID = 0 ∧ s'.etcd = s.etcd ∨ s.register.leaseID ≠ 0 ∧
        s'.etcd.entries = s.etcd.entries.filter (·.lease ≠ s.register.leaseID)) := by
  simp only [step] at h
  split at h
  · next hderegister =>
    cases h
    exact ⟨rfl, rfl, rfl, EtcdRegister.deregister_spec hderegister⟩
  · cases h

/-- A new register has nothing to track. -/
theorem Fresh.tracked {s : Instances} (h : s.Fresh) : s.Tracked := by
  obtain ⟨-, hlive, hregistered, hnone⟩ := h
  have habsent : ∀ entry ∈ s.etcd.entries, ¬ under s.register.keyPrefix entry.key = true := by
    intro entry hentry
    simp [hnone entry hentry]
  exact
    { recorded := fun entry hentry hunder => absurd hunder (habsent entry hentry)
      newest := fun entry hentry hunder => absurd hunder (habsent entry hentry)
      leased := fun _ => hregistered
      live := by simp [hlive] }

/-- A new register stands for the empty set. -/
theorem Fresh.exact {s : Instances} (h : s.Fresh) : s.Exact := by
  obtain ⟨-, hlive, -, hnone⟩ := h
  intro key value
  constructor
  · rintro ⟨entry, hentry, hunder, -⟩
    simp [hnone entry hentry] at hunder
  · rintro ⟨info, hinfo, -⟩
    simp [hlive] at hinfo

/-- Every call keeps track of the last registered instance. -/
theorem Tracked.step {call : InstanceCall} (ht : s.Tracked) (h : s.step call = some s') :
    s'.Tracked := by
  cases call with
  | register info =>
    obtain ⟨hnew, hregister, hentries, hlive, hregistered⟩ := step_register h
    have hcases : ∀ entry ∈ s'.etcd.entries,
        entry.value = .service info ∧ entry.lease = s.etcd.granted + 1 ∨
          entry ∈ s.etcd.entries := by
      intro entry hentry
      rw [hentries, LeaseStore.mem_putEntries] at hentry
      rcases hentry with rfl | ⟨hentry, -⟩
      · exact Or.inl ⟨rfl, rfl⟩
      · exact Or.inr hentry
    refine ⟨?_, ?_, ?_, ?_⟩
    · intro entry hentry hunder
      rw [hregister] at hunder
      rw [hregistered]
      rcases hcases entry hentry with ⟨hvalue, -⟩ | hold
      · exact ⟨info, List.mem_cons_self .., hvalue⟩
      · obtain ⟨other, hother, hvalue⟩ := ht.recorded entry hold hunder
        exact ⟨other, List.mem_cons_of_mem _ hother, hvalue⟩
    · intro entry hentry hunder
      rw [hregister] at hunder ⊢
      simp only [hregistered, List.head?_cons, Option.some.injEq, exists_eq_left']
      rcases hcases entry hentry with ⟨hvalue, hlease⟩ | hold
      · exact iff_of_true hlease hvalue
      · obtain ⟨other, hother, hvalue⟩ := ht.recorded entry hold hunder
        refine iff_of_false ?_ ?_
        · have hle := s.etcd.lease_le_granted hold
          omega
        · rw [hvalue, Value.service.injEq]
          rintro rfl
          exact hnew other hother rfl
    · intro hzero
      rw [hregister] at hzero
      exact absurd hzero (Nat.succ_ne_zero _)
    · rw [hlive, hregistered]
      exact fun other hother => (List.mem_cons.mp hother).elim
        (fun heq => heq ▸ List.mem_cons_self ..) fun hold => List.mem_cons_of_mem _ (ht.live _ hold)
  | deregister serviceID =>
    obtain ⟨hregister, hlive, hregistered, hetcd⟩ := step_deregister h
    have hsub : ∀ entry ∈ s'.etcd.entries, entry ∈ s.etcd.entries := by
      intro entry hentry
      rcases hetcd with ⟨-, heq⟩ | ⟨-, hentries⟩
      · rwa [heq] at hentry
      · exact List.mem_of_mem_filter (hentries ▸ hentry)
    refine ⟨?_, ?_, ?_, ?_⟩
    · intro entry hentry
      rw [hregister, hregistered]
      exact ht.recorded entry (hsub entry hentry)
    · intro entry hentry
      rw [hregister, hregistered]
      exact ht.newest entry (hsub entry hentry)
    · rw [hregister, hregistered]
      exact ht.leased
    · rw [hlive, hregistered]
      exact fun info hinfo => ht.live info (List.mem_of_mem_filter hinfo)

/-- A registration leaves the set exact exactly when its key is not in use. -/
theorem exact_register {info : ServiceInfo} (ht : s.Tracked) (he : s.Exact)
    (h : s.step (.register info) = some s') : s'.Exact ↔ s.Fits (.register info) := by
  obtain ⟨hnew, hregister, hentries, hlive, -⟩ := step_register h
  have hpresent : ∀ key value, s'.Present key value ↔
      key = s.register.serviceKey info ∧ value = .service info ∨
        s.Present key value ∧ key ≠ s.register.serviceKey info := by
    intro key value
    simp only [Present, hregister, hentries, LeaseStore.mem_putEntries]
    constructor
    · rintro ⟨entry, rfl | ⟨hold, hkey⟩, hunder, rfl, rfl⟩
      · exact Or.inl ⟨rfl, rfl⟩
      · exact Or.inr ⟨⟨entry, hold, hunder, rfl, rfl⟩, hkey⟩
    · rintro (⟨rfl, rfl⟩ | ⟨⟨entry, hold, hunder, rfl, rfl⟩, hkey⟩)
      · exact ⟨_, Or.inl rfl, s.register.under_serviceKey info, rfl, rfl⟩
      · exact ⟨entry, Or.inr ⟨hold, hkey⟩, hunder, rfl, rfl⟩
  have hkeys : ∀ other, s'.register.serviceKey other = s.register.serviceKey other := by
    rw [hregister]
    exact fun _ => rfl
  constructor
  · intro he' other hother heq
    have hfound := (he' (s.register.serviceKey other) (.service other)).mpr
      ⟨other, by rw [hlive]; exact List.mem_cons_of_mem _ hother, (hkeys other).symm, rfl⟩
    rcases (hpresent _ _).mp hfound with ⟨-, hsame⟩ | ⟨-, hne⟩
    · rw [Value.service.injEq] at hsame
      exact hnew other (ht.live other hother) (congrArg ServiceInfo.id hsame)
    · exact hne heq
  · intro hfits key value
    rw [hpresent, hlive, he key value]
    simp only [hkeys, List.exists_mem_cons_iff]
    constructor
    · rintro (hthis | ⟨hother, -⟩)
      · exact Or.inl hthis
      · exact Or.inr hother
    · rintro (hthis | ⟨other, hother, rfl, rfl⟩)
      · exact Or.inl hthis
      · exact Or.inr ⟨⟨other, hother, rfl, rfl⟩, hfits other hother⟩

/-- Of the instances in the set, a deregistration with a lease leaves all but the last one. -/
theorem present_deregister {serviceID : String} (ht : s.Tracked) (he : s.Exact)
    (h : s.step (.deregister serviceID) = some s') (key : String) (value : Value) :
    s'.Present key value ↔ ∃ info ∈ s.live, s.registered.head? ≠ some info ∧
      key = s.register.serviceKey info ∧ value = .service info := by
  obtain ⟨hregister, -, -, hetcd⟩ := step_deregister h
  rcases hetcd with ⟨hzero, heq⟩ | ⟨-, hentries⟩
  · have hempty := ht.leased hzero
    have hlive : ∀ info, info ∉ s.live := fun info hinfo => by
      simpa [hempty] using ht.live info hinfo
    have hsame : s'.Present key value ↔ s.Present key value := by
      simp only [Present, hregister, heq]
    rw [hsame, he key value]
    simp [hlive]
  · simp only [Present, hregister, hentries, List.mem_filter, decide_eq_true_eq]
    constructor
    · rintro ⟨entry, ⟨hold, hlease⟩, hunder, rfl, rfl⟩
      obtain ⟨info, hinfo, hkey, hvalue⟩ := (he _ _).mp ⟨entry, hold, hunder, rfl, rfl⟩
      refine ⟨info, hinfo, fun hhead => hlease ?_, hkey, hvalue⟩
      exact (ht.newest entry hold hunder).mpr ⟨info, hhead, hvalue⟩
    · rintro ⟨info, hinfo, hhead, rfl, rfl⟩
      obtain ⟨entry, hold, hunder, hkey, hvalue⟩ := (he _ _).mpr ⟨info, hinfo, rfl, rfl⟩
      refine ⟨entry, ⟨hold, fun hlease => hhead ?_⟩, hunder, hkey, hvalue⟩
      obtain ⟨last, hlast, hsame⟩ := (ht.newest entry hold hunder).mp hlease
      rw [hvalue, Value.service.injEq] at hsame
      rw [hlast, hsame]

/-- A deregistration leaves the set exact exactly when the instance it is for, if any, is the
last registered one. -/
theorem exact_deregister {serviceID : String} (ht : s.Tracked) (he : s.Exact)
    (h : s.step (.deregister serviceID) = some s') : s'.Exact ↔ s.Fits (.deregister serviceID) := by
  obtain ⟨hregister, hlive, -, -⟩ := step_deregister h
  simp only [Exact, present_deregister ht he h, hregister, hlive, List.mem_filter,
    decide_eq_true_eq, Fits]
  constructor
  · intro he' info hinfo
    have hthis := he' (s.register.serviceKey info) (.service info)
    constructor
    · intro hid
      by_contra hhead
      obtain ⟨other, ⟨-, hother⟩, -, hsame⟩ := hthis.mp ⟨info, hinfo, hhead, rfl, rfl⟩
      rw [Value.service.injEq] at hsame
      exact hother (hsame ▸ hid)
    · intro hhead
      by_contra hid
      obtain ⟨other, -, hother, -, hsame⟩ := hthis.mpr ⟨info, ⟨hinfo, hid⟩, rfl, rfl⟩
      rw [Value.service.injEq] at hsame
      exact hother (hsame ▸ hhead)
  · intro hfits key value
    constructor
    · rintro ⟨info, hinfo, hhead, hkey, hvalue⟩
      exact ⟨info, ⟨hinfo, fun hid => hhead ((hfits info hinfo).mp hid)⟩, hkey, hvalue⟩
    · rintro ⟨info, ⟨hinfo, hid⟩, hkey, hvalue⟩
      exact ⟨info, hinfo, fun hhead => hid ((hfits info hinfo).mpr hhead), hkey, hvalue⟩

/-- The store is exact after every call of a sequence exactly when each registration uses a key
of its own and each deregistration is for the instance registered last. -/
theorem instances_exact_iff_deregister_last {calls : List InstanceCall} (hinit : instances.init s)
    (hrun : instances.run s calls = some s') :
    (∀ before after t, calls = before ++ after → instances.run s before = some t → t.Exact) ↔
      instances.Guarded Fits s calls := by
  refine instances.forall_states_iff_guarded (I := Tracked) ?_ ?_ hinit.tracked hinit.exact hrun
  · intro t call t' ht hstep
    exact ht.step hstep
  · intro t call t' ht he hstep
    cases call with
    | register info => exact exact_register ht he hstep
    | deregister serviceID => exact exact_deregister ht he hstep

/-- A new register on an empty store. -/
def emptyInstances : Instances := ⟨newEtcdRegister ⟨0⟩, LeaseStore.empty, [], []⟩

private theorem emptyInstances_init : instances.init emptyInstances :=
  ⟨⟨⟨0⟩, rfl⟩, rfl, rfl, by simp [emptyInstances, LeaseStore.empty]⟩

/-- An instance of a service on a port. -/
def instanceOn (serviceID : String) (port : Int) : ServiceInfo :=
  ⟨"users", serviceID, "10.0.0.1", port, [], []⟩

/-- Two registrations of which the last is undone. -/
theorem instances_exact_last_undone :
    instances.Guarded Fits emptyInstances
        [.register (instanceOn "a" 8080), .register (instanceOn "b" 8081), .deregister "b"] ∧
      ∃ s', instances.run emptyInstances
        [.register (instanceOn "a" 8080), .register (instanceOn "b" 8081), .deregister "b"] =
          some s' ∧ s'.live = [instanceOn "a" 8080] ∧ s'.Exact := by
  have hguard : instances.Guarded Fits emptyInstances
      [.register (instanceOn "a" 8080), .register (instanceOn "b" 8081), .deregister "b"] := by
    decide
  refine ⟨hguard, _, rfl, by decide, ?_⟩
  exact (instances_exact_iff_deregister_last emptyInstances_init rfl).mpr hguard _ [] _
    (List.append_nil _).symm rfl

/-- Deregistering the first of two instances removes the second and leaves the first. -/
theorem deregister_removes_other_instance : ∃ s', instances.init emptyInstances ∧
      instances.run emptyInstances
        [.register (instanceOn "a" 8080), .register (instanceOn "b" 8081), .deregister "a"] =
          some s' ∧
      s'.live = [instanceOn "b" 8081] ∧
      s'.register.getService s'.etcd none "users" = .ok [instanceOn "a" 8080] ∧ ¬ s'.Exact := by
  refine ⟨_, emptyInstances_init, rfl, by decide, rfl, fun hexact => ?_⟩
  obtain ⟨entry, hentry, -, -, hvalue⟩ := (hexact "/services/users/b"
    (.service (instanceOn "b" 8081))).mpr ⟨instanceOn "b" 8081, by decide, by decide, rfl⟩
  revert hvalue
  revert entry
  decide

end Instances

end Stardust.Register
