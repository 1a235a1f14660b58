import Stardust.Core.LeaseStore
import Mathlib.Data.String.Basic

/-!
# The etcd register

etcd is a store of keys bound to leases, shared by all its clients; the register itself
remembers one lease. Whether a request reaches etcd is an input, the error of each failed
request being the text the client reports. A request that fails is not applied.
-/

namespace Stardust.Register

open Stardust.Core

/-- An instance of a service. -/
structure ServiceInfo where
  name : String
  /-- The identifier of the instance. -/
  id : String
  address : String
  port : Int
  tags : List String
  metaData : List (String × String)
  deriving DecidableEq, Repr

/-- A value in etcd, by what decoding it as an instance gives. -/
inductive Value where
  | service (info : ServiceInfo)
  | malformed (text : String)
  deriving DecidableEq, Repr

/-- The store of the etcd cluster. -/
abbrev Etcd := LeaseStore String Value

/-- The settings that the register reads. -/
structure EtcdConfig where
  /-- The time to live of leases in seconds. -/
  ttl : Int
  deriving DecidableEq, Repr

/-- The register of one process. -/
structure EtcdRegister where
  /-- The lease of the last registration, `0` before the first. -/
  leaseID : Nat
  /-- The time to live of new leases. -/
  ttl : Int
  /-- What the keys of all instances begin with. -/
  keyPrefix : String
  deriving DecidableEq, Repr

/-- A register without a lease. -/
def newEtcdRegister (config : EtcdConfig) : EtcdRegister where
  leaseID := 0
  ttl := if config.ttl > 0 then config.ttl else 10
  keyPrefix := "/services/"

/-- The errors of the requests of one registration, where they fail. -/
structure RegisterFaults where
  /-- The error of granting the lease. -/
  grant : Option String
  /-- The error of putting the key. -/
  put : Option String
  /-- The error of keeping the lease alive. -/
  keepAlive : Option String
  deriving DecidableEq, Repr

/-- No request of a registration fails. -/
def RegisterFaults.none : RegisterFaults := ⟨Option.none, Option.none, Option.none⟩

/-- The answer of etcd to a request that names a lease it does not hold. -/
def leaseNotFound : String := "etcdserver: requested lease not found"

/-- Whether a key lies under a key that is used as a range. -/
def under (range key : String) : Bool := range.toList.isPrefixOf key.toList

variable (r : EtcdRegister) (etcd : Etcd)

namespace EtcdRegister

/-- What the keys of the instances of a service begin with. -/
def serviceRange (serviceName : String) : String :=
  r.keyPrefix ++ serviceName ++ "/"

/-- The key of an instance. -/
def serviceKey (info : ServiceInfo) : String :=
  r.keyPrefix ++ info.name ++ "/" ++ info.id

/-- Register an instance under a lease of its own, which replaces the remembered one. -/
def register (faults : RegisterFaults) (info : ServiceInfo) : EtcdRegister × Etcd × Option String :=
  match faults.grant with
  | some err => (r, etcd, some err)
  | none =>
    let lease := etcd.granted + 1
    let etcd := etcd.grant r.ttl
    let r := { r with leaseID := lease }
    match faults.put with
    | some err => (r, etcd, some err)
    | none =>
      match etcd.put ⟨r.serviceKey info, .service info, lease⟩ with
      | none => (r, etcd, some leaseNotFound)
      | some etcd => (r, etcd, faults.keepAlive)

/-- Revoke the remembered lease; the identifier is not read. -/
def deregister (fault : Option String) (_serviceID : String) : Etcd × Option String :=
  if r.leaseID ≠ 0 then
    match fault with
    | some err => (etcd, some err)
    | none =>
      match etcd.revoke r.leaseID with
      | none => (etcd, some leaseNotFound)
      | some etcd => (etcd, none)
  else (etcd, none)

/-- The instance that a value decodes to; values that do not decode are skipped. -/
def decode : Value → Option ServiceInfo
  | .service info => some info
  | .malformed _ => none

/-- The instances of a service that etcd holds, in the order of their keys. -/
def services (serviceName : String) : List ServiceInfo :=
  (etcd.range (under (r.serviceRange serviceName))).filterMap fun entry => decode entry.value

/-- Ask for the instances of a service. -/
def getService (fault : Option String) (serviceName : String) : Except String (List ServiceInfo) :=
  match fault with
  | some err => .error err
  | none => .ok (r.services etcd serviceName)

/-- The key of an instance lies under the register's keys. -/
theorem under_serviceKey (info : ServiceInfo) : under r.keyPrefix (r.serviceKey info) = true := by
  rw [under, List.isPrefixOf_iff_prefix, serviceKey]
  simp only [String.toList_append, List.append_assoc]
  exact List.prefix_append ..

/-- A registration whose requests all succeed puts its key under a new lease. -/
theorem register_spec (info : ServiceInfo) :
    ∃ etcd' : Etcd, r.register etcd .none info =
        ({ r with leaseID := etcd.granted + 1 }, etcd', none) ∧
      etcd'.entries = LeaseStore.putEntries etcd.entries
        ⟨r.serviceKey info, .service info, etcd.granted + 1⟩ := by
  obtain ⟨etcd', hput⟩ : ∃ etcd', (etcd.grant r.ttl).put
      ⟨r.serviceKey info, .service info, etcd.granted + 1⟩ = some etcd' :=
    LeaseStore.put_of_holds (LeaseStore.grant_holds etcd r.ttl)
  refine ⟨etcd', ?_, (LeaseStore.put_entries hput).trans rfl⟩
  simp only [register, RegisterFaults.none]
  rw [show ({ r with leaseID := etcd.granted + 1 } : EtcdRegister).serviceKey info =
    r.serviceKey info from rfl, hput]

/-- A deregistration that reports no error removes what is bound to the remembered lease, or
nothing when there is none. -/
theorem deregister_spec {r : EtcdRegister} {etcd etcd' : Etcd} {fault : Option String}
    {serviceID : String} (h : r.deregister etcd fault serviceID = (etcd', none)) :
    r.leaseID = 0 ∧ etcd' = etcd ∨
      r.leaseID ≠ 0 ∧ etcd'.entries = etcd.entries.filter (·.lease ≠ r.leaseID) := by
  unfold deregister at h
  split at h
  · next hlease =>
    right
    split at h
    · simp at h
    · split at h
      · simp at h
      · next hrevoke =>
        cases h
        exact ⟨hlease, LeaseStore.revoke_entries hrevoke⟩
  · next hlease =>
    left
    cases h
    exact ⟨not_not.mp hlease, rfl⟩

end EtcdRegister

end Stardust.Register
