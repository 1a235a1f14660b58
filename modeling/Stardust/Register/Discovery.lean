import Stardust.Core.Text
import Stardust.Register.Etcd

/-!
# Finding the instances of a service

The name and the identifier of an instance are put together at a `/` to make its key, and a
service is looked up by the keys that begin with its name and a `/`. A name or an identifier with
a `/` of its own makes a key that begins with other names too.
-/

namespace Stardust.Register

open Stardust.Core

namespace EtcdRegister

/-- The store after a number of registrations, each by one of several registers; a registration
does not read the lease that its register remembers. -/
def registerAll (etcd : Etcd) : List (EtcdRegister × ServiceInfo) → Etcd
  | [] => etcd
  | (r, info) :: rest => registerAll (r.register etcd .none info).2.1 rest

/-- The keys in a store with their values, without the leases. -/
def bindings (etcd : Etcd) : List (String × Value) := etcd.entries.map fun e => (e.key, e.value)

/-- What a registration binds. -/
def binding (p : EtcdRegister × ServiceInfo) : String × Value :=
  (p.1.serviceKey p.2, .service p.2)

private theorem bindings_register (r : EtcdRegister) {etcd : Etcd} {info : ServiceInfo}
    (h : r.serviceKey info ∉ (bindings etcd).map Prod.fst) :
    (bindings (r.register etcd .none info).2.1).Perm (binding (r, info) :: bindings etcd) := by
  obtain ⟨etcd', hregister, hentries⟩ := r.register_spec etcd info
  rw [hregister, bindings, hentries]
  refine (LeaseStore.perm_putEntries fun other hother heq => h ?_).map _
  rw [bindings, List.map_map]
  exact List.mem_map.mpr ⟨other, hother, heq⟩

/-- Registrations of distinct new keys bind them and leave the others. -/
theorem bindings_registerAll {regs : List (EtcdRegister × ServiceInfo)} {etcd : Etcd}
    (h : ((regs.map binding ++ bindings etcd).map Prod.fst).Nodup) :
    (bindings (registerAll etcd regs)).Perm (regs.map binding ++ bindings etcd) := by
  induction regs generalizing etcd with
  | nil => rfl
  | cons p rest ih =>
    obtain ⟨r, info⟩ := p
    rw [List.map_cons, List.cons_append, List.map_cons, List.nodup_cons, List.map_append,
      List.mem_append, not_or] at h
    have hone := bindings_register r h.1.2
    have hmiddle : (rest.map binding ++ bindings (r.register etcd .none info).2.1).Perm
        (binding (r, info) :: (rest.map binding ++ bindings etcd)) :=
      (hone.append_left _).trans List.perm_middle
    refine (ih ?_).trans hmiddle
    rw [(hmiddle.map Prod.fst).nodup_iff, List.map_cons, List.nodup_cons, List.map_append,
      List.mem_append, not_or]
    exact h

/-- The instances of a service by the bindings of the store. -/
theorem services_eq_bindings (r : EtcdRegister) (etcd : Etcd) (serviceName : String) :
    r.services etcd serviceName =
      (bindings etcd).filterMap fun b =>
        if under (r.serviceRange serviceName) b.1 then decode b.2 else none := by
  rw [services, LeaseStore.range, bindings, List.filterMap_map, List.filterMap_filter]
  rfl

/-- The keys of a service begin with what the keys of all instances begin with. -/
theorem under_of_under_serviceRange {r : EtcdRegister} {serviceName key : String}
    (h : under (r.serviceRange serviceName) key = true) : under r.keyPrefix key = true := by
  rw [under, List.isPrefixOf_iff_prefix] at h ⊢
  refine List.IsPrefix.trans ?_ h
  simp only [serviceRange, String.toList_append, List.append_assoc]
  exact List.prefix_append ..

/-- Registers with the same beginning bind the same keys. -/
theorem binding_eq {r : EtcdRegister} {p : EtcdRegister × ServiceInfo}
    (h : p.1.keyPrefix = r.keyPrefix) : binding p = (r.serviceKey p.2, .service p.2) := by
  rw [binding, serviceKey, h, serviceKey]

/-- A key of an instance begins with a name of a service, by the parts behind the prefix. -/
theorem under_serviceRange_iff (r : EtcdRegister) (info : ServiceInfo) (serviceName : String) :
    under (r.serviceRange serviceName) (r.serviceKey info) = true ↔
      serviceName.toList ++ ['/'] <+: info.name.toList ++ '/' :: info.id.toList := by
  rw [under, List.isPrefixOf_iff_prefix]
  simp [serviceRange, serviceKey, List.prefix_append_right_inj]

section Registrations

variable {r : EtcdRegister} {etcd : Etcd} {regs : List (EtcdRegister × ServiceInfo)}

/-- New keys are distinct from those of a store that has none of the register's. -/
theorem nodup_keys (hsame : ∀ p ∈ regs, p.1.keyPrefix = r.keyPrefix)
    (hfree : ∀ entry ∈ etcd.entries, under r.keyPrefix entry.key = false)
    (hkeys : (regs.map fun p => r.serviceKey p.2).Nodup) :
    ((regs.map binding ++ bindings etcd).map Prod.fst).Nodup := by
  have hnew : (regs.map binding).map Prod.fst = regs.map fun p => r.serviceKey p.2 := by
    rw [List.map_map]
    refine List.map_congr_left fun p hp => ?_
    rw [Function.comp_apply, binding_eq (hsame p hp)]
  have hold : (bindings etcd).map Prod.fst = etcd.entries.map (·.key) := by
    rw [bindings, List.map_map]
    rfl
  rw [List.map_append, hnew, hold, List.nodup_append]
  refine ⟨hkeys, List.pairwise_map.mpr (etcd.ordered.imp ne_of_lt), ?_⟩
  intro key hkey key' hkey' heq
  obtain ⟨p, -, rfl⟩ := List.mem_map.mp hkey
  obtain ⟨entry, hentry, rfl⟩ := List.mem_map.mp hkey'
  have hunder := r.under_serviceKey p.2
  rw [heq, hfree entry hentry] at hunder
  cases hunder

/-- What is found for a name are the registered instances whose keys begin with it. -/
theorem services_registerAll (hsame : ∀ p ∈ regs, p.1.keyPrefix = r.keyPrefix)
    (hfree : ∀ entry ∈ etcd.entries, under r.keyPrefix entry.key = false)
    (hkeys : (regs.map fun p => r.serviceKey p.2).Nodup) (serviceName : String) :
    (r.services (registerAll etcd regs) serviceName).Perm
      ((regs.map Prod.snd).filter fun info =>
        under (r.serviceRange serviceName) (r.serviceKey info)) := by
  rw [services_eq_bindings]
  refine ((bindings_registerAll (nodup_keys hsame hfree hkeys)).filterMap _).trans ?_
  have hold : ((bindings etcd).filterMap fun b =>
      if under (r.serviceRange serviceName) b.1 then decode b.2 else none) = [] := by
    rw [List.filterMap_eq_nil_iff]
    intro b hb
    obtain ⟨entry, hentry, rfl⟩ := List.mem_map.mp hb
    refine if_neg fun hunder => ?_
    have hbegins := under_of_under_serviceRange hunder
    rw [hfree entry hentry] at hbegins
    cases hbegins
  rw [List.filterMap_append, hold, List.append_nil, List.filterMap_map, ← List.filterMap_eq_filter,
    List.filterMap_map]
  refine List.Perm.of_eq (List.filterMap_congr fun p hp => ?_)
  rw [Function.comp_apply, binding_eq (hsame p hp)]
  rfl

/-- What is found for a name is exact if the keys that begin with it are those of its instances. -/
theorem getService_exact_iff (hsame : ∀ p ∈ regs, p.1.keyPrefix = r.keyPrefix)
    (hfree : ∀ entry ∈ etcd.entries, under r.keyPrefix entry.key = false)
    (hkeys : (regs.map fun p => r.serviceKey p.2).Nodup) (n : String) :
    (∃ found, r.getService (registerAll etcd regs) none n = .ok found ∧
        found.Perm ((regs.map Prod.snd).filter fun info => info.name = n)) ↔
      ∀ info ∈ regs.map Prod.snd,
        under (r.serviceRange n) (r.serviceKey info) = true ↔ info.name = n := by
  have hfound := services_registerAll hsame hfree hkeys n
  constructor
  · rintro ⟨found, hget, hperm⟩ info hinfo
    cases hget
    have hmem := (hfound.symm.trans hperm).mem_iff (a := info)
    simpa [hinfo] using hmem
  · intro h
    refine ⟨_, rfl, hfound.trans (List.Perm.of_eq (List.filter_congr fun info hinfo => ?_))⟩
    rw [Bool.eq_iff_iff, decide_eq_true_iff]
    exact h info hinfo

/-- The key of an instance begins with its own name only, exactly if neither of its parts contains
a `/`. -/
theorem under_own_name_iff (r : EtcdRegister) (info : ServiceInfo) :
    (∀ n, under (r.serviceRange n) (r.serviceKey info) = true ↔ info.name = n) ↔
      '/' ∉ info.name.toList ∧ '/' ∉ info.id.toList := by
  rw [← forall_prefix_iff_eq]
  constructor
  · intro h n
    have hn := h (String.ofList n)
    rw [under_serviceRange_iff, String.toList_ofList] at hn
    rw [hn]
    constructor
    · intro heq
      rw [heq, String.toList_ofList]
    · intro heq
      rw [← heq, String.ofList_toList]
  · intro h n
    rw [under_serviceRange_iff, h n.toList]
    exact String.toList_inj

/-- Discovery finds exactly the instances of each name, whatever the name, if and only if no
registered name or identifier contains a `/`. -/
theorem discovery_exact_iff (hsame : ∀ p ∈ regs, p.1.keyPrefix = r.keyPrefix)
    (hfree : ∀ entry ∈ etcd.entries, under r.keyPrefix entry.key = false)
    (hkeys : (regs.map fun p => r.serviceKey p.2).Nodup) :
    (∀ n, ∃ found, r.getService (registerAll etcd regs) none n = .ok found ∧
        found.Perm ((regs.map Prod.snd).filter fun info => info.name = n)) ↔
      ∀ info ∈ regs.map Prod.snd, '/' ∉ info.name.toList ∧ '/' ∉ info.id.toList := by
  simp only [getService_exact_iff hsame hfree hkeys, ← under_own_name_iff r]
  exact ⟨fun h info hinfo n => h n info hinfo, fun h n info hinfo => h info hinfo n⟩

end Registrations

/-- A register as it is constructed. -/
def plainRegister : EtcdRegister := newEtcdRegister ⟨0⟩

/-- An instance by its name and identifier. -/
def instanceOf (name id : String) : ServiceInfo := ⟨name, id, "10.0.0.1", 9000, [], []⟩

/-- Registrations under names that begin alike. -/
def alikeRegistrations : List (EtcdRegister × ServiceInfo) :=
  [(plainRegister, instanceOf "user" "1"), (plainRegister, instanceOf "user-admin" "1")]

/-- Names that only begin alike are told apart. -/
theorem discovery_exact_plain_names :
    (alikeRegistrations.map fun p => plainRegister.serviceKey p.2).Nodup ∧
      ∀ n, ∃ found,
        plainRegister.getService (registerAll LeaseStore.empty alikeRegistrations) none n =
          .ok found ∧
        found.Perm ((alikeRegistrations.map Prod.snd).filter fun info => info.name = n) := by
  have hkeys : (alikeRegistrations.map fun p => plainRegister.serviceKey p.2).Nodup := by
    decide +kernel
  have hsame : ∀ p ∈ alikeRegistrations, p.1.keyPrefix = plainRegister.keyPrefix := by
    decide +kernel
  refine ⟨hkeys, (discovery_exact_iff hsame (fun _ h => absurd h List.not_mem_nil) hkeys).mpr ?_⟩
  decide +kernel

/-- An instance of a service is found under the name of another. -/
theorem discovery_finds_other_name :
    plainRegister.getService
        (registerAll LeaseStore.empty [(plainRegister, instanceOf "user/admin" "1")]) none "user" =
      .ok [instanceOf "user/admin" "1"] ∧
      (instanceOf "user/admin" "1").name ≠ "user" ∧
      plainRegister.getService
          (registerAll LeaseStore.empty [(plainRegister, instanceOf "user" "admin/1")]) none
            "user/admin" =
        .ok [instanceOf "user" "admin/1"] ∧
      (instanceOf "user" "admin/1").name ≠ "user/admin" := by
  exact ⟨rfl, by decide, rfl, by decide⟩

end EtcdRegister

end Stardust.Register
