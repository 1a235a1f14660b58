import Stardust.Redis.Listening

/-!
# Notifications under different keys

A subscriber may call its handler for an entry that was put under another key exactly if its pattern
matches the channel of that entry: whatever is announced there can be decoded, and the lock for it
can be free.
-/

namespace Stardust.Redis

open Stardust.Core

namespace Listening

variable {n n' : Notification} {db : Nat} {p : Payload} {policy : Int} {s : Listening}

/-- The handler is never called for an expiry of the entry that a notification puts for a
payload. -/
def NeverHandles (n : Notification) (db : Nat) (n' : Notification) (p : Payload) : Prop :=
  ∀ s, (listeners n db).Reachable s → ∀ call ∈ s.calls, ∀ expiry,
    s.expiries[call.event]? = some expiry → expiry.key = n'.waitKey p →
    expiry.putBy ≠ some n'.key

/-- The record is right in every reachable state. -/
theorem recorded_of_reachable (h : (listeners n db).Reachable s) : s.Recorded n db :=
  h.invariant (fun _ => recorded_of_opening) fun _ _ _ => Recorded.step

private theorem neverHandles_of_not_hears (h : n.hears db (n'.waitKey p) = false) :
    NeverHandles n db n' p := by
  intro s hreachable call hcall expiry hexpiry hkey _
  obtain ⟨expiry', hexpiry', hheard⟩ := (recorded_of_reachable hreachable).calls call hcall
  cases hexpiry.symm.trans hexpiry'
  rw [hkey, h] at hheard
  cases hheard

private theorem reachable_of_moves {s' : Listening} {l : ListeningLabel}
    (h : (listeners n db).Reachable s) (hmoves : s.Moves l s') : (listeners n db).Reachable s' :=
  h.step (step_of_moves hmoves)

/-- A subscriber on no keys. -/
def alone (n : Notification) (db : Nat) : Listening :=
  ⟨⟨fun _ => ⟨n, 0, .idle, []⟩, fun _ => none, db, [], []⟩, fun _ => none, [], []⟩

/-- It is an initial state. -/
theorem reachable_alone (n : Notification) (db : Nat) : (listeners n db).Reachable (alone n db) :=
  ⟨alone n db, [], ⟨⟨0, rfl⟩, rfl, ⟨rfl, rfl⟩, rfl, rfl, rfl⟩, rfl⟩

/-- The entry for a payload has expired. -/
def announced (n : Notification) (db : Nat) (n' : Notification) (p : Payload) (policy : Int) :
    Listening :=
  { base := ⟨fun _ => ⟨n, 0, .idle, []⟩,
      Function.update (entered n' p policy fun _ => none) (n'.waitKey p) none, db,
      [keyspaceChannel db (n'.waitKey p)], []⟩
    putBy := Function.update (fun _ => none) (n'.waitKey p) (some n'.key)
    expiries := [⟨n'.waitKey p, policy, some n'.key⟩]
    calls := [] }

private theorem reachable_announced (hpolicy : PolicyOf n' p policy) (hexpires : 0 < policy) :
    (listeners n db).Reachable (announced n db n' p policy) := by
  have hput := reachable_of_moves (reachable_alone n db) (.put (.inl rfl) hpolicy)
  have hexpire := reachable_of_moves hput (.expire (Function.update_self ..) hexpires)
  simpa [alone, announced] using hexpire

/-- Nothing is stored any more. -/
theorem store_announced (n : Notification) (db : Nat) (n' : Notification) (p : Payload)
    (policy : Int) (k : String) : (announced n db n' p policy).base.store k = none := by
  simp [announced, entered]

/-- What is announced can be decoded, and with no other keys the lock for it is free. -/
theorem exists_call (hpolicy : PolicyOf n' p policy) (hexpires : 0 < policy)
    (hhears : n.hears db (n'.waitKey p) = true) :
    ∃ s, (listeners n db).Reachable s ∧ ∃ call ∈ s.calls,
      s.expiries[call.event]? = some ⟨n'.waitKey p, policy, some n'.key⟩ := by
  obtain ⟨before, hchannel⟩ := n'.toList_waitChannel db p
  obtain ⟨q, hdecode⟩ := decodePayload_encodePayload_ok hchannel
  have hheard : ∀ expiry ∈ (announced n db n' p policy).expiries[0]?,
      (announced n db n' p policy).notification.hears db expiry.key = true := by
    rintro expiry ⟨⟩
    exact hhears
  have hreceive := reachable_of_moves (reachable_announced hpolicy hexpires)
    (.receive rfl (List.not_mem_nil) rfl hheard hdecode)
  have hacquire := reachable_of_moves hreceive
    (.acquire (phase_receive ..) (store_announced n db n' p policy (n.lockKey q.value)))
  have hhandle := reachable_of_moves (l := .own (.handle () true)) hacquire
    (.handle (phase_enter ..))
  exact ⟨_, hhandle, ⟨0, _, true⟩, List.mem_singleton_self _, rfl⟩

/-- A subscriber never calls its handler for the expiry of an entry exactly if its pattern does not
match the channel of the entry. -/
theorem neverHandles_iff_not_hears (hpolicy : PolicyOf n' p policy) (hexpires : 0 < policy) :
    NeverHandles n db n' p ↔ n.hears db (n'.waitKey p) = false := by
  constructor
  · intro hnever
    apply eq_false_of_ne_true
    intro hhears
    obtain ⟨s, hreachable, call, hcall, hexpiry⟩ := exists_call hpolicy hexpires hhears
    exact hnever s hreachable call hcall _ hexpiry rfl rfl
  · exact neverHandles_of_not_hears

/-- Notifications on one cache. -/
def notificationOn (key : String) : Notification := ⟨key, "node", ⟨"app"⟩, [minute]⟩

/-- Two notifications with different keys. -/
theorem order_never_handles_invoice :
    (notificationOn "order").key ≠ (notificationOn "invoice").key ∧
      NeverHandles (notificationOn "order") 0 (notificationOn "invoice") ⟨0, "17"⟩ :=
  have hpolicy : PolicyOf (notificationOn "invoice") ⟨0, "17"⟩ minute := ⟨by decide, rfl⟩
  ⟨by decide, (neverHandles_iff_not_hears hpolicy (by decide)).mpr (by decide +kernel)⟩

/-- A key that begins with another one: the subscriber of `order` handles what is put under
`order-paid`. -/
theorem order_handles_orderPaid :
    (notificationOn "order").key ≠ (notificationOn "order-paid").key ∧
      (∃ s, (listeners (notificationOn "order") 0).Reachable s ∧ ∃ call ∈ s.calls,
        s.expiries[call.event]? =
          some ⟨"app:retry-order-paid:17||0", minute, some "order-paid"⟩) ∧
      ¬NeverHandles (notificationOn "order") 0 (notificationOn "order-paid") ⟨0, "17"⟩ := by
  have hpolicy : PolicyOf (notificationOn "order-paid") ⟨0, "17"⟩ minute := ⟨by decide, rfl⟩
  have hkey : (notificationOn "order-paid").waitKey ⟨0, "17"⟩ = "app:retry-order-paid:17||0" := by
    decide +kernel
  have hhears : (notificationOn "order").hears 0
      ((notificationOn "order-paid").waitKey ⟨0, "17"⟩) = true := by
    decide +kernel
  obtain ⟨s, hreachable, call, hcall, hexpiry⟩ := exists_call hpolicy (by decide) hhears
  refine ⟨by decide, ⟨s, hreachable, call, hcall, ?_⟩, fun hnever => ?_⟩
  · rw [← hkey]
    exact hexpiry
  · exact hnever s hreachable call hcall _ hexpiry rfl rfl

end Listening

end Stardust.Redis
