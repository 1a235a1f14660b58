import Stardust.Core.Effects
import Stardust.Databases.Gorm

/-!
# The transaction decorator

The handler is an arbitrary computation on the database, which may return any value,
doctor and error, or panic. Its deferred recover rolls back and swallows the panic:
the results of the decorator are not named, so its caller sees their zero values.
-/

namespace Stardust.Databases

open Stardust.Core

variable {D Ω V X P : Type}

/-- Whether the handler wants its work committed or rolled back. -/
abbrev SessionDoctor := Int

/-- Commit the transaction. -/
def sessionDoctorCommit : SessionDoctor := 0

/-- Roll the transaction back. -/
def sessionDoctorRollback : SessionDoctor := 1

/-- A handler on a transaction. -/
abbrev SessionHandler (D Ω V X P : Type) :=
  Nat → Go (World D Ω V) P (Option V × SessionDoctor × Option (DbError X))

/-- Run the handler in a transaction and end it as the doctor asks. -/
def warpSession (g : Driver D Ω V X) (h : SessionHandler D Ω V X P) :
    Go (World D Ω V) P (Option V × Int × Option (DbError X)) := do
  let (tx, err) ← g.beginTx
  if let some err := err then
    return (none, 0, some err)
  deferRecover (none, 0, none) (discard (g.rollbackTx tx)) do
    let (value, doctor, err) ← h tx
    if let some err := err then
      discard (g.rollbackTx tx)
      return (none, 0, some err)
    if doctor = sessionDoctorCommit then
      if let some err ← g.commitTx tx then
        return (none, 0, some err)
    else
      if let some err ← g.rollbackTx tx then
        return (none, 0, some err)
    return (value, 0, none)

/-- The end of the transaction that a doctor asks for. -/
def endTx (g : Driver D Ω V X) (doctor : SessionDoctor) (tx : Nat) :
    StateM (World D Ω V) (Option (DbError X)) :=
  if doctor = sessionDoctorCommit then g.commitTx tx else g.rollbackTx tx

example (g : Driver D Ω V X) (tx : Nat) : endTx g sessionDoctorRollback tx = g.rollbackTx tx := rfl

variable {g : Driver D Ω V X}

/-- A failed begin is returned as it is. -/
theorem warpSession_exec_of_begin_failed (h : SessionHandler D Ω V X P) {w w₁ : World D Ω V}
    {tx : Nat} {err : DbError X} (hbegin : g.beginTx.run w = ((tx, some err), w₁)) :
    (warpSession g h).exec w = (.ok (none, 0, some err), w₁) := by
  unfold warpSession
  rw [Go.exec_bind, Go.exec_lift, hbegin]
  rfl

variable {h : SessionHandler D Ω V X P} {w w₁ w₂ : World D Ω V}

/-- A panic of the handler is rolled back and returned as zero results. -/
theorem warpSession_exec_of_panic {tx : Nat} {p : P} (hbegin : g.beginTx.run w = ((tx, none), w₁))
    (hpanic : (h tx).exec w₁ = (.error p, w₂)) :
    (warpSession g h).exec w = (.ok (none, 0, none), ((g.rollbackTx tx).run w₂).2) := by
  unfold warpSession
  rw [Go.exec_bind, Go.exec_lift, hbegin]
  dsimp only
  rw [Go.exec_deferRecover, Go.exec_bind, hpanic]
  rfl

variable {doctor : SessionDoctor} {value : Option V}

/-- An error of the handler is rolled back and returned. -/
theorem warpSession_exec_of_error {tx : Nat} {err : DbError X}
    (hbegin : g.beginTx.run w = ((tx, none), w₁))
    (hfailed : (h tx).exec w₁ = (.ok (value, doctor, some err), w₂)) :
    (warpSession g h).exec w = (.ok (none, 0, some err), ((g.rollbackTx tx).run w₂).2) := by
  unfold warpSession
  rw [Go.exec_bind, Go.exec_lift, hbegin]
  dsimp only
  rw [Go.exec_deferRecover, Go.exec_bind, hfailed]
  rfl

/-- Without an error of the handler the outcome is that of the end its doctor asks for. -/
theorem warpSession_exec_of_ok {tx : Nat} (hbegin : g.beginTx.run w = ((tx, none), w₁))
    (hok : (h tx).exec w₁ = (.ok (value, doctor, none), w₂)) :
    (warpSession g h).exec w =
      (.ok (match ((endTx g doctor tx).run w₂).1 with
        | some err => (none, 0, some err)
        | none => (value, 0, none)), ((endTx g doctor tx).run w₂).2) := by
  unfold warpSession
  rw [Go.exec_bind, Go.exec_lift, hbegin]
  dsimp only
  rw [Go.exec_deferRecover, Go.exec_bind, hok]
  dsimp only
  by_cases hdoctor : doctor = sessionDoctorCommit
  · rw [endTx, if_pos hdoctor, if_pos hdoctor, Go.exec_bind, Go.exec_lift]
    dsimp only
    cases ((g.commitTx tx).run w₂).1 <;> rfl
  · rw [endTx, if_neg hdoctor, if_neg hdoctor, Go.exec_bind, Go.exec_lift]
    dsimp only
    cases ((g.rollbackTx tx).run w₂).1 <;> rfl

/-- The open transaction was ended as the doctor asked: its copy was published by a commit,
and discarded by anything else. -/
def EndedAs (doctor : SessionDoctor) (tx : Nat) (before after : World D Ω V) : Prop :=
  ∃ d, before.txs[tx]? = some (some d) ∧ ¬ after.IsOpen tx ∧
    after.committed = if doctor = sessionDoctorCommit then d else before.committed

/-- Every end closes its transaction. -/
theorem endTx_closes (g : Driver D Ω V X) (doctor : SessionDoctor) (tx : Nat) (w : World D Ω V) :
    ¬ ((endTx g doctor tx).run w).2.IsOpen tx := by
  unfold endTx
  split
  · exact g.commitTx_closes tx w
  · exact g.rollbackTx_closes tx w

variable {w : World D Ω V}

/-- An end without error did what the doctor asked. -/
theorem endTx_ok {tx : Nat} (h : ((endTx g doctor tx).run w).1 = none) :
    EndedAs doctor tx w ((endTx g doctor tx).run w).2 := by
  have hclosed := endTx_closes g doctor tx w
  by_cases hdoctor : doctor = sessionDoctorCommit
  · simp only [EndedAs, endTx, if_pos hdoctor] at h hclosed ⊢
    exact ⟨_, g.commitTx_ok h, hclosed, rfl⟩
  · simp only [EndedAs, endTx, if_neg hdoctor] at h hclosed ⊢
    obtain ⟨d, hd⟩ := g.rollbackTx_ok h
    exact ⟨d, hd, hclosed, (g.rollbackTx_frame tx w).1⟩

/-- How the handler leaves when the decorator calls it from `w`. -/
def handled (g : Driver D Ω V X) (h : SessionHandler D Ω V X P) (w : World D Ω V) :
    Except P (Option V × SessionDoctor × Option (DbError X)) × World D Ω V :=
  (h (g.beginTx.run w).1.1).exec (g.beginTx.run w).2

private theorem begun_eq {err : Option (DbError X)} (hbegin : (g.beginTx.run w).1.2 = err) :
    g.beginTx.run w = (((g.beginTx.run w).1.1, err), (g.beginTx.run w).2) := by
  subst hbegin
  rfl

private theorem handled_eq {left : Except P (Option V × SessionDoctor × Option (DbError X))}
    (hleft : (handled g h w).1 = left) :
    (h (g.beginTx.run w).1.1).exec (g.beginTx.run w).2 = (left, (handled g h w).2) := by
  subst hleft
  rfl

/-- What the caller of the decorator relies on, for one handler and one database. -/
structure Honest (g : Driver D Ω V X) (h : SessionHandler D Ω V X P) (w : World D Ω V) :
    Prop where
  /-- A nil error means that the handler succeeded and its wish was carried out. -/
  nilError : ∀ value n, ((warpSession g h).exec w).1 = .ok (value, n, none) →
    (g.beginTx.run w).1.2 = none ∧ ∃ v doctor, (handled g h w).1 = .ok (v, doctor, none) ∧
      EndedAs doctor (g.beginTx.run w).1.1 (handled g h w).2 ((warpSession g h).exec w).2
  /-- A failure or panic of the handler reaches the caller. -/
  failure : (g.beginTx.run w).1.2 = none →
    (∀ v doctor, (handled g h w).1 ≠ .ok (v, doctor, none)) →
    ∀ value n, ((warpSession g h).exec w).1 ≠ .ok (value, n, none)
  /-- A begun transaction is ended. -/
  ended : (g.beginTx.run w).1.2 = none →
    ¬ ((warpSession g h).exec w).2.IsOpen (g.beginTx.run w).1.1

/-- Nothing is promised about a transaction that did not begin. -/
theorem honest_of_begin_failed (h : SessionHandler D Ω V X P) {err : DbError X}
    (hbegin : (g.beginTx.run w).1.2 = some err) : Honest g h w := by
  have hexec := warpSession_exec_of_begin_failed h (begun_eq hbegin)
  constructor
  · intro value n hnil
    rw [hexec] at hnil
    cases hnil
  · intro hok
    rw [hbegin] at hok
    cases hok
  · intro hok
    rw [hbegin] at hok
    cases hok

/-- An error of the handler reaches the caller with the transaction rolled back. -/
theorem honest_of_error {err : DbError X} (hbegin : (g.beginTx.run w).1.2 = none)
    (herror : (handled g h w).1 = .ok (value, doctor, some err)) : Honest g h w := by
  have hexec := warpSession_exec_of_error (begun_eq hbegin) (handled_eq herror)
  constructor
  · intro v n hnil
    rw [hexec] at hnil
    cases hnil
  · intro _ _ v n hnil
    rw [hexec] at hnil
    cases hnil
  · intro _
    rw [hexec]
    exact g.rollbackTx_closes _ _

/-- A handler without error has its wish carried out or the failure to do so reported. -/
theorem honest_of_ok (hbegin : (g.beginTx.run w).1.2 = none)
    (hok : (handled g h w).1 = .ok (value, doctor, none)) : Honest g h w := by
  have hexec := warpSession_exec_of_ok (begun_eq hbegin) (handled_eq hok)
  constructor
  · intro v n hnil
    refine ⟨hbegin, value, doctor, hok, ?_⟩
    rw [hexec] at hnil ⊢
    apply endTx_ok
    split at hnil
    · cases hnil
    · assumption
  · intro _ hfailed
    exact absurd hok (hfailed value doctor)
  · intro _
    rw [hexec]
    exact endTx_closes g doctor _ _

/-- A panic of the handler comes back as a nil error. -/
theorem not_honest_of_panic {p : P} (hbegin : (g.beginTx.run w).1.2 = none)
    (hpanic : (handled g h w).1 = .error p) : ¬ Honest g h w := by
  have hexec := warpSession_exec_of_panic (begun_eq hbegin) (handled_eq hpanic)
  intro hhonest
  obtain ⟨-, v, doctor, hok, -⟩ := hhonest.nilError none 0 (by rw [hexec])
  rw [hpanic] at hok
  cases hok

/-- The decorator is honest exactly when the transaction does not begin or the handler does
not panic. -/
theorem warpSession_honest_iff (g : Driver D Ω V X) (h : SessionHandler D Ω V X P)
    (w : World D Ω V) :
    Honest g h w ↔ (g.beginTx.run w).1.2 ≠ none ∨ ∀ p, (handled g h w).1 ≠ .error p := by
  cases hbegin : (g.beginTx.run w).1.2 with
  | some err => simp [honest_of_begin_failed h hbegin]
  | none =>
    cases hleft : (handled g h w).1 with
    | error p => simp [not_honest_of_panic hbegin hleft]
    | ok result =>
      obtain ⟨value, doctor, err⟩ := result
      cases err with
      | some err => simp [honest_of_error hbegin hleft]
      | none => simp [honest_of_ok hbegin hleft]

/-- A handler that panics is rolled back, and its caller gets a nil error. -/
theorem warpSession_swallows_panic :
    ((warpSession countingDriver (P := String) fun _ => throw "boom").exec ⟨0, [], (), []⟩) =
        (.ok (none, 0, none), ⟨0, [none], (), []⟩) ∧
      ¬ Honest countingDriver (P := String) (fun _ => throw "boom") ⟨0, [], (), []⟩ :=
  ⟨rfl, not_honest_of_panic rfl rfl⟩

end Stardust.Databases
