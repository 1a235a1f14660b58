import Stardust.Core.System
import Mathlib.Logic.Function.Basic

/-!
# Shared calls as an interleaving of callers

Every caller makes one `DoEx` invocation. The mutex makes the lookup and the delete
atomic; running `fn`, `wg.Done`, and waking up are separate steps, so schedules
range over every interleaving. A call keeps, besides its source fields, the history
of its only execution: whose it is, for which key, and how and when it ended.
-/

namespace Stardust.Syncx

open Function

/-- How an execution of `fn` ended, with the step at which it returned. -/
inductive Outcome (V E : Type*) where
  | returned (val : Option V) (err : Option E) (finishedAt : Nat)
  | panicked
  deriving DecidableEq, Repr

/-- A heap-allocated `call`; a nil value or error is `none`. -/
structure Call (Pid Key V E : Type*) where
  /-- The counter of the wait group. -/
  wg : Nat
  val : Option V
  err : Option E
  /-- History: the key the call was allocated for. -/
  key : Key
  /-- History: the caller that allocated the call and runs its `fn`. -/
  runner : Pid
  /-- History: the end of the execution, absent while `fn` runs. -/
  outcome : Option (Outcome V E)
  deriving DecidableEq, Repr

/-- The position of a caller that allocated a call. -/
inductive Phase where
  /-- The call is in the map and `fn` runs. -/
  | running
  /-- `fn` returned and its results are stored. -/
  | finished
  /-- `wg.Done` was called. -/
  | notified
  /-- `fn` panicked, and the panic left `DoEx`. -/
  | panicked
  deriving DecidableEq, Repr

/-- The position of a caller inside `DoEx`, with the step at which it was invoked. -/
inductive Pc (Key V E : Type*) where
  | idle
  | entered (key : Key) (began : Nat)
  | waiting (key : Key) (c : Nat) (began : Nat)
  | leading (phase : Phase) (key : Key) (c : Nat) (began : Nat)
  | returned (key : Key) (c : Nat) (began : Nat) (val : Option V) (fresh : Bool) (err : Option E)
  deriving DecidableEq, Repr

/-- The shared map, the heap of calls, and the position of every caller. -/
structure SharedCalls (Pid Key V E : Type*) where
  /-- The map from keys to the call in flight. -/
  calls : Key → Option Nat
  /-- The allocated calls by address. -/
  heap : Nat → Option (Call Pid Key V E)
  /-- The next unused address. -/
  next : Nat
  /-- Where each caller is. -/
  pc : Pid → Pc Key V E
  /-- The number of steps taken so far. -/
  now : Nat

/-- The atomic steps of a caller. -/
inductive Label (Pid Key V E : Type*) where
  | invoke (p : Pid) (key : Key)
  | lookup (p : Pid)
  | fnReturn (p : Pid) (val : Option V) (err : Option E)
  | fnPanic (p : Pid)
  | wgDone (p : Pid)
  | delete (p : Pid)
  | wake (p : Pid)
  deriving DecidableEq, Repr

variable {Pid Key V E : Type*}

/-- `NewSharedCalls` with every caller still outside. -/
def newSharedCalls : SharedCalls Pid Key V E :=
  ⟨fun _ => none, fun _ => none, 0, fun _ => .idle, 0⟩

/-- The caller that a step belongs to. -/
def Label.actor : Label Pid Key V E → Pid
  | .invoke p _ | .lookup p | .fnReturn p _ _ | .fnPanic p | .wgDone p | .delete p | .wake p => p

/-- The steps in which the caller `p` that runs a call writes it at step `now`. -/
inductive Call.Advance (cell : Call Pid Key V E) (p : Pid) (now : Nat) :
    Label Pid Key V E → Phase → Call Pid Key V E → Phase → Prop
  | fnReturn (val : Option V) (err : Option E) : Advance cell p now (.fnReturn p val err) .running
      { cell with val := val, err := err, outcome := some (.returned val err now) } .finished
  | fnPanic : Advance cell p now (.fnPanic p) .running
      { cell with outcome := some .panicked } .panicked
  | wgDone : Advance cell p now (.wgDone p) .finished { cell with wg := cell.wg - 1 } .notified

namespace SharedCalls

variable (s : SharedCalls Pid Key V E) (p : Pid) (pc : Pc Key V E)

/-- Overwrite one allocated call. -/
def store (c : Nat) (cell : Call Pid Key V E) : SharedCalls Pid Key V E :=
  { s with heap := update s.heap c (some cell) }

@[simp] theorem store_heap_self (c : Nat) (cell : Call Pid Key V E) :
    (s.store c cell).heap c = some cell := update_self ..

/-- Only the stored address changes. -/
theorem store_heap_of_ne {c d : Nat} (cell : Call Pid Key V E) (h : d ≠ c) :
    (s.store c cell).heap d = s.heap d :=
  update_of_ne h ..

section

variable [DecidableEq Key]

/-- Allocate a call with its wait group armed and put it in the map. -/
def allocate (key : Key) : SharedCalls Pid Key V E :=
  { s.store s.next ⟨1, none, none, key, p, none⟩ with
    calls := update s.calls key (some s.next), next := s.next + 1 }

/-- Remove the key from the map. -/
def deleteKey (key : Key) : SharedCalls Pid Key V E :=
  { s with calls := update s.calls key none }

@[simp] theorem allocate_calls_self (key : Key) :
    (s.allocate p key).calls key = some s.next := update_self ..

/-- Allocation leaves the entries of other keys alone. -/
theorem allocate_calls_of_ne {key k : Key} (h : k ≠ key) :
    (s.allocate p key).calls k = s.calls k := update_of_ne h ..

@[simp] theorem allocate_heap_self (key : Key) :
    (s.allocate p key).heap s.next = some ⟨1, none, none, key, p, none⟩ :=
  update_self ..

/-- Allocation leaves the other addresses alone. -/
theorem allocate_heap_of_ne (key : Key) {c : Nat} (h : c ≠ s.next) :
    (s.allocate p key).heap c = s.heap c := update_of_ne h ..

@[simp] theorem deleteKey_calls_self (key : Key) :
    (s.deleteKey key).calls key = none := update_self ..

/-- Deleting leaves the entries of other keys alone. -/
theorem deleteKey_calls_of_ne {key k : Key} (h : k ≠ key) :
    (s.deleteKey key).calls k = s.calls k := update_of_ne h ..

end

variable [DecidableEq Pid]

/-- Move one caller and count the step. -/
def move : SharedCalls Pid Key V E :=
  { s with pc := update s.pc p pc, now := s.now + 1 }

@[simp] theorem move_calls :
    (s.move p pc).calls = s.calls := rfl

@[simp] theorem move_heap :
    (s.move p pc).heap = s.heap := rfl

@[simp] theorem move_pc_self :
    (s.move p pc).pc p = pc := update_self ..

/-- Only the moved caller changes position. -/
theorem move_pc_of_ne {p q : Pid} (h : q ≠ p) :
    (s.move p pc).pc q = s.pc q := update_of_ne h ..

variable [DecidableEq Key]

/-- Under the mutex: join the call in flight, or allocate one and lead it. -/
def lookup (key : Key) (began : Nat) : SharedCalls Pid Key V E :=
  match s.calls key with
  | some c => s.move p (.waiting key c began)
  | none => (s.allocate p key).move p (.leading .running key s.next began)

/-- One atomic step of `DoEx`, absent when the caller is not at that point. -/
def step :
    Label Pid Key V E → Option (SharedCalls Pid Key V E)
  | .invoke p key =>
    match s.pc p with
    | .idle => some (s.move p (.entered key s.now))
    | _ => none
  | .lookup p =>
    match s.pc p with
    | .entered key began => some (s.lookup p key began)
    | _ => none
  | .fnReturn p val err =>
    match s.pc p with
    | .leading .running key c began => (s.heap c).map fun cell =>
      (s.store c { cell with
        val := val, err := err, outcome := some (.returned val err s.now) }).move p
          (.leading .finished key c began)
    | _ => none
  | .fnPanic p =>
    match s.pc p with
    | .leading .running key c began => (s.heap c).map fun cell =>
      (s.store c { cell with outcome := some .panicked }).move p (.leading .panicked key c began)
    | _ => none
  | .wgDone p =>
    match s.pc p with
    | .leading .finished key c began => (s.heap c).map fun cell =>
      (s.store c { cell with wg := cell.wg - 1 }).move p (.leading .notified key c began)
    | _ => none
  | .delete p =>
    match s.pc p with
    | .leading .notified key c began => (s.heap c).map fun cell =>
      (s.deleteKey key).move p (.returned key c began cell.val true cell.err)
    | _ => none
  | .wake p =>
    match s.pc p with
    | .waiting key c began => (s.heap c).bind fun cell =>
      if cell.wg = 0 then some (s.move p (.returned key c began cell.val false cell.err)) else none
    | _ => none

/-- Everything one step can do, with the guard under which it does it. -/
inductive Step (s : SharedCalls Pid Key V E) :
    Label Pid Key V E → SharedCalls Pid Key V E → Prop
  | invoke {p key} : s.pc p = .idle → Step s (.invoke p key) (s.move p (.entered key s.now))
  | join {p key began c} : s.pc p = .entered key began → s.calls key = some c →
      Step s (.lookup p) (s.move p (.waiting key c began))
  | lead {p key began} : s.pc p = .entered key began → s.calls key = none →
      Step s (.lookup p) ((s.allocate p key).move p (.leading .running key s.next began))
  | advance {p key c began cell cell' phase phase' l} : s.pc p = .leading phase key c began →
      s.heap c = some cell → cell.Advance p s.now l phase cell' phase' →
      Step s l ((s.store c cell').move p (.leading phase' key c began))
  | delete {p key c began cell} : s.pc p = .leading .notified key c began →
      s.heap c = some cell → Step s (.delete p)
        ((s.deleteKey key).move p (.returned key c began cell.val true cell.err))
  | wake {p key c began cell} : s.pc p = .waiting key c began → s.heap c = some cell →
      cell.wg = 0 → Step s (.wake p)
        (s.move p (.returned key c began cell.val false cell.err))

/-- Every executable step is one of the listed transitions. -/
theorem step_cases {s s' : SharedCalls Pid Key V E} {l : Label Pid Key V E}
    (h : s.step l = some s') : s.Step l s' := by
  cases l with
  | invoke p key =>
    simp only [step] at h
    split at h
    · rename_i hp
      cases h
      exact .invoke hp
    · cases h
  | lookup p =>
    simp only [step] at h
    split at h
    · rename_i key began hp
      cases h
      simp only [lookup]
      split
      · rename_i c hc
        exact .join hp hc
      · rename_i hc
        exact .lead hp hc
    · cases h
  | fnReturn p val err =>
    simp only [step] at h
    split at h
    · rename_i key c began hp
      obtain ⟨cell, hcell, rfl⟩ := Option.map_eq_some_iff.mp h
      exact .advance hp hcell (.fnReturn val err)
    · cases h
  | fnPanic p =>
    simp only [step] at h
    split at h
    · rename_i key c began hp
      obtain ⟨cell, hcell, rfl⟩ := Option.map_eq_some_iff.mp h
      exact .advance hp hcell .fnPanic
    · cases h
  | wgDone p =>
    simp only [step] at h
    split at h
    · rename_i key c began hp
      obtain ⟨cell, hcell, rfl⟩ := Option.map_eq_some_iff.mp h
      exact .advance hp hcell .wgDone
    · cases h
  | delete p =>
    simp only [step] at h
    split at h
    · rename_i key c began hp
      obtain ⟨cell, hcell, rfl⟩ := Option.map_eq_some_iff.mp h
      exact .delete hp hcell
    · cases h
  | wake p =>
    simp only [step] at h
    split at h
    · rename_i key c began hp
      obtain ⟨cell, hcell, hwg⟩ := Option.bind_eq_some_iff.mp h
      split at hwg
      · rename_i hz
        cases hwg
        exact .wake hp hcell hz
      · cases hwg
    · cases h

end SharedCalls

/-- All interleavings of callers on one freshly constructed `SharedCalls`. -/
def sharedCallsSystem (Pid Key V E : Type*) [DecidableEq Pid] [DecidableEq Key] :
    Core.System (SharedCalls Pid Key V E) (Label Pid Key V E) where
  init s := s = newSharedCalls
  step s l := s.step l

end Stardust.Syncx
