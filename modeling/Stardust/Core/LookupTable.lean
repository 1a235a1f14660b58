import Mathlib.Logic.Function.Basic
import Stardust.Core.System

/-!
# Double-checked lookup tables

A table of objects by key behind a readers-writer lock. A caller first looks its key up under the
read lock, gives that lock back, and only if the key is absent takes the write lock, looks the key
up again and, if it is still absent, makes an object and stores it. Callers interleave at every
one of these steps, so that any number of them stands between the two locks.
-/

namespace Stardust.Core

open Function

/-- Where one caller stands. -/
inductive Lookup (Key Arg : Type*) where
  /-- Not called yet. -/
  | idle
  /-- Before the read lock. -/
  | entered (key : Key) (arg : Arg)
  /-- Inside the read lock, before the lookup. -/
  | reading (key : Key) (arg : Arg)
  /-- Inside the read lock, after the lookup. -/
  | looked (key : Key) (arg : Arg) (entry : Option Nat)
  /-- Between the locks. -/
  | missed (key : Key) (arg : Arg)
  /-- Inside the write lock, before the lookup. -/
  | writing (key : Key) (arg : Arg)
  /-- Inside the write lock, with the key absent. -/
  | absent (key : Key) (arg : Arg)
  /-- Inside the write lock, with the object to return. -/
  | holding (key : Key) (arg : Arg) (object : Nat)
  | returned (key : Key) (arg : Arg) (object : Nat)
  deriving DecidableEq, Repr

/-- The key and the argument of a call. -/
def Lookup.request {Key Arg : Type*} : Lookup Key Arg → Option (Key × Arg)
  | .idle => none
  | .entered key arg | .reading key arg | .looked key arg _ | .missed key arg | .writing key arg
  | .absent key arg | .holding key arg _ | .returned key arg _ => some (key, arg)

/-- The table, the objects by address, the lock, and the callers. -/
structure LookupTable (Pid Key Arg Object : Type*) where
  /-- The addresses by key. -/
  table : Key → Option Nat
  /-- The objects by address. -/
  objects : List Object
  /-- How many callers hold the read lock. -/
  readers : Nat
  /-- Who holds the write lock. -/
  writer : Option Pid
  /-- Where each caller stands. -/
  pc : Pid → Lookup Key Arg

/-- The steps of a caller. The object is made with an input of the moment. -/
inductive LookupStep (Key Arg Input : Type*) where
  | call (key : Key) (arg : Arg)
  | rLock
  | readLookup
  | rUnlock
  | lock
  | writeLookup
  | insert (input : Input)
  | unlock
  deriving DecidableEq, Repr

/-- How objects are made, and which calls there are. -/
structure Getter (Key Arg Input Object : Type*) where
  build : Arg → Input → Object
  serves : Key → Arg → Bool

namespace LookupTable

variable {Pid Key Arg Input Object : Type*}

/-- An empty table with every caller still outside. -/
def new : LookupTable Pid Key Arg Object := ⟨fun _ => none, [], 0, none, fun _ => .idle⟩

/-- What is known about a caller at its point: whether it has the write lock, and what it saw in
the table that still holds. -/
def Fits (s : LookupTable Pid Key Arg Object) (p : Pid) : Lookup Key Arg → Prop
  | .idle | .entered _ _ | .reading _ _ | .missed _ _ => s.writer ≠ some p
  | .looked key _ entry => s.writer ≠ some p ∧ ∀ object ∈ entry, s.table key = some object
  | .writing _ _ => s.writer = some p
  | .absent key _ => s.writer = some p ∧ s.table key = none
  | .holding key _ object => s.writer = some p ∧ s.table key = some object
  | .returned key _ object => s.writer ≠ some p ∧ s.table key = some object

/-- What holds of a table in every state. -/
structure Sound (g : Getter Key Arg Input Object) (s : LookupTable Pid Key Arg Object) :
    Prop where
  /-- Entries lead to objects. -/
  lt_length : ∀ key object, s.table key = some object → object < s.objects.length
  /-- Different keys have different objects. -/
  injective : ∀ key key' object, s.table key = some object → s.table key' = some object →
    key = key'
  /-- What each caller knows. -/
  fits : ∀ p, s.Fits p (s.pc p)
  /-- Only the calls that there are. -/
  served : ∀ p key arg, (s.pc p).request = some (key, arg) → g.serves key arg = true

/-- Entries are never replaced. -/
def Keeps (s s' : LookupTable Pid Key Arg Object) : Prop :=
  ∀ key object, s.table key = some object → s'.table key = some object

/-- Every object meets a property of its key. -/
def Holds (P : Key → Object → Prop) (s : LookupTable Pid Key Arg Object) : Prop :=
  ∀ key i object, s.table key = some i → s.objects[i]? = some object → P key object

variable {g : Getter Key Arg Input Object} {s s' : LookupTable Pid Key Arg Object} {p : Pid}
  {key key' : Key} {arg : Arg} {P : Key → Object → Prop}

/-- The empty table is sound. -/
theorem sound_new : (new : LookupTable Pid Key Arg Object).Sound g := by
  refine ⟨?_, ?_, ?_, ?_⟩
  · intro key object h
    cases h
  · intro key key' object h
    cases h
  · intro p h
    cases h
  · intro p key arg h
    cases h

/-- What a caller knows survives what the others do. -/
theorem Fits.mono {q : Pid} {pc : Lookup Key Arg} (h : s.Fits q pc) (hkeeps : s.Keeps s')
    (hwriter : s'.writer = some q ↔ s.writer = some q)
    (htable : s.writer = some q → s'.table = s.table) : s'.Fits q pc := by
  cases pc with
  | looked key arg entry =>
    exact ⟨hwriter.not.mpr h.1, fun object hobject => hkeeps _ _ (h.2 object hobject)⟩
  | absent key arg => exact ⟨hwriter.mpr h.1, (congrFun (htable h.1) key).trans h.2⟩
  | writing key arg => exact hwriter.mpr h
  | holding key arg object => exact ⟨hwriter.mpr h.1, hkeeps _ _ h.2⟩
  | returned key arg object => exact ⟨hwriter.not.mpr h.1, hkeeps _ _ h.2⟩
  | _ => exact hwriter.not.mpr h

section Steps

variable [DecidableEq Pid] [DecidableEq Key]

/-- Move one caller. -/
def move (s : LookupTable Pid Key Arg Object) (p : Pid) (pc : Lookup Key Arg) :
    LookupTable Pid Key Arg Object :=
  { s with pc := update s.pc p pc }

/-- Store a new object under a key. -/
def store (s : LookupTable Pid Key Arg Object) (key : Key) (object : Object) :
    LookupTable Pid Key Arg Object :=
  { s with
    table := update s.table key (some s.objects.length)
    objects := s.objects ++ [object] }

/-- One step of a caller, absent when the caller is not at that point or has to wait. -/
def step (g : Getter Key Arg Input Object) (s : LookupTable Pid Key Arg Object) (p : Pid) :
    LookupStep Key Arg Input → Option (LookupTable Pid Key Arg Object)
  | .call key arg =>
    match s.pc p with
    | .idle => if g.serves key arg then some (s.move p (.entered key arg)) else none
    | _ => none
  | .rLock =>
    match s.pc p with
    | .entered key arg =>
      match s.writer with
      | none => some ({ s with readers := s.readers + 1 }.move p (.reading key arg))
      | some _ => none
    | _ => none
  | .readLookup =>
    match s.pc p with
    | .reading key arg => some (s.move p (.looked key arg (s.table key)))
    | _ => none
  | .rUnlock =>
    match s.pc p with
    | .looked key arg entry =>
      let s := { s with readers := s.readers - 1 }
      match entry with
      | some object => some (s.move p (.returned key arg object))
      | none => some (s.move p (.missed key arg))
    | _ => none
  | .lock =>
    match s.pc p with
    | .missed key arg =>
      match s.writer with
      | none =>
        if s.readers = 0 then some ({ s with writer := some p }.move p (.writing key arg)) else none
      | some _ => none
    | _ => none
  | .writeLookup =>
    match s.pc p with
    | .writing key arg =>
      match s.table key with
      | some object => some (s.move p (.holding key arg object))
      | none => some (s.move p (.absent key arg))
    | _ => none
  | .insert input =>
    match s.pc p with
    | .absent key arg =>
      some ((s.store key (g.build arg input)).move p (.holding key arg s.objects.length))
    | _ => none
  | .unlock =>
    match s.pc p with
    | .holding key arg object =>
      some ({ s with writer := none }.move p (.returned key arg object))
    | _ => none

/-- What a step can do. -/
inductive Moves (g : Getter Key Arg Input Object) (s : LookupTable Pid Key Arg Object) (p : Pid) :
    LookupTable Pid Key Arg Object → Prop where
  | call {key : Key} {arg : Arg} (hpc : s.pc p = .idle) (hserves : g.serves key arg = true) :
    Moves g s p (s.move p (.entered key arg))
  | rLock {key : Key} {arg : Arg} (hpc : s.pc p = .entered key arg) (hwriter : s.writer = none) :
    Moves g s p ({ s with readers := s.readers + 1 }.move p (.reading key arg))
  | readLookup {key : Key} {arg : Arg} (hpc : s.pc p = .reading key arg) :
    Moves g s p (s.move p (.looked key arg (s.table key)))
  | rUnlockFound {key : Key} {arg : Arg} {object : Nat}
    (hpc : s.pc p = .looked key arg (some object)) :
    Moves g s p ({ s with readers := s.readers - 1 }.move p (.returned key arg object))
  | rUnlockMissed {key : Key} {arg : Arg} (hpc : s.pc p = .looked key arg none) :
    Moves g s p ({ s with readers := s.readers - 1 }.move p (.missed key arg))
  | lock {key : Key} {arg : Arg} (hpc : s.pc p = .missed key arg) (hwriter : s.writer = none) :
    Moves g s p ({ s with writer := some p }.move p (.writing key arg))
  | found {key : Key} {arg : Arg} {object : Nat} (hpc : s.pc p = .writing key arg)
    (hkey : s.table key = some object) :
    Moves g s p (s.move p (.holding key arg object))
  | absent {key : Key} {arg : Arg} (hpc : s.pc p = .writing key arg) (hkey : s.table key = none) :
    Moves g s p (s.move p (.absent key arg))
  | insert {key : Key} {arg : Arg} {input : Input} (hpc : s.pc p = .absent key arg) :
    Moves g s p ((s.store key (g.build arg input)).move p (.holding key arg s.objects.length))
  | unlock {key : Key} {arg : Arg} {object : Nat} (hpc : s.pc p = .holding key arg object) :
    Moves g s p ({ s with writer := none }.move p (.returned key arg object))

/-- Every step is one of the moves. -/
theorem step_moves {l : LookupStep Key Arg Input} (h : s.step g p l = some s') :
    Moves g s p s' := by
  unfold step at h
  split at h <;> split at h <;> try contradiction
  · split at h
    · cases h
      exact .call ‹_› ‹_›
    · cases h
  · split at h
    · cases h
      exact .rLock ‹_› ‹_›
    · cases h
  · cases h
    exact .readLookup ‹_›
  · dsimp only at h
    split at h <;> cases h
    · exact .rUnlockFound ‹_›
    · exact .rUnlockMissed ‹_›
  · split at h
    · split at h <;> cases h
      exact .lock ‹_› ‹_›
    · cases h
  · split at h <;> cases h
    · exact .found ‹_› ‹_›
    · exact .absent ‹_› ‹_›
  · cases h
    exact .insert ‹_›
  · cases h
    exact .unlock ‹_›

/-- A caller that stores has seen, inside the write lock, that its key is absent. -/
theorem Moves.keeps (h : Moves g s p s') (hs : s.Sound g) : s.Keeps s' := by
  cases h with
  | @insert key arg input hpc =>
    intro key' object hkey'
    have hfits := hs.fits p
    rw [hpc] at hfits
    have hne : key' ≠ key := by
      rintro rfl
      rw [hfits.2] at hkey'
      cases hkey'
    exact (update_of_ne hne _ _).trans hkey'
  | _ => exact fun _ _ hkey => hkey

/-- A step of one caller leaves the others where they are, and takes from none of them the write
lock or, while they have it, anything they have seen. -/
theorem Moves.others (h : Moves g s p s') (hs : s.Sound g) {q : Pid} (hq : q ≠ p) :
    s'.pc q = s.pc q ∧ (s'.writer = some q ↔ s.writer = some q) ∧
      (s.writer = some q → s'.table = s.table) := by
  have hpc : ∀ pc : Lookup Key Arg, update s.pc p pc q = s.pc q :=
    fun pc => update_of_ne hq pc s.pc
  have hfits := hs.fits p
  have hpq : some p ≠ some q := fun heq => hq (Option.some.inj heq).symm
  cases h with
  | lock _ hwriter => exact ⟨hpc _, by simp [move, hwriter, hpq], fun _ => rfl⟩
  | insert hp =>
    rw [hp] at hfits
    exact ⟨hpc _, Iff.rfl, fun hwriter => absurd (hfits.1.symm.trans hwriter) hpq⟩
  | unlock hp =>
    rw [hp] at hfits
    refine ⟨hpc _, ?_, fun _ => rfl⟩
    simp [move, hfits.1, hpq]
  | _ => exact ⟨hpc _, Iff.rfl, fun _ => rfl⟩

/-- A caller that has returned takes no more steps. -/
theorem Moves.returned (h : Moves g s p s') (hs : s.Sound g) {q : Pid} {i : Nat}
    (hq : s.pc q = .returned key arg i) : s'.pc q = .returned key arg i := by
  have hqp : q ≠ p := by
    rintro rfl
    cases h <;> simp_all
  rw [(h.others hs hqp).1]
  exact hq

/-- What a caller knows after its own step. -/
theorem Moves.own (h : Moves g s p s') (hs : s.Sound g) : s'.Fits p (s'.pc p) := by
  have hfits := hs.fits p
  cases h with
  | call hp _ | rLock hp _ | readLookup hp | rUnlockFound hp | rUnlockMissed hp =>
    rw [hp] at hfits
    simpa [move, Fits] using hfits
  | lock hp hwriter => simp [move, Fits]
  | found hp hkey | absent hp hkey =>
    rw [hp] at hfits
    simpa [move, Fits] using ⟨hfits, hkey⟩
  | insert hp =>
    rw [hp] at hfits
    simpa [move, store, Fits] using hfits.1
  | unlock hp =>
    rw [hp] at hfits
    simpa [move, Fits] using hfits.2

/-- Every call is one that there is. -/
theorem Moves.served (h : Moves g s p s') (hs : s.Sound g) (q : Pid) (key : Key) (arg : Arg)
    (hq : (s'.pc q).request = some (key, arg)) : g.serves key arg = true := by
  by_cases hqp : q = p
  · subst hqp
    have hbefore := hs.served q
    cases h <;> simp only [move, store, update_self, Lookup.request, Option.some.injEq,
      Prod.mk.injEq] at hq <;> obtain ⟨rfl, rfl⟩ := hq
    case call => assumption
    all_goals exact hbefore _ _ (by rw [‹s.pc q = _›]; rfl)
  · rw [(h.others hs hqp).1] at hq
    exact hs.served q key arg hq

/-- A step stores at most one new object, at a new address. -/
theorem Moves.entry (h : Moves g s p s') {i : Nat} (hkey : s'.table key = some i) :
    (s.table key = some i ∧ ∃ added, s'.objects = s.objects ++ added) ∨
      (i = s.objects.length ∧ ∃ arg input, (s.pc p).request = some (key, arg) ∧
        s'.objects = s.objects ++ [g.build arg input] ∧
        ∀ key', key' ≠ key → s'.table key' = s.table key') := by
  cases h with
  | @insert key' arg input hpc =>
    by_cases heq : key = key'
    · subst heq
      have hi : i = s.objects.length := by
        simpa [move, store] using hkey.symm
      refine .inr ⟨hi, arg, input, by rw [hpc]; rfl, rfl, fun key' hne => ?_⟩
      exact update_of_ne hne _ _
    · exact .inl ⟨(update_of_ne heq _ _).symm.trans hkey, _, rfl⟩
  | _ => exact .inl ⟨hkey, [], (List.append_nil _).symm⟩

/-- Every step of every caller keeps the table in order. -/
theorem Sound.moves (hs : s.Sound g) (h : Moves g s p s') : s'.Sound g := by
  refine ⟨?_, ?_, ?_, h.served hs⟩
  · intro key i hkey
    obtain ⟨hold, added, hobjects⟩ | ⟨rfl, arg, input, -, hobjects, -⟩ := h.entry hkey
    · have := hs.lt_length key i hold
      rw [hobjects, List.length_append]
      omega
    · rw [hobjects, List.length_append]
      exact Nat.lt_succ_self _
  · intro key key' i hkey hkey'
    obtain ⟨hold, -⟩ | ⟨hnew, -, -, -, -, hrest⟩ := h.entry hkey
    · obtain ⟨hold', -⟩ | ⟨hnew', -⟩ := h.entry hkey'
      · exact hs.injective key key' i hold hold'
      · exact absurd (hs.lt_length key i hold) (by omega)
    · by_contra hne
      rw [hrest key' (Ne.symm hne)] at hkey'
      exact absurd (hs.lt_length key' i hkey') (by omega)
  · intro q
    by_cases hq : q = p
    · rw [hq]
      exact h.own hs
    · obtain ⟨hpc, hwriter, htable⟩ := h.others hs hq
      rw [hpc]
      exact (hs.fits q).mono (h.keeps hs) hwriter htable

/-- A property that every object has when it is made holds after every step. -/
theorem Holds.moves (hP : s.Holds P) (hs : s.Sound g) (h : Moves g s p s')
    (hbuild : ∀ key arg input, g.serves key arg = true → P key (g.build arg input)) :
    s'.Holds P := by
  intro key i object hkey hobject
  obtain ⟨hold, added, hobjects⟩ | ⟨rfl, arg, input, hrequest, hobjects, -⟩ := h.entry hkey
  · rw [hobjects, List.getElem?_append_left (hs.lt_length key i hold)] at hobject
    exact hP key i object hold hobject
  · rw [hobjects, List.getElem?_concat_length] at hobject
    cases hobject
    exact hbuild key arg input (hs.served p key arg hrequest)

end Steps

/-- The table after an object was changed in place. -/
def update (s : LookupTable Pid Key Arg Object) (i : Nat) (object : Object) :
    LookupTable Pid Key Arg Object :=
  { s with objects := s.objects.set i object }

/-- Objects may change. -/
theorem Sound.update (hs : s.Sound g) (i : Nat) (object : Object) :
    (s.update i object).Sound g := by
  refine ⟨fun key j hkey => ?_, hs.injective, hs.fits, hs.served⟩
  have := hs.lt_length key j hkey
  simpa [LookupTable.update] using this

/-- An object is changed for its own key only. -/
theorem Holds.update (hP : s.Holds P) (hs : s.Sound g) {i : Nat} {object : Object}
    (hkey : s.table key = some i) (hobject : P key object) : (s.update i object).Holds P := by
  intro key' j object' hkey' hobject'
  by_cases hij : i = j
  · subst hij
    have hlt := hs.lt_length key i hkey
    rw [LookupTable.update, List.getElem?_set_self hlt] at hobject'
    cases hobject'
    rw [← hs.injective key key' i hkey hkey']
    exact hobject
  · rw [LookupTable.update, List.getElem?_set_ne hij] at hobject'
    exact hP key' j object' hkey' hobject'

/-- A caller returns with the object that the table has under its key. -/
theorem Sound.table_of_returned (hs : s.Sound g) {i : Nat} (h : s.pc p = .returned key arg i) :
    s.table key = some i := by
  have hfits := hs.fits p
  rw [h] at hfits
  exact hfits.2

/-- Two callers have the same object exactly when they asked for the same key. -/
theorem Sound.key_eq_iff (hs : s.Sound g) {q : Pid} {arg' : Arg} {i i' : Nat}
    (h : s.pc p = .returned key arg i) (h' : s.pc q = .returned key' arg' i') :
    key = key' ↔ i = i' := by
  have hkey := hs.table_of_returned h
  have hkey' := hs.table_of_returned h'
  constructor
  · rintro rfl
    exact Option.some.inj (hkey.symm.trans hkey')
  · rintro rfl
    exact hs.injective key key' i hkey hkey'

end LookupTable

end Stardust.Core
