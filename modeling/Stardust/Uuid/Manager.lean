import Stardust.Uuid.ClockSteps

/-!
# The ID source of the package

The package keeps one worker in a variable, made when the package is loaded. `InitWorker` assigns
to it whatever the constructor returns, which is nil for a worker ID out of range; the functions
that return IDs use it without a look.
-/

namespace Stardust.Uuid

/-- What `InitWorker` leaves in `uuidWorker`, nil being absent, and its error. -/
def initWorker (workerID : Int64) : Option UuidWorker × Option String :=
  match newUuidWorker workerID with
  | .ok w => (some w, none)
  | .error err => (none, some err)

/-- The functions that return IDs. -/
inductive IdFunction where
  | getUuidString
  | genSessionId
  | getUuidInt64
  deriving DecidableEq, Repr

/-- A value that such a function returns. -/
inductive Returned where
  | text (s : String)
  | int64 (id : Int64)
  deriving DecidableEq, Repr

/-- The value that a function makes of an ID. -/
def IdFunction.returned : IdFunction → Int64 → Returned
  | .getUuidString, id => .text (toString id.toInt)
  | .genSessionId, id => .text (toString id.toInt)
  | .getUuidInt64, id => .int64 id

/-- What comes of a request. -/
inductive Answer where
  | issued (id : Int64) (value : Returned)
  /-- `uuidWorker` is nil, and locking its mutex panics. -/
  | nilDereference
  deriving DecidableEq, Repr

/-- A request on the variable, with the readings of the clock that it makes; absent while the
request is still reading. -/
def IdFunction.request (f : IdFunction) (uuidWorker : Option UuidWorker) (readings : List Int64) :
    Option (Answer × Option UuidWorker) :=
  match uuidWorker with
  | none => if readings = [] then some (.nilDereference, none) else none
  | some w =>
    match w.get readings with
    | some (id, w, []) => some (.issued id (f.returned id), some w)
    | _ => none

variable {workerID : Int64}

/-- A valid ID makes a worker. -/
theorem newUuidWorker_of_valid (h : ValidWorker workerID) :
    newUuidWorker workerID = .ok ⟨0, workerID, 0⟩ := by
  rw [newUuidWorker, if_neg]
  rintro (hneg | hbig)
  · exact absurd h.1 (Int64.not_le.mpr hneg)
  · exact absurd h.2 (Int64.not_le.mpr hbig)

private theorem newUuidWorker_of_not_valid (h : ¬ValidWorker workerID) :
    newUuidWorker workerID = .error "worker ID excess of quantity" := by
  rw [newUuidWorker, if_pos]
  by_contra hin
  rw [not_or, Int64.not_lt, Int64.not_lt] at hin
  exact h hin

/-- So it does for the package. -/
theorem initWorker_of_valid (h : ValidWorker workerID) :
    initWorker workerID = (some ⟨0, workerID, 0⟩, none) := by
  rw [initWorker, newUuidWorker_of_valid h]

/-- A call that fails leaves nothing in the variable. -/
theorem initWorker_of_not_valid (h : ¬ValidWorker workerID) :
    initWorker workerID = (none, some "worker ID excess of quantity") := by
  rw [initWorker, newUuidWorker_of_not_valid h]

/-- There is a worker exactly for a valid ID. -/
theorem initWorker_isSome_iff : (initWorker workerID).1.isSome ↔ ValidWorker workerID := by
  by_cases h : ValidWorker workerID
  · simp [initWorker_of_valid h, h]
  · simp [initWorker_of_not_valid h, h]

/-- There is an error exactly for an invalid ID. -/
theorem initWorker_failed_iff : (initWorker workerID).2 ≠ none ↔ ¬ValidWorker workerID := by
  by_cases h : ValidWorker workerID
  · simp [initWorker_of_valid h, h]
  · simp [initWorker_of_not_valid h, h]

/-- What a request can come to: a nil worker stays nil, and there is no panic with a worker. -/
theorem IdFunction.request_cases {f : IdFunction} {uuidWorker uuidWorker' : Option UuidWorker}
    {readings : List Int64} {answer : Answer}
    (h : f.request uuidWorker readings = some (answer, uuidWorker')) :
    uuidWorker = none ∧ answer = .nilDereference ∧ readings = [] ∧ uuidWorker' = none ∨
      ∃ w w' id, uuidWorker = some w ∧ w.get readings = some (id, w', []) ∧
        answer = .issued id (f.returned id) ∧ uuidWorker' = some w' := by
  unfold IdFunction.request at h
  split at h
  · obtain ⟨hreadings, heq⟩ := Option.ite_none_right_eq_some.mp h
    cases heq
    exact .inl ⟨rfl, rfl, hreadings, rfl⟩
  · next w =>
    split at h
    · next id w' hget =>
      cases h
      exact .inr ⟨w, w', id, rfl, hget, rfl, rfl⟩
    · cases h

end Stardust.Uuid
