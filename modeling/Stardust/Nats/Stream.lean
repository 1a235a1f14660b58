import Mathlib.Data.List.Sort
import Mathlib.Data.String.Basic
import Mathlib.Logic.Function.Basic

/-!
# Streams and their subjects

A connection makes sure that its stream exists and takes its subjects. The JetStream server
keeps a configuration for each stream name and refuses empty subjects. A connection reads the
configuration, merges its own subjects into it and writes the result back, each as a request of
its own. Whether a request reaches the server is an input; a request that fails is not applied.
-/

namespace Stardust.Nats

/-- How long a stream keeps its messages. -/
inductive RetentionPolicy where
  | limits
  | interest
  | workQueue
  deriving DecidableEq, Repr

/-- The configuration of a stream under its name. -/
structure StreamConfig where
  /-- The subjects whose messages the stream takes. -/
  subjects : List String
  /-- How long it keeps them. -/
  retention : RetentionPolicy
  /-- The server refuses an empty subject. -/
  valid : "" ∉ subjects
  deriving DecidableEq

/-- Why a call on a stream failed. -/
inductive StreamError where
  | noStreamResponse
  | notFound
  | nameInUse
  | invalidSubject
  | request (text : String)
  deriving DecidableEq, Repr

/-- The streams of a server by name. -/
abbrev Streams := String → Option StreamConfig

variable (streams : Streams)

/-- The subjects of a stream. -/
def subjectsIn (name : String) : List String :=
  ((streams name).map (·.subjects)).getD []

/-- The settings that a connection reads to reconcile its stream. -/
structure NatsConfig where
  streamName : String
  /-- The subjects it is to have. -/
  subject : List String
  deriving DecidableEq, Repr

variable (set subjects : List String)

/-- Add the nonempty subjects of a list to a set. -/
def addSubjects : List String :=
  subjects.foldl (fun set subject => if subject = "" then set else set.insert subject) set

/-- The subjects of both lists in order, and whether the second adds any. -/
def mergeSubjects (existing desired : List String) : List String × Bool :=
  let before := addSubjects [] existing
  let set := addSubjects before desired
  (set.insertionSort (· ≤ ·), decide (set.length ≠ before.length))

/-- Subjects are added one by one. -/
theorem addSubjects_cons (subject : String) :
    addSubjects set (subject :: subjects) =
      addSubjects (if subject = "" then set else set.insert subject) subjects := rfl

@[simp] private theorem mem_addSubjects {set subjects : List String} {x : String} :
    x ∈ addSubjects set subjects ↔ x ∈ set ∨ x ∈ subjects ∧ x ≠ "" := by
  induction subjects generalizing set with
  | nil => simp [addSubjects]
  | cons subject subjects ih =>
    rw [addSubjects_cons, ih]
    by_cases hempty : subject = ""
    · rw [if_pos hempty, List.mem_cons, hempty]
      grind
    · rw [if_neg hempty, List.mem_insert_iff, List.mem_cons]
      grind

private theorem length_le_length_addSubjects : set.length ≤ (addSubjects set subjects).length := by
  induction subjects generalizing set with
  | nil => exact le_rfl
  | cons subject subjects ih =>
    rw [addSubjects_cons]
    refine le_trans ?_ (ih _)
    split
    · exact le_rfl
    · exact List.length_le_length_insert

/-- A set grows exactly when something new is added. -/
theorem length_addSubjects_eq_iff {set subjects : List String} :
    (addSubjects set subjects).length = set.length ↔ ∀ x ∈ subjects, x ≠ "" → x ∈ set := by
  induction subjects generalizing set with
  | nil => simp [addSubjects]
  | cons subject subjects ih =>
    rw [addSubjects_cons, List.forall_mem_cons]
    by_cases hskip : subject = "" ∨ subject ∈ set
    · have hsame : (if subject = "" then set else set.insert subject) = set := by
        rcases hskip with hempty | hmem
        · exact if_pos hempty
        · rw [List.insert_of_mem hmem, ite_self]
      have hfirst : subject ≠ "" → subject ∈ set := fun hne => hskip.resolve_left hne
      rw [hsame, ih]
      exact ⟨fun h => ⟨hfirst, h⟩, fun h => h.2⟩
    · obtain ⟨hne, hnew⟩ := not_or.mp hskip
      have hlt : set.length < (addSubjects (set.insert subject) subjects).length := by
        refine lt_of_lt_of_le ?_ (length_le_length_addSubjects _ _)
        rw [List.length_insert_of_not_mem hnew]
        exact Nat.lt_succ_self _
      rw [if_neg hne]
      exact iff_of_false (ne_of_gt hlt) fun h => hnew (h.1 hne)

/-- Merging keeps the nonempty subjects of both lists. -/
@[simp] theorem mem_mergeSubjects {existing desired : List String} {x : String} :
    x ∈ (mergeSubjects existing desired).1 ↔ x ≠ "" ∧ (x ∈ existing ∨ x ∈ desired) := by
  simp only [mergeSubjects, List.mem_insertionSort, mem_addSubjects, List.not_mem_nil, false_or]
  tauto

/-- Merging reports no change exactly when nothing nonempty is new. -/
theorem mergeSubjects_unchanged_iff {existing desired : List String} :
    (mergeSubjects existing desired).2 = false ↔ ∀ x ∈ desired, x ≠ "" → x ∈ existing := by
  simp only [mergeSubjects, decide_eq_false_iff_not, not_not, length_addSubjects_eq_iff,
    mem_addSubjects, List.not_mem_nil, false_or]
  exact forall₃_congr fun x _ hne => and_iff_left hne

/-- Where a call of `EnsureStream` stands. -/
inductive EnsurePhase where
  | idle
  /-- About to ask for the stream. -/
  | inspecting
  /-- The stream was not found and is about to be created. -/
  | creating
  /-- The stream was read. -/
  | inspected (stream : StreamConfig)
  /-- About to write the merged subjects. -/
  | updating (updateCfg : StreamConfig)
  /-- The call has returned, with its error where it failed. -/
  | returned (err : Option StreamError)
  deriving DecidableEq

/-- A connection. -/
structure NatsConnection where
  config : NatsConfig
  useStream : Bool
  /-- It has a JetStream context. -/
  js : Bool
  /-- Where its call stands. -/
  phase : EnsurePhase
  deriving DecidableEq

variable (fault : Option StreamError)

namespace NatsConnection

/-- The first checks of the call. -/
def begin (c : NatsConnection) : EnsurePhase :=
  if c.useStream = false then .returned none
  else if c.js = false then .returned (some .noStreamResponse)
  else .inspecting

/-- Ask the server for a stream. -/
def streamInfo (name : String) : Option StreamConfig × Option StreamError :=
  match fault, streams name with
  | some err, _ => (none, some err)
  | none, some stream => (some stream, none)
  | none, none => (none, some .notFound)

/-- What the call does with the answer. -/
def onInfo (stream : Option StreamConfig) (err : Option StreamError) : EnsurePhase :=
  match err, stream with
  | some _, none => .creating
  | some err, some _ => .returned (some err)
  | none, none => .returned none
  | none, some stream => .inspected stream

/-- The configuration with the merged subjects. -/
def updateConfig (stream : StreamConfig) (desired : List String) : StreamConfig where
  subjects := (mergeSubjects stream.subjects desired).1
  retention := stream.retention
  valid := by simp

/-- Merge the subjects into what was read; without a change the call is done. -/
def merge (c : NatsConnection) (stream : StreamConfig) : EnsurePhase :=
  if (mergeSubjects stream.subjects c.config.subject).2 = false then .returned none
  else .updating (updateConfig stream c.config.subject)

/-- Create a stream; one of the same name must have the same configuration. -/
def addStream (name : String) (subjects : List String) : Streams × Option StreamError :=
  match fault, streams name with
  | some err, _ => (streams, some err)
  | none, some stream =>
    if stream.subjects = subjects ∧ stream.retention = .workQueue then (streams, none)
    else (streams, some .nameInUse)
  | none, none =>
    if h : "" ∈ subjects then (streams, some .invalidSubject)
    else (Function.update streams name (some ⟨subjects, .workQueue, h⟩), none)

/-- Replace the configuration of a stream. -/
def updateStream (name : String) (updateCfg : StreamConfig) : Streams × Option StreamError :=
  match fault, streams name with
  | some err, _ => (streams, some err)
  | none, none => (streams, some .notFound)
  | none, some _ => (Function.update streams name (some updateCfg), none)

end NatsConnection

end Stardust.Nats
