import Stardust.HttpServer.IdSource

/-!
# Making the worker again

A call of `InitWorker` throws away the millisecond and the number of the worker before. With a
clock that does not go back, IDs are repeated exactly when a worker of the same ID is made again
between two requests in one millisecond.
-/

namespace Stardust.HttpServer

open Stardust.Core Stardust.Uuid

/-- What a call means for later IDs. -/
def SourceCall.event : SourceCall → Option Event
  | .initWorker workerID => some (.made workerID)
  | .newHttpServer (.ok config) => some (.made config.workerID)
  | .newHttpServer (.error _) => none
  | .request _ readings => readings.head?.map .read

/-- The history that calls make. -/
def history (calls : List SourceCall) : List Event := calls.filterMap SourceCall.event

/-- The call reads a millisecond. -/
def SourceCall.Reads (now : Int64) : SourceCall → Prop
  | .request _ readings => now ∈ readings
  | _ => False

instance (now : Int64) : DecidablePred (SourceCall.Reads now)
  | .request _ readings => inferInstanceAs (Decidable (now ∈ readings))
  | .initWorker _ => isFalse id
  | .newHttpServer _ => isFalse id

namespace IdSource

/-- Between two requests that an ID cannot tell apart by the clock or the worker ID, which then
read the same millisecond, no worker is made. -/
def Undisturbed (events : List Event) : Prop :=
  ∀ before x between y after, events = before ++ .read x :: (between ++ .read y :: after) →
    timeField x = timeField y →
    currentWorker before = currentWorker (before ++ .read x :: between) →
    y = x ∧ ∀ workerID, .made workerID ∉ between

/-- The reading of an event. -/
def reading : Event → Option Int64
  | .made _ => none
  | .read now => some now

private theorem filterMap_reading_read (now : Int64) (events : List Event) :
    (Event.read now :: events).filterMap reading = now :: events.filterMap reading := rfl

/-- With a clock that does not go back, only new workers can disturb. -/
theorem neverBack_iff_undisturbed {events : List Event}
    (hclock : (events.filterMap reading).Pairwise (· ≤ ·)) :
    NeverBack events ↔ Undisturbed events := by
  constructor
  · intro h before x between y after heq htime hworker
    have hall := h before x between y after heq htime hworker
    have hy : Event.read y = .read x := hall _ (by simp)
    refine ⟨Event.read.inj hy, fun workerID hmade => ?_⟩
    cases hall _ (List.mem_append_left _ hmade)
  · intro h before x between y after heq htime hworker e he
    obtain ⟨rfl, hnone⟩ := h before x between y after heq htime hworker
    rcases List.mem_append.mp he with he | he
    · cases e with
      | made workerID => exact absurd he (hnone workerID)
      | read z =>
        have hz : z ∈ between.filterMap reading := List.mem_filterMap.mpr ⟨_, he, rfl⟩
        rw [heq, List.filterMap_append, filterMap_reading_read, List.filterMap_append,
          filterMap_reading_read, List.pairwise_append, List.pairwise_cons, List.pairwise_append]
          at hclock
        have hle : y ≤ z := hclock.2.1.1 z (List.mem_append_left _ hz)
        have hge : z ≤ y := hclock.2.1.2.2.2 z hz y (List.mem_cons_self ..)
        rw [Int64.le_antisymm hge hle]
    · exact List.mem_singleton.mp he

private theorem event_of_hands {call : SourceCall} {workerID : Int64}
    (h : call.hands = some workerID) : call.event = some (.made workerID) := by
  cases call with
  | initWorker k => cases h; rfl
  | newHttpServer config =>
    cases config with
    | ok config => cases h; rfl
    | error err => cases h
  | request f readings => cases h

/-- Only requests issue IDs. -/
theorem ids_concat_of_ne {s : IdSource} {answer : SourceAnswer} (h : ∀ a, answer ≠ .answered a)
    {uuidWorker : Option UuidWorker} :
    (⟨uuidWorker, s.answers ++ [answer]⟩ : IdSource).ids = s.ids := by
  cases answer with
  | answered a => exact absurd rfl (h a)
  | initialised err => simp [ids]
  | made result => simp [ids]

private theorem ids_concat_issued (s : IdSource) (id : Int64) (value : Returned)
    (uuidWorker : Option UuidWorker) :
    (⟨uuidWorker, s.answers ++ [.answered (.issued id value)]⟩ : IdSource).ids =
      s.ids ++ [id] := by
  simp [ids]

private theorem follows_loaded : ∃ w, loaded.uuidWorker = some w ∧ w.Follows [] := by
  refine ⟨⟨0, 0, 0⟩, rfl, rfl, ⟨le_rfl, show (0 : Int64).toInt ≤ 4095 by decide⟩, ?_⟩
  intro now hnow
  rw [streak_nil, if_neg hnow]
  rfl

/-- What has numbers left from a history on has them left after its first event. -/
theorem left_of_cons {past events : List Event} {e : Event}
    (h : ∀ before now after, e :: events = before ++ .read now :: after →
      streak (.read now) (past ++ before) ≤ 4095)
    (before : List Event) (now : Int64) (after : List Event)
    (heq : events = before ++ .read now :: after) :
    streak (.read now) (past ++ [e] ++ before) ≤ 4095 := by
  have hlater := h (e :: before) now after (by rw [heq]; rfl)
  rwa [List.append_cons] at hlater

/-- The source follows a history through calls that hand over valid worker IDs, and issues the IDs
of the history, as long as the milliseconds have numbers. -/
theorem ids_of_run {s s' : IdSource} {w : UuidWorker} {past : List Event}
    {calls : List SourceCall} (hworker : s.uuidWorker = some w) (hfollows : w.Follows past)
    (hvalid : ∀ call ∈ calls, HandsValid call) (hnonzero : .read 0 ∉ history calls)
    (hleft : ∀ before now after, history calls = before ++ .read now :: after →
      streak (.read now) (past ++ before) ≤ 4095)
    (hrun : idSources.run s calls = some s') :
    s'.ids = s.ids ++ idsFrom past (history calls) := by
  induction calls generalizing s w past with
  | nil =>
    cases hrun
    exact (List.append_nil _).symm
  | cons call calls ih =>
    obtain ⟨t, hstep, hrest⟩ := idSources.run_cons_iff.mp hrun
    rw [List.forall_mem_cons] at hvalid
    cases step_moves hstep with
    | @hand _ workerID answer hhands hanswer =>
      have hk := hvalid.1 workerID hhands
      have hcons : history (call :: calls) = .made workerID :: history calls :=
        List.filterMap_cons_some (event_of_hands hhands)
      rw [hcons] at hnonzero hleft ⊢
      have hids : (⟨(Uuid.initWorker workerID).1, s.answers ++ [answer]⟩ : IdSource).ids =
          s.ids := ids_concat_of_ne hanswer
      rw [idsFrom, ← hids]
      exact ih (by rw [initWorker_of_valid hk]) (follows_made (newUuidWorker_of_valid hk) past)
        hvalid.2 (fun hmem => hnonzero (List.mem_cons_of_mem _ hmem)) (left_of_cons hleft) hrest
    | malformed err answer hanswer =>
      have hids : ({ s with answers := s.answers ++ [answer] } : IdSource).ids = s.ids :=
        ids_concat_of_ne hanswer
      rw [← hids]
      exact ih hworker hfollows hvalid.2 hnonzero hleft hrest
    | panic f hnil =>
      rw [hworker] at hnil
      cases hnil
    | @issue w₁ w' id readings f hworker₁ hget =>
      rw [hworker] at hworker₁
      cases hworker₁
      cases readings with
      | nil => cases hget
      | cons now readings =>
        have hcons : history (.request f (now :: readings) :: calls) =
            .read now :: history calls := rfl
        rw [hcons] at hnonzero hleft ⊢
        rw [List.mem_cons, not_or] at hnonzero
        have hnow : now ≠ 0 := fun heq => hnonzero.1 (by rw [heq])
        have hfirst := hleft [] now _ rfl
        rw [List.append_nil] at hfirst
        obtain ⟨-, rfl, hnext⟩ := hfollows.get hnow hfirst hget
        rw [idsFrom, List.append_cons, ← ids_concat_issued _ _ (f.returned _) (some w')]
        exact ih rfl hnext hvalid.2 hnonzero.2 (left_of_cons hleft) hrest

private theorem history_count_le (calls : List SourceCall) (now : Int64) :
    (history calls).count (.read now) ≤ calls.countP (SourceCall.Reads now) := by
  induction calls with
  | nil => exact le_rfl
  | cons call calls ih =>
    have hhead : ∀ e ∈ call.event, e = .read now → call.Reads now := by
      rintro e he rfl
      cases call with
      | initWorker k => cases he
      | newHttpServer config => cases config <;> cases he
      | request f readings =>
        obtain ⟨now', hnow', heq⟩ := Option.map_eq_some_iff.mp he
        cases heq
        exact List.mem_of_head? hnow'
    rw [List.countP_cons]
    cases hevent : call.event with
    | none =>
      rw [history, List.filterMap_cons_none hevent]
      exact ih.trans (Nat.le_add_right ..)
    | some e =>
      rw [history, List.filterMap_cons_some hevent, List.count_cons]
      refine Nat.add_le_add ih ?_
      by_cases heq : e = .read now
      · simp [heq, hhead e hevent heq]
      · simp [heq]

private theorem fits_history {calls : List SourceCall} (hvalid : ∀ call ∈ calls, HandsValid call)
    (hnumbers : ∀ now, calls.countP (SourceCall.Reads now) ≤ 4096) : Fits (history calls) := by
  refine ⟨fun workerID hmade => ?_, fun now => (history_count_le calls now).trans (hnumbers now)⟩
  obtain ⟨call, hcall, hevent⟩ := List.mem_filterMap.mp hmade
  refine hvalid call hcall workerID ?_
  cases call with
  | initWorker k => cases hevent; rfl
  | newHttpServer config =>
    cases config with
    | ok config => cases hevent; rfl
    | error err => cases hevent
  | request f readings =>
    obtain ⟨now, -, heq⟩ := Option.map_eq_some_iff.mp hevent
    cases heq

/-- Under a clock that does not go back, with valid worker IDs and enough numbers for every
millisecond, the IDs are distinct exactly when no worker of the same ID is made between two requests
in one millisecond. -/
theorem ids_distinct_iff_undisturbed {s s' : IdSource} {calls : List SourceCall}
    (hinit : idSources.init s) (hrun : idSources.run s calls = some s')
    (hvalid : ∀ call ∈ calls, HandsValid call)
    (hclock : ((history calls).filterMap reading).Pairwise (· ≤ ·))
    (hnumbers : ∀ now, calls.countP (SourceCall.Reads now) ≤ 4096)
    (hnonzero : .read 0 ∉ history calls) :
    s'.ids.Nodup ↔ Undisturbed (history calls) := by
  obtain rfl : s = loaded := hinit
  have hfits := fits_history hvalid hnumbers
  obtain ⟨w, hworker, hfollows⟩ := follows_loaded
  have hids := ids_of_run hworker hfollows hvalid hnonzero
    (fun before now after heq => hfits.streak_le heq) hrun
  rw [show loaded.ids = [] from rfl, List.nil_append] at hids
  rw [hids, hfits.nodup_idsFrom_iff, neverBack_iff_undisturbed hclock]

/-- Requests on both sides of a new worker, in milliseconds of their own. -/
def resetBetween : List SourceCall :=
  [.request .getUuidInt64 [epoch], .initWorker 7, .request .getUuidInt64 [epoch],
    .initWorker 7, .request .getUuidInt64 [epoch + 1]]

/-- Its IDs are distinct. -/
theorem ids_distinct_reset_between : ∃ s', idSources.run loaded resetBetween = some s' ∧
    s'.ids.Nodup ∧ Undisturbed (history resetBetween) := by
  obtain ⟨s', hrun⟩ := Option.isSome_iff_exists.mp
    (show (idSources.run loaded resetBetween).isSome by decide)
  have hnumbers : ∀ now, resetBetween.countP (SourceCall.Reads now) ≤ 4096 :=
    fun _ => List.countP_le_length.trans (by decide)
  have hnodup : s'.ids.Nodup := by
    have hall : ∀ s' ∈ idSources.run loaded resetBetween, s'.ids.Nodup := by decide
    exact hall s' hrun
  exact ⟨s', hrun, hnodup, (ids_distinct_iff_undisturbed rfl hrun (by decide) (by decide) hnumbers
    (by decide)).mp hnodup⟩

/-- The configuration that two servers share. -/
def sharedConfig : HttpServerConfig := ⟨8080, "", "/", false, false, false, 7⟩

/-- Two servers are made in one millisecond, with a request after each: both requests get the
same ID. -/
theorem ids_repeat_after_second_server : ∃ s' id, ValidWorker sharedConfig.workerID ∧
    idSources.run loaded [.newHttpServer (.ok sharedConfig), .request .getUuidInt64 [epoch],
      .newHttpServer (.ok sharedConfig), .request .getUuidInt64 [epoch]] = some s' ∧
    s'.ids = [id, id] :=
  ⟨_, _, by decide, rfl, rfl⟩

end IdSource

end Stardust.HttpServer
