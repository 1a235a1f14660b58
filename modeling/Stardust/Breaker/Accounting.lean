import Stardust.Breaker.GoogleBreaker

/-!
# Requests through a breaker

Requests of one breaker come from `DoWithAcceptable`, from the HTTP middleware and from the gRPC
interceptor, and interleave at the calls on its window. A panic in the body of a request unwinds
past both calls of its promise, so that no call on the window is made for it.
-/

namespace Stardust.Breaker

open GoogleBreaker

/-- What a body leaves when it returns: its error, and the status of its response. -/
structure Result where
  err : Option String
  status : Int
  deriving DecidableEq

/-- How a request comes to the breaker. Both HTTP middlewares have the same body; `acceptable` is
absent where it panics. -/
inductive Site where
  | doWithAcceptable (acceptable : String → Option Bool)
  | circuitBreaker
  | unaryBreakerInterceptor

/-- `Do` accepts no error. -/
def Site.plain : Site := .doWithAcceptable fun _ => some false

/-- Whether the promise is accepted or rejected after the body. -/
def Site.judge : Site → Result → Option Bool
  | .doWithAcceptable acceptable, r =>
    match r.err with
    | none => some true
    | some err => acceptable err
  | .circuitBreaker, r => if r.status ≥ 500 then some false else some true
  | .unaryBreakerInterceptor, r => some r.err.isNone

/-- The answer to a request that is turned away. -/
inductive Refusal where
  | err (text : String)
  | http (status code : Int) (msg : String)
  | grpcUnavailable (text : String)
  deriving DecidableEq

/-- The answer that a call site gives. -/
def Site.refuse (err : String) : Site → Refusal
  | .doWithAcceptable _ => .err err
  | .circuitBreaker => .http 503 503 "service unavailable (circuit breaker open)"
  | .unaryBreakerInterceptor => .grpcUnavailable err

/-- Where one request stands. -/
inductive Phase where
  /-- `Allow` was not called yet. -/
  | arrived
  /-- Turned away. -/
  | refused (reply : Refusal)
  /-- Admitted, inside the body. -/
  | running
  /-- The body returned. -/
  | ended (result : Result)
  /-- The promise was resolved. -/
  | finished (result : Result)
  /-- Left through a panic that an outer layer recovered. -/
  | recovered
  deriving DecidableEq

/-- One request. -/
structure Request where
  site : Site
  phase : Phase

/-- The count of a request in the window. -/
def verdict (accepted : Bool) : Bucket := if accepted then ⟨1, 1⟩ else ⟨0, 1⟩

/-- What the window has to hold of an admitted request that is over. -/
def Request.due (req : Request) : Option Bucket :=
  match req.phase with
  | .finished result => (req.site.judge result).map verdict
  | .recovered => some (verdict false)
  | _ => none

/-- One breaker, its requests by arrival, and the calls on its window since it was made. -/
structure Traffic where
  breaker : GoogleBreaker
  requests : List Request
  made : RollingWindow
  /-- The calls on the window, with the requests they were made for. -/
  history : List (Nat × WindowCall)

/-- One section of a request, with its clock readings and the random number. -/
inductive Action where
  | allow (now : Int) (draw : ℚ)
  | bodyReturns (result : Result)
  | bodyPanics
  | resolve (now : Int)

/-- A request arrives, or the request at `i` runs its next section. -/
inductive Label where
  | arrive (site : Site)
  | act (i : Nat) (a : Action)

/-- Accept or reject the promise. -/
def GoogleBreaker.resolve (gb : GoogleBreaker) (accepted : Bool) (now : Int) :
    Option GoogleBreaker :=
  if accepted then gb.markSuccess now else gb.markFailure now

/-- What one section does to its request and to the breaker, with its calls on the window. -/
def advance (gb : GoogleBreaker) (site : Site) :
    Action → Phase → Option (Phase × GoogleBreaker × List WindowCall)
  | .allow now draw, .arrived =>
    (gb.accept now draw).map fun (err, gb) =>
      (match err with
        | some err => .refused (site.refuse err)
        | none => .running, gb, [.sum now])
  | .bodyReturns result, .running => some (.ended result, gb, [])
  | .bodyPanics, .running => some (.recovered, gb, [])
  | .resolve now, .ended result =>
    match site.judge result with
    | none => some (.recovered, gb, [])
    | some accepted =>
      match gb.resolve accepted now with
      | none => some (.recovered, gb, [])
      | some gb =>
        some (.finished result, gb, [.add (verdict accepted).accepts (verdict accepted).total now])
  | _, _ => none

/-- One step of the traffic. -/
def Traffic.step (t : Traffic) : Label → Option Traffic
  | .arrive site => some { t with requests := t.requests ++ [⟨site, .arrived⟩] }
  | .act i a =>
    (t.requests[i]?).bind fun req =>
      (advance t.breaker req.site a req.phase).map fun (phase, gb, calls) =>
        { t with
          breaker := gb
          requests := t.requests.set i { req with phase := phase }
          history := t.history ++ calls.map (i, ·) }

/-- The requests of a new breaker. -/
def traffic : Core.System Traffic Label where
  init t := (∃ config now, t.breaker = newGoogleBreakerWithConfig config now) ∧ t.requests = [] ∧
    t.made = t.breaker.window ∧ t.history = []
  step := Traffic.step

/-- What a call adds to the window. -/
def WindowCall.added : WindowCall → Option Bucket
  | .add accepts total _ => some ⟨accepts, total⟩
  | .sum _ => none

/-- What was added to the window for one request. -/
def Traffic.records (t : Traffic) (i : Nat) : List Bucket :=
  t.history.filterMap fun (j, c) => if j = i then c.added else none

/-- The history is what was done to the window. -/
def Traffic.Replays (t : Traffic) : Prop :=
  (t.history.map Prod.snd).foldlM RollingWindow.call t.made = some t.breaker.window

/-- Every admitted request that is over was recorded in the window exactly once, as its outcome
says, and as a failure if it panicked. -/
def Traffic.Recorded (t : Traffic) : Prop :=
  t.Replays ∧ ∀ i req v, t.requests[i]? = some req → req.due = some v → t.records i = [v]

/-- If the body has returned, `acceptable` does not panic on its error. -/
def Request.judged (req : Request) : Bool :=
  match req.phase with
  | .ended result => (req.site.judge result).isSome
  | _ => true

/-- The section does not panic. -/
def Calm (t : Traffic) : Label → Prop
  | .act _ .bodyPanics => False
  | .act i (.resolve _) => (t.requests[i]?).all Request.judged
  | _ => True

instance (t : Traffic) : (l : Label) → Decidable (Calm t l)
  | .arrive _ => isTrue trivial
  | .act _ (.allow _ _) => isTrue trivial
  | .act _ (.bodyReturns _) => isTrue trivial
  | .act _ .bodyPanics => isFalse id
  | .act i (.resolve _) => inferInstanceAs (Decidable ((t.requests[i]?).all Request.judged = true))

/-- What the code adds to the window for a request in its phase. -/
def Request.added (req : Request) : List Bucket :=
  match req.phase with
  | .finished result => ((req.site.judge result).map verdict).toList
  | _ => []

/-- What holds in every state of a breaker. -/
structure Traffic.Orderly (t : Traffic) : Prop where
  /-- The window has a current bucket. -/
  fits : t.breaker.window.Fits
  /-- Once a request was judged, calls on the window return. -/
  sound : ∀ req ∈ t.requests, req.phase ≠ .arrived → t.breaker.window.Sound
  /-- The history is complete. -/
  replays : t.Replays
  /-- Every request has added what belongs to its phase. -/
  added : ∀ i req, t.requests[i]? = some req → t.records i = req.added
  /-- Nothing was added for a request that has not arrived. -/
  fresh : ∀ i, t.requests[i]? = none → t.records i = []

variable {gb gb' : GoogleBreaker} {site : Site} {a : Action} {phase phase' : Phase}
  {calls : List WindowCall} {t t' : Traffic} {i : Nat} {l : Label} {accepted : Bool} {now : Int}

/-- Accepting or rejecting a promise is one call of `add`. -/
theorem GoogleBreaker.resolve_spec (h : gb.window.Sound) (accepted : Bool) (now : Int) :
    ∃ window, gb.resolve accepted now = some { gb with window := window } ∧
      gb.window.call (.add (verdict accepted).accepts (verdict accepted).total now) = some window ∧
      window.Sound := by
  cases accepted with
  | false => exact mark_spec h 0 now
  | true => exact mark_spec h 1 now

/-- A promise is resolved over buckets with a length. -/
theorem GoogleBreaker.sound_of_resolve (h : gb.window.Fits)
    (hresolve : gb.resolve accepted now = some gb') : gb.window.Sound := by
  cases accepted with
  | false => exact sound_of_mark h hresolve
  | true => exact sound_of_mark h hresolve

/-- A request is judged only over buckets with a length. -/
theorem sound_of_advance_allow {draw : ℚ} (hfits : gb.window.Fits)
    (h : advance gb site (.allow now draw) phase = some (phase', gb', calls)) :
    gb.window.Sound := by
  cases phase with
  | arrived =>
    obtain ⟨r, haccept, -⟩ := Option.map_eq_some_iff.mp h
    exact sound_of_accept hfits haccept
  | _ => cases h

/-- A request that was judged before finds a window that works. -/
theorem sound_of_advance (hfits : gb.window.Fits) (hsound : phase ≠ .arrived → gb.window.Sound)
    (h : advance gb site a phase = some (phase', gb', calls)) : gb.window.Sound := by
  by_cases hphase : phase = .arrived
  · subst hphase
    cases a with
    | allow now draw => exact sound_of_advance_allow hfits h
    | _ => cases h
  · exact hsound hphase

/-- What one section of a request can do. -/
structure Section (gb : GoogleBreaker) (site : Site) (a : Action) (phase phase' : Phase)
    (gb' : GoogleBreaker) (calls : List WindowCall) : Prop where
  /-- The window keeps working. -/
  sound : gb'.window.Sound
  /-- The calls lead from one window to the other. -/
  replays : calls.foldlM RollingWindow.call gb.window = some gb'.window
  /-- The request had added nothing before. -/
  before : (Request.mk site phase).added = []
  /-- The calls add what belongs to the new phase. -/
  after : calls.filterMap WindowCall.added = (Request.mk site phase').added

/-- A section makes the calls on the window that belong to its phase. -/
theorem advance_section (hsound : gb.window.Sound)
    (h : advance gb site a phase = some (phase', gb', calls)) :
    Section gb site a phase phase' gb' calls := by
  unfold advance at h
  split at h
  · rename_i now draw
    obtain ⟨err, window, haccept, hcall, hsound'⟩ := accept_spec hsound now draw
    rw [haccept, Option.map_some] at h
    cases h
    refine ⟨hsound', ?_, rfl, ?_⟩
    · simp [hcall]
    · cases err <;> rfl
  · cases h
    exact ⟨hsound, rfl, rfl, rfl⟩
  · cases h
    exact ⟨hsound, rfl, rfl, rfl⟩
  · rename_i now result
    split at h
    · cases h
      exact ⟨hsound, rfl, rfl, rfl⟩
    · rename_i accepted hjudge
      obtain ⟨window, hresolve, hcall, hsound'⟩ :=
        resolve_spec hsound accepted now
      rw [hresolve] at h
      cases h
      refine ⟨hsound', ?_, rfl, ?_⟩
      · simp [hcall]
      · simp [Request.added, hjudge, WindowCall.added]
  · cases h

/-- A section ends in a recovered panic exactly when it is not calm. -/
theorem advance_recovered_iff (hsound : gb.window.Sound)
    (h : advance gb site a phase = some (phase', gb', calls))
    (hreq : t.requests[i]? = some ⟨site, phase⟩) :
    phase' = .recovered ↔ ¬ Calm t (.act i a) := by
  unfold advance at h
  split at h
  · obtain ⟨⟨err, gb''⟩, -, h⟩ := Option.map_eq_some_iff.mp h
    cases h
    cases err <;> simp [Calm]
  · cases h
    simp [Calm]
  · cases h
    simp [Calm]
  · rename_i now result
    split at h
    · rename_i hjudge
      cases h
      simp [Calm, hreq, Request.judged, hjudge]
    · rename_i accepted hjudge
      obtain ⟨window, hresolve, -, -⟩ := resolve_spec hsound accepted now
      rw [hresolve] at h
      cases h
      simp [Calm, hreq, Request.judged, hjudge]
  · cases h

/-- The calls of a section are added to the records of its request. -/
theorem records_append (history : List (Nat × WindowCall)) (i j : Nat) :
    ((history ++ calls.map (i, ·)).filterMap fun (k, c) => if k = j then c.added else none) =
      (history.filterMap fun (k, c) => if k = j then c.added else none) ++
        if i = j then calls.filterMap WindowCall.added else [] := by
  rw [List.filterMap_append, List.filterMap_map]
  congr 1
  by_cases hij : i = j
  · rw [if_pos hij]
    apply List.filterMap_congr
    intro c _
    exact if_pos hij
  · rw [if_neg hij, List.filterMap_eq_nil_iff]
    intro c _
    exact if_neg hij

/-- A section of one request exposes the request and what the section did. -/
theorem Traffic.step_act (h : t.step (.act i a) = some t') :
    ∃ site phase phase' gb' calls, t.requests[i]? = some ⟨site, phase⟩ ∧
      advance t.breaker site a phase = some (phase', gb', calls) ∧
      t' = ⟨gb', t.requests.set i ⟨site, phase'⟩, t.made, t.history ++ calls.map (i, ·)⟩ := by
  obtain ⟨⟨site, phase⟩, hreq, h⟩ := Option.bind_eq_some_iff.mp h
  obtain ⟨⟨phase', gb', calls⟩, hadvance, rfl⟩ := Option.map_eq_some_iff.mp h
  exact ⟨site, phase, phase', gb', calls, hreq, hadvance, rfl⟩

/-- The books of a new breaker are empty. -/
theorem Traffic.Orderly.of_init (h : traffic.init t) : t.Orderly := by
  obtain ⟨⟨config, now, hnew⟩, hrequests, hmade, hhistory⟩ := h
  refine ⟨hnew ▸ new_fits config now, ?_, ?_, ?_, ?_⟩
  · rw [hrequests]
    nofun
  · unfold Traffic.Replays
    rw [hhistory, hmade]
    rfl
  · intro i req hreq
    rw [hrequests] at hreq
    cases hreq
  · intro i _
    rw [Traffic.records, hhistory]
    rfl

/-- The window works for every section that runs. -/
theorem Traffic.Orderly.sound_of_advance (ht : t.Orderly)
    (hreq : t.requests[i]? = some ⟨site, phase⟩)
    (h : advance t.breaker site a phase = some (phase', gb', calls)) : t.breaker.window.Sound :=
  Breaker.sound_of_advance ht.fits (ht.sound _ (List.mem_of_getElem? hreq)) h

/-- Every step keeps the books. -/
theorem Traffic.Orderly.step (ht : t.Orderly) (h : t.step l = some t') : t'.Orderly := by
  cases l with
  | arrive site =>
    cases h
    refine ⟨ht.fits, ?_, ht.replays, ?_, ?_⟩
    · intro req hmem hphase
      rcases List.mem_append.mp hmem with hmem | hmem
      · exact ht.sound req hmem hphase
      · rw [List.mem_singleton.mp hmem] at hphase
        exact absurd rfl hphase
    · intro i req hreq
      dsimp only at hreq
      rw [List.getElem?_append] at hreq
      split at hreq
      · exact ht.added i req hreq
      · rename_i hlen
        have hnew : req = ⟨site, .arrived⟩ := by
          have hmem := List.mem_of_getElem? hreq
          exact List.mem_singleton.mp hmem
        rw [hnew]
        exact ht.fresh i (List.getElem?_eq_none (not_lt.mp hlen))
    · intro i hnone
      apply ht.fresh i
      rw [List.getElem?_eq_none_iff, List.length_append] at hnone
      exact List.getElem?_eq_none (by omega)
  | act i a =>
    obtain ⟨site, phase, phase', gb', calls, hreq, hadvance, rfl⟩ := Traffic.step_act h
    have hsection := advance_section (ht.sound_of_advance hreq hadvance) hadvance
    refine ⟨hsection.sound.toFits, fun _ _ _ => hsection.sound, ?_, ?_, ?_⟩
    · have hreplays := ht.replays
      unfold Traffic.Replays at hreplays ⊢
      rw [List.map_append, List.foldlM_append, hreplays, List.map_map]
      have hid : (Prod.snd ∘ fun c : WindowCall => (i, c)) = id := rfl
      rw [hid, List.map_id]
      exact hsection.replays
    · intro j req hj
      dsimp only at hj
      rw [Traffic.records, records_append]
      rw [List.getElem?_set] at hj
      split at hj
      · rename_i hij
        subst hij
        split at hj
        · cases hj
          have hbefore : t.records i = [] := (ht.added i _ hreq).trans hsection.before
          rw [Traffic.records] at hbefore
          rw [hbefore, if_pos rfl, List.nil_append]
          exact hsection.after
        · cases hj
      · rename_i hij
        rw [if_neg hij, List.append_nil]
        exact ht.added j req hj
    · intro j hj
      dsimp only at hj
      rw [List.getElem?_eq_none_iff, List.length_set] at hj
      have hlt := (List.getElem?_eq_some_iff.mp hreq).1
      rw [Traffic.records, records_append, if_neg (by omega), List.append_nil]
      exact ht.fresh j (List.getElem?_eq_none hj)

/-- The books are right exactly when no request has left through a panic. -/
theorem Traffic.Orderly.recorded_iff (ht : t.Orderly) :
    t.Recorded ↔ ∀ req ∈ t.requests, req.phase ≠ .recovered := by
  constructor
  · rintro ⟨-, hrecorded⟩ ⟨site, phase⟩ hmem rfl
    obtain ⟨i, hi⟩ := List.mem_iff_getElem?.mp hmem
    have hone := hrecorded i _ (verdict false) hi rfl
    rw [ht.added i _ hi] at hone
    cases hone
  · intro hnone
    refine ⟨ht.replays, ?_⟩
    rintro i ⟨site, phase⟩ v hi hdue
    rw [ht.added i _ hi]
    cases phase with
    | finished result =>
      simp only [Request.due] at hdue
      simp only [Request.added, hdue, Option.toList_some]
    | recovered => exact absurd rfl (hnone _ (List.mem_of_getElem? hi))
    | _ => cases hdue

/-- A step keeps the books right exactly when it is calm. -/
theorem Traffic.Recorded.step_iff (ht : t.Orderly) (hrecorded : t.Recorded)
    (h : t.step l = some t') : t'.Recorded ↔ Calm t l := by
  rw [(ht.step h).recorded_iff]
  have hnone := ht.recorded_iff.mp hrecorded
  cases l with
  | arrive site =>
    cases h
    refine iff_of_true ?_ trivial
    intro req hmem
    rcases List.mem_append.mp hmem with hmem | hmem
    · exact hnone req hmem
    · rw [List.mem_singleton.mp hmem]
      nofun
  | act i a =>
    obtain ⟨site, phase, phase', gb', calls, hreq, hadvance, rfl⟩ := Traffic.step_act h
    have hpanic := advance_recovered_iff (ht.sound_of_advance hreq hadvance) hadvance hreq
    have hlt := (List.getElem?_eq_some_iff.mp hreq).1
    constructor
    · intro hall
      by_contra hcalm
      exact hall _ (List.mem_set hlt _) (hpanic.mpr hcalm)
    · intro hcalm req hmem
      rcases List.mem_or_eq_of_mem_set hmem with hmem | rfl
      · exact hnone req hmem
      · exact fun hrecovered => hpanic.mp hrecovered hcalm

/-- In all states of a run every admitted request that is over was recorded exactly once, a
panicking one as a failure, exactly when no body and no `acceptable` panics. -/
theorem requests_recorded_iff_no_panic {t₀ t : Traffic} {ls : List Label}
    (hinit : traffic.init t₀) (hrun : traffic.run t₀ ls = some t) :
    (∀ before after u, ls = before ++ after → traffic.run t₀ before = some u → u.Recorded) ↔
      traffic.Guarded Calm t₀ ls := by
  have hstart := Traffic.Orderly.of_init hinit
  have hrecorded : t₀.Recorded := by
    rw [hstart.recorded_iff, hinit.2.1]
    nofun
  exact traffic.forall_states_iff_guarded (fun _ _ _ ht hstep => Traffic.Orderly.step ht hstep)
    (fun _ _ _ ht hr hstep => Traffic.Recorded.step_iff ht hr hstep) hstart hrecorded hrun

/-- A breaker with the default configuration, made at time 0. -/
def newTraffic : Traffic := ⟨newGoogleBreaker 0, [], (newGoogleBreaker 0).window, []⟩

/-- One request from each call site is admitted. -/
def admitThree : List Label :=
  [.arrive .plain, .arrive .circuitBreaker, .arrive .unaryBreakerInterceptor,
    .act 0 (.allow 1 0), .act 1 (.allow 2 0), .act 2 (.allow 3 0)]

/-- Their bodies return, one with an error, one with a server error, one with success. -/
def returnThree : List Label :=
  [.act 2 (.bodyReturns ⟨none, 0⟩), .act 0 (.bodyReturns ⟨some "failed", 0⟩), .act 0 (.resolve 4),
    .act 1 (.bodyReturns ⟨none, 502⟩), .act 1 (.resolve 5), .act 2 (.resolve 6)]

/-- Three admitted requests return, one by one. -/
theorem requests_recorded_when_three_return :
    ∃ t, traffic.run newTraffic (admitThree ++ returnThree) = some t ∧
      ∀ before after u, admitThree ++ returnThree = before ++ after →
        traffic.run newTraffic before = some u → u.Recorded :=
  ⟨_, rfl, (requests_recorded_iff_no_panic
    ⟨⟨defaultGoogleBreakerConfig, 0, rfl⟩, rfl, rfl, rfl⟩ rfl).mpr (by decide)⟩

/-- One request from each call site is admitted and panics, and nothing is recorded. -/
theorem panicking_requests_not_recorded :
    ∃ t, traffic.run newTraffic
        (admitThree ++ [.act 0 .bodyPanics, .act 1 .bodyPanics, .act 2 .bodyPanics]) = some t ∧
      t.requests.map Request.due = List.replicate 3 (some ⟨0, 1⟩) ∧
      t.records 0 = [] ∧ t.records 1 = [] ∧ t.records 2 = [] ∧
      t.breaker.window.buckets = List.replicate 40 ⟨0, 0⟩ ∧ ¬ t.Recorded := by
  refine ⟨_, rfl, rfl, rfl, rfl, rfl, rfl, ?_⟩
  rintro ⟨-, hrecorded⟩
  exact absurd (hrecorded 0 _ _ rfl rfl) (by decide)

end Stardust.Breaker
