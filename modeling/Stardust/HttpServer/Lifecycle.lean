import Stardust.Core.System

/-!
# Startup and Stop of an HTTP server

A service group starts its servers in goroutines of their own and stops them on request, so
`Startup` and `Stop` of one server meet in any order. `Startup` makes a new `http.Server`, puts it
into `m.server` and serves it in another goroutine, which reads `m.server` again. `Stop` shuts down
what is in `m.server` once, at the first call; a server that gets there later is served for ever.
-/

namespace Stardust.HttpServer.Lifecycle

/-- Where a call of `Startup` stands. -/
inductive Starting where
  | entered
  /-- `m.server` was assigned. -/
  | assigned
  | returned
  deriving DecidableEq

/-- Where a goroutine that runs `m.server.ListenAndServe()` stands. The number is that of the
`http.Server`. -/
inductive Serving where
  | spawned
  /-- Not shutting down so far. -/
  | opening (k : Nat)
  /-- The listener is open. -/
  | opened (k : Nat)
  /-- The listener is tracked, and connections are accepted. -/
  | accepting (k : Nat)
  | ended
  deriving DecidableEq

/-- Where the function of `stopOnce` stands. -/
inductive Body where
  | looking
  /-- `m.server` was not nil. -/
  | checked
  /-- `Shutdown` has announced itself, and closes the listeners next. -/
  | closing (k : Nat)
  | leaving
  deriving DecidableEq

/-- The state of `stopOnce`, with the call of `Stop` that runs its function. -/
inductive Once where
  | fresh
  | running (i : Nat) (body : Body)
  | done
  deriving DecidableEq

/-- Where a call of `Stop` stands. -/
inductive Stopping where
  | entered
  | returned
  deriving DecidableEq

/-- A server with the calls of its methods. -/
structure Server where
  /-- `m.server`. -/
  server : Option Nat
  /-- Whether each `http.Server` is shutting down, by its number. -/
  shutdowns : List Bool
  startups : List Starting
  serving : List Serving
  once : Once
  stops : List Stopping
  deriving DecidableEq

/-- The steps of `Startup`, of the goroutines and of `Stop`. -/
inductive Label where
  | startup
  | assign (i : Nat)
  | spawn (i : Nat)
  /-- The goroutine reads `m.server` and looks whether it is shutting down. -/
  | serve (g : Nat)
  | listen (g : Nat) (ok : Bool)
  | track (g : Nat)
  | stop
  /-- A call of `Stop` becomes the one that runs the function of `stopOnce`. -/
  | enter (i : Nat)
  /-- Another call returns after it. -/
  | join (i : Nat)
  | look
  | shutdown
  | closeListeners
  | finish
  deriving DecidableEq

/-- The accept loop of a server ends when its listener is closed. -/
def Serving.close (k : Nat) : Serving → Serving
  | .accepting j => if j = k then .ended else .accepting j
  | w => w

namespace Server

/-- A server as it is made. -/
def new : Server := ⟨none, [], [], [], .fresh, []⟩

/-- The server with this number exists and is not shutting down. -/
def up (s : Server) (k : Nat) : Bool := s.shutdowns[k]? = some false

/-- Where a goroutine goes on. -/
def setServing (s : Server) (g : Nat) (w : Serving) : Server :=
  { s with serving := s.serving.set g w }

/-- A step of a goroutine that serves. -/
def serve (s : Server) (g : Nat) : Option Server :=
  match s.serving[g]?, s.server with
  | some .spawned, some k => some (s.setServing g (if s.up k then .opening k else .ended))
  | _, _ => none

/-- The listener opens, or fails to. -/
def listen (s : Server) (g : Nat) (ok : Bool) : Option Server :=
  match s.serving[g]? with
  | some (.opening k) => some (s.setServing g (if ok then .opened k else .ended))
  | _ => none

/-- The listener is tracked unless the server is shutting down. -/
def track (s : Server) (g : Nat) : Option Server :=
  match s.serving[g]? with
  | some (.opened k) => some (s.setServing g (if s.up k then .accepting k else .ended))
  | _ => none

/-- `Stop` looks at `m.server`. -/
def look (s : Server) : Option Server :=
  match s.once with
  | .running i .looking =>
    some { s with once := .running i (if s.server = none then .leaving else .checked) }
  | _ => none

/-- `Shutdown` of what is in `m.server` now. -/
def shutdown (s : Server) : Option Server :=
  match s.once, s.server with
  | .running i .checked, some k =>
    some { s with shutdowns := s.shutdowns.set k true, once := .running i (.closing k) }
  | _, _ => none

/-- `Shutdown` closes the listeners that are tracked. -/
def closeListeners (s : Server) : Option Server :=
  match s.once with
  | .running i (.closing k) =>
    some { s with serving := s.serving.map (Serving.close k), once := .running i .leaving }
  | _ => none

/-- The function of `stopOnce` returns. -/
def finish (s : Server) : Option Server :=
  match s.once with
  | .running i .leaving => some { s with once := .done, stops := s.stops.set i .returned }
  | _ => none

/-- One step of the server. -/
def step (s : Server) : Label → Option Server
  | .startup => some { s with startups := s.startups ++ [.entered] }
  | .assign i =>
    if s.startups[i]? = some .entered then
      some { s with
        server := some s.shutdowns.length
        shutdowns := s.shutdowns ++ [false]
        startups := s.startups.set i .assigned }
    else none
  | .spawn i =>
    if s.startups[i]? = some .assigned then
      some { s with serving := s.serving ++ [.spawned], startups := s.startups.set i .returned }
    else none
  | .serve g => s.serve g
  | .listen g ok => s.listen g ok
  | .track g => s.track g
  | .stop => some { s with stops := s.stops ++ [.entered] }
  | .enter i =>
    if s.once = .fresh ∧ s.stops[i]? = some .entered then
      some { s with once := .running i .looking }
    else none
  | .join i =>
    if s.once = .done ∧ s.stops[i]? = some .entered then
      some { s with stops := s.stops.set i .returned }
    else none
  | .look => s.look
  | .shutdown => s.shutdown
  | .closeListeners => s.closeListeners
  | .finish => s.finish

end Server

/-- A server from its construction on. -/
def lifecycle : Core.System Server Label where
  init s := s = Server.new
  step := Server.step

/-- Every call of `Stop` has returned, and some server accepts connections whatever happens from
now on. -/
def Server.Stuck (s : Server) : Prop :=
  (∀ call ∈ s.stops, call = .returned) ∧
    ∃ (g k : Nat), s.serving[g]? = some (Serving.accepting k) ∧
      ∀ ls s', lifecycle.run s ls = some s' → s'.serving[g]? = some (.accepting k)

/-- The function of `stopOnce` has not looked at `m.server` so far. -/
def Once.waiting : Once → Bool
  | .fresh => true
  | .running _ .looking => true
  | _ => false

/-- `Startup` assigns `m.server` while it is nil, and before the function of `stopOnce` has looked
at it. -/
def Server.AssignsFirst (s : Server) : Label → Prop
  | .assign _ => s.server = none ∧ s.once.waiting = true
  | _ => True

instance (s : Server) : ∀ l, Decidable (s.AssignsFirst l)
  | .assign _ => inferInstanceAs (Decidable (s.server = none ∧ s.once.waiting = true))
  | .startup | .spawn _ | .serve _ | .listen _ _ | .track _ | .stop | .enter _ | .join _ | .look
  | .shutdown | .closeListeners | .finish => isTrue trivial

/-- No `http.Server` is shutting down. -/
def Server.Down (s : Server) : Prop := true ∉ s.shutdowns

/-- Nothing accepts connections, and nothing will. -/
def Server.Quiet (s : Server) : Prop :=
  false ∉ s.shutdowns ∧ ∀ (g k : Nat), s.serving[g]? ≠ some (Serving.accepting k)

/-- What the function of `stopOnce` knows. -/
def Server.Stopped (s : Server) : Once → Prop
  | .fresh => s.Down
  | .running i .looking => s.Down ∧ s.stops[i]? = some .entered
  | .running i .checked => s.Down ∧ s.shutdowns ≠ [] ∧ s.stops[i]? = some .entered
  | .running i (.closing k) => k = 0 ∧ false ∉ s.shutdowns ∧ s.stops[i]? = some .entered
  | .running i .leaving => s.Quiet ∧ s.stops[i]? = some .entered
  | .done => s.Quiet

/-- The number of the server that a goroutine serves. -/
def Serving.number : Serving → Option Nat
  | .opening k => some k
  | .opened k => some k
  | .accepting k => some k
  | _ => none

private theorem Serving.number_of_close {k j : Nat} {w : Serving}
    (h : (w.close k).number = some j) : w.number = some j := by
  cases w with
  | accepting i =>
    by_cases hi : i = k
    · rw [Serving.close, if_pos hi] at h
      cases h
    · rwa [Serving.close, if_neg hi] at h
  | _ => exact h

private theorem Serving.close_ne_accepting (k : Nat) (w : Serving) : w.close k ≠ .accepting k := by
  cases w with
  | accepting i =>
    intro h
    by_cases hi : i = k
    · rw [Serving.close, if_pos hi] at h
      cases h
    · rw [Serving.close, if_neg hi] at h
      exact hi (Serving.accepting.inj h)
  | _ => exact nofun

/-- What holds as long as `Startup` comes first. -/
structure Server.Orderly (s : Server) : Prop where
  single : s.shutdowns.length ≤ 1
  server : s.server = if s.shutdowns = [] then none else some 0
  /-- Without a server nobody serves, and no `Startup` is past its assignment. -/
  idle : s.shutdowns = [] → s.serving = [] ∧ ∀ call ∈ s.startups, call = .entered
  /-- Only the one server is served. -/
  served : ∀ w ∈ s.serving, ∀ k, w.number = some k → k = 0
  stopped : s.Stopped s.once

namespace Server

variable {s s' : Server}

private theorem up_iff {k : Nat} : s.up k = true ↔ s.shutdowns[k]? = some false := by
  simp [up]

/-- What a step of a serving goroutine does, from the place where it stands to the next. -/
structure Advances (s s' : Server) (g : Nat) (v w : Serving) : Prop where
  stands : s.serving[g]? = some v
  /-- No goroutine leaves the accept loop by itself. -/
  outside : ∀ k, v ≠ .accepting k
  moves : s' = s.setServing g w
  /-- It serves the server that it has, or takes the one in `m.server`. -/
  number : ∀ k, w.number = some k → v.number = some k ∨ s.server = some k
  /-- It enters the accept loop of a server that is not shutting down. -/
  up : ∀ k, w = .accepting k → s.up k = true

private theorem serve_advances {g : Nat} (hstep : s.serve g = some s') :
    ∃ v w, s.Advances s' g v w := by
  unfold serve at hstep
  split at hstep
  case h_2 => cases hstep
  case h_1 k hg hserver =>
    cases hstep
    by_cases hup : s.up k
    · rw [if_pos hup]
      exact ⟨_, _, hg, nofun, rfl, fun j hj => by cases hj; exact .inr hserver, nofun⟩
    · rw [if_neg hup]
      exact ⟨_, _, hg, nofun, rfl, nofun, nofun⟩

private theorem listen_advances {g : Nat} {ok : Bool} (hstep : s.listen g ok = some s') :
    ∃ v w, s.Advances s' g v w := by
  unfold listen at hstep
  split at hstep
  case h_2 => cases hstep
  case h_1 k hg =>
    cases hstep
    cases ok with
    | true => exact ⟨_, _, hg, nofun, rfl, fun j hj => .inl hj, nofun⟩
    | false => exact ⟨_, _, hg, nofun, rfl, nofun, nofun⟩

private theorem track_advances {g : Nat} (hstep : s.track g = some s') :
    ∃ v w, s.Advances s' g v w := by
  unfold track at hstep
  split at hstep
  case h_2 => cases hstep
  case h_1 k hg =>
    cases hstep
    by_cases hup : s.up k
    · rw [if_pos hup]
      exact ⟨_, _, hg, nofun, rfl, fun j hj => .inl hj, fun j hj => by cases hj; exact hup⟩
    · rw [if_neg hup]
      exact ⟨_, _, hg, nofun, rfl, nofun, nofun⟩

private theorem Quiet.setServing (h : s.Quiet) (g : Nat) {w : Serving}
    (hw : ∀ k, w ≠ .accepting k) : (s.setServing g w).Quiet := by
  refine ⟨h.1, fun g' k hg' => ?_⟩
  rw [Server.setServing, List.getElem?_set] at hg'
  split at hg'
  · split at hg'
    · exact hw k (Option.some.inj hg')
    · cases hg'
  · exact h.2 g' k hg'

/-- What the function of `stopOnce` knows survives what does not touch the servers, the call that
runs it, or the silence it left. -/
theorem Stopped.frame {once : Once} (h : s.Stopped once) (hshut : s'.shutdowns = s.shutdowns)
    (hstops : ∀ i : Nat, s.stops[i]? = some .entered → s'.stops[i]? = some .entered)
    (hquiet : s.Quiet → s'.Quiet) : s'.Stopped once := by
  have hdown : s.Down → s'.Down := fun hd => by rwa [Down, hshut]
  match once, h with
  | .fresh, h => exact hdown h
  | .running i .looking, h => exact ⟨hdown h.1, hstops i h.2⟩
  | .running i .checked, h => exact ⟨hdown h.1, hshut ▸ h.2.1, hstops i h.2.2⟩
  | .running i (.closing k), h => exact ⟨h.1, hshut ▸ h.2.1, hstops i h.2.2⟩
  | .running i .leaving, h => exact ⟨hquiet h.1, hstops i h.2⟩
  | .done, h => exact hquiet h

namespace Orderly

private theorem new : Server.new.Orderly where
  single := Nat.zero_le _
  server := rfl
  idle _ := ⟨rfl, nofun⟩
  served := nofun
  stopped := List.not_mem_nil

/-- A server in `m.server` is the only one. -/
theorem server_eq_some (h : s.Orderly) {k : Nat} (hk : s.server = some k) :
    k = 0 ∧ ∃ b, s.shutdowns = [b] := by
  have hserver := h.server
  rw [hk] at hserver
  match hshut : s.shutdowns with
  | [] => simp [hshut] at hserver
  | [b] => exact ⟨by simpa [hshut] using hserver, b, rfl⟩
  | _ :: _ :: _ => simpa [hshut] using h.single

private theorem server_eq_none (h : s.Orderly) (hnone : s.server = none) : s.shutdowns = [] := by
  by_contra hne
  have hserver := h.server
  rw [if_neg hne, hnone] at hserver
  cases hserver

/-- A goroutine that moves on serves the one server, and accepts only while that is up. -/
theorem advances (h : s.Orderly) {g : Nat} {v w : Serving} (hadv : s.Advances s' g v w) :
    s'.Orderly := by
  rw [hadv.moves]
  refine ⟨h.single, h.server, fun hnil => ?_, fun w' hw' => ?_, ?_⟩
  · refine ⟨?_, (h.idle hnil).2⟩
    rw [setServing, (h.idle hnil).1, List.set_nil]
  · rcases List.mem_or_eq_of_mem_set hw' with hmem | rfl
    · exact h.served w' hmem
    · intro k hk
      rcases hadv.number k hk with hv | hserver
      · exact h.served v (List.mem_of_getElem? hadv.stands) k hv
      · exact (h.server_eq_some hserver).1
  · refine h.stopped.frame rfl (fun _ hi => hi) fun hquiet => hquiet.setServing g fun k hk => ?_
    exact hquiet.1 (List.mem_of_getElem? (up_iff.mp (hadv.up k hk)))

/-- The first assignment makes the one server, before anybody has looked for it. -/
theorem assign (h : s.Orderly) {i : Nat} (hfirst : s.AssignsFirst (.assign i))
    (hstep : s.step (.assign i) = some s') : s'.Orderly := by
  obtain ⟨hnone, honce⟩ := hfirst
  have hnil := h.server_eq_none hnone
  simp only [step, Option.ite_none_right_eq_some, Option.some.injEq] at hstep
  obtain ⟨-, rfl⟩ := hstep
  have hdown : true ∉ s.shutdowns ++ [false] := by simp [hnil]
  exact {
    single := by simp [hnil]
    server := by simp [hnil]
    idle := fun habs => by simp at habs
    served := h.served
    stopped := by
      have hstopped := h.stopped
      revert hstopped honce
      match s.once with
      | .fresh => exact fun _ _ => hdown
      | .running i .looking => exact fun _ hstopped => ⟨hdown, hstopped.2⟩
      | .running _ .checked | .running _ (.closing _) | .running _ .leaving | .done => exact nofun }

/-- A goroutine is started only after an assignment. -/
theorem spawn (h : s.Orderly) {i : Nat} (hstep : s.step (.spawn i) = some s') : s'.Orderly := by
  simp only [step, Option.ite_none_right_eq_some, Option.some.injEq] at hstep
  obtain ⟨hassigned, rfl⟩ := hstep
  have hne : s.shutdowns ≠ [] := by
    intro hnil
    cases (h.idle hnil).2 _ (List.mem_of_getElem? hassigned)
  exact {
    single := h.single
    server := h.server
    idle := fun habs => absurd habs hne
    served := fun w hw k hk => by
      rcases List.mem_append.mp hw with hmem | hmem
      · exact h.served w hmem k hk
      · cases List.mem_singleton.mp hmem
        cases hk
    stopped := by
      refine h.stopped.frame rfl (fun _ hi => hi) fun hquiet => ⟨hquiet.1, fun g k hg => ?_⟩
      have hmem := List.mem_of_getElem? hg
      rw [List.mem_append, List.mem_singleton] at hmem
      rcases hmem with hmem | hmem
      · obtain ⟨g', hg'⟩ := List.mem_iff_getElem?.mp hmem
        exact hquiet.2 g' k hg'
      · cases hmem }

private theorem look (h : s.Orderly) (hstep : s.look = some s') : s'.Orderly := by
  unfold Server.look at hstep
  split at hstep
  case h_2 => cases hstep
  case h_1 i honce =>
    cases hstep
    have hstopped : s.Down ∧ s.stops[i]? = some .entered := by
      simpa [honce, Stopped] using h.stopped
    refine ⟨h.single, h.server, h.idle, h.served, ?_⟩
    by_cases hnone : s.server = none
    · have hnil := h.server_eq_none hnone
      rw [if_pos hnone]
      refine ⟨⟨by simp [hnil], fun g k => ?_⟩, hstopped.2⟩
      simp [(h.idle hnil).1]
    · rw [if_neg hnone]
      refine ⟨hstopped.1, fun hnil => hnone ?_, hstopped.2⟩
      rw [h.server, if_pos hnil]

/-- `Shutdown` is called on the one server. -/
theorem shutdown (h : s.Orderly) (hstep : s.shutdown = some s') : s'.Orderly := by
  unfold Server.shutdown at hstep
  split at hstep
  case h_2 => cases hstep
  case h_1 i k honce hserver =>
    cases hstep
    obtain ⟨rfl, b, hshut⟩ := h.server_eq_some hserver
    have hstopped : s.Down ∧ s.shutdowns ≠ [] ∧ s.stops[i]? = some .entered := by
      simpa [honce, Stopped] using h.stopped
    have hset : s.shutdowns.set 0 true = [true] := by rw [hshut]; rfl
    refine ⟨by simp [hset], by simp [hset, hserver], fun habs => ?_, h.served, ?_⟩
    · simp [hset] at habs
    · exact ⟨rfl, by simp [hset], hstopped.2.2⟩

/-- Closing the listeners of the one server silences everybody. -/
theorem closeListeners (h : s.Orderly) (hstep : s.closeListeners = some s') : s'.Orderly := by
  unfold Server.closeListeners at hstep
  split at hstep
  case h_2 => cases hstep
  case h_1 i k honce =>
    cases hstep
    have hstopped : k = 0 ∧ false ∉ s.shutdowns ∧ s.stops[i]? = some .entered := by
      simpa [honce, Stopped] using h.stopped
    obtain ⟨rfl, hshut, hcall⟩ := hstopped
    refine ⟨h.single, h.server, fun hnil => ?_, ?_, ?_⟩
    · exact ⟨by rw [(h.idle hnil).1, List.map_nil], (h.idle hnil).2⟩
    · intro w hw k hk
      obtain ⟨v, hv, rfl⟩ := List.mem_map.mp hw
      exact h.served v hv k (Serving.number_of_close hk)
    · refine ⟨⟨hshut, fun g k hg => ?_⟩, hcall⟩
      rw [List.getElem?_map, Option.map_eq_some_iff] at hg
      obtain ⟨v, hv, hclose⟩ := hg
      have hnumber : v.number = some k := Serving.number_of_close (by rw [hclose]; rfl)
      have hk := h.served v (List.mem_of_getElem? hv) k hnumber
      exact Serving.close_ne_accepting 0 v (hk ▸ hclose)

private theorem finish (h : s.Orderly) (hstep : s.finish = some s') : s'.Orderly := by
  unfold Server.finish at hstep
  split at hstep
  case h_2 => cases hstep
  case h_1 i honce =>
    cases hstep
    have hstopped : s.Quiet ∧ s.stops[i]? = some .entered := by
      simpa [honce, Stopped] using h.stopped
    exact ⟨h.single, h.server, h.idle, h.served, hstopped.1⟩

/-- Every step keeps the order as long as `Startup` comes first. -/
theorem step (h : s.Orderly) {l : Label} (hfirst : s.AssignsFirst l)
    (hstep : s.step l = some s') : s'.Orderly := by
  cases l with
  | startup =>
    cases hstep
    refine ⟨h.single, h.server, fun hnil => ⟨(h.idle hnil).1, ?_⟩, h.served, ?_⟩
    · intro call hcall
      rcases List.mem_append.mp hcall with hmem | hmem
      · exact (h.idle hnil).2 call hmem
      · exact List.mem_singleton.mp hmem
    · exact h.stopped.frame rfl (fun _ hi => hi) id
  | assign i => exact h.assign hfirst hstep
  | spawn i => exact h.spawn hstep
  | serve g =>
    obtain ⟨v, w, hadv⟩ := serve_advances hstep
    exact h.advances hadv
  | listen g ok =>
    obtain ⟨v, w, hadv⟩ := listen_advances hstep
    exact h.advances hadv
  | track g =>
    obtain ⟨v, w, hadv⟩ := track_advances hstep
    exact h.advances hadv
  | stop =>
    cases hstep
    refine ⟨h.single, h.server, h.idle, h.served, h.stopped.frame rfl (fun i hi => ?_) id⟩
    obtain ⟨hlt, -⟩ := List.getElem?_eq_some_iff.mp hi
    rw [List.getElem?_append_left hlt, hi]
  | enter i =>
    simp only [Server.step, Option.ite_none_right_eq_some, Option.some.injEq] at hstep
    obtain ⟨⟨hfresh, hcall⟩, rfl⟩ := hstep
    have hdown : s.Down := by simpa [hfresh, Stopped] using h.stopped
    exact ⟨h.single, h.server, h.idle, h.served, hdown, hcall⟩
  | join i =>
    simp only [Server.step, Option.ite_none_right_eq_some, Option.some.injEq] at hstep
    obtain ⟨⟨hdone, -⟩, rfl⟩ := hstep
    have hquiet : s.Quiet := by simpa [hdone, Stopped] using h.stopped
    refine ⟨h.single, h.server, h.idle, h.served, ?_⟩
    rw [hdone]
    exact hquiet
  | look => exact h.look hstep
  | shutdown => exact h.shutdown hstep
  | closeListeners => exact h.closeListeners hstep
  | finish => exact h.finish hstep

end Orderly

/-- One call of `Stop` from now on, up to the closed listeners. -/
def stopNow (s : Server) : List Label :=
  [.stop, .enter s.stops.length, .look, .shutdown, .closeListeners]

/-- As long as no `Stop` has run, the next one silences the server. -/
theorem Orderly.run_stopNow (h : s.Orderly) (hfresh : s.once = .fresh) {k : Nat}
    (hserver : s.server = some k) :
    ∃ s', lifecycle.run s s.stopNow = some s' ∧ s'.serving = s.serving.map (Serving.close 0) := by
  obtain ⟨rfl, -⟩ := h.server_eq_some hserver
  refine ⟨⟨some 0, s.shutdowns.set 0 true, s.startups, s.serving.map (Serving.close 0),
    .running s.stops.length .leaving, s.stops ++ [.entered]⟩, ?_, rfl⟩
  simp [stopNow, lifecycle, Core.System.run, Server.step, Server.look, Server.shutdown,
    Server.closeListeners, hfresh, hserver]

/-- In order, a server that accepts connections after all calls of `Stop` have returned has seen
none. -/
theorem Orderly.once_eq_fresh (h : s.Orderly) (hstops : ∀ call ∈ s.stops, call = .returned)
    {g k : Nat} (hg : s.serving[g]? = some (.accepting k)) : s.once = .fresh := by
  have hrunning : ∀ i : Nat, s.stops[i]? ≠ some .entered := fun i hi => by
    cases hstops _ (List.mem_of_getElem? hi)
  have hstopped := h.stopped
  match honce : s.once with
  | .fresh => rfl
  | .running i .looking => rw [honce] at hstopped; exact absurd hstopped.2 (hrunning i)
  | .running i .checked => rw [honce] at hstopped; exact absurd hstopped.2.2 (hrunning i)
  | .running i (.closing _) => rw [honce] at hstopped; exact absurd hstopped.2.2 (hrunning i)
  | .running i .leaving => rw [honce] at hstopped; exact absurd hstopped.2 (hrunning i)
  | .done => rw [honce] at hstopped; exact absurd hg (hstopped.2 g k)

private theorem Orderly.not_stuck (h : s.Orderly) : ¬s.Stuck := by
  rintro ⟨hstops, g, k, hg, hforever⟩
  have hfresh := h.once_eq_fresh hstops hg
  have hk := h.served _ (List.mem_of_getElem? hg) k rfl
  have hserver : s.server = some 0 := by
    rw [h.server, if_neg]
    intro hnil
    rw [(h.idle hnil).1] at hg
    cases hg
  obtain ⟨s', hrun, hserving⟩ := h.run_stopNow hfresh hserver
  have hstill := hforever _ s' hrun
  rw [hserving, List.getElem?_map, hg, hk] at hstill
  exact Serving.close_ne_accepting 0 _ (Option.some.inj hstill)

/-- A goroutine that moves on leaves those in the accept loop alone. -/
theorem Advances.accepting {g' g k : Nat} {v w : Serving} (hadv : s.Advances s' g' v w)
    (hg : s.serving[g]? = some (.accepting k)) : s'.serving[g]? = some (.accepting k) := by
  have hne : g' ≠ g := by
    rintro rfl
    have hv := hadv.stands
    rw [hg] at hv
    exact hadv.outside k (Option.some.inj hv).symm
  rw [hadv.moves, setServing, List.getElem?_set_ne hne, hg]

private theorem Advances.once_eq {g : Nat} {v w : Serving} (hadv : s.Advances s' g v w) :
    s'.once = s.once := by
  rw [hadv.moves, setServing]

/-- After `stopOnce` is spent, a server that accepts connections goes on. -/
theorem accepting_of_step_done {g k : Nat} (honce : s.once = .done)
    (hg : s.serving[g]? = some (.accepting k)) {l : Label} (hstep : s.step l = some s') :
    s'.once = .done ∧ s'.serving[g]? = some (.accepting k) := by
  cases l with
  | startup | stop => cases hstep; exact ⟨honce, hg⟩
  | assign i | join i =>
    simp only [step, Option.ite_none_right_eq_some, Option.some.injEq] at hstep
    obtain ⟨-, rfl⟩ := hstep
    exact ⟨honce, hg⟩
  | spawn i =>
    simp only [step, Option.ite_none_right_eq_some, Option.some.injEq] at hstep
    obtain ⟨-, rfl⟩ := hstep
    obtain ⟨hlt, -⟩ := List.getElem?_eq_some_iff.mp hg
    exact ⟨honce, by rw [List.getElem?_append_left hlt, hg]⟩
  | serve g' =>
    obtain ⟨v, w, hadv⟩ := serve_advances hstep
    exact ⟨hadv.once_eq.trans honce, hadv.accepting hg⟩
  | listen g' ok =>
    obtain ⟨v, w, hadv⟩ := listen_advances hstep
    exact ⟨hadv.once_eq.trans honce, hadv.accepting hg⟩
  | track g' =>
    obtain ⟨v, w, hadv⟩ := track_advances hstep
    exact ⟨hadv.once_eq.trans honce, hadv.accepting hg⟩
  | enter i => simp [step, honce] at hstep
  | look => simp [step, look, honce] at hstep
  | shutdown => simp [step, shutdown, honce] at hstep
  | closeListeners => simp [step, closeListeners, honce] at hstep
  | finish => simp [step, finish, honce] at hstep

/-- A server that gets into the accept loop after `stopOnce` is spent is stuck there. -/
theorem stuck_of_done {g k : Nat} (honce : s.once = .done)
    (hstops : ∀ call ∈ s.stops, call = .returned)
    (hg : s.serving[g]? = some (.accepting k)) : s.Stuck := by
  refine ⟨hstops, g, k, hg, fun ls s' hrun => ?_⟩
  have hinv : s'.once = .done ∧ s'.serving[g]? = some (.accepting k) :=
    lifecycle.run_invariant (P := fun t => t.once = .done ∧ t.serving[g]? = some (.accepting k))
      (fun _ _ _ ht hstep => accepting_of_step_done ht.1 ht.2 hstep) ⟨honce, hg⟩ hrun
  exact hinv.2

end Server

/-- When `Startup` always assigns `m.server` while it is nil and before a `Stop` has looked at it,
the server never outlives its `Stop`. -/
theorem not_stuck_when_assigned_first {ls : List Label} {s : Server}
    (hfirst : lifecycle.Guarded Server.AssignsFirst Server.new ls)
    (h : lifecycle.run Server.new ls = some s) : ¬s.Stuck := by
  have hinv : s.Orderly :=
    lifecycle.run_guarded (fun _ _ _ ht hguard hstep => ht.step hguard hstep)
      Server.Orderly.new hfirst h
  exact hinv.not_stuck

/-- `Stop` begins before the server is made, and looks after. -/
def stopWhileStarting : List Label :=
  [.startup, .stop, .enter 0, .assign 0, .look, .spawn 0, .serve 0, .listen 0 true, .track 0,
    .shutdown, .closeListeners, .finish]

/-- `Shutdown` has closed the listener. -/
def stoppedWhileStarting : Server :=
  ⟨some 0, [true], [.returned], [.ended], .done, [.returned]⟩

/-- The server is stopped while it is starting. -/
theorem not_stuck_when_stopped_while_starting : ¬stoppedWhileStarting.Stuck := by
  have hfirst : lifecycle.Guarded Server.AssignsFirst Server.new stopWhileStarting := by decide
  exact not_stuck_when_assigned_first hfirst rfl

/-- `Stop` looks at `m.server` before the goroutine of `Startup` has assigned it. -/
def stopBeforeStart : List Label :=
  [.startup, .stop, .enter 0, .look, .finish, .assign 0, .spawn 0, .serve 0, .listen 0 true,
    .track 0]

/-- `Stop` came before the assignment. -/
def startedAfterStop : Server :=
  ⟨some 0, [false], [.returned], [.accepting 0], .done, [.returned]⟩

/-- The server goes on after a `Stop` that came too early. -/
theorem startup_outlives_stop :
    lifecycle.run Server.new stopBeforeStart = some startedAfterStop ∧ startedAfterStop.Stuck :=
  ⟨rfl, Server.stuck_of_done (g := 0) (k := 0) rfl (by decide) rfl⟩

end Stardust.HttpServer.Lifecycle
