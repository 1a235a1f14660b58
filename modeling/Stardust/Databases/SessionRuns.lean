import Stardust.Core.System
import Stardust.Databases.Dao

/-!
# The states of a session

A session is in a transaction or not, which two of its fields say together. Whatever is called on
it and whatever the database answers, the two agree, and with them the handle of `DB`: they name the
one transaction that was begun and has been neither committed nor rolled back.
-/

namespace Stardust.Databases

open Stardust.Core OrmBaseDao

variable {D Ω V X : Type}

/-- The calls that begin and end transactions. -/
inductive SessionCall where
  | begin
  | commit
  | rollback
  | close
  deriving DecidableEq, Repr

/-- What a session asks of the database. -/
inductive TxRequest where
  | begin
  | commit (tx : Nat)
  | rollback (tx : Nat)
  deriving DecidableEq, Repr

/-- A request with its answer. -/
inductive TxEvent (X : Type) where
  | begun (tx : Nat) (err : Option (DbError X))
  | committed (tx : Nat) (err : Option (DbError X))
  | rolledBack (tx : Nat) (err : Option (DbError X))
  deriving DecidableEq, Repr

/-- Make a request. -/
def Driver.ask (g : Driver D Ω V X) : TxRequest → StateM (World D Ω V) (TxEvent X)
  | .begin => do
    let (tx, err) ← g.beginTx
    return .begun tx err
  | .commit tx => do return .committed tx (← g.commitTx tx)
  | .rollback tx => do return .rolledBack tx (← g.rollbackTx tx)

variable {w : World D Ω V}

private theorem World.isOpen_set_other {id other : Nat} (h : other ≠ id) (d : D) (env : Ω) :
    World.IsOpen { w with committed := d, txs := w.txs.set id none, env := env } other ↔
      w.IsOpen other := by
  simp only [World.IsOpen, List.getElem?_set, if_neg h.symm]

/-- A commit leaves the other transactions open or closed. -/
theorem Driver.commitTx_isOpen_other (g : Driver D Ω V X) {id other : Nat} (h : other ≠ id)
    (w : World D Ω V) : ((g.commitTx id).run w).2.IsOpen other ↔ w.IsOpen other := by
  change (g.commitTx id w).2.IsOpen other ↔ _
  unfold Driver.commitTx
  split
  · split <;> exact World.isOpen_set_other h ..
  · rfl

/-- So does a rollback. -/
theorem Driver.rollbackTx_isOpen_other (g : Driver D Ω V X) {id other : Nat} (h : other ≠ id)
    (w : World D Ω V) : ((g.rollbackTx id).run w).2.IsOpen other ↔ w.IsOpen other := by
  change (g.rollbackTx id w).2.IsOpen other ↔ _
  unfold Driver.rollbackTx
  split
  · exact World.isOpen_set_other h ..
  · rfl

namespace OrmBaseDao

variable (g : Driver D Ω V X) (m : OrmBaseDao)

/-- A call on a session; `Close` returns nothing. -/
def call : SessionCall → StateM (World D Ω V) (Option (DbError X) × OrmBaseDao)
  | .begin => m.begin g
  | .commit => m.commit g
  | .rollback => m.rollback g
  | .close => do return (none, ← m.close g)

/-- The transaction in progress. -/
def current : Option Nat :=
  match m.inTrans, m.tx with
  | true, some tx => some tx
  | _, _ => none

/-- What a call asks of the database, if anything. -/
def request : SessionCall → Option TxRequest
  | .begin => if m.inTrans then none else some .begin
  | .commit => m.current.map .commit
  | .rollback | .close => m.current.map .rollback

/-- The request of a call, if it makes one. -/
def asks (c : SessionCall) : StateM (World D Ω V) (Option (TxEvent X)) :=
  match m.request c with
  | none => return none
  | some r => return some (← g.ask r)

/-- The result of a call and the session after it, by the answer to its request. -/
def after (c : SessionCall) : Option (TxEvent X) → Option (DbError X) × OrmBaseDao
  | none =>
    match c with
    | .begin => (some (.message "transaction already started"), m)
    | .commit | .rollback => (some (.message "no active transaction"), m)
    | .close => (none, newSession)
  | some (.begun tx none) => (none, ⟨some tx, true⟩)
  | some (.begun tx (some err)) => (some err, { m with tx := some tx })
  | some (.committed _ err) => (err, newSession)
  | some (.rolledBack _ err) => (if c = .close then none else err, newSession)

private theorem begin_eq_asks (tx : Option Nat) :
    begin g ⟨tx, false⟩ = after ⟨tx, false⟩ .begin <$> asks g ⟨tx, false⟩ .begin := by
  funext w
  change (begin g ⟨tx, false⟩).run w =
    (after ⟨tx, false⟩ .begin <$> asks g ⟨tx, false⟩ .begin).run w
  rcases hb : g.beginTx.run w with ⟨⟨tx', err⟩, w'⟩
  simp only [begin, asks, request, Driver.ask, Bool.false_eq_true, if_false, StateT.run_bind,
    StateT.run_map, hb]
  cases err <;> rfl

/-- Every call makes its request, if it has one, and does nothing else to the database. -/
theorem call_eq_asks (c : SessionCall) : m.call g c = m.after c <$> m.asks g c := by
  obtain ⟨tx, inTrans⟩ := m
  cases inTrans with
  | false => cases c with
    | begin => exact begin_eq_asks g tx
    | commit | rollback | close => rfl
  | true => cases c with
    | begin => rfl
    | commit | rollback | close => cases tx <;> rfl

variable {g m} in
private theorem asks_of_none {c : SessionCall} (h : m.request c = none) (w : World D Ω V) :
    (m.asks g c).run w = (none, w) := by
  simp only [asks, h]
  rfl

variable {g m} in
private theorem asks_of_some {c : SessionCall} {r : TxRequest} (h : m.request c = some r)
    (w : World D Ω V) :
    (m.asks g c).run w = (some ((g.ask r).run w).1, ((g.ask r).run w).2) := by
  simp only [asks, h]
  rfl

private theorem db_eq_current : m.db = m.current.elim .conn .tx := by
  obtain ⟨tx, inTrans⟩ := m
  cases inTrans <;> cases tx <;> rfl

end OrmBaseDao

/-- A call on a session with what the database was asked for it and answered. -/
structure SessionEntry (X : Type) where
  call : SessionCall
  /-- Its request with the answer, absent when the call made none. -/
  event : Option (TxEvent X)
  deriving DecidableEq, Repr

namespace SessionEntry

/-- The transaction that the call has begun successfully. -/
def begins (e : SessionEntry X) : Option Nat :=
  match e.event with
  | some (.begun tx none) => some tx
  | _ => none

/-- The call has committed the transaction or rolled it back, with whatever answer. -/
def ends (tx : Nat) (e : SessionEntry X) : Bool :=
  match e.event with
  | some (.committed tx' _) => tx' = tx
  | some (.rolledBack tx' _) => tx' = tx
  | _ => false

end SessionEntry

/-- The transactions that were begun. -/
def begunTxs (history : List (SessionEntry X)) : List Nat := history.filterMap (·.begins)

/-- The transactions that were begun and neither committed nor rolled back. -/
def openTxs (history : List (SessionEntry X)) : List Nat :=
  (begunTxs history).filter fun tx => history.all fun e => !e.ends tx

section History

variable {history : List (SessionEntry X)} {e : SessionEntry X} {tx : Nat}

/-- No call has ended the transaction. -/
theorem all_not_ends_iff : (history.all fun e => !e.ends tx) = true ↔
    history.filter (·.ends tx) = [] := by
  simp only [List.all_eq_true, Bool.not_eq_true', List.filter_eq_nil_iff, Bool.not_eq_true]

private theorem mem_openTxs_iff : tx ∈ openTxs history ↔
    tx ∈ begunTxs history ∧ history.filter (·.ends tx) = [] := by
  rw [openTxs, List.mem_filter, all_not_ends_iff]

private theorem begunTxs_append :
    begunTxs (history ++ [e]) = begunTxs history ++ e.begins.toList := by
  cases h : e.begins <;> simp [begunTxs, h]

/-- A call that ends nothing leaves the open transactions open, with the one it begins. -/
theorem openTxs_append_of_not_ends (hends : ∀ tx, e.ends tx = false)
    (hfresh : ∀ tx, e.begins = some tx → history.filter (·.ends tx) = []) :
    openTxs (history ++ [e]) = openTxs history ++ e.begins.toList := by
  have hall (tx : Nat) : ((history ++ [e]).all fun e => !e.ends tx) =
      history.all fun e => !e.ends tx := by
    simp [hends tx]
  simp only [openTxs, begunTxs_append, List.filter_append, hall]
  congr 1
  apply List.filter_eq_self.mpr
  intro tx htx
  exact all_not_ends_iff.mpr (hfresh tx (Option.mem_toList.mp htx))

/-- A call that ends a transaction leaves the other ones. -/
theorem openTxs_append_of_ends (hends : ∀ other, e.ends other = decide (tx = other))
    (hbegins : e.begins = none) :
    openTxs (history ++ [e]) = (openTxs history).filter fun other => !decide (tx = other) := by
  have hall (other : Nat) : ((history ++ [e]).all fun e => !e.ends other) =
      (!decide (tx = other) && history.all fun e => !e.ends other) := by
    simp [hends other, Bool.and_comm]
  simp only [openTxs, begunTxs_append, hbegins, Option.toList_none, List.append_nil, hall,
    List.filter_filter]

/-- All numbers stay below a bound when those of a new call do. -/
theorem bounded_append {n m : Nat}
    (h : ∀ e ∈ history, ∀ tx, e.begins = some tx ∨ e.ends tx = true → tx < n) (hle : n ≤ m)
    (he : ∀ tx, e.begins = some tx ∨ e.ends tx = true → tx < m) :
    ∀ e' ∈ history ++ [e], ∀ tx, e'.begins = some tx ∨ e'.ends tx = true → tx < m := by
  intro e' he' tx htx
  rcases List.mem_append.mp he' with he' | he'
  · exact Nat.lt_of_lt_of_le (h e' he' tx htx) hle
  · obtain rfl := List.mem_singleton.mp he'
    exact he tx htx

/-- What ends a begun transaction is the first call after it that is not another `Begin`. -/
def Settled (history : List (SessionEntry X)) : Prop :=
  ∀ before e after tx, history = before ++ e :: after → e.begins = some tx →
    history.filter (·.ends tx) = (after.find? (·.call ≠ .begin)).toList

/-- It stays so as long as every call but `Begin` ends what is open, and only that. -/
theorem Settled.append {f : SessionEntry X} (h : Settled history)
    (hends : ∀ tx, f.ends tx = true ↔ f.call ≠ .begin ∧ tx ∈ openTxs history)
    (hbegins : ∀ tx, f.begins = some tx → f.call = .begin ∧ history.filter (·.ends tx) = []) :
    Settled (history ++ [f]) := by
  intro before e after tx heq he
  rcases List.eq_nil_or_concat' after with rfl | ⟨after, f', rfl⟩
  · obtain ⟨rfl, hf⟩ := List.append_inj' heq rfl
    obtain rfl := List.singleton_inj.mp hf
    obtain ⟨hcall, hnone⟩ := hbegins tx he
    have hf : ¬ f.ends tx = true := fun hf => ((hends tx).mp hf).1 hcall
    simp [hnone, hf]
  · rw [← List.cons_append, ← List.append_assoc] at heq
    obtain ⟨rfl, hf⟩ := List.append_inj' heq rfl
    obtain rfl := List.singleton_inj.mp hf
    have hbegun : tx ∈ begunTxs (before ++ e :: after) :=
      List.mem_filterMap.mpr ⟨e, by simp, he⟩
    have hsettled := h before e after tx rfl he
    rw [List.filter_append, List.find?_append, hsettled]
    cases hfirst : after.find? (·.call ≠ .begin) with
    | some first =>
      rw [hfirst] at hsettled
      have hf : ¬ f.ends tx = true := by
        rw [hends, mem_openTxs_iff, hsettled]
        simp
      simp [hf]
    | none =>
      rw [hfirst] at hsettled
      have hf : f.ends tx = decide (f.call ≠ .begin) := by
        rw [Bool.eq_iff_iff, hends, mem_openTxs_iff, hsettled]
        simp [hbegun]
      by_cases hcall : f.call = .begin <;> simp [hf, hcall]

end History

/-- A session, the database and the calls so far. -/
structure Session (D Ω V X : Type) where
  dao : OrmBaseDao
  world : World D Ω V
  history : List (SessionEntry X)

/-- One call. -/
def Session.step (g : Driver D Ω V X) (s : Session D Ω V X) (c : SessionCall) : Session D Ω V X :=
  let result := (s.dao.call g c).run s.world
  ⟨result.1.2, result.2, s.history ++ [⟨c, ((s.dao.asks g c).run s.world).1⟩]⟩

/-- The calls on a session from `NewSession`. -/
def sessions (g : Driver D Ω V X) : System (Session D Ω V X) SessionCall where
  init s := s.dao = .newSession ∧ s.history = []
  step s c := some (s.step g c)

namespace Session

variable {g : Driver D Ω V X} {s s' : Session D Ω V X} {c : SessionCall}

/-- What a call does to a session, by the transaction it is in. -/
inductive Moves (s : Session D Ω V X) :
    SessionCall → Session D Ω V X → Prop
  | refused (h : s.dao.inTrans = true) :
    Moves s .begin { s with history := s.history ++ [⟨.begin, none⟩] }
  | begun (h : s.dao.inTrans = false) {w : World D Ω V} {d : D}
      (hw : w.txs = s.world.txs ++ [some d]) :
    Moves s .begin ⟨⟨some s.world.txs.length, true⟩, w,
      s.history ++ [⟨.begin, some (.begun s.world.txs.length none)⟩]⟩
  | failed (h : s.dao.inTrans = false) {w : World D Ω V} (hw : w.txs = s.world.txs ++ [none])
      (err : DbError X) :
    Moves s .begin ⟨⟨some s.world.txs.length, false⟩, w,
      s.history ++ [⟨.begin, some (.begun s.world.txs.length (some err))⟩]⟩
  | idle {c : SessionCall} (hc : c ≠ .begin) (h : s.dao.current = none) {m : OrmBaseDao}
      (hm : m = s.dao ∨ m = .newSession) :
    Moves s c { s with dao := m, history := s.history ++ [⟨c, none⟩] }
  | ended {c : SessionCall} (hc : c ≠ .begin) {tx : Nat} (h : s.dao.current = some tx)
      {w : World D Ω V} (hlength : w.txs.length = s.world.txs.length) (hclosed : ¬ w.IsOpen tx)
      (hothers : ∀ other, other ≠ tx → (w.IsOpen other ↔ s.world.IsOpen other))
      {event : TxEvent X} (hevent : ∀ other, SessionEntry.ends other ⟨c, some event⟩ =
        decide (tx = other)) :
    Moves s c ⟨.newSession, w, s.history ++ [⟨c, some event⟩]⟩

private theorem step_of_asks {event : Option (TxEvent X)}
    (h : (s.dao.asks g c).run s.world = (event, w)) :
    s.step g c = ⟨(s.dao.after c event).2, w, s.history ++ [⟨c, event⟩]⟩ := by
  simp only [step, call_eq_asks, StateT.run_map, h]
  rfl

private theorem moves_begin (s : Session D Ω V X) : Moves s .begin (s.step g .begin) := by
  cases h : s.dao.inTrans with
  | true =>
    have hrequest : s.dao.request .begin = none := by simp only [request, h, if_true]
    rw [step_of_asks (asks_of_none hrequest s.world)]
    exact .refused h
  | false =>
    have hrequest : s.dao.request .begin = some .begin := by
      simp only [request, h, Bool.false_eq_true, if_false]
    have hask : (g.ask .begin).run s.world = (.begun (g.beginTx.run s.world).1.1
        (g.beginTx.run s.world).1.2, (g.beginTx.run s.world).2) := rfl
    rw [step_of_asks (asks_of_some hrequest s.world), hask]
    rcases hb : g.begin s.world.env with ⟨_ | x, env⟩
    · rw [Driver.beginTx_run_ok g hb]
      exact .begun h rfl
    · rw [Driver.beginTx_run_failed g hb]
      simp only [after, h]
      exact .failed h rfl _

private theorem moves_idle (s : Session D Ω V X) (hc : c ≠ .begin) (h : s.dao.current = none) :
    Moves s c (s.step g c) := by
  have hrequest : s.dao.request c = none := by
    cases c with
    | begin => exact absurd rfl hc
    | commit | rollback | close => simp only [request, h, Option.map_none]
  rw [step_of_asks (asks_of_none hrequest s.world)]
  apply Moves.idle hc h
  cases c with
  | begin => exact absurd rfl hc
  | commit | rollback => exact .inl rfl
  | close => exact .inr rfl

private theorem moves_ended (s : Session D Ω V X) (hc : c ≠ .begin) {tx : Nat}
    (h : s.dao.current = some tx) : Moves s c (s.step g c) := by
  have hmap (f : Nat → TxRequest) : s.dao.current.map f = some (f tx) := by rw [h]; rfl
  have hrollback (c : SessionCall) (hc : c ≠ .begin)
      (hrequest : s.dao.request c = some (.rollback tx)) : Moves s c (s.step g c) := by
    rw [step_of_asks (asks_of_some hrequest s.world)]
    exact .ended hc h (g.rollbackTx_txs_length tx s.world) (g.rollbackTx_closes tx s.world)
      (fun _ hother => g.rollbackTx_isOpen_other hother s.world) fun _ => rfl
  cases c with
  | begin => exact absurd rfl hc
  | commit =>
    have hrequest : s.dao.request .commit = some (.commit tx) := hmap .commit
    rw [step_of_asks (asks_of_some hrequest s.world)]
    exact .ended hc h (g.commitTx_txs_length tx s.world) (g.commitTx_closes tx s.world)
      (fun _ hother => g.commitTx_isOpen_other hother s.world) fun _ => rfl
  | rollback => exact hrollback _ hc (hmap .rollback)
  | close => exact hrollback _ hc (hmap .rollback)

/-- Every call is one of the moves. -/
theorem moves (s : Session D Ω V X) (c : SessionCall) : Moves s c (s.step g c) := by
  by_cases hc : c = .begin
  · subst hc
    exact moves_begin s
  · cases h : s.dao.current with
    | none => exact moves_idle s hc h
    | some tx => exact moves_ended s hc h

/-- The fields of the session and the database agree with what was asked. -/
structure Tracks (s : Session D Ω V X) : Prop where
  inTrans : s.dao.inTrans = s.dao.current.isSome
  openTxs : openTxs s.history = s.dao.current.toList
  bounded : ∀ e ∈ s.history, ∀ tx, e.begins = some tx ∨ e.ends tx = true → tx < s.world.txs.length
  isOpen : ∀ tx ∈ begunTxs s.history, (s.world.IsOpen tx ↔ tx ∈ Databases.openTxs s.history)
  settled : Settled s.history

/-- The next transaction is a new one. -/
theorem Tracks.filter_ends_next (h : s.Tracks) :
    s.history.filter (·.ends s.world.txs.length) = [] := by
  apply List.filter_eq_nil_iff.mpr
  intro e he hends
  exact absurd (h.bounded e he _ (.inr hends)) (Nat.lt_irrefl _)

private theorem Tracks.lt_of_begun (h : s.Tracks) {tx : Nat} (htx : tx ∈ begunTxs s.history) :
    tx < s.world.txs.length := by
  obtain ⟨e, he, hbegins⟩ := List.mem_filterMap.mp htx
  exact h.bounded e he tx (.inl hbegins)

/-- A longer list of transactions has the old ones as they were. -/
theorem isOpen_append {w w' : World D Ω V} {t : Option D} (h : w'.txs = w.txs ++ [t]) {tx : Nat}
    (htx : tx < w.txs.length) : w'.IsOpen tx ↔ w.IsOpen tx := by
  simp only [World.IsOpen, h, List.getElem?_append_left htx]

/-- A call that neither begins nor ends anything leaves the session where it was. -/
theorem Tracks.quiet (h : s.Tracks) {e : SessionEntry X} (hbegins : e.begins = none)
    (hends : ∀ tx, e.ends tx = false) (hcall : e.call = .begin ∨ s.dao.current = none)
    (hlength : s.world.txs.length ≤ w.txs.length)
    (hopen : ∀ tx < s.world.txs.length, (w.IsOpen tx ↔ s.world.IsOpen tx)) {m : OrmBaseDao}
    (hm : m.inTrans = m.current.isSome) (hcurrent : m.current = s.dao.current) :
    Tracks (⟨m, w, s.history ++ [e]⟩ : Session D Ω V X) := by
  have hopenTxs : Databases.openTxs (s.history ++ [e]) = Databases.openTxs s.history := by
    rw [openTxs_append_of_not_ends hends (by simp [hbegins]), hbegins]
    simp
  refine ⟨hm, ?_, ?_, ?_, ?_⟩
  · rw [hopenTxs, hcurrent]
    exact h.openTxs
  · refine bounded_append h.bounded hlength fun tx htx => ?_
    simp [hbegins, hends] at htx
  · intro tx htx
    rw [begunTxs_append, hbegins, Option.toList_none, List.append_nil] at htx
    rw [hopenTxs, hopen tx (h.lt_of_begun htx)]
    exact h.isOpen tx htx
  · refine h.settled.append (fun tx => ?_) (by simp [hbegins])
    rw [h.openTxs]
    rcases hcall with hcall | hnone
    · simp [hends, hcall]
    · simp [hends, hnone]

private theorem Tracks.begun (h : s.Tracks) (hidle : s.dao.current = none) {d : D}
    (hw : w.txs = s.world.txs ++ [some d]) :
    Tracks (⟨⟨some s.world.txs.length, true⟩, w,
      s.history ++ [⟨.begin, some (.begun s.world.txs.length none)⟩]⟩ : Session D Ω V X) := by
  have hopenTxs : Databases.openTxs (s.history ++
      [⟨.begin, some (.begun s.world.txs.length none)⟩]) = [s.world.txs.length] := by
    rw [openTxs_append_of_not_ends (fun _ => rfl), h.openTxs, hidle]
    · rfl
    · rintro _ ⟨⟩
      exact h.filter_ends_next
  have hlength : w.txs.length = s.world.txs.length + 1 := by rw [hw, List.length_append]; rfl
  refine ⟨rfl, hopenTxs, ?_, ?_, ?_⟩
  · rw [hlength]
    refine bounded_append h.bounded (Nat.le_succ _) fun tx htx => ?_
    rcases htx with hbegins | hends
    · obtain rfl : s.world.txs.length = tx := Option.some.inj hbegins
      exact Nat.lt_succ_self _
    · cases hends
  · intro tx htx
    rw [hopenTxs, List.mem_singleton]
    rw [begunTxs_append] at htx
    rcases List.mem_append.mp htx with htx | htx
    · have hlt := h.lt_of_begun htx
      rw [isOpen_append hw hlt, h.isOpen tx htx, h.openTxs, hidle]
      simp [Nat.ne_of_lt hlt]
    · obtain rfl : s.world.txs.length = tx := Option.some.inj (Option.mem_toList.mp htx)
      exact iff_of_true ⟨d, by simp [hw]⟩ rfl
  · refine h.settled.append (fun tx => ?_) ?_
    · simp [SessionEntry.ends]
    · rintro _ ⟨⟩
      exact ⟨rfl, h.filter_ends_next⟩

private theorem Tracks.ended (h : s.Tracks) (hc : c ≠ .begin) {tx : Nat}
    (hcurrent : s.dao.current = some tx) (hlength : w.txs.length = s.world.txs.length)
    (hclosed : ¬ w.IsOpen tx)
    (hothers : ∀ other, other ≠ tx → (w.IsOpen other ↔ s.world.IsOpen other)) {event : TxEvent X}
    (hevent : ∀ other, SessionEntry.ends other ⟨c, some event⟩ = decide (tx = other)) :
    Tracks (⟨.newSession, w, s.history ++ [⟨c, some event⟩]⟩ : Session D Ω V X) := by
  have hbegins : SessionEntry.begins (⟨c, some event⟩ : SessionEntry X) = none := by
    cases event with
    | begun => simpa [SessionEntry.ends] using hevent tx
    | committed | rolledBack => rfl
  have hopenTxs : Databases.openTxs (s.history ++ [⟨c, some event⟩]) = [] := by
    rw [openTxs_append_of_ends hevent hbegins, h.openTxs, hcurrent]
    simp
  have htx : tx ∈ Databases.openTxs s.history := by simp [h.openTxs, hcurrent]
  refine ⟨rfl, hopenTxs, ?_, ?_, ?_⟩
  · rw [hlength]
    refine bounded_append h.bounded (Nat.le_refl _) fun other hother => ?_
    rw [hbegins, hevent] at hother
    obtain rfl : tx = other := by simpa using hother
    exact h.lt_of_begun (mem_openTxs_iff.mp htx).1
  · intro other hother
    rw [begunTxs_append, hbegins, Option.toList_none, List.append_nil] at hother
    rw [hopenTxs]
    refine iff_of_false (fun hopen => ?_) List.not_mem_nil
    by_cases heq : other = tx
    · exact hclosed (heq ▸ hopen)
    · have := (h.isOpen other hother).mp ((hothers other heq).mp hopen)
      rw [h.openTxs, hcurrent] at this
      exact heq (by simpa using this)
  · refine h.settled.append (fun other => ?_) (by simp [hbegins])
    rw [hevent, h.openTxs, hcurrent]
    simp [hc, eq_comm]

/-- Every call keeps the fields in agreement. -/
theorem Moves.tracks (h : s.Tracks) (hmove : Moves s c s') : s'.Tracks := by
  cases hmove with
  | refused =>
    exact h.quiet rfl (fun _ => rfl) (.inl rfl) (Nat.le_refl _) (fun _ _ => Iff.rfl) h.inTrans rfl
  | begun hin hw =>
    have hidle : s.dao.current = none := by simpa [hin] using h.inTrans
    exact h.begun hidle hw
  | failed hin hw =>
    have hidle : s.dao.current = none := by simpa [hin] using h.inTrans
    refine h.quiet rfl (fun _ => rfl) (.inl rfl) ?_ (fun _ => isOpen_append hw) rfl hidle.symm
    rw [hw, List.length_append]
    exact Nat.le_add_right ..
  | idle hc hidle hm =>
    refine h.quiet rfl (fun _ => rfl) (.inr hidle) (Nat.le_refl _) (fun _ _ => Iff.rfl) ?_ ?_
    · rcases hm with rfl | rfl
      · exact h.inTrans
      · rfl
    · rcases hm with rfl | rfl
      · rfl
      · exact hidle.symm
  | ended hc hcurrent hlength hclosed hothers hevent =>
    exact h.ended hc hcurrent hlength hclosed hothers hevent

end Session

/-- The fields of a session and the database agree in every reachable state. -/
theorem sessions_tracks {g : Driver D Ω V X} {s : Session D Ω V X} (hs : (sessions g).Reachable s) :
    s.Tracks := by
  refine hs.invariant ?_ ?_
  · rintro s ⟨hdao, hhistory⟩
    refine ⟨by rw [hdao]; rfl, by rw [hdao, hhistory]; rfl, ?_, ?_, ?_⟩
    · simp [hhistory]
    · simp [hhistory, begunTxs]
    · intro before e after tx heq
      rw [hhistory] at heq
      simp at heq
  · intro s c s' h hstep
    obtain rfl := Option.some.inj hstep
    exact (s.moves c).tracks h

/-- `Begin` fails inside a transaction and when the driver does. -/
theorem OrmBaseDao.begin_fails_iff (g : Driver D Ω V X) (m : OrmBaseDao) (w : World D Ω V) :
    ((m.begin g).run w).1.1 ≠ none ↔ m.inTrans = true ∨ (g.begin w.env).1 ≠ none := by
  obtain ⟨tx, inTrans⟩ := m
  cases inTrans with
  | true => exact iff_of_true (by rintro ⟨⟩) (.inl rfl)
  | false =>
    rcases hb : g.begin w.env with ⟨_ | x, env⟩
    · have hrun := g.beginTx_run_ok hb
      simp only [begin, Bool.false_eq_true, if_false, StateT.run_bind, hrun]
      exact iff_of_false (fun h => h rfl) (by simp)
    · have hrun := g.beginTx_run_failed hb
      simp only [begin, Bool.false_eq_true, if_false, StateT.run_bind, hrun]
      exact iff_of_true (by rintro ⟨⟩) (by simp)

/-- At most one transaction is open; what was begun is ended once, by the first call other than
`Begin`, and open in the database until then; `Begin` fails inside a transaction and when the
driver does; and `DB` is the open transaction, or else the base connection. -/
theorem session_transactions {g : Driver D Ω V X} {s : Session D Ω V X}
    (hs : (sessions g).Reachable s) :
    (openTxs s.history).length ≤ 1 ∧
      (∀ before e after tx, s.history = before ++ e :: after → e.begins = some tx →
        s.history.filter (·.ends tx) = (after.find? (·.call ≠ .begin)).toList ∧
          (s.world.IsOpen tx ↔ tx ∈ openTxs s.history)) ∧
      (((s.dao.begin g).run s.world).1.1 ≠ none ↔
        openTxs s.history ≠ [] ∨ (g.begin s.world.env).1 ≠ none) ∧
      s.dao.db = (openTxs s.history).head?.elim .conn .tx := by
  have h := sessions_tracks hs
  refine ⟨?_, ?_, ?_, ?_⟩
  · rw [h.openTxs]
    cases s.dao.current <;> simp
  · intro before e after tx heq he
    refine ⟨h.settled before e after tx heq he, h.isOpen tx ?_⟩
    rw [heq]
    exact List.mem_filterMap.mpr ⟨e, by simp, he⟩
  · rw [begin_fails_iff, h.inTrans, h.openTxs]
    cases s.dao.current <;> simp
  · rw [db_eq_current, h.openTxs]
    cases s.dao.current <;> rfl

/-- A driver that fails as its environment says. -/
def scriptedDriver : Driver Unit (List Bool) Unit Unit where
  exec := fun env _ _ => (⟨none, 1, 0, ⟨.ok [], []⟩, []⟩, (), env)
  begin := fun env => (if env.headD true then none else some (), env.tail)
  commit := fun env => (if env.headD true then none else some (), env.tail)
  rollback := fun env => (if env.headD true then none else some (), env.tail)
  poolError := none
  isSlicePtr := fun _ => false
  newElement := id
  bytesToString := id

/-- A session on that driver, with the answers to come. -/
def scriptedSession (answers : List Bool) : Session Unit (List Bool) Unit Unit :=
  ⟨.newSession, ⟨(), [], answers, []⟩, []⟩

/-- A failed begin, a transaction whose commit fails, and a second one. -/
def beginsAndEnds : List SessionCall :=
  [.begin, .commit, .begin, .begin, .commit, .close, .begin]

/-- The failed commit is the only end of its transaction, and the session goes on to the next. -/
theorem session_transactions_after_failures :
    ∃ s, (sessions scriptedDriver).run (scriptedSession [false, true, false, true])
        beginsAndEnds = some s ∧
      openTxs s.history = [2] ∧ s.dao.db = .tx 2 ∧
      s.history.filter (·.ends 1) = [⟨.commit, some (.committed 1 (some (.driver ())))⟩] := by
  have hall := session_transactions (g := scriptedDriver)
    ⟨scriptedSession [false, true, false, true], beginsAndEnds, ⟨rfl, rfl⟩, rfl⟩
  refine ⟨_, rfl, by decide, ?_, ?_⟩
  · exact hall.2.2.2
  · exact (hall.2.1 [⟨.begin, some (.begun 0 (some (.driver ())))⟩, ⟨.commit, none⟩]
      ⟨.begin, some (.begun 1 none)⟩ _ 1 rfl rfl).1

end Stardust.Databases
