import Stardust.Core.System
import Stardust.Databases.Dao

/-!
# Sessions of an entity

`NewSession` of an entity keeps the new session in the entity and returns the entity itself. All
handles are therefore the one object, and every operation goes to the session that was made last.
The calls are run side by side with those on separate objects: the entity without sessions, and
one object for each session.
-/

namespace Stardust.Databases

open Stardust.Core OrmBaseDao

variable {D Ω V X : Type}

/-- What does not change in an entity. -/
structure EntityObject (Ω V : Type) where
  objectPtr : V
  /-- The key that the object has at the moment. -/
  primaryKey : Ω → V

/-- The operations of `Entity`. -/
inductive EntityOp (V : Type) where
  | exists_
  | count
  | create
  | update (conditions : List V)
  | updateByPk
  | delete
  | deleteByPk
  | get
  deriving DecidableEq

/-- The further operations of `SessionEntity`. -/
inductive SessionOp where
  | db
  | begin
  | commit
  | rollback
  | close
  deriving DecidableEq

/-- What an operation returns. -/
inductive Answer (X : Type) where
  | rows (n : Int) (err : Option (DbError X))
  | found (has : Bool) (err : Option (DbError X))
  | err (err : Option (DbError X))
  | db (handle : Handle)
  | nothing
  deriving DecidableEq

/-- An operation on the object through one dao. -/
def EntityOp.run (g : Driver D Ω V X) (e : EntityObject Ω V) (m : OrmBaseDao) :
    EntityOp V → StateM (World D Ω V) (Answer X)
  | .exists_ => do
    let (has, err) ← m.exists_ g e.objectPtr
    return .found has err
  | .count => do
    let (n, err) ← m.count g e.objectPtr
    return .rows n err
  | .create => do
    let (n, err) ← m.insertOne g e.objectPtr
    return .rows n err
  | .update conditions => do
    let (n, err) ← m.update g e.objectPtr conditions
    return .rows n err
  | .updateByPk => do
    let w ← MonadState.get
    let (n, err) ← m.updateById g (e.primaryKey w.env) e.objectPtr
    return .rows n err
  | .delete => do
    let (n, err) ← m.delete g e.objectPtr
    return .rows n err
  | .deleteByPk => do
    let w ← MonadState.get
    let (n, err) ← m.deleteById g (e.primaryKey w.env) e.objectPtr
    return .rows n err
  | .get => do
    let (has, err) ← m.findOne g e.objectPtr
    return .found has err

/-- An operation of a session. -/
def SessionOp.run (g : Driver D Ω V X) (m : OrmBaseDao) :
    SessionOp → StateM (World D Ω V) (Answer X × OrmBaseDao)
  | .db => return (.db m.db, m)
  | .begin => do
    let (err, m) ← m.begin g
    return (.err err, m)
  | .commit => do
    let (err, m) ← m.commit g
    return (.err err, m)
  | .rollback => do
    let (err, m) ← m.rollback g
    return (.err err, m)
  | .close => do
    let m ← m.close g
    return (.nothing, m)

/-- An entity with the sessions that were made of it. -/
structure Entity (D Ω V X : Type) where
  world : World D Ω V
  /-- The objects that `dao.NewSession` has returned, in order. -/
  sessions : List OrmBaseDao
  /-- Which of them the entity has. -/
  sessionDao : Option Nat
  /-- What the calls have returned. -/
  answers : List (Answer X)

/-- A call on the entity itself or on the handle that some call of `NewSession` has returned. -/
inductive EntityCall (V : Type) where
  | newSession
  | op (caller : Option Nat) (op : EntityOp V)
  | session (caller : Nat) (op : SessionOp)
  deriving DecidableEq

namespace Entity

variable (g : Driver D Ω V X) (e : EntityObject Ω V)

/-- A new entity on its dao. -/
def newEntity (w : World D Ω V) : Entity D Ω V X := ⟨w, [], none, []⟩

/-- The dao that an operation is passed on to: a session, or the one the entity was made with. -/
def daoOf (s : Entity D Ω V X) : Option Nat → Option OrmBaseDao
  | none => some ⟨none, false⟩
  | some j => s.sessions[j]?

/-- Make a session. -/
def newSession (s : Entity D Ω V X) : Entity D Ω V X :=
  { s with
    sessions := s.sessions ++ [OrmBaseDao.newSession]
    sessionDao := some s.sessions.length }

/-- Pass an operation on to a dao. -/
def opOn (s : Entity D Ω V X) (target : Option Nat) (op : EntityOp V) :
    Option (Entity D Ω V X) :=
  (s.daoOf target).map fun m =>
    let (answer, world) := (op.run g e m).run s.world
    { s with world, answers := s.answers ++ [answer] }

/-- Pass an operation on to a session. -/
def sessionOn (s : Entity D Ω V X) (target : Nat) (op : SessionOp) : Option (Entity D Ω V X) :=
  (s.sessions[target]?).map fun m =>
    let ((answer, m), world) := (op.run g m).run s.world
    { s with world, sessions := s.sessions.set target m, answers := s.answers ++ [answer] }

/-- A call as the entity passes it on: whoever calls, to its session if it has one. -/
def step (s : Entity D Ω V X) : EntityCall V → Option (Entity D Ω V X)
  | .newSession => some s.newSession
  | .op _ op => s.opOn g e s.sessionDao op
  | .session _ op => s.sessionDao.bind fun j => s.sessionOn g j op

/-- A call as separate objects would pass it on: each to its own dao. -/
def stepApart (s : Entity D Ω V X) : EntityCall V → Option (Entity D Ω V X)
  | .newSession => some s.newSession
  | .op caller op => s.opOn g e caller op
  | .session caller op => s.sessionOn g caller op

/-- The entity beside the separate objects. -/
def sideBySide : System (Entity D Ω V X × Entity D Ω V X) (EntityCall V) where
  init p := ∃ w, p = (newEntity w, newEntity w)
  step p l := (p.1.step g e l).bind fun s => (p.2.stepApart g e l).map fun t => (s, t)

/-- The operation has no more effect on one dao than on the other. -/
def SameEffect (op : SessionOp) (used own : OrmBaseDao) : Prop :=
  match op with
  | .db => used.db = own.db
  | .begin => used.inTrans = true ∧ own.inTrans = true
  | .commit | .rollback => used.inTrans = false ∧ own.inTrans = false
  | .close => used = ⟨none, false⟩ ∧ own = ⟨none, false⟩

instance (op : SessionOp) (used own : OrmBaseDao) : Decidable (SameEffect op used own) :=
  match op with
  | .db => inferInstanceAs (Decidable (used.db = own.db))
  | .begin => inferInstanceAs (Decidable (used.inTrans = true ∧ own.inTrans = true))
  | .commit | .rollback => inferInstanceAs (Decidable (used.inTrans = false ∧ own.inTrans = false))
  | .close => inferInstanceAs (Decidable (used = ⟨none, false⟩ ∧ own = ⟨none, false⟩))

/-- The dao that the entity passes a call on to does for the caller what its own does: it works on
the same connection, or is the same session, or makes no difference. -/
def Own (s : Entity D Ω V X) : EntityCall V → Prop
  | .newSession => True
  | .op caller _ => ∀ used ∈ s.daoOf s.sessionDao, ∀ own ∈ s.daoOf caller, used.db = own.db
  | .session caller op => s.sessionDao = some caller ∨
    ∀ used ∈ s.daoOf s.sessionDao, ∀ own ∈ s.daoOf (some caller), SameEffect op used own

instance (s : Entity D Ω V X) : (l : EntityCall V) → Decidable (s.Own l)
  | .newSession => isTrue trivial
  | .op caller _ => inferInstanceAs (Decidable
      (∀ used ∈ s.daoOf s.sessionDao, ∀ own ∈ s.daoOf caller, used.db = own.db))
  | .session caller op => inferInstanceAs (Decidable (s.sessionDao = some caller ∨
      ∀ used ∈ s.daoOf s.sessionDao, ∀ own ∈ s.daoOf (some caller), SameEffect op used own))

end Entity

/-- The one statement that an operation issues. -/
def EntityOp.stmt (e : EntityObject Ω V) (env : Ω) : EntityOp V → Stmt V
  | .exists_ => .count e.objectPtr []
  | .count => .count e.objectPtr []
  | .create => .create none e.objectPtr
  | .update [] => .updates e.objectPtr [] e.objectPtr
  | .update (query :: args) => .updates e.objectPtr [.value query args] e.objectPtr
  | .updateByPk => .updates e.objectPtr [.text "id = ?" [e.primaryKey env]] e.objectPtr
  | .delete => .delete e.objectPtr []
  | .deleteByPk => .delete e.objectPtr [e.primaryKey env]
  | .get => .first e.objectPtr [e.objectPtr]

/-- What an operation makes of the reply. -/
def EntityOp.answer (reply : Reply V X) : EntityOp V → Answer X
  | .exists_ =>
    match reply.error with
    | some err => .found false (some err)
    | none => .found (decide (reply.count > 0)) none
  | .count => .rows reply.count reply.error
  | .get =>
    match reply.error with
    | some .recordNotFound => .found false none
    | some err => .found false (some err)
    | none => .found true none
  | .create | .update _ | .updateByPk | .delete | .deleteByPk =>
    match reply.error with
    | some err => .rows 0 (some err)
    | none => .rows reply.rowsAffected none

section Operations

variable (g : Driver D Ω V X) (e : EntityObject Ω V) (m : OrmBaseDao) (w : World D Ω V)

private theorem affected_run (stmt : Stmt V) :
    (do let (n, err) ← m.affected g stmt; return Answer.rows n err : StateM _ _).run w =
      (match ((g.issue m.db stmt).run w).1.error with
        | some err => .rows 0 (some err)
        | none => .rows ((g.issue m.db stmt).run w).1.rowsAffected none,
      ((g.issue m.db stmt).run w).2) := by
  simp only [affected, StateT.run_bind]
  rcases (g.issue m.db stmt).run w with ⟨⟨_ | err, _⟩, w'⟩
  · rfl
  · rfl

/-- An operation is one statement on the connection of its dao. -/
theorem EntityOp.run_eq (op : EntityOp V) :
    (op.run g e m).run w = (op.answer ((g.issue m.db (op.stmt e w.env)).run w).1,
      ((g.issue m.db (op.stmt e w.env)).run w).2) := by
  cases op with
  | create => exact affected_run g m w _
  | updateByPk => exact affected_run g m w _
  | delete => exact affected_run g m w _
  | deleteByPk => exact affected_run g m w _
  | update conditions =>
    cases conditions with
    | nil => exact affected_run g m w _
    | cons query args => exact affected_run g m w _
  | count => rfl
  | exists_ =>
    rcases hrun : (g.issue m.db (.count e.objectPtr [])).run w with ⟨⟨_ | err, _⟩, w'⟩ <;>
      simp only [EntityOp.run, EntityOp.stmt, EntityOp.answer, OrmBaseDao.exists_,
        OrmBaseDao.count, StateT.run_bind, hrun] <;> rfl
  | get =>
    rcases hrun : (g.issue m.db (.first e.objectPtr [e.objectPtr])).run w with
      ⟨⟨_ | (_ | _ | _ | _), _⟩, w'⟩ <;>
      simp only [EntityOp.run, EntityOp.stmt, EntityOp.answer, OrmBaseDao.findOne,
        OrmBaseDao.firstFound, StateT.run_bind, hrun] <;> rfl

end Operations

section Sessions

variable (g : Driver D Ω V X) {m : OrmBaseDao} (w : World D Ω V)

/-- A dao in a transaction has one, of those that were begun. -/
structure OrmBaseDao.Sound (w : World D Ω V) (m : OrmBaseDao) : Prop where
  proper : m.inTrans = true → m.tx ≠ none
  begun : ∀ tx, m.tx = some tx → tx < w.txs.length

/-- `Begin` in a transaction is refused. -/
theorem begin_of_in (h : m.inTrans = true) :
    (SessionOp.run g m .begin).run w =
      ((.err (some (.message "transaction already started")), m), w) := by
  simp only [SessionOp.run, begin, h, if_true]
  rfl

/-- Otherwise the dao gets the next transaction, open or not. -/
theorem begin_of_out (h : m.inTrans = false) :
    ((SessionOp.run g m .begin).run w).1.2.tx = some w.txs.length ∧
      ((SessionOp.run g m .begin).run w).2.txs.length = w.txs.length + 1 := by
  rcases m with ⟨tx, _ | _⟩
  · rcases hbegin : g.begin w.env with ⟨_ | x, env⟩
    · have hrun := g.beginTx_run_ok hbegin
      simp only [SessionOp.run, begin, StateT.run_bind, Bool.false_eq_true, if_false,
        hrun]
      exact ⟨rfl, List.length_append⟩
    · have hrun := g.beginTx_run_failed hbegin
      simp only [SessionOp.run, begin, StateT.run_bind, Bool.false_eq_true, if_false,
        hrun]
      exact ⟨rfl, List.length_append⟩
  · cases h

/-- Outside a transaction there is nothing to commit or to roll back. -/
theorem end_of_out {op : SessionOp} (hop : op = .commit ∨ op = .rollback)
    (h : m.inTrans = false) :
    (op.run g m).run w = ((.err (some (.message "no active transaction")), m), w) := by
  rcases m with ⟨tx, _ | _⟩
  · rcases hop with rfl | rfl <;> rfl
  · cases h

/-- Inside one it ends. -/
theorem end_of_in {op : SessionOp} (hop : op = .commit ∨ op = .rollback) (h : m.inTrans = true)
    (hproper : m.inTrans = true → m.tx ≠ none) :
    ((op.run g m).run w).1.2.inTrans = false := by
  rcases m with ⟨_ | tx, _ | _⟩
  · cases h
  · exact absurd rfl (hproper rfl)
  · cases h
  · rcases hop with rfl | rfl <;> rfl

private theorem close_session (m : OrmBaseDao) :
    ((SessionOp.run g m .close).run w).1.2 = ⟨none, false⟩ := by
  rcases m with ⟨_ | tx, _ | _⟩ <;> rfl

private theorem SessionOp.txs_length_le (m : OrmBaseDao) (op : SessionOp) :
    w.txs.length ≤ ((op.run g m).run w).2.txs.length := by
  cases op with
  | db => exact Nat.le_refl _
  | begin =>
    cases hin : m.inTrans with
    | true =>
      refine Nat.le_of_eq ?_
      rw [begin_of_in g w hin]
    | false =>
      rw [(begin_of_out g w hin).2]
      exact Nat.le_succ _
  | commit =>
    rcases m with ⟨_ | tx, _ | _⟩
    · exact Nat.le_refl _
    · exact Nat.le_refl _
    · exact Nat.le_refl _
    · exact Nat.le_of_eq (g.commitTx_txs_length tx w).symm
  | rollback | close =>
    rcases m with ⟨_ | tx, _ | _⟩
    · exact Nat.le_refl _
    · exact Nat.le_refl _
    · exact Nat.le_refl _
    · exact Nat.le_of_eq (g.rollbackTx_txs_length tx w).symm

private theorem OrmBaseDao.Sound.mono {w w' : World D Ω V} (h : m.Sound w)
    (hle : w.txs.length ≤ w'.txs.length) : m.Sound w' :=
  ⟨h.proper, fun tx htx => Nat.lt_of_lt_of_le (h.begun tx htx) hle⟩

private theorem OrmBaseDao.sound_of_none {w : World D Ω V} : OrmBaseDao.Sound w ⟨none, false⟩ :=
  ⟨nofun, nofun⟩

private theorem SessionOp.run_sound {w : World D Ω V} (h : m.Sound w) (op : SessionOp) :
    ((op.run g m).run w).1.2.Sound ((op.run g m).run w).2 := by
  cases op with
  | db => exact h
  | begin =>
    cases hin : m.inTrans with
    | true =>
      rw [begin_of_in g w hin]
      exact h
    | false =>
      obtain ⟨htx, hlength⟩ := begin_of_out g w hin
      refine ⟨fun _ hnone => ?_, fun tx htx' => ?_⟩
      · cases htx.symm.trans hnone
      · cases htx.symm.trans htx'
        rw [hlength]
        exact Nat.lt_succ_self _
  | commit | rollback =>
    rcases m with ⟨_ | tx, _ | _⟩
    · exact h
    · exact absurd rfl (h.proper rfl)
    · exact h
    · exact sound_of_none
  | close =>
    rw [close_session]
    exact sound_of_none

end Sessions

namespace Entity

variable {g : Driver D Ω V X} {e : EntityObject Ω V} {s s' t t' : Entity D Ω V X}
  {l : EntityCall V}

/-- Every session is sound. -/
def Sound (s : Entity D Ω V X) : Prop := ∀ m ∈ s.sessions, m.Sound s.world

private theorem opOn_eq {target : Option Nat} {m : OrmBaseDao} (hm : s.daoOf target = some m)
    (op : EntityOp V) :
    s.opOn g e target op = some { s with
      world := ((g.issue m.db (op.stmt e s.world.env)).run s.world).2
      answers := s.answers ++
        [op.answer ((g.issue m.db (op.stmt e s.world.env)).run s.world).1] } := by
  rw [opOn, hm, Option.map_some, EntityOp.run_eq]

private theorem sessionOn_eq {target : Nat} {m : OrmBaseDao} (hm : s.sessions[target]? = some m)
    (op : SessionOp) :
    s.sessionOn g target op = some { s with
      world := ((op.run g m).run s.world).2
      sessions := s.sessions.set target ((op.run g m).run s.world).1.2
      answers := s.answers ++ [((op.run g m).run s.world).1.1] } := by
  rw [sessionOn, hm, Option.map_some]
  rfl

private theorem Sound.stepApart (h : t.Sound) (hstep : t.stepApart g e l = some t') : t'.Sound := by
  cases l with
  | newSession =>
    cases hstep
    refine List.forall_mem_append.mpr ⟨h, ?_⟩
    exact List.forall_mem_singleton.mpr OrmBaseDao.sound_of_none
  | op caller op =>
    obtain ⟨m, hm, -⟩ := Option.map_eq_some_iff.mp hstep
    cases (opOn_eq hm op).symm.trans hstep
    intro m' hm'
    exact (h m' hm').mono (Nat.le_of_eq (g.issue_txs_length _ _ _).symm)
  | session caller op =>
    obtain ⟨m, hm, -⟩ := Option.map_eq_some_iff.mp hstep
    cases (sessionOn_eq hm op).symm.trans hstep
    intro m' hm'
    rcases List.mem_or_eq_of_mem_set hm' with hmem | rfl
    · exact (h m' hmem).mono (op.txs_length_le g t.world m)
    · exact op.run_sound g (h m (List.mem_of_getElem? hm))

/-- An operation on one dao comes to the same as on another exactly when both have the same
connection: the log of the database tells them apart. -/
theorem opOn_eq_iff {op : EntityOp V} {used own : OrmBaseDao} {target caller : Option Nat}
    (hused : s.daoOf target = some used) (hown : s.daoOf caller = some own) :
    s.opOn g e target op = s.opOn g e caller op ↔ used.db = own.db := by
  rw [opOn_eq hused, opOn_eq hown]
  constructor
  · intro heq
    have hworld := congrArg Entity.world (Option.some.inj heq)
    have hissued := congrArg World.issued hworld
    rw [g.issue_issued, g.issue_issued, List.append_cancel_left_eq, List.cons.injEq,
      Prod.mk.injEq] at hissued
    exact hissued.1.1
  · intro hdb
    rw [hdb]

private theorem set_eq_self {sessions : List OrmBaseDao} {j : Nat} {m : OrmBaseDao}
    (h : sessions[j]? = some m) : sessions.set j m = sessions := by
  obtain ⟨hlt, rfl⟩ := List.getElem?_eq_some_iff.mp h
  exact List.set_getElem_self hlt

/-- An operation on one session comes to the same as on another exactly when it changes neither
and does and returns the same. -/
theorem sessionOn_eq_iff {op : SessionOp} {used own : OrmBaseDao} {j i : Nat}
    (hused : s.sessions[j]? = some used) (hown : s.sessions[i]? = some own) (hne : j ≠ i) :
    s.sessionOn g j op = s.sessionOn g i op ↔
      ((op.run g used).run s.world).1.2 = used ∧ ((op.run g own).run s.world).1.2 = own ∧
        ((op.run g used).run s.world).2 = ((op.run g own).run s.world).2 ∧
        ((op.run g used).run s.world).1.1 = ((op.run g own).run s.world).1.1 := by
  rw [sessionOn_eq hused, sessionOn_eq hown]
  constructor
  · intro heq
    have hstate := Option.some.inj heq
    have hsessions := congrArg Entity.sessions hstate
    have hanswers := congrArg Entity.answers hstate
    rw [List.append_cancel_left_eq, List.cons.injEq] at hanswers
    obtain ⟨hj, -⟩ := List.getElem?_eq_some_iff.mp hused
    obtain ⟨hi, -⟩ := List.getElem?_eq_some_iff.mp hown
    refine ⟨?_, ?_, congrArg Entity.world hstate, hanswers.1⟩
    · have hat := congrArg (·[j]?) hsessions
      simp only [List.getElem?_set_self hj, List.getElem?_set_ne hne.symm, hused] at hat
      exact Option.some.inj hat
    · have hat := congrArg (·[i]?) hsessions
      simp only [List.getElem?_set_self hi, List.getElem?_set_ne hne, hown] at hat
      exact (Option.some.inj hat).symm
  · rintro ⟨hj, hi, hworld, hanswer⟩
    rw [hj, hi, hworld, hanswer, set_eq_self hused, set_eq_self hown]

/-- Two sound sessions make no difference for an operation exactly as `SameEffect` says. -/
theorem sameEffect_iff {op : SessionOp} {used own : OrmBaseDao} {w : World D Ω V}
    (hused : used.Sound w) (hown : own.Sound w) :
    (((op.run g used).run w).1.2 = used ∧ ((op.run g own).run w).1.2 = own ∧
      ((op.run g used).run w).2 = ((op.run g own).run w).2 ∧
      ((op.run g used).run w).1.1 = ((op.run g own).run w).1.1) ↔ SameEffect op used own := by
  have hbegin {m : OrmBaseDao} (hm : m.Sound w)
      (hsame : ((SessionOp.run g m .begin).run w).1.2 = m) : m.inTrans = true := by
    by_contra hout
    have htx := (begin_of_out g w (eq_false_of_ne_true hout)).1
    rw [hsame] at htx
    exact Nat.lt_irrefl _ (hm.begun _ htx)
  have hend {m : OrmBaseDao} (hm : m.Sound w) (hop : op = .commit ∨ op = .rollback)
      (hsame : ((op.run g m).run w).1.2 = m) : m.inTrans = false := by
    by_contra hin
    have hout := end_of_in g w hop (eq_true_of_ne_false hin) hm.proper
    rw [hsame] at hout
    exact hin hout
  cases op with
  | db =>
    refine ⟨fun h => ?_, fun h => ⟨rfl, rfl, rfl, congrArg Answer.db h⟩⟩
    exact Answer.db.inj h.2.2.2
  | begin =>
    refine ⟨fun h => ⟨hbegin hused h.1, hbegin hown h.2.1⟩, fun h => ?_⟩
    rw [begin_of_in g w h.1, begin_of_in g w h.2]
    exact ⟨rfl, rfl, rfl, rfl⟩
  | commit =>
    refine ⟨fun h => ⟨hend hused (.inl rfl) h.1, hend hown (.inl rfl) h.2.1⟩, fun h => ?_⟩
    rw [end_of_out g w (.inl rfl) h.1, end_of_out g w (.inl rfl) h.2]
    exact ⟨rfl, rfl, rfl, rfl⟩
  | rollback =>
    refine ⟨fun h => ⟨hend hused (.inr rfl) h.1, hend hown (.inr rfl) h.2.1⟩, fun h => ?_⟩
    rw [end_of_out g w (.inr rfl) h.1, end_of_out g w (.inr rfl) h.2]
    exact ⟨rfl, rfl, rfl, rfl⟩
  | close =>
    refine ⟨fun h => ?_, fun h => ?_⟩
    · rw [close_session, close_session] at h
      exact ⟨h.1.symm, h.2.1.symm⟩
    · obtain ⟨rfl, rfl⟩ := h
      exact ⟨rfl, rfl, rfl, rfl⟩

/-- A call comes to the same as on separate objects exactly when it is passed on to what does for
the caller what its own dao does. -/
theorem step_eq_iff_own (hsound : s.Sound) (hstep : s.step g e l = some s')
    (hapart : s.stepApart g e l = some t') : s' = t' ↔ s.Own l := by
  cases l with
  | newSession =>
    cases hstep
    cases hapart
    exact iff_of_true rfl trivial
  | op caller op =>
    obtain ⟨used, hused, -⟩ := Option.map_eq_some_iff.mp hstep
    obtain ⟨own, hown, -⟩ := Option.map_eq_some_iff.mp hapart
    have hguard : s.Own (.op caller op) ↔ used.db = own.db := by
      simp only [Own, hused, hown, Option.mem_def, Option.some.injEq, forall_eq']
    have hsame : s.opOn g e s.sessionDao op = s.opOn g e caller op ↔ used.db = own.db :=
      opOn_eq_iff hused hown
    change s.opOn g e s.sessionDao op = some s' at hstep
    change s.opOn g e caller op = some t' at hapart
    rw [hguard, ← hsame, hstep, hapart, Option.some.injEq]
  | session caller op =>
    obtain ⟨j, hj, hpassed⟩ := Option.bind_eq_some_iff.mp hstep
    change s.sessionOn g caller op = some t' at hapart
    obtain ⟨used, hused, -⟩ := Option.map_eq_some_iff.mp hpassed
    obtain ⟨own, hown, -⟩ := Option.map_eq_some_iff.mp hapart
    by_cases hji : j = caller
    · subst hji
      refine iff_of_true ?_ (.inl hj)
      exact Option.some.inj (hpassed.symm.trans hapart)
    · have hguard : s.Own (.session caller op) ↔ SameEffect op used own := by
        simp only [Own, daoOf, hj, hused, hown, Option.mem_def, Option.some.injEq, forall_eq', hji,
          false_or]
      rw [hguard, ← sameEffect_iff (g := g) (hsound used (List.mem_of_getElem? hused))
        (hsound own (List.mem_of_getElem? hown)), ← sessionOn_eq_iff hused hown hji, hpassed,
        hapart, Option.some.injEq]

/-- On separate objects an operation issues its one statement on the connection of its own dao,
the base connection for the entity itself, and an operation of a session touches no other one. -/
def Separate (g : Driver D Ω V X) (e : EntityObject Ω V) : Prop :=
  ∀ t t' : Entity D Ω V X,
    (∀ caller op, t.stepApart g e (.op caller op) = some t' → t'.sessions = t.sessions ∧
      ∃ own stmt, t.daoOf caller = some own ∧
        t'.world.issued = t.world.issued ++ [(own.db, stmt)]) ∧
    ∀ i op, t.stepApart g e (.session i op) = some t' →
      ∀ j, j ≠ i → t'.sessions[j]? = t.sessions[j]?

private theorem separate (g : Driver D Ω V X) (e : EntityObject Ω V) : Separate g e := by
  intro t t'
  constructor
  · intro caller op hstep
    obtain ⟨own, hown, -⟩ := Option.map_eq_some_iff.mp hstep
    cases (opOn_eq hown op).symm.trans hstep
    exact ⟨rfl, own, _, hown, g.issue_issued _ _ _⟩
  · intro i op hstep j hji
    obtain ⟨own, hown, -⟩ := Option.map_eq_some_iff.mp hstep
    cases (sessionOn_eq hown op).symm.trans hstep
    exact List.getElem?_set_ne hji.symm

/-- The entity and its handles are, in all states of a run, where separate objects would be exactly
when every call is passed on to what does for the caller what its own dao does. -/
theorem sessions_independent_iff_own {p p' : Entity D Ω V X × Entity D Ω V X}
    {ls : List (EntityCall V)} (hinit : (sideBySide g e).init p)
    (hrun : (sideBySide g e).run p ls = some p') :
    ((∀ before after q, ls = before ++ after → (sideBySide g e).run p before = some q →
        q.1 = q.2) ↔ (sideBySide g e).Guarded (fun q l => q.1.Own l) p ls) ∧
      Separate g e := by
  obtain ⟨w, rfl⟩ := hinit
  refine ⟨?_, separate g e⟩
  refine (sideBySide g e).forall_states_iff_guarded (I := fun q => q.2.Sound) ?_ ?_ nofun rfl hrun
  · intro q l q' hsound hstep
    obtain ⟨s', -, hstep⟩ := Option.bind_eq_some_iff.mp hstep
    obtain ⟨t', hapart, rfl⟩ := Option.map_eq_some_iff.mp hstep
    exact hsound.stepApart hapart
  · rintro ⟨s, t⟩ l q' hsound heq hstep
    cases heq
    obtain ⟨s', hpassed, hstep⟩ := Option.bind_eq_some_iff.mp hstep
    obtain ⟨t', hapart, rfl⟩ := Option.map_eq_some_iff.mp hstep
    exact step_eq_iff_own hsound hpassed hapart

/-- An entity on an empty database. -/
def counted : EntityObject Unit Unit := ⟨(), fun _ => ()⟩

/-- An entity beside separate objects. -/
def twins : Entity Nat Unit Unit Unit × Entity Nat Unit Unit Unit :=
  (newEntity ⟨0, [], (), []⟩, newEntity ⟨0, [], (), []⟩)

/-- One session after the other, and the entity itself while none is in a transaction. -/
def oneByOne : List (EntityCall Unit) :=
  [.op none .create, .newSession, .session 0 .begin, .op (some 0) .create, .session 0 .commit,
    .op none .get, .newSession, .session 1 .begin, .op (some 1) .deleteByPk, .session 1 .rollback]

/-- They stay apart. -/
theorem sessions_independent_one_by_one :
    ∃ p', (sideBySide countingDriver counted).run twins oneByOne = some p' ∧
      ∀ before after q, oneByOne = before ++ after →
        (sideBySide countingDriver counted).run twins before = some q → q.1 = q.2 := by
  have hown : (sideBySide countingDriver counted).Guarded (fun q l => q.1.Own l) twins
      oneByOne := by
    decide
  exact ⟨_, rfl, (sessions_independent_iff_own ⟨_, rfl⟩ rfl).1.mpr hown⟩

/-- A write of the entity itself falls into the transaction of a session and goes with it, and the
second session finds the transaction that the first has begun. -/
theorem sessions_share_one_transaction :
    ∃ p', (sideBySide countingDriver counted).run twins [.newSession, .newSession,
        .session 0 .begin, .session 1 .begin, .op none .create, .session 0 .rollback] = some p' ∧
      p'.1.answers = [.err none, .err (some (.message "transaction already started")),
        .rows 1 none, .err none] ∧
      p'.2.answers = [.err none, .err none, .rows 1 none, .err none] ∧
      p'.1.world.issued = [(.tx 0, .create none ())] ∧
      p'.2.world.issued = [(.conn, .create none ())] ∧
      p'.1.world.committed = 0 ∧ p'.2.world.committed = 1 := by
  exact ⟨_, rfl, rfl, rfl, rfl, rfl, rfl, rfl⟩

end Entity

end Stardust.Databases
