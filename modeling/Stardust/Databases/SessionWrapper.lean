import Stardust.Databases.SessionRuns

/-!
# Chains of functions in one session

A `SessionWrapper` is passed by value: every copy has an error of its own, and all of them share
one session. `Execute` asks the error of its copy whether to call a function, and the function does
with the shared session what it likes. A chain of functions that only issue statements is
all-or-nothing.
-/

namespace Stardust.Databases

open OrmBaseDao

variable {D Ω V X : Type}

/-- What a function can do with its session. -/
inductive FuncOp (V : Type) where
  /-- A statement on `session.DB()`. -/
  | issue (stmt : Stmt V)
  /-- A statement on the base connection: by `Native`, `CallProcedure`, `Migrations` or one of the
  queries for metadata. -/
  | native (stmt : Stmt V)
  /-- `Begin`, `Commit`, `Rollback` or `Close` of the session. -/
  | control (c : SessionCall)
  /-- `session.DB().Commit()` or `session.DB().Rollback()`, past the session. -/
  | endDB (commits : Bool)

/-- The answer to an operation that has only an error. -/
def Reply.ofError (err : Option (DbError X)) : Reply V X := ⟨err, 0, 0, ⟨.ok [], []⟩, []⟩

/-- End a transaction by its handle. -/
def Driver.endTx (g : Driver D Ω V X) (commits : Bool) (tx : Nat) :
    StateM (World D Ω V) (Option (DbError X)) :=
  if commits then g.commitTx tx else g.rollbackTx tx

/-- Perform one operation. The base connection is no transaction that could be ended. -/
def FuncOp.perform (g : Driver D Ω V X) (m : OrmBaseDao) :
    FuncOp V → StateM (World D Ω V) (Reply V X × OrmBaseDao)
  | .issue stmt => do return (← g.issue m.db stmt, m)
  | .native stmt => do return (← g.issue .conn stmt, m)
  | .control c => do
    let (err, m) ← m.call g c
    return (.ofError err, m)
  | .endDB commits =>
    match m.db with
    | .conn => return (.ofError (some (.message "invalid transaction")), m)
    | .tx tx => do return (.ofError (← g.endTx commits tx), m)

/-- The handle is an open transaction. -/
def World.inside (w : World D Ω V) : Handle → Bool
  | .conn => false
  | .tx id => (w.txs[id]?).join.isSome

/-- An operation that is a statement is issued inside an open transaction. -/
def FuncOp.inside (m : OrmBaseDao) (w : World D Ω V) : FuncOp V → Bool
  | .issue _ => w.inside m.db
  | .native _ => w.inside .conn
  | .control _ | .endDB _ => true

/-- A function for `Execute`: its operations, each chosen by the answers before it, and the error
that it returns. -/
inductive ExecuteFunc (V X : Type) where
  | ret (err : Option (DbError X))
  | act (op : FuncOp V) (next : Reply V X → ExecuteFunc V X)

/-- What a call of a function comes to. -/
structure Outcome (D Ω V X : Type) where
  /-- The error that it returns. -/
  err : Option (DbError X)
  session : OrmBaseDao
  world : World D Ω V
  /-- Its operations, with their errors. -/
  acts : List (FuncOp V × Option (DbError X))
  /-- Every statement was issued inside an open transaction. -/
  inside : Bool

/-- Call the function with a session. -/
def ExecuteFunc.call (g : Driver D Ω V X) :
    ExecuteFunc V X → OrmBaseDao → World D Ω V → Outcome D Ω V X
  | .ret err, m, w => ⟨err, m, w, [], true⟩
  | .act op next, m, w =>
    let ((reply, m'), w') := (op.perform g m).run w
    let out := (next reply).call g m' w'
    { out with acts := (op, reply.error) :: out.acts, inside := op.inside m w && out.inside }

/-- A call of a function. -/
structure Called (V X : Type) where
  func : ExecuteFunc V X
  /-- What it did with the session. -/
  acts : List (FuncOp V × Option (DbError X))
  /-- Whether the session was in an open transaction when it was called, and for every statement. -/
  inside : Bool

/-- The session that the copies of a wrapper share, with the database behind it. -/
structure Shared (D Ω V X : Type) where
  world : World D Ω V
  session : OrmBaseDao
  /-- The functions that were called, in order. -/
  called : List (Called V X)

/-- One copy of a wrapper. -/
structure SessionWrapper (X : Type) where
  /-- The error that it has recorded. -/
  err : Option (DbError X)

/-- Call a method of the shared session. -/
def Shared.use {α : Type} (method : OrmBaseDao → StateM (World D Ω V) (α × OrmBaseDao)) :
    StateM (Shared D Ω V X) α := fun s =>
  let ((a, session), world) := (method s.session).run s.world
  (a, { s with session, world })

/-- Call a function with the shared session. -/
def Shared.callFunc (g : Driver D Ω V X) (func : ExecuteFunc V X) :
    StateM (Shared D Ω V X) (Option (DbError X)) := fun s =>
  let out := func.call g s.session s.world
  (out.err, {
    world := out.world
    session := out.session
    called := s.called ++
      [⟨func, out.acts, s.world.inside s.session.db && out.inside⟩] })

/-- Close the shared session. -/
def Shared.close (g : Driver D Ω V X) : StateM (Shared D Ω V X) Unit :=
  Shared.use fun m => do
    let m ← m.close g
    return ((), m)

/-- Make a session and begin its transaction. -/
def newSessionWrapper (g : Driver D Ω V X) : StateM (Shared D Ω V X) (SessionWrapper X) := do
  modify fun s => { s with session := newSession }
  let err ← Shared.use (·.begin g)
  return ⟨err⟩

namespace SessionWrapper

variable (g : Driver D Ω V X) (sw : SessionWrapper X)

/-- Call the function unless the copy has an error, and roll back when it fails. -/
def execute (call : ExecuteFunc V X) : StateM (Shared D Ω V X) (SessionWrapper X) := do
  if sw.err.isSome then
    return sw
  let err ← Shared.callFunc g call
  if err.isSome then
    discard (Shared.use (·.rollback g))
  return ⟨err⟩

/-- Commit, or roll back if the copy has an error. -/
def commit : StateM (Shared D Ω V X) (Option (DbError X)) :=
  match sw.err with
  | none => Shared.use (·.commit g)
  | some err => do
    discard (Shared.use (X := X) (·.rollback g))
    return some err

/-- Commit unless the copy has an error, and close the session. -/
def commitAndClose : StateM (Shared D Ω V X) (Option (DbError X)) := do
  let err ← match sw.err with
    | none => sw.commit g
    | some err => pure (some err)
  Shared.close g
  return err

/-- Roll back if the copy has an error, and close the session. -/
def close : StateM (Shared D Ω V X) (Option (DbError X)) := do
  if sw.err.isSome then
    discard (Shared.use (X := X) (·.rollback g))
  Shared.close g
  return sw.err

end SessionWrapper

/-- `NewSessionWrapper(dao).Execute(f1)...Execute(fn).CommitAndClose()`. -/
def chain (g : Driver D Ω V X) (funcs : List (ExecuteFunc V X)) :
    StateM (Shared D Ω V X) (Option (DbError X)) := do
  let sw ← newSessionWrapper g
  let sw ← funcs.foldlM (fun sw call => sw.execute g call) sw
  sw.commitAndClose g

/-- A function that reads and writes through `session.DB()` and leaves the transaction alone. -/
inductive Statements (V X : Type) where
  | ret (err : Option (DbError X))
  | issue (stmt : Stmt V) (next : Reply V X → Statements V X)

/-- The function itself. -/
def Statements.toFunc : Statements V X → ExecuteFunc V X
  | .ret err => .ret err
  | .issue stmt next => .act (.issue stmt) fun reply => (next reply).toFunc

/-- What a function returns and makes of the contents it works on. -/
def Statements.apply (g : Driver D Ω V X) :
    Statements V X → D → Ω → Option (DbError X) × D × Ω
  | .ret err, d, env => (err, d, env)
  | .issue stmt next, d, env =>
    let (reply, d, env) := g.exec env d stmt
    (next reply).apply g d env

/-- What functions one after the other make of the contents, up to the first error. -/
def applyAll (g : Driver D Ω V X) :
    List (Statements V X) → D → Ω → Option (DbError X) × D × Ω
  | [], d, env => (none, d, env)
  | func :: funcs, d, env =>
    match func.apply g d env with
    | (none, d, env) => applyAll g funcs d env
    | (some err, d, env) => (some err, d, env)

/-- The functions up to and including the first that fails. -/
def attempted (g : Driver D Ω V X) : List (Statements V X) → D → Ω → List (Statements V X)
  | [], _, _ => []
  | func :: funcs, d, env =>
    match func.apply g d env with
    | (none, d, env) => func :: attempted g funcs d env
    | (some _, _, _) => [func]

variable {g : Driver D Ω V X} {s s' : Shared D Ω V X} {w w' : World D Ω V} {tx : Nat} {d : D}

/-- On an open transaction a function does to the working copy what it does to contents. -/
theorem Statements.call_tx (func : Statements V X) (h : w.txs[tx]? = some (some d)) :
    ∃ stmts, (∀ entry ∈ stmts, entry.1 = .tx tx) ∧
      (func.toFunc.call g ⟨some tx, true⟩ w).err = (func.apply g d w.env).1 ∧
      (func.toFunc.call g ⟨some tx, true⟩ w).session = ⟨some tx, true⟩ ∧
      (func.toFunc.call g ⟨some tx, true⟩ w).world =
        { w with
          txs := w.txs.set tx (some (func.apply g d w.env).2.1)
          env := (func.apply g d w.env).2.2
          issued := w.issued ++ stmts } := by
  induction func generalizing w d with
  | ret err =>
    refine ⟨[], nofun, rfl, rfl, ?_⟩
    have hsame : w.txs.set tx (some d) = w.txs := by
      obtain ⟨hlt, heq⟩ := List.getElem?_eq_some_iff.mp h
      rw [← heq, List.set_getElem_self]
    simp only [apply, hsame, List.append_nil]
    rfl
  | issue stmt next ih =>
    obtain ⟨hlt, -⟩ := List.getElem?_eq_some_iff.mp h
    have hissue : (g.issue (.tx tx) stmt).run w = ((g.exec w.env d stmt).1,
        { w with
          txs := w.txs.set tx (some (g.exec w.env d stmt).2.1)
          env := (g.exec w.env d stmt).2.2
          issued := w.issued ++ [(.tx tx, stmt)] }) := by
      change g.issue (.tx tx) stmt w = _
      simp only [Driver.issue, h]
    have hperform : ((FuncOp.issue stmt).perform g ⟨some tx, true⟩).run w =
        (((g.exec w.env d stmt).1, ⟨some tx, true⟩),
          { w with
            txs := w.txs.set tx (some (g.exec w.env d stmt).2.1)
            env := (g.exec w.env d stmt).2.2
            issued := w.issued ++ [(.tx tx, stmt)] }) := by
      change ((((g.issue (.tx tx) stmt).run w).1, _), ((g.issue (.tx tx) stmt).run w).2) = _
      rw [hissue]
    have hcopy : (w.txs.set tx (some (g.exec w.env d stmt).2.1))[tx]? =
        some (some (g.exec w.env d stmt).2.1) := List.getElem?_set_self hlt
    obtain ⟨stmts, hon, herr, hsession, hworld⟩ := ih (g.exec w.env d stmt).1 (w := { w with
      txs := w.txs.set tx (some (g.exec w.env d stmt).2.1)
      env := (g.exec w.env d stmt).2.2
      issued := w.issued ++ [(.tx tx, stmt)] }) hcopy
    refine ⟨(.tx tx, stmt) :: stmts, List.forall_mem_cons.mpr ⟨rfl, hon⟩, ?_⟩
    simp only [toFunc, ExecuteFunc.call, hperform]
    refine ⟨herr, hsession, hworld.trans ?_⟩
    simp only [apply, List.set_set, List.append_assoc, List.cons_append, List.nil_append]

/-- The two states of the database differ in what one transaction has done, unpublished. -/
structure Apart (tx : Nat) (w w' : World D Ω V) : Prop where
  committed : w'.committed = w.committed
  others : ∀ id, id ≠ tx → w'.txs[id]? = w.txs[id]?
  issued : ∃ stmts, w'.issued = w.issued ++ stmts ∧ ∀ entry ∈ stmts, entry.1 = .tx tx

private theorem Apart.trans {w₀ : World D Ω V} (h : Apart tx w₀ w) (h' : Apart tx w w') :
    Apart tx w₀ w' := by
  obtain ⟨stmts, hissued, hon⟩ := h.issued
  obtain ⟨stmts', hissued', hon'⟩ := h'.issued
  refine ⟨h'.committed.trans h.committed, fun id hid => ?_, stmts ++ stmts', ?_, ?_⟩
  · exact (h'.others id hid).trans (h.others id hid)
  · rw [hissued', hissued, List.append_assoc]
  · exact List.forall_mem_append.mpr ⟨hon, hon'⟩

/-- Changing one transaction, on which all statements are issued, leaves the rest alone. -/
theorem Apart.of_set {copy : Option D} {stmts : List (Handle × Stmt V)}
    (hcommitted : w'.committed = w.committed) (htxs : w'.txs = w.txs.set tx copy)
    (hissued : w'.issued = w.issued ++ stmts) (hon : ∀ entry ∈ stmts, entry.1 = .tx tx) :
    Apart tx w w' := by
  refine ⟨hcommitted, fun id hid => ?_, stmts, hissued, hon⟩
  rw [htxs, List.getElem?_set_ne fun heq => hid heq.symm]

/-- The session is in its open transaction, on these contents. -/
structure Running (w₀ : World D Ω V) (tx : Nat) (d : D) (env : Ω) (s : Shared D Ω V X) :
    Prop where
  session : s.session = ⟨some tx, true⟩
  copy : s.world.txs[tx]? = some (some d)
  env : s.world.env = env
  apart : Apart tx w₀ s.world

/-- The session is in no transaction, and its last one is over. -/
structure Idle (w₀ : World D Ω V) (tx : Nat) (s : Shared D Ω V X) : Prop where
  session : s.session.inTrans = false
  closed : ¬s.world.IsOpen tx
  apart : Apart tx w₀ s.world

variable {w₀ : World D Ω V} {env env' : Ω} {d' : D} {func : Statements V X} {err : DbError X}

private theorem not_isOpen_set_none (hlt : tx < w.txs.length) (htxs : w'.txs = w.txs.set tx none) :
    ¬w'.IsOpen tx := by
  rintro ⟨d, hd⟩
  rw [htxs, List.getElem?_set_self hlt] at hd
  cases hd

/-- The functions that were called. -/
def Shared.funcs (s : Shared D Ω V X) : List (ExecuteFunc V X) := s.called.map Called.func

/-- A function called in the transaction works on its copy. -/
theorem Running.callFunc (h : Running w₀ tx d env s) (func : Statements V X) :
    ∃ s', (Shared.callFunc g func.toFunc).run s = ((func.apply g d env).1, s') ∧
      Running w₀ tx (func.apply g d env).2.1 (func.apply g d env).2.2 s' ∧
      s'.funcs = s.funcs ++ [func.toFunc] := by
  obtain ⟨stmts, hon, herr, hsession, hworld⟩ := func.call_tx (g := g) h.copy
  rw [h.env] at herr hworld
  obtain ⟨hlt, -⟩ := List.getElem?_eq_some_iff.mp h.copy
  have hrun : (Shared.callFunc g func.toFunc).run s =
      ((func.toFunc.call g ⟨some tx, true⟩ s.world).err,
        ((Shared.callFunc g func.toFunc).run s).2) := by
    rw [← h.session]
    rfl
  refine ⟨_, hrun.trans (congrArg (·, _) herr), ⟨?_, ?_, ?_, ?_⟩, ?_⟩
  · change (func.toFunc.call g s.session s.world).session = _
    rw [h.session, hsession]
  · change (func.toFunc.call g s.session s.world).world.txs[tx]? = _
    rw [h.session, hworld]
    exact List.getElem?_set_self hlt
  · change (func.toFunc.call g s.session s.world).world.env = _
    rw [h.session, hworld]
  · change Apart tx w₀ (func.toFunc.call g s.session s.world).world
    rw [h.session, hworld]
    exact h.apart.trans (.of_set rfl rfl rfl hon)
  · change (s.called ++ [_]).map Called.func = _
    rw [List.map_append]
    rfl

/-- A method of the shared session by its result. -/
theorem Shared.use_run {α : Type} {method : OrmBaseDao → StateM (World D Ω V) (α × OrmBaseDao)}
    {a : α} {m : OrmBaseDao} (h : (method s.session).run s.world = ((a, m), w)) :
    (Shared.use method).run s = (a, { s with session := m, world := w }) := by
  change Shared.use method s = _
  simp only [Shared.use, h]

private theorem Running.ended {err : Option (DbError X)}
    {method : OrmBaseDao → StateM (World D Ω V) (Option (DbError X) × OrmBaseDao)}
    (h : Running w₀ tx d env s) (env' : Ω)
    (hrun : (method s.session).run s.world = ((err, ⟨none, false⟩),
      { s.world with txs := s.world.txs.set tx none, env := env' })) :
    ∃ s', (Shared.use method).run s = (err, s') ∧ Idle w₀ tx s' ∧ s'.funcs = s.funcs := by
  obtain ⟨hlt, -⟩ := List.getElem?_eq_some_iff.mp h.copy
  refine ⟨_, Shared.use_run hrun, ⟨rfl, not_isOpen_set_none hlt rfl, h.apart.trans ?_⟩, rfl⟩
  exact .of_set rfl rfl (List.append_nil _).symm nofun

/-- A rollback ends the transaction. -/
theorem Running.rollback (h : Running w₀ tx d env s) :
    ∃ err s', (Shared.use (X := X) (·.rollback g)).run s = (err, s') ∧ Idle w₀ tx s' ∧
      s'.funcs = s.funcs := by
  refine ⟨(g.rollback s.world.env).1.map .driver, h.ended (g.rollback s.world.env).2 ?_⟩
  rw [h.session]
  simp only [OrmBaseDao.rollback, StateT.run_bind, g.rollbackTx_run h.copy]
  rfl

/-- A commit that the driver refuses ends the transaction like a rollback. -/
theorem Running.commit_failed {x : X} (h : Running w₀ tx d env s)
    (hfailed : g.commit env = (some x, env')) :
    ∃ s', (Shared.use (X := X) (·.commit g)).run s = (some (.driver x), s') ∧ Idle w₀ tx s' ∧
      s'.funcs = s.funcs := by
  rw [← h.env] at hfailed
  refine h.ended env' ?_
  rw [h.session]
  simp only [commit, StateT.run_bind, g.commitTx_run_failed h.copy hfailed]
  rfl

/-- A commit publishes the contents of the transaction and ends it. -/
theorem Running.commit_ok (h : Running w₀ tx d env s) (hok : g.commit env = (none, env')) :
    ∃ s', (Shared.use (X := X) (·.commit g)).run s = (none, s') ∧ s'.session = ⟨none, false⟩ ∧
      s'.world.committed = d ∧ ¬s'.world.IsOpen tx ∧
      (∀ id, id ≠ tx → s'.world.txs[id]? = w₀.txs[id]?) ∧ s'.funcs = s.funcs := by
  obtain ⟨hlt, -⟩ := List.getElem?_eq_some_iff.mp h.copy
  rw [← h.env] at hok
  have hrun : (s.session.commit g).run s.world = ((none, ⟨none, false⟩),
      { s.world with committed := d, txs := s.world.txs.set tx none, env := env' }) := by
    rw [h.session]
    simp only [commit, StateT.run_bind, g.commitTx_run_ok h.copy hok]
    rfl
  refine ⟨_, Shared.use_run hrun, rfl, rfl, not_isOpen_set_none hlt rfl, fun id hid => ?_, rfl⟩
  exact (List.getElem?_set_ne fun heq => hid heq.symm).trans (h.apart.others id hid)

/-- Closing a session without a transaction only forgets the last one. -/
theorem close_of_idle (h : s.session.inTrans = false) :
    (Shared.close g).run s = ((), { s with session := ⟨none, false⟩ }) := by
  have hrun : (do let m ← s.session.close g; return ((), m) : StateM (World D Ω V) _).run s.world =
      (((), ⟨none, false⟩), s.world) := by
    rw [close, h]
    rfl
  exact Shared.use_run hrun

/-- A function that returns nil leaves the session in its transaction. -/
theorem Running.execute_ok (h : Running w₀ tx d env s)
    (hok : func.apply g d env = (none, d', env')) :
    ∃ s', (SessionWrapper.execute g ⟨none⟩ func.toFunc).run s = (⟨none⟩, s') ∧
      Running w₀ tx d' env' s' ∧ s'.funcs = s.funcs ++ [func.toFunc] := by
  obtain ⟨s', hcall, hrunning, hcalled⟩ := h.callFunc (g := g) func
  rw [hok] at hcall hrunning
  refine ⟨s', ?_, hrunning, hcalled⟩
  simp only [SessionWrapper.execute, Option.isSome_none, Bool.false_eq_true, if_false,
    StateT.run_bind, hcall]
  rfl

/-- A function that fails is rolled back. -/
theorem Running.execute_failed (h : Running w₀ tx d env s)
    (hfail : func.apply g d env = (some err, d', env')) :
    ∃ s', (SessionWrapper.execute g ⟨none⟩ func.toFunc).run s = (⟨some err⟩, s') ∧
      Idle w₀ tx s' ∧ s'.funcs = s.funcs ++ [func.toFunc] := by
  obtain ⟨s₁, hcall, hrunning, hcalled⟩ := h.callFunc (g := g) func
  rw [hfail] at hcall hrunning
  obtain ⟨_, s', hrollback, hidle, hsame⟩ := hrunning.rollback (g := g)
  refine ⟨s', ?_, hidle, hsame.trans hcalled⟩
  simp only [SessionWrapper.execute, Option.isSome_none, Bool.false_eq_true, if_false,
    StateT.run_bind, hcall]
  change ((⟨some err⟩ : SessionWrapper X), ((Shared.use (·.rollback g)).run s₁).2) = _
  rw [hrollback]

/-- A copy with an error calls nothing. -/
theorem execute_of_err (err : DbError X) (func : ExecuteFunc V X) (s : Shared D Ω V X) :
    (SessionWrapper.execute g ⟨some err⟩ func).run s = (⟨some err⟩, s) := rfl

/-- Neither do the copies that come from it. -/
theorem executeAll_of_err (err : DbError X) (funcs : List (ExecuteFunc V X))
    (s : Shared D Ω V X) :
    (funcs.foldlM (fun sw call => SessionWrapper.execute g sw call) ⟨some err⟩).run s =
      (⟨some err⟩, s) := by
  induction funcs with
  | nil => rfl
  | cons func funcs ih =>
    rw [List.foldlM_cons, StateT.run_bind, execute_of_err]
    exact ih

/-- The functions of a chain work on the copy of the transaction as on contents, up to the first
that fails, and none is called after that. -/
theorem Running.executeAll (h : Running w₀ tx d env s) (funcs : List (Statements V X)) :
    ∃ s', ((funcs.map Statements.toFunc).foldlM
        (fun sw call => SessionWrapper.execute g sw call) ⟨none⟩).run s =
        (⟨(applyAll g funcs d env).1⟩, s') ∧
      s'.funcs = s.funcs ++ (attempted g funcs d env).map Statements.toFunc ∧
      match applyAll g funcs d env with
      | (none, d', env') => Running w₀ tx d' env' s'
      | (some _, _, _) => Idle w₀ tx s' := by
  induction funcs generalizing d env s with
  | nil => exact ⟨s, rfl, (List.append_nil _).symm, h⟩
  | cons func funcs ih =>
    rcases happly : func.apply g d env with ⟨_ | err, d', env'⟩
    · obtain ⟨s₁, hrun, hrunning, hcalled⟩ := h.execute_ok happly
      obtain ⟨s', hrest, hcalled', hend⟩ := ih hrunning
      refine ⟨s', ?_, ?_, ?_⟩
      · rw [List.map_cons, List.foldlM_cons, StateT.run_bind, hrun, applyAll, happly]
        exact hrest
      · rw [hcalled', hcalled, attempted, happly, List.map_cons, List.append_assoc]
        rfl
      · rw [applyAll, happly]
        exact hend
    · obtain ⟨s', hrun, hidle, hcalled⟩ := h.execute_failed happly
      refine ⟨s', ?_, ?_, ?_⟩
      · rw [List.map_cons, List.foldlM_cons, StateT.run_bind, hrun, applyAll, happly]
        exact executeAll_of_err err _ s'
      · rw [hcalled, attempted, happly]
        rfl
      · rw [applyAll, happly]
        exact hidle

/-- A new transaction is the only one that is different. -/
theorem Apart.of_append {copy : Option D} (hcommitted : w'.committed = w.committed)
    (htxs : w'.txs = w.txs ++ [copy]) (hissued : w'.issued = w.issued) :
    Apart w.txs.length w w' := by
  refine ⟨hcommitted, fun id hid => ?_, [], hissued.trans (List.append_nil _).symm, nofun⟩
  rw [htxs]
  rcases Nat.lt_or_gt_of_ne hid with hlt | hgt
  · exact List.getElem?_append_left hlt
  · rw [List.getElem?_eq_none (by simp; omega), List.getElem?_eq_none (by omega)]

variable {result : Option (DbError X)}

/-- A new wrapper by the result of `Begin` on its new session. -/
theorem newSessionWrapper_run {m : OrmBaseDao}
    (h : (newSession.begin g).run s.world = ((result, m), w)) :
    (newSessionWrapper g).run s = (⟨result⟩, { s with session := m, world := w }) := by
  have huse : (Shared.use (X := X) (·.begin g)).run { s with session := newSession } =
      (result, { s with session := m, world := w }) := Shared.use_run h
  have hbind : (newSessionWrapper g).run s =
      (⟨((Shared.use (·.begin g)).run { s with session := newSession }).1⟩,
        ((Shared.use (·.begin g)).run { s with session := newSession }).2) := rfl
  rw [hbind, huse]

/-- A begun transaction starts on the published contents. -/
theorem running_of_begin (s : Shared D Ω V X) (hok : g.begin s.world.env = (none, env)) :
    ∃ s', (newSessionWrapper g).run s = (⟨none⟩, s') ∧
      Running s.world s.world.txs.length s.world.committed env s' ∧ s'.funcs = s.funcs := by
  have hrun : (newSession.begin g).run s.world =
      ((none, ⟨some s.world.txs.length, true⟩),
        { s.world with txs := s.world.txs ++ [some s.world.committed], env := env }) := by
    simp only [begin, newSession, Bool.false_eq_true, if_false,
      StateT.run_bind, g.beginTx_run_ok hok]
    rfl
  exact ⟨_, newSessionWrapper_run hrun,
    ⟨rfl, List.getElem?_concat_length, rfl, .of_append rfl rfl rfl⟩, rfl⟩

/-- A transaction that does not begin leaves the session without one. -/
theorem idle_of_begin_failed {x : X} (s : Shared D Ω V X)
    (hfailed : g.begin s.world.env = (some x, env)) :
    ∃ s', (newSessionWrapper g).run s = (⟨some (.driver x)⟩, s') ∧
      Idle s.world s.world.txs.length s' ∧ s'.funcs = s.funcs := by
  have hrun : (newSession.begin g).run s.world =
      ((some (.driver x), ⟨some s.world.txs.length, false⟩),
        { s.world with txs := s.world.txs ++ [none], env := env }) := by
    simp only [begin, newSession, Bool.false_eq_true, if_false,
      StateT.run_bind, g.beginTx_run_failed hfailed]
    rfl
  refine ⟨_, newSessionWrapper_run hrun, ⟨rfl, ?_, .of_append rfl rfl rfl⟩, rfl⟩
  rintro ⟨d, hd⟩
  have hnone : (s.world.txs ++ [none])[s.world.txs.length]? = some none :=
    List.getElem?_concat_length
  cases hnone.symm.trans hd

/-- The first error among that of `Begin`, those of the functions and that of `Commit`. -/
def firstError (g : Driver D Ω V X) (funcs : List (Statements V X)) (w : World D Ω V) :
    Option (DbError X) :=
  match g.begin w.env with
  | (some x, _) => some (.driver x)
  | (none, env) =>
    match applyAll g funcs w.committed env with
    | (some err, _, _) => some err
    | (none, _, env) => (g.commit env).1.map .driver

/-- What the functions of a chain return and make of the published contents. -/
def made (g : Driver D Ω V X) (funcs : List (Statements V X)) (w : World D Ω V) :
    Option (DbError X) × D × Ω :=
  applyAll g funcs w.committed (g.begin w.env).2

/-- The functions that a chain calls: none without a transaction, and otherwise those up to and
including the first that fails. -/
def attempts (g : Driver D Ω V X) (funcs : List (Statements V X)) (w : World D Ω V) :
    List (Statements V X) :=
  match g.begin w.env with
  | (some _, _) => []
  | (none, env) => attempted g funcs w.committed env

/-- No transaction of the chain is left. -/
structure Finished (w : World D Ω V) (s : Shared D Ω V X) : Prop where
  session : s.session = ⟨none, false⟩
  none_open : ∀ id, s.world.IsOpen id → w.IsOpen id

private theorem finished_of_closed (hsession : s.session = ⟨none, false⟩)
    (hclosed : ¬s.world.IsOpen tx) (hothers : ∀ id, id ≠ tx → s.world.txs[id]? = w₀.txs[id]?) :
    Finished w₀ s := by
  refine ⟨hsession, fun id hopen => ?_⟩
  have hid : id ≠ tx := by
    rintro rfl
    exact hclosed hopen
  obtain ⟨d, hd⟩ := hopen
  exact ⟨d, hothers id hid ▸ hd⟩

/-- A chain whose copy has an error returns it and publishes nothing. -/
theorem Idle.commitAndClose (h : Idle w₀ tx s) (err : DbError X) :
    ∃ s', (SessionWrapper.commitAndClose g ⟨some err⟩).run s = (some err, s') ∧ Finished w₀ s' ∧
      s'.world.committed = w₀.committed ∧ s'.funcs = s.funcs := by
  refine ⟨{ s with session := ⟨none, false⟩ }, ?_,
    finished_of_closed rfl h.closed h.apart.others, h.apart.committed, rfl⟩
  have hclose := close_of_idle (g := g) h.session
  exact congrArg (fun out => (some err, out.2)) hclose

/-- The end of a chain without errors is its commit. -/
theorem commitAndClose_of_commit
    (hcommit : (Shared.use (X := X) (·.commit g)).run s = (result, s'))
    (hidle : s'.session.inTrans = false) :
    (SessionWrapper.commitAndClose g ⟨none⟩).run s =
      (result, { s' with session := ⟨none, false⟩ }) := by
  have hclose := close_of_idle (g := g) hidle
  simp only [SessionWrapper.commitAndClose, SessionWrapper.commit, StateT.run_bind, hcommit]
  exact congrArg (fun out => (result, out.2)) hclose

/-- The parts of a chain one after the other. -/
theorem chain_run {funcs : List (ExecuteFunc V X)} {sw sw' : SessionWrapper X}
    {s₁ s₂ : Shared D Ω V X}
    (hnew : (newSessionWrapper g).run s = (sw, s₁))
    (hall : (funcs.foldlM (fun sw call => SessionWrapper.execute g sw call) sw).run s₁ = (sw', s₂))
    (hend : (sw'.commitAndClose g).run s₂ = (result, s')) :
    (chain g funcs).run s = (result, s') := by
  have hrest : (funcs.foldlM (fun sw call => SessionWrapper.execute g sw call) sw >>=
      fun sw => sw.commitAndClose g).run s₁ = (result, s') := by
    rw [StateT.run_bind, hall]
    exact hend
  rw [chain, StateT.run_bind, hnew]
  exact hrest

/-- What is promised about a chain, by its result. -/
structure AllOrNothing (g : Driver D Ω V X) (funcs : List (Statements V X))
    (s s' : Shared D Ω V X) : Prop where
  /-- The functions are called in order up to and including the first that fails. -/
  called : s'.called.map Called.func =
    s.called.map Called.func ++ (attempts g funcs s.world).map Statements.toFunc
  /-- Without an error exactly what they write is published. -/
  published : firstError g funcs s.world = none → s'.world.committed = (made g funcs s.world).2.1
  /-- With one nothing is. -/
  discarded : firstError g funcs s.world ≠ none → s'.world.committed = s.world.committed
  finished : Finished s.world s'

private theorem firstError_eq_none_iff (g : Driver D Ω V X) (funcs : List (Statements V X))
    (w : World D Ω V) :
    firstError g funcs w = none ↔ (g.begin w.env).1 = none ∧ (made g funcs w).1 = none ∧
      (g.commit (made g funcs w).2.2).1 = none := by
  unfold firstError made
  rcases hbegin : g.begin w.env with ⟨_ | x, env⟩
  · rcases hmade : applyAll g funcs w.committed env with ⟨_ | err, d, env'⟩ <;> simp [hmade]
  · simp

/-- A chain that does not begin. -/
theorem chain_of_begin_failed {x : X} (funcs : List (Statements V X))
    (hbegin : g.begin s.world.env = (some x, env)) :
    ∃ s', (chain g (funcs.map Statements.toFunc)).run s = (firstError g funcs s.world, s') ∧
      AllOrNothing g funcs s s' := by
  have herror : firstError g funcs s.world = some (.driver x) := by simp only [firstError, hbegin]
  obtain ⟨s₁, hnew, hidle, hcalled₁⟩ := idle_of_begin_failed s hbegin
  obtain ⟨s', hend, hfinished, hcommitted, hcalled⟩ := hidle.commitAndClose (g := g) (.driver x)
  refine ⟨s', ?_, ?_, fun hok => ?_, fun _ => hcommitted, hfinished⟩
  · rw [herror]
    exact chain_run hnew (executeAll_of_err _ _ s₁) hend
  · refine hcalled.trans (hcalled₁.trans ?_)
    simp only [attempts, hbegin, List.map_nil, List.append_nil]
    rfl
  · cases herror.symm.trans hok

/-- A chain that begins. -/
theorem chain_of_begin_ok (funcs : List (Statements V X))
    (hbegin : g.begin s.world.env = (none, env)) :
    ∃ s', (chain g (funcs.map Statements.toFunc)).run s = (firstError g funcs s.world, s') ∧
      AllOrNothing g funcs s s' := by
  obtain ⟨s₁, hnew, hrunning, hcalled₁⟩ := running_of_begin s hbegin
  obtain ⟨s₂, hall, hcalled₂, hafter⟩ := hrunning.executeAll (g := g) funcs
  have hcalled : s₂.funcs = s.funcs ++ (attempts g funcs s.world).map Statements.toFunc := by
    rw [hcalled₂, hcalled₁, attempts, hbegin]
  rcases hmade : applyAll g funcs s.world.committed env with ⟨_ | err, d, env'⟩
  · simp only [hmade] at hall hafter
    rcases hcommit : g.commit env' with ⟨_ | x, env''⟩
    · have herror : firstError g funcs s.world = none := by
        simp only [firstError, hbegin, hmade, hcommit, Option.map_none]
      obtain ⟨s₃, hend, hsession, hd, hclosed, hothers, hsame⟩ := hafter.commit_ok hcommit
      have hend' := commitAndClose_of_commit hend (by rw [hsession])
      refine ⟨{ s₃ with session := ⟨none, false⟩ }, ?_, ?_, fun _ => ?_,
        fun hne => absurd herror hne, ?_⟩
      · rw [herror]
        exact chain_run hnew hall hend'
      · exact hsame.trans hcalled
      · simp only [made, hbegin, hmade, hd]
      · exact finished_of_closed rfl hclosed hothers
    · have herror : firstError g funcs s.world = some (.driver x) := by
        simp only [firstError, hbegin, hmade, hcommit, Option.map_some]
      obtain ⟨s₃, hend, hidle, hsame⟩ := hafter.commit_failed hcommit
      have hend' := commitAndClose_of_commit hend hidle.session
      refine ⟨{ s₃ with session := ⟨none, false⟩ }, ?_, ?_, fun hok => ?_,
        fun _ => hidle.apart.committed, ?_⟩
      · rw [herror]
        exact chain_run hnew hall hend'
      · exact hsame.trans hcalled
      · cases herror.symm.trans hok
      · exact finished_of_closed rfl hidle.closed hidle.apart.others
  · have herror : firstError g funcs s.world = some err := by
      simp only [firstError, hbegin, hmade]
    simp only [hmade] at hall hafter
    obtain ⟨s', hend, hfinished, hcommitted, hsame⟩ := hafter.commitAndClose (g := g) err
    refine ⟨s', ?_, ?_, fun hok => ?_, fun _ => hcommitted, hfinished⟩
    · rw [herror]
      exact chain_run hnew hall hend
    · exact hsame.trans hcalled
    · cases herror.symm.trans hok

/-- A chain returns the first error of `Begin`, the functions in their order and `Commit`. It calls
the functions up to the first that fails, publishes what they write exactly if there is no error,
and leaves no transaction open. -/
theorem chain_all_or_nothing (g : Driver D Ω V X) (funcs : List (Statements V X))
    (s : Shared D Ω V X) :
    ((chain g (funcs.map Statements.toFunc)).run s).1 = firstError g funcs s.world ∧
      (((chain g (funcs.map Statements.toFunc)).run s).1 = none ↔ (g.begin s.world.env).1 = none ∧
        (made g funcs s.world).1 = none ∧ (g.commit (made g funcs s.world).2.2).1 = none) ∧
      AllOrNothing g funcs s ((chain g (funcs.map Statements.toFunc)).run s).2 := by
  have hchain : ∃ s', (chain g (funcs.map Statements.toFunc)).run s =
      (firstError g funcs s.world, s') ∧
      AllOrNothing g funcs s s' := by
    rcases hbegin : g.begin s.world.env with ⟨_ | x, env⟩
    · exact chain_of_begin_ok funcs hbegin
    · exact chain_of_begin_failed funcs hbegin
  obtain ⟨s', hrun, hpromise⟩ := hchain
  rw [hrun]
  exact ⟨rfl, firstError_eq_none_iff g funcs s.world, hpromise⟩

end Stardust.Databases
