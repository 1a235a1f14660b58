import Mathlib.Data.List.Basic

/-!
# The database behind gorm

The driver is a parameter: its answers depend on the contents a statement sees and on
an environment that no rollback restores. A transaction works on its own copy of the
contents, which a successful commit publishes and a rollback discards. It is assumed that
a commit which the driver reports as failed has published nothing. Every statement is
logged with the handle on which it was issued.
-/

namespace Stardust.Databases

/-- Errors by origin. -/
inductive DbError (X : Type) where
  /-- Reported by the driver. -/
  | driver (x : X)
  /-- `gorm.ErrRecordNotFound`. -/
  | recordNotFound
  /-- `sql.ErrTxDone`. -/
  | txDone
  /-- Created by the package with this text. -/
  | message (text : String)
  deriving DecidableEq, Repr

/-- The arguments of one `Where`. -/
inductive Condition (V : Type) where
  | value (query : V) (args : List V)
  | text (query : String) (args : List V)
  deriving DecidableEq, Repr

/-- A `clause.OnConflict`. -/
structure OnConflict where
  /-- The conflict columns, none for any conflict. -/
  columns : List String
  /-- Whether a conflict updates all columns. -/
  updateAll : Bool
  deriving DecidableEq, Repr

/-- The requests that reach the database. -/
inductive Stmt (V : Type) where
  | create (conflict : Option OnConflict) (value : V)
  | createMany (values : List V)
  | updates (model : V) (conditions : List (Condition V)) (values : V)
  | delete (value : V) (conditions : List V)
  | first (dest : V) (conditions : List V)
  | count (model : V) (conditions : List (Condition V))
  | find (model : Option V) (conditions : List (Condition V)) (page : Option (Int × Int))
      (order : Option String) (dest : V)
  | raw (sql : String) (args : List V) (dest : V)
  | call (sql : String) (args : List V)
  deriving DecidableEq, Repr

/-- One result set of a call: its columns, and what scanning each of its rows gives. -/
structure ResultSet (V X : Type) where
  /-- The answer of `Columns`. -/
  columns : Except (DbError X) (List String)
  /-- The answers of `Scan` for the rows that `Next` delivers. -/
  rows : List (Except (DbError X) (List V))

/-- The answer to a statement. -/
structure Reply (V X : Type) where
  /-- The error, if the statement failed. -/
  error : Option (DbError X)
  /-- The rows the statement changed. -/
  rowsAffected : Int
  /-- The number a count query stores. -/
  count : Int
  /-- The first result set of a call. -/
  resultSet : ResultSet V X
  /-- The result sets to which `NextResultSet` advances. -/
  moreResultSets : List (ResultSet V X)

/-- A failed statement has no other answer. -/
def Reply.failed {V X : Type} (error : DbError X) : Reply V X :=
  ⟨some error, 0, 0, ⟨.ok [], []⟩, []⟩

/-- What the driver and reflection answer, for contents `D`, environments `Ω`, interface
values `V` and driver errors `X`. -/
structure Driver (D Ω V X : Type) where
  /-- Execute a statement on the contents it sees. -/
  exec : Ω → D → Stmt V → Reply V X × D × Ω
  /-- The outcome of opening a transaction. -/
  begin : Ω → Option X × Ω
  /-- The outcome of a commit. -/
  commit : Ω → Option X × Ω
  /-- The outcome of a rollback. -/
  rollback : Ω → Option X × Ω
  /-- The error of taking the `sql.DB` from the base connection. -/
  poolError : Option (DbError X)
  /-- Whether a value is a pointer to a slice. -/
  isSlicePtr : V → Bool
  /-- A new instance of the element type of a pointer to a slice. -/
  newElement : V → V
  /-- Byte slices as strings, other values as they are. -/
  bytesToString : V → V

/-- A `gorm.DB`: the base connection or a transaction. -/
inductive Handle where
  | conn
  | tx (id : Nat)
  deriving DecidableEq, Repr

/-- The database and everything issued on it. -/
structure World (D Ω V : Type) where
  /-- The contents visible outside transactions. -/
  committed : D
  /-- The working copy of each transaction, absent once it has ended. -/
  txs : List (Option D)
  /-- What the driver's answers depend on besides the contents. -/
  env : Ω
  /-- The statements in order, with their handles. -/
  issued : List (Handle × Stmt V)
  deriving DecidableEq, Repr

variable {D Ω V X : Type}

/-- The transaction has a working copy. -/
def World.IsOpen (w : World D Ω V) (id : Nat) : Prop := ∃ d, w.txs[id]? = some (some d)

variable {w : World D Ω V} {id : Nat}

namespace Driver

variable (g : Driver D Ω V X)

/-- `Begin` on the base connection: the transaction and its `Error`. -/
def beginTx : StateM (World D Ω V) (Nat × Option (DbError X)) := fun w =>
  match g.begin w.env with
  | (none, env) => ((w.txs.length, none), { w with txs := w.txs ++ [some w.committed], env := env })
  | (some x, env) =>
    ((w.txs.length, some (.driver x)), { w with txs := w.txs ++ [none], env := env })

/-- `Commit` ends an open transaction and publishes its copy. By assumption nothing is published
when the driver fails. -/
def commitTx (id : Nat) : StateM (World D Ω V) (Option (DbError X)) := fun w =>
  match w.txs[id]? with
  | some (some d) =>
    match g.commit w.env with
    | (none, env) => (none, { w with committed := d, txs := w.txs.set id none, env := env })
    | (some x, env) => (some (.driver x), { w with txs := w.txs.set id none, env := env })
  | _ => (some .txDone, w)

/-- `Rollback` ends an open transaction and discards its copy, whatever the driver answers. -/
def rollbackTx (id : Nat) : StateM (World D Ω V) (Option (DbError X)) := fun w =>
  match w.txs[id]? with
  | some (some _) =>
    match g.rollback w.env with
    | (err, env) => (err.map .driver, { w with txs := w.txs.set id none, env := env })
  | _ => (some .txDone, w)

/-- Issue a statement on a handle. -/
def issue (handle : Handle) (stmt : Stmt V) : StateM (World D Ω V) (Reply V X) := fun w =>
  let w := { w with issued := w.issued ++ [(handle, stmt)] }
  match handle with
  | .conn =>
    match g.exec w.env w.committed stmt with
    | (reply, d, env) => (reply, { w with committed := d, env := env })
  | .tx id =>
    match w.txs[id]? with
    | some (some d) =>
      match g.exec w.env d stmt with
      | (reply, d, env) => (reply, { w with txs := w.txs.set id (some d), env := env })
    | _ => (.failed .txDone, w)

/-- A transaction that the driver opens. -/
theorem beginTx_run_ok {env : Ω} (hok : g.begin w.env = (none, env)) :
    g.beginTx.run w =
      ((w.txs.length, none), { w with txs := w.txs ++ [some w.committed], env := env }) := by
  change g.beginTx w = _
  simp only [beginTx, hok]

/-- A transaction that the driver does not open. -/
theorem beginTx_run_failed {x : X} {env : Ω} (hfailed : g.begin w.env = (some x, env)) :
    g.beginTx.run w =
      ((w.txs.length, some (.driver x)), { w with txs := w.txs ++ [none], env := env }) := by
  change g.beginTx w = _
  simp only [beginTx, hfailed]

/-- A commit of an open transaction to which the driver agrees. -/
theorem commitTx_run_ok {d : D} {env : Ω} (h : w.txs[id]? = some (some d))
    (hok : g.commit w.env = (none, env)) :
    (g.commitTx id).run w =
      (none, { w with committed := d, txs := w.txs.set id none, env := env }) := by
  change g.commitTx id w = _
  simp only [commitTx, h, hok]

/-- A commit of an open transaction that the driver refuses. -/
theorem commitTx_run_failed {d : D} {x : X} {env : Ω} (h : w.txs[id]? = some (some d))
    (hfailed : g.commit w.env = (some x, env)) :
    (g.commitTx id).run w =
      (some (.driver x), { w with txs := w.txs.set id none, env := env }) := by
  change g.commitTx id w = _
  simp only [commitTx, h, hfailed]

/-- A rollback of an open transaction. -/
theorem rollbackTx_run {d : D} (h : w.txs[id]? = some (some d)) :
    (g.rollbackTx id).run w = ((g.rollback w.env).1.map .driver,
      { w with txs := w.txs.set id none, env := (g.rollback w.env).2 }) := by
  change g.rollbackTx id w = _
  simp only [rollbackTx, h]

/-- A begun transaction gets the next number, whether or not it opens. -/
theorem beginTx_id (w : World D Ω V) : (g.beginTx.run w).1.1 = w.txs.length := by
  change (g.beginTx w).1.1 = _
  unfold beginTx
  split <;> rfl

/-- Opening a transaction leaves the contents and the log alone. -/
theorem beginTx_frame (w : World D Ω V) :
    (g.beginTx.run w).2.committed = w.committed ∧ (g.beginTx.run w).2.issued = w.issued := by
  change (g.beginTx w).2.committed = _ ∧ (g.beginTx w).2.issued = _
  unfold beginTx
  split <;> exact ⟨rfl, rfl⟩

/-- A transaction begun without error is open. -/
theorem beginTx_ok (h : (g.beginTx.run w).1.2 = none) :
    (g.beginTx.run w).2.IsOpen w.txs.length := by
  change (g.beginTx w).1.2 = none at h
  change (g.beginTx w).2.IsOpen _
  unfold beginTx at h ⊢
  split at h
  · exact ⟨w.committed, by simp⟩
  · cases h

private theorem not_isOpen_set (d : D) (env : Ω) :
    ¬ World.IsOpen { w with committed := d, txs := w.txs.set id none, env := env } id := by
  rintro ⟨d, hd⟩
  simp only [List.getElem?_set, ite_true] at hd
  split at hd <;> cases hd

/-- No transaction survives its commit, successful or not. -/
theorem commitTx_closes (id : Nat) (w : World D Ω V) :
    ¬ ((g.commitTx id).run w).2.IsOpen id := by
  change ¬ (g.commitTx id w).2.IsOpen id
  unfold commitTx
  split
  · split <;> exact not_isOpen_set _ _
  · rename_i hclosed
    rintro ⟨d, hd⟩
    exact hclosed d hd

/-- A commit without error has published the working copy. -/
theorem commitTx_ok (h : ((g.commitTx id).run w).1 = none) :
    w.txs[id]? = some (some ((g.commitTx id).run w).2.committed) := by
  change (g.commitTx id w).1 = none at h
  change _ = some (some (g.commitTx id w).2.committed)
  unfold commitTx at h ⊢
  split at h
  · rename_i d hd
    split at h
    · rename_i env henv
      simp only [hd]
    · cases h
  · cases h

/-- A commit issues no statement. -/
theorem commitTx_issued (id : Nat) (w : World D Ω V) :
    ((g.commitTx id).run w).2.issued = w.issued := by
  change (g.commitTx id w).2.issued = _
  unfold commitTx
  split
  · split <;> rfl
  · rfl

/-- No transaction survives its rollback, successful or not. -/
theorem rollbackTx_closes (id : Nat) (w : World D Ω V) :
    ¬ ((g.rollbackTx id).run w).2.IsOpen id := by
  change ¬ (g.rollbackTx id w).2.IsOpen id
  unfold rollbackTx
  split
  · exact not_isOpen_set _ _
  · rename_i hclosed
    rintro ⟨d, hd⟩
    exact hclosed d hd

/-- A rollback publishes nothing. -/
theorem rollbackTx_frame (id : Nat) (w : World D Ω V) :
    ((g.rollbackTx id).run w).2.committed = w.committed ∧
      ((g.rollbackTx id).run w).2.issued = w.issued := by
  change (g.rollbackTx id w).2.committed = _ ∧ (g.rollbackTx id w).2.issued = _
  unfold rollbackTx
  split <;> exact ⟨rfl, rfl⟩

/-- A rollback without error found its transaction open. -/
theorem rollbackTx_ok (h : ((g.rollbackTx id).run w).1 = none) : w.IsOpen id := by
  change (g.rollbackTx id w).1 = none at h
  unfold rollbackTx at h
  split at h
  · rename_i d hd
    exact ⟨d, hd⟩
  · cases h

/-- A statement is logged once, under its own handle. -/
theorem issue_issued (handle : Handle) (stmt : Stmt V) (w : World D Ω V) :
    ((g.issue handle stmt).run w).2.issued = w.issued ++ [(handle, stmt)] := by
  change (g.issue handle stmt w).2.issued = _
  unfold issue
  cases handle with
  | conn => rfl
  | tx id =>
    dsimp only
    split <;> rfl

/-- A statement on a transaction never touches the published contents. -/
theorem issue_tx_committed (id : Nat) (stmt : Stmt V) (w : World D Ω V) :
    ((g.issue (.tx id) stmt).run w).2.committed = w.committed := by
  change (g.issue (.tx id) stmt w).2.committed = _
  unfold issue
  dsimp only
  split <;> rfl

/-- A statement begins and forgets no transaction. -/
theorem issue_txs_length (handle : Handle) (stmt : Stmt V) (w : World D Ω V) :
    ((g.issue handle stmt).run w).2.txs.length = w.txs.length := by
  change (g.issue handle stmt w).2.txs.length = _
  unfold issue
  cases handle with
  | conn => rfl
  | tx id =>
    dsimp only
    split
    · exact List.length_set
    · rfl

/-- Neither does a commit. -/
theorem commitTx_txs_length (id : Nat) (w : World D Ω V) :
    ((g.commitTx id).run w).2.txs.length = w.txs.length := by
  change (g.commitTx id w).2.txs.length = _
  unfold commitTx
  split
  · split <;> exact List.length_set
  · rfl

/-- Nor a rollback. -/
theorem rollbackTx_txs_length (id : Nat) (w : World D Ω V) :
    ((g.rollbackTx id).run w).2.txs.length = w.txs.length := by
  change (g.rollbackTx id w).2.txs.length = _
  unfold rollbackTx
  split
  · exact List.length_set
  · rfl

end Driver

/-- A driver that never fails and whose contents count the statements. -/
def countingDriver : Driver Nat Unit Unit Unit where
  exec _ d _ := (⟨none, 1, 0, ⟨.ok [], []⟩, []⟩, d + 1, ())
  begin _ := (none, ())
  commit _ := (none, ())
  rollback _ := (none, ())
  poolError := none
  isSlicePtr _ := true
  newElement v := v
  bytesToString v := v

end Stardust.Databases
