import Stardust.Databases.Gorm

/-!
# The data access object

Every operation picks its handle on its own. `OrmBaseDao.db` is the open transaction
inside a session and the base connection outside, and the procedure call is the only
operation here that does not ask it.
-/

namespace Stardust.Databases

variable {D Ω V X : Type}

/-- The fields of an `OrmBaseDao`, whose `conn` is the base connection. -/
structure OrmBaseDao where
  /-- The transaction of the last `Begin`, failed or not. -/
  tx : Option Nat
  /-- Whether a transaction is in progress. -/
  inTrans : Bool
  deriving DecidableEq, Repr

/-- A page and its order. -/
structure Pageable where
  /-- The records to skip. -/
  skip : Int
  /-- The most records to return. -/
  limit : Int
  /-- The order, empty for none. -/
  sort : String
  deriving DecidableEq, Repr

namespace OrmBaseDao

/-- The handle of `DB`. -/
def db (m : OrmBaseDao) : Handle :=
  match m.inTrans, m.tx with
  | true, some tx => .tx tx
  | _, _ => .conn

/-- A session starts outside any transaction. -/
def newSession : OrmBaseDao := ⟨none, false⟩

section Operations

variable (g : Driver D Ω V X) (m : OrmBaseDao)

/-- Start a transaction unless one is in progress. -/
def begin : StateM (World D Ω V) (Option (DbError X) × OrmBaseDao) := do
  if m.inTrans then
    return (some (.message "transaction already started"), m)
  let (tx, err) ← g.beginTx
  if let some err := err then
    return (some err, { m with tx := some tx })
  return (none, { m with tx := some tx, inTrans := true })

/-- Roll the transaction in progress back. -/
def rollback : StateM (World D Ω V) (Option (DbError X) × OrmBaseDao) := do
  match m.inTrans, m.tx with
  | true, some tx =>
    let err ← g.rollbackTx tx
    return (err, { m with tx := none, inTrans := false })
  | _, _ => return (some (.message "no active transaction"), m)

/-- Commit the transaction in progress; it is over whatever the database answers. -/
def commit : StateM (World D Ω V) (Option (DbError X) × OrmBaseDao) := do
  match m.inTrans, m.tx with
  | true, some tx =>
    let err ← g.commitTx tx
    return (err, { m with tx := none, inTrans := false })
  | _, _ => return (some (.message "no active transaction"), m)

/-- Give the transaction up, rolling it back if it is in progress. -/
def close : StateM (World D Ω V) OrmBaseDao := do
  match m.inTrans, m.tx with
  | true, some tx => discard (g.rollbackTx tx)
  | _, _ => pure ()
  return { m with inTrans := false, tx := none }

/-- The rows a writing statement changed, or its error. -/
def affected (stmt : Stmt V) : StateM (World D Ω V) (Int × Option (DbError X)) := do
  let result ← g.issue m.db stmt
  if let some err := result.error then
    return (0, some err)
  return (result.rowsAffected, none)

/-- Create one entry. -/
def insertOne (entry : V) : StateM (World D Ω V) (Int × Option (DbError X)) :=
  m.affected g (.create none entry)

/-- Create several entries in one statement, and nothing without entries. -/
def insertMany (entries : List V) : StateM (World D Ω V) (Int × Option (DbError X)) := do
  if entries.length = 0 then
    return (0, none)
  m.affected g (.createMany entries)

variable (bean : V)

/-- Update under the given conditions: a query with its arguments, or none. -/
def update (conditions : List V) : StateM (World D Ω V) (Int × Option (DbError X)) :=
  match conditions with
  | [] => m.affected g (.updates bean [] bean)
  | query :: args => m.affected g (.updates bean [.value query args] bean)

/-- Update the record with the given identifier. -/
def updateById (id bean : V) : StateM (World D Ω V) (Int × Option (DbError X)) :=
  m.affected g (.updates bean [.text "id = ?" [id]] bean)

/-- Insert, or update all columns on any conflict. -/
def upsert : StateM (World D Ω V) (Int × Option (DbError X)) :=
  m.affected g (.create (some ⟨[], true⟩) bean)

/-- The identifier is not used: the bean carries it. -/
def upsertById (_id bean : V) : StateM (World D Ω V) (Int × Option (DbError X)) :=
  m.affected g (.create (some ⟨["id"], true⟩) bean)

/-- Upsert one bean after the other up to the first error. -/
def upsertMany : List V → Int → StateM (World D Ω V) (Int × Option (DbError X))
  | [], totalAffected => return (totalAffected, none)
  | bean :: beans, totalAffected => do
    let (affected, err) ← m.upsert g bean
    if let some err := err then
      return (totalAffected, some err)
    upsertMany beans (totalAffected + affected)

/-- Delete by the key of the bean. -/
def delete : StateM (World D Ω V) (Int × Option (DbError X)) :=
  m.affected g (.delete bean [])

/-- Delete by identifier. -/
def deleteById (id bean : V) : StateM (World D Ω V) (Int × Option (DbError X)) :=
  m.affected g (.delete bean [id])

/-- Run a query text. -/
def query (rowsSlicePtr : V) (sql : String) (args : List V) :
    StateM (World D Ω V) (Option (DbError X)) := do
  let result ← g.issue m.db (.raw sql args rowsSlicePtr)
  return result.error

/-- Whether `First` finds a record; a missing one is not an error. -/
def firstFound (conditions : List V) :
    StateM (World D Ω V) (Bool × Option (DbError X)) := do
  let result ← g.issue m.db (.first bean conditions)
  match result.error with
  | some .recordNotFound => return (false, none)
  | some err => return (false, some err)
  | none => return (true, none)

/-- Find a record by identifier. -/
def findById (id bean : V) : StateM (World D Ω V) (Bool × Option (DbError X)) :=
  m.firstFound g bean [id]

/-- Find a record like the bean. -/
def findOne : StateM (World D Ω V) (Bool × Option (DbError X)) :=
  m.firstFound g bean [bean]

/-- Count the records of the table of the bean. -/
def count : StateM (World D Ω V) (Int × Option (DbError X)) := do
  let result ← g.issue m.db (.count bean [])
  return (result.count, result.error)

/-- Whether the count is positive. -/
def exists_ : StateM (World D Ω V) (Bool × Option (DbError X)) := do
  let (count, err) ← m.count g bean
  if let some err := err then
    return (false, some err)
  return (decide (count > 0), none)

/-- Only the first condition of a list is used. -/
def firstCondition (condiBean : List V) : List (Condition V) :=
  (condiBean.take 1).map fun bean => .value bean []

/-- An empty order is no order. -/
def orderOf (sort : String) : Option String := if sort = "" then none else some sort

/-- Find all records under the first condition. -/
def findMany (rowsSlicePtr : V) (sort : String) (condiBean : List V) :
    StateM (World D Ω V) (Option (DbError X)) := do
  let result ← g.issue m.db
    (.find none (firstCondition condiBean) none (orderOf sort) rowsSlicePtr)
  return result.error

/-- Count all matching records and find one page of them. -/
def findAndCount (rowsSlicePtr : V) (pageable : Pageable) (condiBean : List V) :
    StateM (World D Ω V) (Int × Option (DbError X)) := do
  if g.isSlicePtr rowsSlicePtr = false then
    return (0, some (.message "rowsSlicePtr must be a pointer to slice"))
  let modelInstance := g.newElement rowsSlicePtr
  let counted ← g.issue m.db (.count modelInstance (firstCondition condiBean))
  if let some err := counted.error then
    return (0, some err)
  let found ← g.issue m.db (.find (some modelInstance) (firstCondition condiBean)
    (some (pageable.skip, pageable.limit)) (orderOf pageable.sort) rowsSlicePtr)
  return (counted.count, found.error)

/-- The names that `CallProcedure` accepts. -/
def validProcName (procName : String) : Bool :=
  procName.toList.all fun c => ('a' ≤ c && c ≤ 'z') || ('A' ≤ c && c ≤ 'Z') ||
    ('0' ≤ c && c ≤ '9') || c == '_' || c == '.'

/-- One question mark for each argument. -/
def placeholders (args : List V) : String :=
  (List.range args.length).foldl (fun acc i => (if i > 0 then acc ++ ", " else acc) ++ "?") ""

/-- The statement that calls a procedure. -/
def procedureCall (procName : String) (args : List V) : Stmt V :=
  .call ("CALL " ++ procName ++ "(" ++ placeholders args ++ ")") args

/-- A row by column name, a later column of one name winning. -/
def rowMap (columns : List String) (values : List V) : String → Option V :=
  (columns.zip values).foldl
    (fun row (col, val) => Function.update row col (some (g.bytesToString val))) fun _ => none

/-- The rows of one result set up to the first error. -/
def readResultSet (set : ResultSet V X) : Except (DbError X) (List (String → Option V)) := do
  let columns ← set.columns
  set.rows.mapM fun row => rowMap g columns <$> row

/-- Call a stored procedure on the pool of the base connection, in a transaction or not. -/
def callProcedure (procName : String) (args : List V) :
    StateM (World D Ω V) (Except (DbError X) (List (List (String → Option V)))) := do
  if validProcName procName = false then
    return .error (.message ("invalid procedure name: " ++ procName))
  if let some err := g.poolError then
    return .error err
  let rows ← g.issue .conn (procedureCall procName args)
  if let some err := rows.error then
    return .error err
  return (rows.resultSet :: rows.moreResultSets).mapM (readResultSet g)

end Operations

end OrmBaseDao

/-- The data operations of the `Dao` interface. -/
inductive Op (V : Type) where
  | insertOne (entry : V)
  | insertMany (entries : List V)
  | update (bean : V) (conditions : List V)
  | updateById (id bean : V)
  | upsert (bean : V)
  | upsertById (id bean : V)
  | upsertMany (beans : List V)
  | delete (bean : V)
  | deleteById (id bean : V)
  | query (rowsSlicePtr : V) (sql : String) (args : List V)
  | findById (id bean : V)
  | findOne (bean : V)
  | findMany (rowsSlicePtr : V) (sort : String) (condiBean : List V)
  | findAndCount (rowsSlicePtr : V) (pageable : Pageable) (condiBean : List V)
  | count (bean : V)
  | exists_ (bean : V)
  | callProcedure (procName : String) (args : List V)
  deriving DecidableEq, Repr

/-- Call one operation and drop its results. -/
def OrmBaseDao.perform (g : Driver D Ω V X) (m : OrmBaseDao) : Op V → StateM (World D Ω V) Unit
  | .insertOne entry => discard (m.insertOne g entry)
  | .insertMany entries => discard (m.insertMany g entries)
  | .update bean conditions => discard (m.update g bean conditions)
  | .updateById id bean => discard (m.updateById g id bean)
  | .upsert bean => discard (m.upsert g bean)
  | .upsertById id bean => discard (m.upsertById g id bean)
  | .upsertMany beans => discard (m.upsertMany g beans 0)
  | .delete bean => discard (m.delete g bean)
  | .deleteById id bean => discard (m.deleteById g id bean)
  | .query rowsSlicePtr sql args => discard (m.query g rowsSlicePtr sql args)
  | .findById id bean => discard (m.findById g id bean)
  | .findOne bean => discard (m.findOne g bean)
  | .findMany rowsSlicePtr sort condiBean => discard (m.findMany g rowsSlicePtr sort condiBean)
  | .findAndCount rowsSlicePtr pageable condiBean =>
    discard (m.findAndCount g rowsSlicePtr pageable condiBean)
  | .count bean => discard (m.count g bean)
  | .exists_ bean => discard (m.exists_ g bean)
  | .callProcedure procName args => discard (OrmBaseDao.callProcedure g procName args)

/-- Call the operations in order. -/
def OrmBaseDao.performAll (g : Driver D Ω V X) (m : OrmBaseDao) :
    List (Op V) → StateM (World D Ω V) Unit
  | [] => pure ()
  | op :: ops => do
    m.perform g op
    m.performAll g ops

end Stardust.Databases
