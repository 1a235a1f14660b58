import Mathlib.Logic.Function.Basic

/-!
# Defaults of connection configurations

The managers fill in the defaults of a configuration before they check it. Each default is filled
in by itself, while the check relates the size of the idle pool to the size of the whole pool, so
that a configuration that says only one of the two may come out inconsistent.
-/

namespace Stardust

/-- The loop of a manager over its configurations: defaults, check, connection. It ends with the
panic of the first configuration that fails. -/
def startAll {Config Conn : Type} (setDefaults : Config → Config)
    (validate : Config → Option String) (invalid : Config → String → String)
    (connect : Config → Except String Conn) (name : Config → String) :
    List Config → (String → Option Conn) → Except String (String → Option Conn)
  | [], conns => .ok conns
  | cfg :: cfgs, conns =>
    let cfg := setDefaults cfg
    match validate cfg with
    | some err => .error (invalid cfg err)
    | none =>
      match connect cfg with
      | .error err => .error err
      | .ok conn =>
        startAll setDefaults validate invalid connect name cfgs
          (Function.update conns (name cfg) (some conn))

variable (c : Config)

namespace Databases

/-- The configuration of a database. -/
structure Config where
  name : String
  maxIdle : Int
  maxConn : Int
  master : String
  dbType : String
  deriving DecidableEq, Repr

namespace Config

/-- The first thing wrong with a configuration. -/
def validate : Option String :=
  if c.name = "" then some "database name is required"
  else if c.master = "" then some "master connection string is required"
  else if c.maxIdle < 0 then some "max_idle must be >= 0"
  else if c.maxConn ≤ 0 then some "max_conn must be > 0"
  else if c.maxIdle > c.maxConn then some "max_idle cannot be greater than max_conn"
  else none

/-- Fill in what is not set. -/
def setDefaults : Config :=
  { c with
    maxIdle := if c.maxIdle = 0 then 10 else c.maxIdle
    maxConn := if c.maxConn = 0 then 100 else c.maxConn
    dbType := if c.dbType = "" then "mysql" else c.dbType }

/-- What a configuration has to say by itself: names, and sizes that agree where both are set. -/
structure Consistent (c : Config) : Prop where
  name : c.name ≠ ""
  master : c.master ≠ ""
  maxIdle : 0 ≤ c.maxIdle
  maxConn : 0 ≤ c.maxConn
  le : c.maxIdle ≠ 0 → c.maxConn ≠ 0 → c.maxIdle ≤ c.maxConn

/-- A configuration passes the check exactly when it has its names and ordered sizes. -/
theorem validate_eq_none_iff : c.validate = none ↔
    c.name ≠ "" ∧ c.master ≠ "" ∧ 0 ≤ c.maxIdle ∧ 0 < c.maxConn ∧ c.maxIdle ≤ c.maxConn := by
  unfold validate
  grind

end Config

/-- The manager of the databases, which panics with the first configuration it cannot use. -/
def getDatabaseManager {Conn : Type} (newDBInterface : Config → Except String Conn)
    (managerConfig : List Config) : Except String (String → Option Conn) :=
  if managerConfig = [] then
    .error "DatabaseManager not initialized. Call Init(config) first."
  else
    startAll Config.setDefaults Config.validate (fun _ err => "Invalid database config: " ++ err)
      newDBInterface Config.name managerConfig fun _ => none

end Databases

namespace Mongodb

/-- The configuration of a MongoDB connection. -/
structure Config where
  name : String
  uri : String
  database : String
  maxPool : UInt64
  minPool : UInt64
  timeoutS : Int
  deriving DecidableEq, Repr

namespace Config

/-- Fill in what is not set. -/
def setDefaults : Config :=
  { c with
    maxPool := if c.maxPool = 0 then 10 else c.maxPool
    minPool := if c.minPool = 0 then 2 else c.minPool
    timeoutS := if c.timeoutS = 0 then 5 else c.timeoutS }

/-- The first required field that is missing; the pools are not looked at. -/
def validate : Option String :=
  if c.name = "" then some "mongodb: config name is required"
  else if c.uri = "" then some "mongodb: uri is required"
  else if c.database = "" then some "mongodb: database is required"
  else none

/-- The sizes of the pools agree where both are set. -/
def Consistent : Prop :=
  c.minPool ≠ 0 → c.maxPool ≠ 0 → c.minPool ≤ c.maxPool

end Config

/-- The manager of the MongoDB clients, which panics with the first configuration it cannot use. -/
def newMongoManager {Conn : Type} (newMongoClient : Config → Except String Conn)
    (configs : List Config) : Except String (String → Option Conn) :=
  startAll Config.setDefaults Config.validate
    (fun cfg err => "mongodb: invalid config [" ++ cfg.name ++ "]: " ++ err)
    (fun cfg => (newMongoClient cfg).mapError fun err =>
      "mongodb: connect failed [" ++ cfg.name ++ "]: " ++ err)
    Config.name configs fun _ => none

end Mongodb

/-- The defaults keep a consistent configuration valid unless only one of the two sizes is set,
and on the wrong side of the default of the other. -/
theorem setDefaults_valid_iff {c : Databases.Config} (hc : c.Consistent) {m : Mongodb.Config}
    (hm : m.Consistent) :
    (c.setDefaults.validate = none ↔
        ¬ (c.maxIdle = 0 ∧ 0 < c.maxConn ∧ c.maxConn < 10) ∧
          ¬ (c.maxConn = 0 ∧ 100 < c.maxIdle)) ∧
      (m.setDefaults.minPool ≤ m.setDefaults.maxPool ↔
        ¬ (m.minPool = 0 ∧ m.maxPool = 1) ∧ ¬ (m.maxPool = 0 ∧ 10 < m.minPool)) := by
  constructor
  · obtain ⟨hname, hmaster, hidle, hconn, hle⟩ := hc
    rw [Databases.Config.validate_eq_none_iff]
    simp only [Databases.Config.setDefaults, hname, hmaster, ne_eq, not_false_eq_true, true_and]
    split <;> split <;> omega
  · unfold Mongodb.Config.Consistent at hm
    simp only [Mongodb.Config.setDefaults]
    grind

/-- A database with neither size and a MongoDB with a large pool stay valid. -/
theorem setDefaults_valid_small_and_large :
    (⟨"orders", 0, 0, "tcp(db)/orders", ""⟩ : Databases.Config).setDefaults.validate = none ∧
      (⟨"events", "mongodb://db", "events", 50, 0, 0⟩ : Mongodb.Config).setDefaults.minPool ≤
        (⟨"events", "mongodb://db", "events", 50, 0, 0⟩ : Mongodb.Config).setDefaults.maxPool := by
  have h := setDefaults_valid_iff (c := ⟨"orders", 0, 0, "tcp(db)/orders", ""⟩)
    ⟨by decide, by decide, by decide, by decide, by decide⟩
    (m := ⟨"events", "mongodb://db", "events", 50, 0, 0⟩) fun h => absurd rfl h
  exact ⟨h.1.mpr ⟨by decide, by decide⟩, h.2.mpr ⟨by decide, by decide⟩⟩

/-- Five connections, and no word about idle ones. -/
def fiveConnections : Databases.Config := ⟨"orders", 0, 5, "tcp(db)/orders", ""⟩

/-- One connection, and no word about the least number. -/
def oneConnection : Mongodb.Config := ⟨"events", "mongodb://db", "events", 1, 0, 0⟩

/-- The one keeps its manager from starting; the manager of the other starts, and asks for at least
two connections. -/
theorem setDefaults_breaks_small_pools :
    fiveConnections.Consistent ∧
      Databases.getDatabaseManager (fun _ => .ok ()) [fiveConnections] =
        .error "Invalid database config: max_idle cannot be greater than max_conn" ∧
      oneConnection.Consistent ∧
      (∃ clients, Mongodb.newMongoManager (fun _ => .ok ()) [oneConnection] = .ok clients) ∧
      oneConnection.setDefaults.maxPool < oneConnection.setDefaults.minPool :=
  ⟨⟨by decide, by decide, by decide, by decide, by decide⟩, rfl, fun h => absurd rfl h, ⟨_, rfl⟩,
    by decide⟩

end Stardust
