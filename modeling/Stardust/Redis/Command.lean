import Stardust.Core.Client
import Mathlib.Data.Rat.Defs

/-!
# Redis commands

The commands that the view sends, each with the type of its reply, and the keys that each one
reads and writes. Numbers that the source keeps as `float64` are rationals, and byte slices and
the strings of replies are lists of bytes.
-/

namespace Stardust.Redis

/-- A byte slice. -/
abbrev Bytes := List UInt8

/-- A value of a reply whose type is not known. -/
inductive Interface where
  | nil
  | string (s : Bytes)
  | bytes (b : Bytes)
  deriving DecidableEq, Repr

/-- A member of a sorted set with its score. -/
structure ZMember where
  score : ℚ
  member : Bytes
  deriving DecidableEq, Repr

/-- A range by score or by name, with its limits as texts. -/
structure ZRangeBy where
  min : String
  max : String
  /-- How many members to skip. -/
  offset : Int
  count : Int
  deriving DecidableEq, Repr

/-- A place with a name. -/
structure GeoLocation where
  name : String
  longitude : ℚ
  latitude : ℚ
  /-- Its distance in the answer to a query. -/
  dist : ℚ
  /-- Its hash in the answer to a query. -/
  geoHash : Int
  deriving DecidableEq, Repr

/-- A place. -/
structure Location where
  longitude : ℚ
  latitude : ℚ
  deriving DecidableEq, Repr

/-- A query for the places around another. -/
structure GeoRadiusQuery where
  radius : ℚ
  unit : String
  /-- Return the places. -/
  withCoord : Bool
  /-- Return the distances. -/
  withDist : Bool
  /-- Return the hashes. -/
  withGeoHash : Bool
  count : Int
  /-- In which order. -/
  sort : String
  /-- A key to store the result under, refused by the client. -/
  store : String
  /-- A key to store the distances under, refused by the client. -/
  storeDist : String
  deriving DecidableEq, Repr

/-- The commands by the type of their replies. Expirations are in nanoseconds. -/
inductive Command : Type → Type where
  | setNX (key : String) (value : Bytes) (expiration : Int) : Command Bool
  | get (key : String) : Command Bytes
  | set (key : String) (value : Bytes) (expiration : Int) : Command Unit
  | del (keys : List String) : Command Int
  | expire (key : String) (expiration : Int) : Command Bool
  | existing (keys : List String) : Command Int
  | hSetNX (key field : String) (value : Bytes) : Command Bool
  | hSet (key field : String) (value : Bytes) : Command Int
  | hMSet (key : String) (values : List (String × Bytes)) : Command Bool
  | hGet (key field : String) : Command Bytes
  | hMGet (key : String) (fields : List String) : Command (List Interface)
  | hGetAll (key : String) : Command (List (String × Bytes))
  | hDel (key : String) (fields : List String) : Command Int
  | hLen (key : String) : Command Int
  | hKeys (key : String) : Command (List String)
  | hVals (key : String) : Command (List Bytes)
  | hExists (key field : String) : Command Bool
  | lRem (key : String) (count : Int) (value : Bytes) : Command Int
  | lIndex (key : String) (index : Int) : Command Bytes
  | lTrim (key : String) (start stop : Int) : Command String
  | lSet (key : String) (index : Int) (value : Bytes) : Command String
  | lPush (key : String) (values : List Bytes) : Command Int
  | rPush (key : String) (values : List Bytes) : Command Int
  | lPop (key : String) : Command Bytes
  | rPop (key : String) : Command Bytes
  | lRange (key : String) (start stop : Int) : Command (List Bytes)
  | lLen (key : String) : Command Int
  | lInsert (key op : String) (pivot value : Bytes) : Command Int
  | sCard (key : String) : Command Int
  | sAdd (key : String) (values : List Bytes) : Command Int
  | sRem (key : String) (values : List Bytes) : Command Int
  | sPop (key : String) : Command Bytes
  | sPopN (key : String) (count : Int) : Command (List Bytes)
  | sDiff (keys : List String) : Command (List Bytes)
  | sDiffStore (destination : String) (keys : List String) : Command Int
  | sInter (keys : List String) : Command (List Bytes)
  | sInterStore (destination : String) (keys : List String) : Command Int
  | sUnion (keys : List String) : Command (List Bytes)
  | sUnionStore (destination : String) (keys : List String) : Command Int
  | zCard (key : String) : Command Int
  | zCount (key min max : String) : Command Int
  | zAdd (key : String) (members : List ZMember) : Command Int
  | zRem (key : String) (members : List Bytes) : Command Int
  | zRemRangeByLex (key min max : String) : Command Int
  | zRemRangeByScore (key min max : String) : Command Int
  | zRemRangeByRank (key : String) (start stop : Int) : Command Int
  | zRange (key : String) (start stop : Int) : Command (List Bytes)
  | zRangeWithScores (key : String) (start stop : Int) : Command (List ZMember)
  | zRevRange (key : String) (start stop : Int) : Command (List Bytes)
  | zRevRangeWithScores (key : String) (start stop : Int) : Command (List ZMember)
  | zRangeByScore (key : String) (rangeBy : ZRangeBy) : Command (List Bytes)
  | zRangeByScoreWithScores (key : String) (rangeBy : ZRangeBy) : Command (List ZMember)
  | zRevRangeByScore (key : String) (rangeBy : ZRangeBy) : Command (List Bytes)
  | zRevRangeByScoreWithScores (key : String) (rangeBy : ZRangeBy) : Command (List ZMember)
  | zRangeByLex (key : String) (rangeBy : ZRangeBy) : Command (List Bytes)
  | zRevRangeByLex (key : String) (rangeBy : ZRangeBy) : Command (List Bytes)
  | zRank (key : String) (member : Bytes) : Command Int
  | zRevRank (key : String) (member : Bytes) : Command Int
  | zIncrBy (key : String) (increment : ℚ) (member : Bytes) : Command ℚ
  | zAddArgsIncr (key : String) (nx : Bool) (members : List ZMember) : Command ℚ
  | zInterStore (destination : String) (keys : List String) (weights : List ℚ)
      (aggregate : String) : Command Int
  | zUnionStore (destination : String) (keys : List String) (weights : List ℚ)
      (aggregate : String) : Command Int
  | geoAdd (key : String) (locations : List GeoLocation) : Command Int
  | geoRadius (key : String) (longitude latitude : ℚ) (query : GeoRadiusQuery) :
      Command (List GeoLocation)
  | geoRadiusByMember (key member : String) (query : GeoRadiusQuery) : Command (List GeoLocation)
  | geoDist (key member1 member2 unit : String) : Command ℚ
  | geoHash (key : String) (members : List String) : Command (List String)
  | geoPos (key : String) (members : List String) : Command (List (Option Location))

/-- A key and whether it is written. -/
structure Access where
  /-- The key as the server sees it. -/
  key : String
  /-- The command may change the key. -/
  write : Bool
  deriving DecidableEq, Repr

namespace Command

/-- One key that is read. -/
def reads (key : String) : List Access := [⟨key, false⟩]

/-- One key that is written. -/
def writes (key : String) : List Access := [⟨key, true⟩]

/-- A result of other keys that is written under a destination. -/
def stores (destination : String) (keys : List String) : List Access :=
  ⟨destination, true⟩ :: keys.map (⟨·, false⟩)

/-- The keys that a command reads and writes. -/
def accesses : {β : Type} → Command β → List Access
  | _, .setNX key _ _ => writes key
  | _, .get key => reads key
  | _, .set key _ _ => writes key
  | _, .del keys => keys.map (⟨·, true⟩)
  | _, .expire key _ => writes key
  | _, .existing keys => keys.map (⟨·, false⟩)
  | _, .hSetNX key _ _ => writes key
  | _, .hSet key _ _ => writes key
  | _, .hMSet key _ => writes key
  | _, .hGet key _ => reads key
  | _, .hMGet key _ => reads key
  | _, .hGetAll key => reads key
  | _, .hDel key _ => writes key
  | _, .hLen key => reads key
  | _, .hKeys key => reads key
  | _, .hVals key => reads key
  | _, .hExists key _ => reads key
  | _, .lRem key _ _ => writes key
  | _, .lIndex key _ => reads key
  | _, .lTrim key _ _ => writes key
  | _, .lSet key _ _ => writes key
  | _, .lPush key _ => writes key
  | _, .rPush key _ => writes key
  | _, .lPop key => writes key
  | _, .rPop key => writes key
  | _, .lRange key _ _ => reads key
  | _, .lLen key => reads key
  | _, .lInsert key _ _ _ => writes key
  | _, .sCard key => reads key
  | _, .sAdd key _ => writes key
  | _, .sRem key _ => writes key
  | _, .sPop key => writes key
  | _, .sPopN key _ => writes key
  | _, .sDiff keys => keys.map (⟨·, false⟩)
  | _, .sDiffStore destination keys => stores destination keys
  | _, .sInter keys => keys.map (⟨·, false⟩)
  | _, .sInterStore destination keys => stores destination keys
  | _, .sUnion keys => keys.map (⟨·, false⟩)
  | _, .sUnionStore destination keys => stores destination keys
  | _, .zCard key => reads key
  | _, .zCount key _ _ => reads key
  | _, .zAdd key _ => writes key
  | _, .zRem key _ => writes key
  | _, .zRemRangeByLex key _ _ => writes key
  | _, .zRemRangeByScore key _ _ => writes key
  | _, .zRemRangeByRank key _ _ => writes key
  | _, .zRange key _ _ => reads key
  | _, .zRangeWithScores key _ _ => reads key
  | _, .zRevRange key _ _ => reads key
  | _, .zRevRangeWithScores key _ _ => reads key
  | _, .zRangeByScore key _ => reads key
  | _, .zRangeByScoreWithScores key _ => reads key
  | _, .zRevRangeByScore key _ => reads key
  | _, .zRevRangeByScoreWithScores key _ => reads key
  | _, .zRangeByLex key _ => reads key
  | _, .zRevRangeByLex key _ => reads key
  | _, .zRank key _ => reads key
  | _, .zRevRank key _ => reads key
  | _, .zIncrBy key _ _ => writes key
  | _, .zAddArgsIncr key _ _ => writes key
  | _, .zInterStore destination keys _ _ => stores destination keys
  | _, .zUnionStore destination keys _ _ => stores destination keys
  | _, .geoAdd key _ => writes key
  | _, .geoRadius key _ _ _ => reads key
  | _, .geoRadiusByMember key _ _ => reads key
  | _, .geoDist key _ _ _ => reads key
  | _, .geoHash key _ => reads key
  | _, .geoPos key _ => reads key

end Command

end Stardust.Redis
