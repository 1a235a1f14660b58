import Mathlib.Logic.Function.Basic
import Stardust.Core.Utf8

/-!
# Query strings and the maps made from them

`URL.Query` parses the query string anew each time it is called and makes a new map. The maps are
kept in a list, so that it is told which of them an update changes; gin reads from the map that it
made at the first look, which is not one that anybody else has.
-/

namespace Stardust.HttpServer

open Stardust.Core

/-- A map of parameters to their values. -/
abbrev Values := GoString → List GoString

/-- One more value of a key. -/
def Values.add (values : Values) (key value : GoString) : Values :=
  Function.update values key (values key ++ [value])

/-- One pair of a query; a pair with a semicolon or a wrong escape is left out. -/
def parsePair (values : Values) (pair : GoString) : Values :=
  if 0x3b ∈ pair then values
  else if pair = [] then values
  else
    match unescape true (cut 0x3d pair).1, unescape true (cut 0x3d pair).2 with
    | some key, some value => values.add key value
    | _, _ => values

/-- The parameters of a query, pairs between `&`; the error is ignored. -/
def parseQuery (query : GoString) : Values := (query.splitOn 0x26).foldl parsePair fun _ => []

/-- A request in the engine, as far as its query goes. -/
structure Context where
  rawQuery : GoString
  /-- Every map made from the query so far. -/
  maps : List Values
  /-- The map that gin has made for itself. -/
  queryCache : Option Nat

variable (c : Context)

namespace Context

/-- A request as it arrives. -/
def arrived (rawQuery : GoString) : Context := ⟨rawQuery, [], none⟩

/-- `c.Request.URL.Query()`: a new map and its place. -/
def urlQuery : Nat × Context :=
  (c.maps.length, { c with maps := c.maps ++ [parseQuery c.rawQuery] })

/-- `Add` on one of the maps. -/
def add (m : Nat) (key value : GoString) : Context :=
  { c with maps := c.maps.modify m (·.add key value) }

/-- The map that gin has made, or makes now. -/
def initQueryCache : Nat × Context :=
  match c.queryCache with
  | some m => (m, c)
  | none =>
    let (m, c) := c.urlQuery
    (m, { c with queryCache := some m })

/-- The values of a parameter. -/
def getQueryArray (key : GoString) : List GoString × Context :=
  let (m, c) := c.initQueryCache
  ((c.maps[m]?.map (· key)).getD [], c)

/-- The first value of a parameter, empty without one. -/
def query (key : GoString) : GoString × Context :=
  let (values, c) := c.getQueryArray key
  (values.headD [], c)

/-- The map that gin has made is one of those made. -/
def Sound : Prop := ∀ m ∈ c.queryCache, m < c.maps.length

/-- A new context is sound. -/
theorem arrived_sound (rawQuery : GoString) : (arrived rawQuery).Sound := by
  simp [Sound, arrived]

/-- A new context has the values of the query. -/
theorem getQueryArray_arrived (rawQuery key : GoString) :
    ((arrived rawQuery).getQueryArray key).1 = parseQuery rawQuery key := rfl

/-- An addition to a map just made is not seen by anybody else. -/
theorem getQueryArray_add_urlQuery {c : Context} (h : c.Sound) (key value k : GoString) :
    ((c.urlQuery.2.add c.urlQuery.1 key value).getQueryArray k).1 = (c.getQueryArray k).1 := by
  have hold : ∀ m < c.maps.length,
      ((c.maps ++ [parseQuery c.rawQuery]).modify c.maps.length (·.add key value))[m]? =
        c.maps[m]? := by
    intro m hm
    simp only [List.getElem?_modify, Nat.ne_of_gt hm, if_false, List.getElem?_append_left hm]
    exact id_map _
  cases hcache : c.queryCache with
  | some m =>
    have hm : m < c.maps.length := h m hcache
    simp only [getQueryArray, initQueryCache, add, urlQuery, hcache, hold m hm]
  | none =>
    simp [getQueryArray, initQueryCache, add, urlQuery, hcache]

end Context

end Stardust.HttpServer
