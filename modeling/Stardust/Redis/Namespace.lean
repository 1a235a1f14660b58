import Stardust.Redis.View

/-!
# The namespace of a view

The operations that take keys, as one type. An operation keeps to the namespace of its view when
every key that its commands read or write, whatever the server answers, is the expansion of a key
of the caller, and what a merge stores is under the expansion of its destination. All operations
but eight do; each of the eight fails with every argument.
-/

namespace Stardust.Redis

open Stardust.Core Client RedisView

/-- The operations on keys with their arguments. -/
inductive Op where
  | setNX (key : String) (value : Bytes) (duration : String)
  | get (key : String)
  | set (key : String) (value : Bytes) (duration : String)
  | del (keys : List String)
  | expire (key duration : String)
  | exists' (key : String)
  | hSetNX (key field : String) (value : Bytes)
  | hSet (key field : String) (value : Bytes)
  | hMSet (key : String) (values : Option (List (String × Bytes)))
  | hGet (key field : String)
  | hMGet (key : String) (fields : List String)
  | hGetAll (key : String)
  | hDel (key : String) (fields : List String)
  | hLen (key : String)
  | hKeys (key : String)
  | hValues (key : String)
  | hExists (key field : String)
  | lRem (key : String) (count : Int) (value : Bytes)
  | lIndex (key : String) (index : Int)
  | lTrim (key : String) (start stop : Int)
  | lSet (key : String) (index : Int) (value : Bytes)
  | lPush (key : String) (values : List Bytes)
  | lAppend (key : String) (values : List Bytes)
  | lPop (key : String)
  | lRPop (key : String)
  | lRange (key : String) (start stop : Int)
  | lLen (key : String)
  | lInsert (key : String) (op : Int) (pivot value : Bytes)
  | sLen (key : String)
  | sAdd (key : String) (values : List Bytes)
  | sRem (key : String) (values : List Bytes)
  | sPop (key : String)
  | sPopN (key : String) (count : Int)
  | sDiff (keys : List String)
  | sDiffMerge (destination : String) (keys : List String)
  | sInter (keys : List String)
  | sInterMerge (destination : String) (keys : List String)
  | sUnion (keys : List String)
  | sUnionMerge (destination : String) (keys : List String)
  | zLen (key : String)
  | zCount (key : String) (min max : ℚ)
  | zLexCount (key min max : String)
  | zAdd (key : String) (members : List ZMember)
  | zRem (key : String) (members : List ZMember)
  | zRemRangeByLex (key min max : String)
  | zRemRangeByScore (key : String) (min max : ℚ)
  | zRemRangeByRank (key : String) (start stop : Int)
  | zRange (key : String) (start stop : Int) (reverse withScores : Bool)
  | zRangeByScore (key : String) (rangeBy : ZRangeBy) (reverse withScores : Bool)
  | zRangeByLex (key : String) (rangeBy : ZRangeBy) (reverse : Bool)
  | zRank (key : String) (member : Bytes) (reverse : Bool)
  | zIncr (key : String) (member : ZMember)
  | zIncrNX (key : String) (member : ZMember)
  | zInterMerge (destination : String) (keys : List String) (wights : List ℚ) (aggregate : String)
  | zUnionMerge (destination : String) (keys : List String) (wights : List ℚ) (aggregate : String)
  | geoAdd (key : String) (geoLocation : List GeoLocation)
  | geoRadius (key : String) (longitude latitude : ℚ) (query : GeoRadiusQuery)
  | geoRadiusByMember (key member : String) (query : GeoRadiusQuery)
  | geoDist (key member1 member2 unit : String)
  | geoHash (key : String) (members : List String)
  | geoPos (key : String) (members : List String)
  | geoCalculateDistance (uuid key : String) (location1 location2 : Location)

variable {parseDuration : String → Except RedisError Int}

namespace Op

/-- The keys that the caller passes. -/
def keys : Op → List String
  | .setNX key .. | .get key | .set key .. | .expire key _ | .exists' key => [key]
  | .hSetNX key .. | .hSet key .. | .hMSet key _ | .hGet key _ | .hMGet key _ | .hGetAll key
  | .hDel key _ | .hLen key | .hKeys key | .hValues key | .hExists key _ => [key]
  | .lRem key .. | .lIndex key _ | .lTrim key .. | .lSet key .. | .lPush key _ | .lAppend key _
  | .lPop key | .lRPop key | .lRange key .. | .lLen key | .lInsert key .. => [key]
  | .sLen key | .sAdd key _ | .sRem key _ | .sPop key | .sPopN key _ => [key]
  | .zLen key | .zCount key .. | .zLexCount key .. | .zAdd key _ | .zRem key _
  | .zRemRangeByLex key .. | .zRemRangeByScore key .. | .zRemRangeByRank key .. | .zRange key ..
  | .zRangeByScore key .. | .zRangeByLex key .. | .zRank key .. | .zIncr key _
  | .zIncrNX key _ => [key]
  | .geoAdd key _ | .geoRadius key .. | .geoRadiusByMember key .. | .geoDist key ..
  | .geoHash key _ | .geoPos key _ | .geoCalculateDistance _ key .. => [key]
  | .del keys | .sDiff keys | .sInter keys | .sUnion keys => keys
  | .sDiffMerge destination keys | .sInterMerge destination keys | .sUnionMerge destination keys
  | .zInterMerge destination keys .. | .zUnionMerge destination keys .. => destination :: keys

/-- Where a merge stores its result. -/
def destination : Op → Option String
  | .sDiffMerge destination _ | .sInterMerge destination _ | .sUnionMerge destination _
  | .zInterMerge destination .. | .zUnionMerge destination .. => some destination
  | _ => none

/-- The program of an operation through a view. -/
def run (parseDuration : String → Except RedisError Int) (r : RedisView) : Op → Sends Unit
  | .setNX key value duration => (r.setNX parseDuration key value duration).ignore
  | .get key => (r.get key).ignore
  | .set key value duration => (r.set parseDuration key value duration).ignore
  | .del keys => (r.del keys).ignore
  | .expire key duration => (r.expire parseDuration key duration).ignore
  | .exists' key => (r.exists' key).ignore
  | .hSetNX key field value => (r.hSetNX key field value).ignore
  | .hSet key field value => (r.hSet key field value).ignore
  | .hMSet key values => (r.hMSet key values).ignore
  | .hGet key field => (r.hGet key field).ignore
  | .hMGet key fields => (r.hMGet key fields).ignore
  | .hGetAll key => (r.hGetAll key).ignore
  | .hDel key fields => (r.hDel key fields).ignore
  | .hLen key => (r.hLen key).ignore
  | .hKeys key => (r.hKeys key).ignore
  | .hValues key => (r.hValues key).ignore
  | .hExists key field => (r.hExists key field).ignore
  | .lRem key count value => (r.lRem key count value).ignore
  | .lIndex key index => (r.lIndex key index).ignore
  | .lTrim key start stop => (r.lTrim key start stop).ignore
  | .lSet key index value => (r.lSet key index value).ignore
  | .lPush key values => (r.lPush key values).ignore
  | .lAppend key values => (r.lAppend key values).ignore
  | .lPop key => (r.lPop key).ignore
  | .lRPop key => (r.lRPop key).ignore
  | .lRange key start stop => (r.lRange key start stop).ignore
  | .lLen key => (r.lLen key).ignore
  | .lInsert key op pivot value => (r.lInsert key op pivot value).ignore
  | .sLen key => (r.sLen key).ignore
  | .sAdd key values => (r.sAdd key values).ignore
  | .sRem key values => (r.sRem key values).ignore
  | .sPop key => (r.sPop key).ignore
  | .sPopN key count => (r.sPopN key count).ignore
  | .sDiff keys => (r.sDiff keys).ignore
  | .sDiffMerge destination keys => (r.sDiffMerge destination keys).ignore
  | .sInter keys => (r.sInter keys).ignore
  | .sInterMerge destination keys => (r.sInterMerge destination keys).ignore
  | .sUnion keys => (r.sUnion keys).ignore
  | .sUnionMerge destination keys => (r.sUnionMerge destination keys).ignore
  | .zLen key => (r.zLen key).ignore
  | .zCount key min max => (r.zCount key min max).ignore
  | .zLexCount key min max => (RedisView.zLexCount key min max).ignore
  | .zAdd key members => (r.zAdd key members).ignore
  | .zRem key members => (r.zRem key members).ignore
  | .zRemRangeByLex key min max => (r.zRemRangeByLex key min max).ignore
  | .zRemRangeByScore key min max => (r.zRemRangeByScore key min max).ignore
  | .zRemRangeByRank key start stop => (r.zRemRangeByRank key start stop).ignore
  | .zRange key start stop reverse withScores =>
    (r.zRange key start stop reverse withScores).ignore
  | .zRangeByScore key rangeBy reverse withScores =>
    (r.zRangeByScore key rangeBy reverse withScores).ignore
  | .zRangeByLex key rangeBy reverse => (RedisView.zRangeByLex key rangeBy reverse).ignore
  | .zRank key member reverse => (r.zRank key member reverse).ignore
  | .zIncr key member => (r.zIncr key member).ignore
  | .zIncrNX key member => (RedisView.zIncrNX key member).ignore
  | .zInterMerge destination keys wights aggregate =>
    (RedisView.zInterMerge destination keys wights aggregate).ignore
  | .zUnionMerge destination keys wights aggregate =>
    (RedisView.zUnionMerge destination keys wights aggregate).ignore
  | .geoAdd key geoLocation => (r.geoAdd key geoLocation).ignore
  | .geoRadius key longitude latitude query => (r.geoRadius key longitude latitude query).ignore
  | .geoRadiusByMember key member query => (r.geoRadiusByMember key member query).ignore
  | .geoDist key member1 member2 unit => (r.geoDist key member1 member2 unit).ignore
  | .geoHash key members => (r.geoHash key members).ignore
  | .geoPos key members => (r.geoPos key members).ignore
  | .geoCalculateDistance uuid key location1 location2 =>
    (r.geoCalculateDistance uuid key location1 location2).ignore

/-- The operation expands all its keys and no others. -/
def Expands : Op → Prop
  | .sDiffMerge .. | .sInterMerge .. | .sUnionMerge .. | .zRangeByLex .. | .zIncrNX ..
  | .zInterMerge .. | .zUnionMerge .. | .geoCalculateDistance .. => False
  | _ => True

/-- An access of an operation that is as it should be: to the expansion of a key of the caller,
inside the namespace, and, where a merge writes, to the expansion of its destination. -/
def Proper (r : RedisView) (op : Op) (access : Access) : Prop :=
  (∃ key ∈ op.keys, access.key = r.expandKey key) ∧
    (r.keyPrefix ++ redisKeySep).toList <+: access.key.toList ∧
    (access.write = true → ∀ key ∈ op.destination, access.key = r.expandKey key)

/-- Against every server, an operation makes proper accesses only. -/
def Namespaced (parseDuration : String → Except RedisError Int) (r : RedisView) (op : Op) : Prop :=
  ∀ (σ : Type) (server : Server Command RedisError σ) (s : σ),
    ∀ access ∈ (op.run parseDuration r).trace @Command.accesses server s, op.Proper r access

/-- Expansions lie inside the namespace. -/
theorem expandKey_inside (r : RedisView) (key : String) :
    (r.keyPrefix ++ redisKeySep).toList <+: (r.expandKey key).toList := by
  have happend : (r.expandKey key).toList = (r.keyPrefix ++ redisKeySep).toList ++ key.toList :=
    String.toList_append
  rw [happend]
  exact List.prefix_append ..

section Within

variable {allowed : Access → Prop} {β : Type}

@[simp] theorem within_result {command : Command β} :
    (result command).Within @Command.accesses allowed ↔ ∀ a ∈ command.accesses, allowed a := by
  simp [result]

@[simp] theorem within_mapResult {α : Type} {command : Command β} {f : β → α} :
    (mapResult command f).Within @Command.accesses allowed ↔
      ∀ a ∈ command.accesses, allowed a := by
  simp [mapResult]

@[simp] theorem within_wrapResult {command : Command β} {f : β → Result} :
    (wrapResult command f).Within @Command.accesses allowed ↔
      ∀ a ∈ command.accesses, allowed a := by
  simp [wrapResult]

private theorem within_rangeMembers {send : Bool} {command : Command (List Bytes)}
    {ranges : RedisView.Ranges} (h : ∀ a ∈ command.accesses, allowed a) :
    (rangeMembers send command ranges).Within @Command.accesses allowed := by
  unfold rangeMembers
  split
  · refine ⟨h, fun answer => ?_⟩
    cases answer <;> trivial
  · trivial

private theorem within_rangeScores {send : Bool} {command : Command (List ZMember)}
    {ranges : RedisView.Ranges} (h : ∀ a ∈ command.accesses, allowed a) :
    (rangeScores send command ranges).Within @Command.accesses allowed := by
  unfold rangeScores
  split
  · refine ⟨h, fun answer => ?_⟩
    cases answer <;> trivial
  · trivial

/-- A query keeps to what its command keeps to, if it is sent. -/
theorem within_radius {query : GeoRadiusQuery} {command : Command (List GeoLocation)}
    (h : ∀ a ∈ command.accesses, allowed a) :
    (radius query command).Within @Command.accesses allowed := by
  unfold radius
  split
  · trivial
  · exact within_result.mpr h

/-- A range query keeps to what its four commands keep to. -/
theorem within_rangeQuery {plain rev : Command (List Bytes)}
    {revScores scores : Command (List ZMember)} {reverse withScores : Bool}
    (hplain : ∀ a ∈ plain.accesses, allowed a) (hrevScores : ∀ a ∈ revScores.accesses, allowed a)
    (hrev : ∀ a ∈ rev.accesses, allowed a) (hscores : ∀ a ∈ scores.accesses, allowed a) :
    (rangeQuery plain revScores rev scores reverse withScores).Within
      @Command.accesses allowed := by
  unfold rangeQuery
  refine (within_rangeMembers hplain).bind fun _ => ?_
  refine (within_rangeScores hrevScores).bind fun _ => ?_
  refine (within_rangeMembers hrev).bind fun _ => ?_
  exact (within_rangeScores hscores).bind fun _ => within_pure _

end Within

/-- An operation that expands its keys makes proper accesses only. -/
theorem Expands.within {r : RedisView} {op : Op} (h : op.Expands) :
    (op.run parseDuration r).Within @Command.accesses (op.Proper r) := by
  have hdestination : op.destination = none := by
    cases op <;> first | rfl | exact h.elim
  have hproper : ∀ key ∈ op.keys, ∀ write, op.Proper r ⟨r.expandKey key, write⟩ := by
    intro key hkey write
    refine ⟨⟨key, hkey, rfl⟩, expandKey_inside r key, fun _ destination hmem => ?_⟩
    rw [hdestination] at hmem
    cases hmem
  generalize op.Proper r = allowed at hproper
  have hread : ∀ key, op.keys = [key] → ∀ a ∈ Command.reads (r.expandKey key), allowed a := by
    intro key hkey
    simp [Command.reads, hproper key (hkey ▸ List.mem_singleton_self key)]
  have hwrite : ∀ key, op.keys = [key] → ∀ a ∈ Command.writes (r.expandKey key), allowed a := by
    intro key hkey
    simp [Command.writes, hproper key (hkey ▸ List.mem_singleton_self key)]
  cases op with
  | get key | hGet key | hGetAll key | hLen key | hKeys key | hValues key | hExists key
  | lIndex key | lRange key | lLen key | sLen key | zLen key | zCount key
  | geoDist key | geoHash key | geoPos key =>
    exact Client.Within.ignore (within_result.mpr (hread key rfl))
  | hDel key | lRem key | lPush key | lAppend key | lPop key | lRPop key | lInsert key | sAdd key
  | sRem key | sPop key | sPopN key | zAdd key | zRem key | zRemRangeByLex key
  | zRemRangeByScore key | zRemRangeByRank key | zIncr key | geoAdd key =>
    exact Client.Within.ignore (within_result.mpr (hwrite key rfl))
  | hSetNX key | hSet key | lTrim key | lSet key =>
    exact Client.Within.ignore (within_wrapResult.mpr (hwrite key rfl))
  | exists' key =>
    exact Client.Within.ignore (within_mapResult.mpr (hread key rfl))
  | del keys | sDiff keys | sInter keys | sUnion keys =>
    refine Client.Within.ignore (within_result.mpr fun a ha => ?_)
    obtain ⟨expanded, hexpanded, rfl⟩ := List.mem_map.mp ha
    obtain ⟨key, hkey, rfl⟩ := List.mem_map.mp hexpanded
    exact hproper key hkey _
  | setNX key value duration =>
    refine Client.Within.ignore ?_
    unfold RedisView.setNX
    split
    · trivial
    · exact within_result.mpr (hwrite key rfl)
  | set key value duration =>
    refine Client.Within.ignore ?_
    unfold RedisView.set
    split
    · trivial
    · exact within_result.mpr (hwrite key rfl)
  | expire key duration =>
    refine Client.Within.ignore ?_
    unfold RedisView.expire
    split
    · trivial
    · exact within_wrapResult.mpr (hwrite key rfl)
  | hMSet key values =>
    refine Client.Within.ignore ?_
    cases values with
    | none => trivial
    | some values => exact within_wrapResult.mpr (hwrite key rfl)
  | hMGet key fields =>
    refine Client.Within.ignore ⟨hread key rfl, fun answer => ?_⟩
    cases answer with
    | error err => trivial
    | ok values =>
      simp only
      split <;> trivial
  | zLexCount => trivial
  | zRange key | zRangeByScore key =>
    exact Client.Within.ignore
      (within_rangeQuery (hread key rfl) (hread key rfl) (hread key rfl) (hread key rfl))
  | zRank key member reverse =>
    refine Client.Within.ignore ?_
    cases reverse <;> exact within_result.mpr (hread key rfl)
  | geoRadius key | geoRadiusByMember key =>
    exact Client.Within.ignore (within_radius (hread key rfl))
  | sDiffMerge | sInterMerge | sUnionMerge | zRangeByLex | zIncrNX | zInterMerge | zUnionMerge
  | geoCalculateDistance => exact h.elim

/-- A server that refuses every command. -/
def refusing : Server Command RedisError Unit := ⟨fun _ _ => (.error (.server "refused"), ())⟩

/-- What an operation sends first, it sends to every server. -/
theorem Namespaced.proper_of_send {r : RedisView} {op : Op} {β : Type} {command : Command β}
    {next : Except RedisError β → Sends Unit} (h : op.Namespaced parseDuration r)
    (hrun : op.run parseDuration r = .send command next) {access : Access}
    (hmem : access ∈ command.accesses) : op.Proper r access := by
  refine h Unit refusing () access ?_
  rw [hrun]
  exact mem_trace_send hmem refusing ()

/-- A merge that stores under its destination as it is does not keep to the namespace. -/
theorem not_namespaced_of_stores {r : RedisView} {op : Op} {β : Type} {command : Command β}
    {next : Except RedisError β → Sends Unit} {destination : String} {keys : List String}
    (hrun : op.run parseDuration r = .send command next)
    (hstores : command.accesses = Command.stores destination keys)
    (hdestination : op.destination = some destination) : ¬ op.Namespaced parseDuration r := by
  intro h
  have hmem : (⟨destination, true⟩ : Access) ∈ command.accesses := by
    rw [hstores]
    exact List.mem_cons_self ..
  have heq := (h.proper_of_send hrun hmem).2.2 rfl destination hdestination
  exact r.expandKey_ne destination heq.symm

/-- Nor does an operation that accesses its key as it is. -/
theorem not_namespaced_of_unexpanded {r : RedisView} {op : Op} {β : Type} {command : Command β}
    {next : Except RedisError β → Sends Unit} {key : String} {write : Bool}
    (hrun : op.run parseDuration r = .send command next)
    (hmem : (⟨key, write⟩ : Access) ∈ command.accesses) (hkeys : op.keys = [key]) :
    ¬ op.Namespaced parseDuration r := by
  intro h
  obtain ⟨⟨key', hkey', heq⟩, -⟩ := h.proper_of_send hrun hmem
  rw [hkeys, List.mem_singleton] at hkey'
  exact r.expandKey_ne key (hkey' ▸ heq.symm)

/-- An operation keeps to the namespace of its view exactly when it is none of the eight that do
not expand their keys, or expand a key of their own. -/
theorem namespaced_iff_expands (parseDuration : String → Except RedisError Int) (r : RedisView)
    (op : Op) : op.Namespaced parseDuration r ↔ op.Expands := by
  refine ⟨fun h => ?_, fun h σ server s => h.within.trace server s⟩
  cases op with
  | sDiffMerge destination keys | sInterMerge destination keys | sUnionMerge destination keys
  | zInterMerge destination keys | zUnionMerge destination keys =>
    exact not_namespaced_of_stores rfl rfl rfl h
  | zIncrNX key member => exact not_namespaced_of_unexpanded rfl (List.mem_singleton_self _) rfl h
  | zRangeByLex key rangeBy reverse =>
    cases reverse <;> exact not_namespaced_of_unexpanded rfl (List.mem_singleton_self _) rfl h
  | geoCalculateDistance uuid key location1 location2 =>
    obtain ⟨⟨key', hkey', heq⟩, -⟩ := h.proper_of_send rfl (List.mem_singleton_self _)
    cases List.mem_singleton.mp hkey'
    have hlength := congrArg String.length (RedisView.expandKey_inj.mp heq)
    rw [String.length_append, String.length_append] at hlength
    have hsep : ":".length = 1 := rfl
    omega
  | _ => trivial

/-- A union through a view is stored outside its namespace, where the same view does not look
for it. -/
theorem sUnionMerge_stores_outside :
    ((sUnionMerge "all" ["a", "b"]).run (fun _ => .ok 0) ⟨"shop"⟩).trace @Command.accesses refusing
        () = [⟨"all", true⟩, ⟨"shop:a", false⟩, ⟨"shop:b", false⟩] ∧
      ((sUnion ["all"]).run (fun _ => .ok 0) ⟨"shop"⟩).trace @Command.accesses refusing () =
        [⟨"shop:all", false⟩] ∧
      ¬ (sUnionMerge "all" ["a", "b"]).Namespaced (fun _ => .ok 0) ⟨"shop"⟩ :=
  ⟨by decide, by decide, not_namespaced_of_stores rfl rfl rfl⟩

end Op

end Stardust.Redis
