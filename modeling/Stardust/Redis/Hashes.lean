import Stardust.Redis.Server

/-!
# Reading hashes back

The fields of a hash that were written are read back all at once as they are. Read by their names
they come as texts or as nothing, neither of which passes the assertion that they are bytes.
-/

namespace Stardust.Redis

open Stardust.Core

variable {values : List (String × Bytes)}

namespace Hash

/-- A field in a list of fields with values. -/
theorem lookup_cons {name : String} {value : Bytes} (field : String) :
    ((name, value) :: values).lookup field =
      if field = name then some value else values.lookup field := by
  rw [List.lookup_cons]
  by_cases h : field = name
  · simp [h]
  · rw [beq_eq_false_iff_ne.mpr h, if_neg h]

private theorem lookup_eq_none {field : String} (h : field ∉ values.map Prod.fst) :
    values.lookup field = none := by
  induction values with
  | nil => rfl
  | cons entry values ih =>
    rw [List.map_cons, List.mem_cons, not_or] at h
    rw [lookup_cons, if_neg h.1, ih h.2]

/-- A field has the value that was written to it, or the one it had. -/
theorem lookup_write (hnodup : (values.map Prod.fst).Nodup) (hash : Hash) (field : String) :
    (hash.write values).lookup field = (values.lookup field).or (hash.lookup field) := by
  induction values generalizing hash with
  | nil => rfl
  | cons entry values ih =>
    obtain ⟨hname, hrest⟩ := List.nodup_cons.mp hnodup
    have hwrite : hash.write (entry :: values) = Hash.write (hash.insert entry.1 entry.2) values :=
      rfl
    rw [hwrite, ih hrest, lookup_cons]
    by_cases heq : field = entry.1
    · rw [heq, lookup_eq_none hname, AList.lookup_insert, if_pos rfl]
      rfl
    · rw [AList.lookup_insert_ne heq, if_neg heq]

private theorem lookup_pairs (hash : Hash) (field : String) :
    hash.pairs.lookup field = hash.lookup field := by
  have hentries : ∀ entries : List (Sigma fun _ : String => Bytes),
      (entries.map fun entry => (entry.1, entry.2)).lookup field = entries.dlookup field := by
    intro entries
    induction entries with
    | nil => rfl
    | cons entry entries ih =>
      rw [List.map_cons, lookup_cons, ih]
      by_cases heq : field = entry.1
      · rw [if_pos heq, heq, List.dlookup_cons_eq]
      · rw [if_neg heq, List.dlookup_cons_ne _ _ heq]
  exact hentries hash.entries

private theorem nodup_pairs (hash : Hash) : (hash.pairs.map Prod.fst).Nodup := by
  have hkeys : hash.pairs.map Prod.fst = hash.keys := by
    simp only [pairs, List.map_map]
    rfl
  rw [hkeys]
  exact hash.keys_nodup

end Hash

/-! ### The round trip -/

/-- The entries that a call returns, none beside an error. -/
def returnedEntries : Outcome (List Bytes) → List Bytes
  | .ok out => out
  | .error _ => []

section RoundTrip

variable (reading : ScoreReading) (rest : Server Command RedisError Db) (r : RedisView) (db : Db)
  (key : String) (map : Hash) (fields : List String)

/-- The hash under the key after a map was written. -/
def afterHMSet : Db := ((r.hMSet key (some map.pairs)).run (documented reading rest) db).2

/-- What a field has after a map was written. -/
def expectedValue (field : String) : Option Bytes :=
  (map.lookup field).or ((db.hashes (r.expandKey key)).lookup field)

/-- After a map was written, its fields are read by name without a panic, one entry for each, with
the bytes of those that are there and nil for the others; and all fields are read at once with the
same values. -/
def HashRoundTrip : Prop :=
  let db' := afterHMSet reading rest r db key map
  (∃ out, ((r.hMGet key fields).run (documented reading rest) db').1 = .ok out ∧
    returnedEntries out = fields.map fun field => (expectedValue r db key map field).getD []) ∧
  ∃ all, ((r.hGetAll key).run (documented reading rest) db').1 = .ok (.ok all) ∧
    ∀ field, all.lookup field = expectedValue r db key map field

private theorem lookup_afterHMSet (field : String) :
    ((afterHMSet reading rest r db key map).hashes (r.expandKey key)).lookup field =
      expectedValue r db key map field := by
  unfold expectedValue
  by_cases hempty : map.pairs = []
  · have hwritten : afterHMSet reading rest r db key map = db := by
      simp [afterHMSet, RedisView.hMSet, wrapResult, Client.run, documented, hempty]
    rw [hwritten, ← map.lookup_pairs, hempty]
    rfl
  · have hwritten : (afterHMSet reading rest r db key map).hashes (r.expandKey key) =
        (db.hashes (r.expandKey key)).write map.pairs := by
      simp [afterHMSet, RedisView.hMSet, wrapResult, Client.run, documented, hempty]
    rw [hwritten, Hash.lookup_write map.nodup_pairs, map.lookup_pairs]

/-- All fields at once are read as they were written. -/
theorem run_hGetAll_afterHMSet :
    ∃ all, ((r.hGetAll key).run (documented reading rest)
        (afterHMSet reading rest r db key map)).1 = .ok (.ok all) ∧
      ∀ field, all.lookup field = expectedValue r db key map field := by
  refine ⟨_, rfl, fun field => ?_⟩
  rw [Hash.lookup_pairs, lookup_afterHMSet]

/-- No value of a field is a byte slice. -/
theorem assertBytes_reply (hash : Hash) (field : String) (values : List Interface) :
    RedisView.assertBytes (hash.reply field :: values) =
      .error (.typeAssertion (hash.reply field)) := by
  unfold Hash.reply
  cases hash.lookup field <;> rfl

/-- Any field that is read by its name makes the call panic. -/
theorem run_hMGet_panics (field : String) :
    ((r.hMGet key (field :: fields)).run (documented reading rest) db).1 =
      .error (.typeAssertion ((db.hashes (r.expandKey key)).reply field)) := by
  simp [RedisView.hMGet, Client.run, documented, assertBytes_reply]

/-- The round trip works exactly when no field is read. -/
theorem hash_round_trip_iff : HashRoundTrip reading rest r db key map fields ↔ fields = [] := by
  constructor
  · rintro ⟨⟨out, hout, -⟩, -⟩
    cases fields with
    | nil => rfl
    | cons field fields =>
      rw [run_hMGet_panics] at hout
      cases hout
  · rintro rfl
    exact ⟨⟨_, rfl, rfl⟩, run_hGetAll_afterHMSet reading rest r db key map⟩

end RoundTrip

/-- One field was written to a database without keys. -/
def itemDb : Db :=
  afterHMSet plainReading noCommands ⟨"shop"⟩ ⟨fun _ => ∅, fun _ => ∅⟩ "item"
    (AList.insert "name" [97] ∅)

/-- A field that was written makes the call panic, and so does one that was not; all fields at once
are read back. -/
theorem hash_field_panics :
    ((RedisView.hMGet ⟨"shop"⟩ "item" ["name"]).run (documented plainReading noCommands) itemDb).1 =
        .error (.typeAssertion (.string [97])) ∧
      ((RedisView.hMGet ⟨"shop"⟩ "item" ["size"]).run (documented plainReading noCommands)
        itemDb).1 = .error (.typeAssertion .nil) ∧
      ((RedisView.hGetAll ⟨"shop"⟩ "item").run (documented plainReading noCommands) itemDb).1 =
        .ok (.ok [("name", [97])]) := by
  decide +kernel

end Stardust.Redis
