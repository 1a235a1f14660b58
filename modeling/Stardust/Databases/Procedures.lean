import Mathlib.Data.List.TakeWhile
import Stardust.Databases.Dao

/-!
# Result sets that break off

`Next` and `NextResultSet` of `database/sql` return false both at the end of the data and on an
error, which only `Err` tells apart. `CallProcedure` never asks: an error that strikes between two
rows or two result sets ends the loops as the end of the data does. What the loops read is what is
delivered before the first error, so the call is complete when that is everything, or when
`Columns` or `Scan` fails on it.
-/

namespace Stardust.Databases

variable {D Ω V X A : Type}

/-- A result set with the errors that may strike while it is iterated. -/
structure RowSet (V X : Type) where
  /-- The answer of `Columns`. -/
  columns : Except (DbError X) (List String)
  /-- For each row the error that strikes in its place, and otherwise the answer of `Scan`. -/
  rows : List (Option X × Except (DbError X) (List V))
  /-- The error that strikes after the last row. -/
  fault : Option X

/-- The rows of a query. -/
structure Rows (V X : Type) where
  /-- What is left of the current result set. -/
  set : RowSet V X
  /-- The result sets after it, each with the error that strikes when advancing to it. -/
  later : List (Option X × RowSet V X)
  /-- Whether the rows are closed. -/
  closed : Bool
  /-- The error that `Err` reports. -/
  lasterr : Option X

namespace Rows

variable (rs : Rows V X)

/-- An error closes the rows. -/
def fail (x : X) : Rows V X := { rs with closed := true, lasterr := some x }

/-- The columns of the current result set. -/
def columns : Except (DbError X) (List String) :=
  if rs.closed then
    .error (rs.lasterr.elim (.message "sql: Rows are closed") .driver)
  else
    rs.set.columns

/-- The next row with what `Scan` answers on it, or none where `Next` returns false. -/
def next : Option (Except (DbError X) (List V)) × Rows V X :=
  if rs.closed then
    (none, rs)
  else
    match rs.set.rows, rs.set.fault with
    | (none, row) :: rows, _ => (some row, { rs with set := { rs.set with rows := rows } })
    | (some x, _) :: _, _ => (none, rs.fail x)
    | [], some x => (none, rs.fail x)
    | [], none => (none, { rs with closed := rs.later.isEmpty })

/-- Advance to the next result set. -/
def nextResultSet : Bool × Rows V X :=
  if rs.closed then
    (false, rs)
  else
    match rs.later with
    | [] => (false, { rs with closed := true })
    | (some x, _) :: _ => (false, rs.fail x)
    | (none, set) :: later => (true, { rs with set := set, later := later })

/-- The error that ended the iteration, if one did. -/
def err : Option (DbError X) := rs.lasterr.map .driver

private theorem next_rows_lt {rs rs' : Rows V X} {row : Except (DbError X) (List V)}
    (h : rs.next = (some row, rs')) : rs'.set.rows.length < rs.set.rows.length := by
  obtain ⟨⟨columns, rows, fault⟩, later, closed, lasterr⟩ := rs
  cases closed with
  | true => simp [next] at h
  | false =>
    rcases rows with _ | ⟨⟨_ | x, row'⟩, rows⟩
    · cases fault <;> simp [next] at h
    · simp only [next, Bool.false_eq_true, if_false, Prod.mk.injEq] at h
      rw [← h.2]
      exact Nat.lt_succ_self _
    · simp [next] at h

/-- The loop over the rows of a result set: the rows scanned, and the error of `Scan` that has
ended it. -/
def collect (read : List V → A) (rs : Rows V X) : List A × Option (DbError X) × Rows V X :=
  match _h : rs.next with
  | (none, rs') => ([], none, rs')
  | (some (.error err), rs') => ([], some err, rs')
  | (some (.ok values), rs') =>
    let (results, err, rs'') := collect read rs'
    (read values :: results, err, rs'')
termination_by rs.set.rows.length
decreasing_by exact next_rows_lt _h

variable {rs} {rs' : Rows V X} {read : List V → A}

private theorem collect_of_none (h : rs.next = (none, rs')) :
    collect read rs = ([], none, rs') := by
  rw [collect]
  split <;> simp_all

private theorem collect_of_error {err : DbError X} (h : rs.next = (some (.error err), rs')) :
    collect read rs = ([], some err, rs') := by
  rw [collect]
  split <;> simp_all

private theorem collect_of_ok {values : List V} (h : rs.next = (some (.ok values), rs')) :
    collect read rs = (read values :: (collect read rs').1, (collect read rs').2) := by
  rw [collect]
  split <;> simp_all

/-- The loop leaves the later result sets alone. -/
theorem collect_later (read : List V → A) (rs : Rows V X) :
    (collect read rs).2.2.later = rs.later := by
  obtain ⟨⟨columns, rows, fault⟩, later, closed, lasterr⟩ := rs
  cases closed with
  | true => rw [collect_of_none rfl]
  | false =>
    induction rows with
    | nil =>
      cases fault <;> rw [collect_of_none rfl]
      rfl
    | cons row rows ih =>
      obtain ⟨_ | x, values | values⟩ := row
      · rw [collect_of_error rfl]
      · rw [collect_of_ok rfl]
        exact ih
      · rw [collect_of_none rfl]
        rfl
      · rw [collect_of_none rfl]
        rfl

/-- A list is mapped without error when its head and its tail are. -/
theorem mapM_cons_eq_ok_iff {α β ε : Type} {f : α → Except ε β} {a : α} {as : List α}
    {bs : List β} : (a :: as).mapM f = .ok bs ↔
      ∃ b bs', f a = .ok b ∧ as.mapM f = .ok bs' ∧ bs = b :: bs' := by
  rw [List.mapM_cons]
  cases f a with
  | error err => simp [bind, Except.bind]
  | ok b =>
    cases as.mapM f with
    | error err => simp [bind, Except.bind]
    | ok bs' => simp [bind, Except.bind, pure, Except.pure, eq_comm]

/-- A list is mapped with an error when one of its elements is. -/
theorem mapM_error_iff {α β ε : Type} {f : α → Except ε β} {as : List α} :
    (∃ err, as.mapM f = .error err) ↔ ∃ a ∈ as, ∃ err, f a = .error err := by
  induction as with
  | nil => simp [pure, Except.pure]
  | cons a as ih =>
    rw [List.mapM_cons, List.exists_mem_cons_iff, ← ih]
    cases f a with
    | error err => simp [bind, Except.bind]
    | ok b => cases as.mapM f <;> simp [bind, Except.bind, pure, Except.pure]

private theorem length_of_mapM {α β ε : Type} {f : α → Except ε β} {as : List α} {bs : List β}
    (h : as.mapM f = .ok bs) : bs.length = as.length := by
  induction as generalizing bs with
  | nil =>
    cases h
    rfl
  | cons a as ih =>
    obtain ⟨b, bs', _, hbs', rfl⟩ := mapM_cons_eq_ok_iff.mp h
    exact congrArg (· + 1) (ih hbs')

section Loop

variable {columns : Except (DbError X) (List String)}
  {rows : List (Option X × Except (DbError X) (List V))} {fault lasterr : Option X}
  {later : List (Option X × RowSet V X)}

/-- The loop scans the rows before the first error. -/
theorem collect_delivered {results : List A}
    (h : (rows.takeWhile (·.1.isNone)).mapM (fun row => read <$> row.2) = .ok results) :
    collect read ⟨⟨columns, rows, fault⟩, later, false, lasterr⟩ = (results, none,
      (next ⟨⟨columns, rows.dropWhile (·.1.isNone), fault⟩, later, false, lasterr⟩).2) := by
  induction rows generalizing results with
  | nil =>
    cases h
    cases fault <;> exact collect_of_none rfl
  | cons row rows ih =>
    obtain ⟨_ | x, values⟩ := row
    · obtain ⟨result, rest, hvalues, hrest, rfl⟩ := mapM_cons_eq_ok_iff.mp h
      cases values with
      | error err => cases hvalues
      | ok values =>
        obtain rfl := Except.ok.inj hvalues
        rw [collect_of_ok rfl, ih hrest]
        rfl
    · cases h
      exact collect_of_none rfl

/-- A row among them that cannot be scanned ends the loop with its error. -/
theorem collect_unscanned {err : DbError X}
    (h : (rows.takeWhile (·.1.isNone)).mapM (fun row => read <$> row.2) = .error err) :
    (collect read ⟨⟨columns, rows, fault⟩, later, false, lasterr⟩).2.1 = some err := by
  induction rows with
  | nil => cases h
  | cons row rows ih =>
    obtain ⟨_ | x, values⟩ := row
    · rw [List.takeWhile_cons_of_pos rfl, List.mapM_cons] at h
      cases values with
      | error err' =>
        obtain rfl : err' = err := Except.error.inj h
        rw [collect_of_error rfl]
      | ok values =>
        rw [collect_of_ok rfl]
        refine ih ?_
        cases hrest : (rows.takeWhile (·.1.isNone)).mapM (fun row => read <$> row.2) with
        | error err' =>
          rw [hrest] at h
          exact h
        | ok rest =>
          rw [hrest] at h
          cases h
    · cases h

/-- The loop stops at a row only if an error strikes in its place. -/
theorem struck_of_dropWhile {row : Option X × Except (DbError X) (List V)}
    {rest : List (Option X × Except (DbError X) (List V))}
    (h : rows.dropWhile (·.1.isNone) = row :: rest) : ∃ x values, row = (some x, values) := by
  have hhead := List.head?_dropWhile_not (·.1.isNone) rows
  rw [h] at hhead
  obtain ⟨_ | x, values⟩ := row
  · cases hhead
  · exact ⟨x, values, rfl⟩

/-- After the loop the rows have another result set when no error has struck on the way to it. -/
theorem nextResultSet_of_passed {set' : RowSet V X} (hrows : rows = []) (hfault : fault = none) :
    (next ⟨⟨columns, rows, fault⟩, (none, set') :: later, false, lasterr⟩).2.nextResultSet =
      (true, ⟨set', later, false, lasterr⟩) := by
  subst hrows hfault
  rfl

private theorem nextResultSet_of_ended (h : ∀ set' later', later = (none, set') :: later' →
      rows.dropWhile (·.1.isNone) = [] → fault ≠ none) :
    (next ⟨⟨columns, rows.dropWhile (·.1.isNone), fault⟩, later, false,
      lasterr⟩).2.nextResultSet.1 = false := by
  cases hrows : rows.dropWhile (·.1.isNone) with
  | cons row rest =>
    obtain ⟨x, values, rfl⟩ := struck_of_dropWhile hrows
    rfl
  | nil =>
    rcases fault with _ | x
    · rcases later with _ | ⟨⟨_ | x, set'⟩, later⟩
      · rfl
      · exact absurd rfl (h set' later rfl hrows)
      · rfl
    · rfl

end Loop

private theorem nextResultSet_later_lt (h : rs.nextResultSet = (true, rs')) :
    rs'.later.length < rs.later.length := by
  obtain ⟨set, later, closed, lasterr⟩ := rs
  cases closed with
  | true => simp [nextResultSet] at h
  | false =>
    rcases later with _ | ⟨⟨_ | x, set'⟩, later⟩
    · simp [nextResultSet] at h
    · simp only [nextResultSet, Bool.false_eq_true, if_false, Prod.mk.injEq] at h
      rw [← h.2]
      exact Nat.lt_succ_self _
    · simp [nextResultSet] at h

end Rows

namespace OrmBaseDao

variable (g : Driver D Ω V X)

/-- The loop of `CallProcedure` over the result sets. -/
def readSets (rs : Rows V X) : Except (DbError X) (List (List (String → Option V))) :=
  match rs.columns with
  | .error err => .error err
  | .ok columns =>
    match _hrows : rs.collect (rowMap g columns) with
    | (_, some err, _) => .error err
    | (results, none, rs') =>
      match _hnext : rs'.nextResultSet with
      | (false, _) => .ok [results]
      | (true, rs'') => (results :: ·) <$> readSets rs''
termination_by rs.later.length
decreasing_by
  have hlater := Rows.collect_later (rowMap g columns) rs
  rw [_hrows] at hlater
  exact hlater ▸ Rows.nextResultSet_later_lt _hnext

section ReadSets

variable {g} {rs rs' rs'' : Rows V X} {columns : List String}
  {results : List (String → Option V)}

private theorem readSets_of_columns_error {err : DbError X} (h : rs.columns = .error err) :
    readSets g rs = .error err := by
  rw [readSets, h]

private theorem readSets_of_scan_error (hcolumns : rs.columns = .ok columns) {err : DbError X}
    (h : (rs.collect (rowMap g columns)).2.1 = some err) : readSets g rs = .error err := by
  rw [readSets, hcolumns]
  dsimp only
  split <;> simp_all

private theorem readSets_of_last (hcolumns : rs.columns = .ok columns)
    (hrows : rs.collect (rowMap g columns) = (results, none, rs'))
    (h : rs'.nextResultSet.1 = false) : readSets g rs = .ok [results] := by
  rw [readSets, hcolumns]
  dsimp only
  split <;> simp_all
  split <;> simp_all

private theorem readSets_of_more (hcolumns : rs.columns = .ok columns)
    (hrows : rs.collect (rowMap g columns) = (results, none, rs'))
    (h : rs'.nextResultSet = (true, rs'')) :
    readSets g rs = (results :: ·) <$> readSets g rs'' := by
  rw [readSets, hcolumns]
  dsimp only
  split <;> simp_all
  split <;> simp_all

end ReadSets

end OrmBaseDao

/-- All that a call has to say: the first result set, and those after it with the errors that may
strike when advancing to them. -/
structure ResultStream (V X : Type) where
  /-- The first result set. -/
  first : RowSet V X
  /-- The result sets after it. -/
  later : List (Option X × RowSet V X)

/-- The result set without the errors. -/
def RowSet.content (set : RowSet V X) : ResultSet V X := ⟨set.columns, set.rows.map (·.2)⟩

namespace ResultStream

/-- The rows that `Query` opens. -/
def rows (stream : ResultStream V X) : Rows V X := ⟨stream.first, stream.later, false, none⟩

/-- What there is to read, with the errors of `Columns` and `Scan`. -/
def everyRow (g : Driver D Ω V X) (stream : ResultStream V X) :
    Except (DbError X) (List (List (String → Option V))) :=
  (stream.first :: stream.later.map (·.2)).mapM fun set => OrmBaseDao.readResultSet g set.content

end ResultStream

/-- The rows of an answer while nothing goes wrong. -/
def ResultStream.ofReply (reply : Reply V X) : ResultStream V X :=
  ⟨⟨reply.resultSet.columns, reply.resultSet.rows.map fun row => (none, row), none⟩,
    reply.moreResultSets.map fun set =>
      (none, ⟨set.columns, set.rows.map fun row => (none, row), none⟩)⟩

/-- No error strikes before the last row of the last result set. -/
def Unbroken (set : RowSet V X) : List (Option X × RowSet V X) → Prop
  | [] => ∀ row ∈ set.rows, row.1 = none
  | (struck, set') :: later =>
    (∀ row ∈ set.rows, row.1 = none) ∧ set.fault = none ∧ struck = none ∧ Unbroken set' later

/-- What is delivered of a result set: its columns, and the rows before the first error. -/
def RowSet.delivered (set : RowSet V X) : ResultSet V X :=
  ⟨set.columns, (set.rows.takeWhile (·.1.isNone)).map (·.2)⟩

/-- The result sets that are delivered before the first error strikes. -/
def deliveredSets (set : RowSet V X) : List (Option X × RowSet V X) → List (ResultSet V X)
  | [] => [set.delivered]
  | (struck, set') :: later =>
    if (∀ row ∈ set.rows, row.1 = none) ∧ set.fault = none ∧ struck = none then
      set.delivered :: deliveredSets set' later
    else
      [set.delivered]

/-- `Columns` or a `Scan` of the result set fails. -/
def ResultSet.Fails (set : ResultSet V X) : Prop :=
  (∃ err, set.columns = .error err) ∨ ∃ err, .error err ∈ set.rows

namespace OrmBaseDao

variable (g : Driver D Ω V X) (query : Reply V X → ResultStream V X) (procName : String)
  (args : List V)

/-- Call a stored procedure and read its rows, which `query` gives for the answer of the
database. -/
def callProcedureRows :
    StateM (World D Ω V) (Except (DbError X) (List (List (String → Option V)))) := do
  if validProcName procName = false then
    return .error (.message ("invalid procedure name: " ++ procName))
  if let some err := g.poolError then
    return .error err
  let reply ← g.issue .conn (procedureCall procName args)
  if let some err := reply.error then
    return .error err
  return readSets g (query reply).rows

variable (set : RowSet V X)

section Reading

variable {g} {rows : List (Option X × Except (DbError X) (List V))} {fault lasterr : Option X}
  {later : List (Option X × RowSet V X)}

private theorem readResultSet_delivered (columns : List String) :
    readResultSet g (RowSet.delivered ⟨.ok columns, rows, fault⟩) =
      (rows.takeWhile (·.1.isNone)).mapM fun row => rowMap g columns <$> row.2 := by
  simp [readResultSet, RowSet.delivered, bind, Except.bind, List.mapM_map, Function.comp_def]

/-- One round of the loop: it fails on what is delivered of the result set, or reads it. -/
theorem readSets_round (g : Driver D Ω V X) (lasterr : Option X)
    (later : List (Option X × RowSet V X)) (set : RowSet V X) :
    (∃ err, readResultSet g set.delivered = .error err ∧
        readSets g ⟨set, later, false, lasterr⟩ = .error err) ∨
      ∃ columns results, readResultSet g set.delivered = .ok results ∧
        Rows.columns ⟨set, later, false, lasterr⟩ = .ok columns ∧
        Rows.collect (rowMap g columns) ⟨set, later, false, lasterr⟩ = (results, none,
          (Rows.next ⟨⟨set.columns, set.rows.dropWhile (·.1.isNone), set.fault⟩, later, false,
            lasterr⟩).2) := by
  obtain ⟨columns | columns, rows, fault⟩ := set
  · exact .inl ⟨columns, rfl, readSets_of_columns_error rfl⟩
  · cases h : (rows.takeWhile (·.1.isNone)).mapM fun row => rowMap g columns <$> row.2 with
    | error err =>
      exact .inl ⟨err, (readResultSet_delivered columns).trans h,
        readSets_of_scan_error rfl (Rows.collect_unscanned h)⟩
    | ok results =>
      exact .inr ⟨columns, results, (readResultSet_delivered columns).trans h, rfl,
        Rows.collect_delivered h⟩

private theorem dropWhile_eq_nil_iff :
    rows.dropWhile (·.1.isNone) = [] ↔ ∀ row ∈ rows, row.1 = none := by
  simp [List.dropWhile_eq_nil_iff]

/-- The loops read what is delivered before the first error strikes. -/
theorem readSets_eq (later : List (Option X × RowSet V X)) :
    readSets g ⟨set, later, false, lasterr⟩ =
      (deliveredSets set later).mapM (readResultSet g) := by
  induction later generalizing set with
  | nil =>
    rw [deliveredSets, List.mapM_cons]
    rcases readSets_round g lasterr [] set with
      ⟨err, hset, hread⟩ | ⟨columns, results, hset, hcolumns, hcollect⟩
    · rw [hread, hset]
      rfl
    · rw [hset, readSets_of_last hcolumns hcollect
        (Rows.nextResultSet_of_ended fun _ _ hlater => by cases hlater)]
      rfl
  | cons next later ih =>
    obtain ⟨struck, set'⟩ := next
    rw [deliveredSets]
    rcases readSets_round g lasterr ((struck, set') :: later) set with
      ⟨err, hset, hread⟩ | ⟨columns, results, hset, hcolumns, hcollect⟩
    · rw [hread]
      split <;> rw [List.mapM_cons, hset] <;> rfl
    · by_cases hpassed : (∀ row ∈ set.rows, row.1 = none) ∧ set.fault = none ∧ struck = none
      · obtain ⟨hrows, hfault, rfl⟩ := id hpassed
        rw [if_pos hpassed, List.mapM_cons, hset, readSets_of_more hcolumns hcollect
          (Rows.nextResultSet_of_passed (dropWhile_eq_nil_iff.mpr hrows) hfault), ih set',
          map_eq_pure_bind]
        rfl
      · rw [if_neg hpassed, List.mapM_cons, hset, readSets_of_last hcolumns hcollect]
        · rfl
        · refine Rows.nextResultSet_of_ended fun _ _ hlater hrows hfault => hpassed ?_
          exact ⟨dropWhile_eq_nil_iff.mp hrows, hfault,
            congrArg Prod.fst (List.cons.inj hlater).1⟩

private theorem delivered_of_unstruck {set : RowSet V X} (h : ∀ row ∈ set.rows, row.1 = none) :
    set.delivered = set.content := by
  rw [RowSet.delivered, List.takeWhile_eq_self_iff.mpr (by simpa using h), RowSet.content]

/-- As long as no error strikes, everything is delivered. -/
theorem deliveredSets_of_unbroken (h : Unbroken set later) :
    deliveredSets set later = (set :: later.map (·.2)).map RowSet.content := by
  induction later generalizing set with
  | nil => rw [deliveredSets, delivered_of_unstruck h, List.map_nil, List.map_singleton]
  | cons next later ih =>
    obtain ⟨hrows, hfault, hstruck, hlater⟩ := h
    rw [deliveredSets, if_pos ⟨hrows, hfault, hstruck⟩, delivered_of_unstruck hrows,
      ih _ hlater]
    rfl

private theorem readSets_of_unbroken (h : Unbroken set later) :
    readSets g ⟨set, later, false, lasterr⟩ = (ResultStream.mk set later).everyRow g := by
  rw [readSets_eq, deliveredSets_of_unbroken set h, ResultStream.everyRow, List.mapM_map]
  rfl

/-- When as many rows are delivered as there are, no error has struck before the last one. -/
theorem unbroken_of_lengths
    (h : (deliveredSets set later).map (·.rows.length) =
      (set :: later.map (·.2)).map (·.rows.length)) : Unbroken set later := by
  have hrows : ∀ set : RowSet V X, set.delivered.rows.length = set.rows.length →
      ∀ row ∈ set.rows, row.1 = none := by
    intro set hlength
    rw [RowSet.delivered, List.length_map] at hlength
    have htake := (List.takeWhile_sublist (·.1.isNone) (l := set.rows)).eq_of_length hlength
    simpa using List.takeWhile_eq_self_iff.mp htake
  induction later generalizing set with
  | nil => exact hrows set (List.cons.inj h).1
  | cons next later ih =>
    rw [deliveredSets] at h
    split at h
    · rename_i hpassed
      exact ⟨hpassed.1, hpassed.2.1, hpassed.2.2, ih _ (List.cons.inj h).2⟩
    · cases (List.cons.inj h).2

private theorem length_of_readResultSet {set : ResultSet V X} {results : List (String → Option V)}
    (h : readResultSet g set = .ok results) : results.length = set.rows.length := by
  obtain ⟨columns, rows⟩ := set
  cases columns with
  | error err => cases h
  | ok columns => exact Rows.length_of_mapM h

private theorem lengths_of_mapM {sets : List (ResultSet V X)}
    {results : List (List (String → Option V))} (h : sets.mapM (readResultSet g) = .ok results) :
    sets.map (·.rows.length) = results.map (·.length) := by
  induction sets generalizing results with
  | nil =>
    cases h
    rfl
  | cons set sets ih =>
    obtain ⟨first, rest, hfirst, hrest, rfl⟩ := Rows.mapM_cons_eq_ok_iff.mp h
    rw [List.map_cons, List.map_cons, ih hrest, length_of_readResultSet hfirst]

/-- When an error strikes too early, what is read without an error is not everything. -/
theorem readSets_of_broken (h : ¬ Unbroken set later) {results : List (List (String → Option V))}
    (hread : readSets g ⟨set, later, false, lasterr⟩ = .ok results) :
    (ResultStream.mk set later).everyRow g ≠ .ok results := by
  intro hevery
  rw [readSets_eq] at hread
  have hall : ((set :: later.map (·.2)).map RowSet.content).mapM (readResultSet g) =
      .ok results := by
    rw [List.mapM_map]
    exact hevery
  refine h (unbroken_of_lengths set ?_)
  rw [lengths_of_mapM hread, ← lengths_of_mapM hall, List.map_map]
  simp [RowSet.content, Function.comp_def]

private theorem readResultSet_error_iff (set : ResultSet V X) :
    (∃ err, readResultSet g set = .error err) ↔ set.Fails := by
  obtain ⟨columns | columns, rows⟩ := set
  · exact iff_of_true ⟨columns, rfl⟩ (.inl ⟨columns, rfl⟩)
  · refine Rows.mapM_error_iff.trans ?_
    constructor
    · rintro ⟨row, hrow, err, herr⟩
      cases row with
      | error err' => exact .inr ⟨err', hrow⟩
      | ok values => cases herr
    · rintro (⟨err, herr⟩ | ⟨err, herr⟩)
      · cases herr
      · exact ⟨_, herr, err, rfl⟩

/-- The loops fail when a result set that is delivered fails. -/
theorem readSets_error_iff (g : Driver D Ω V X) (stream : ResultStream V X) :
    (∃ err, readSets g stream.rows = .error err) ↔
      ∃ set ∈ deliveredSets stream.first stream.later, set.Fails := by
  simp only [ResultStream.rows, readSets_eq, Rows.mapM_error_iff, readResultSet_error_iff]

end Reading

/-- The answer of the database to a call of the procedure, if it comes to one. -/
def procedureReply (w : World D Ω V) : Option (Reply V X) :=
  let reply := ((g.issue .conn (procedureCall procName args)).run w).1
  if validProcName procName = true ∧ g.poolError.isNone ∧ reply.error.isNone then
    some reply
  else
    none

variable {g}

/-- A call fails before there are rows, or reads them. -/
theorem callProcedureRows_run (w : World D Ω V) :
    (∃ err, procedureReply g procName args w = none ∧
        ((callProcedureRows g query procName args).run w).1 = .error err) ∨
      ∃ reply, procedureReply g procName args w = some reply ∧
        ((callProcedureRows g query procName args).run w).1 = readSets g (query reply).rows := by
  unfold callProcedureRows procedureReply
  cases hname : validProcName procName with
  | false => exact .inl ⟨_, by simp, rfl⟩
  | true =>
    cases hpool : g.poolError with
    | some err => exact .inl ⟨err, by simp, rfl⟩
    | none =>
      rcases hissue : (g.issue .conn (procedureCall procName args)).run w with
        ⟨⟨_ | err, rowsAffected, count, resultSet, moreResultSets⟩, w'⟩
      · simp only [Bool.true_eq_false, if_false, StateT.run_bind, hissue]
        exact .inr ⟨_, rfl, rfl⟩
      · simp only [Bool.true_eq_false, if_false, StateT.run_bind, hissue]
        exact .inl ⟨err, rfl, rfl⟩

private theorem unbroken_ofReply (reply : Reply V X) :
    Unbroken (ResultStream.ofReply reply).first (ResultStream.ofReply reply).later := by
  obtain ⟨error, rowsAffected, count, resultSet, moreResultSets⟩ := reply
  unfold ResultStream.ofReply
  induction moreResultSets generalizing resultSet with
  | nil => simp [Unbroken]
  | cons set sets ih => exact ⟨by simp, rfl, rfl, ih set⟩

private theorem everyRow_ofReply (reply : Reply V X) :
    (ResultStream.ofReply reply).everyRow g =
      (reply.resultSet :: reply.moreResultSets).mapM (readResultSet g) := by
  obtain ⟨error, rowsAffected, count, ⟨columns, rows⟩, moreResultSets⟩ := reply
  simp [ResultStream.ofReply, ResultStream.everyRow, RowSet.content, List.mapM_cons, List.mapM_map,
    Function.comp_def]

/-- Without errors in between the call is the one that reads complete result sets. -/
theorem callProcedureRows_ofReply :
    callProcedureRows g ResultStream.ofReply procName args = callProcedure g procName args := by
  have hread (reply : Reply V X) : readSets g (ResultStream.ofReply reply).rows =
      (reply.resultSet :: reply.moreResultSets).mapM (readResultSet g) := by
    rw [← everyRow_ofReply]
    exact readSets_of_unbroken _ (unbroken_ofReply reply)
  unfold callProcedureRows
  simp only [hread]
  rfl

/-- Whatever the database answers, a call without an error has returned every row exactly when no
error strikes before the last row, or `Columns` or `Scan` has failed on what is delivered before the
first error. -/
theorem callProcedure_complete_iff (w : World D Ω V) :
    (∀ results, ((callProcedureRows g query procName args).run w).1 = .ok results →
        ∃ reply, procedureReply g procName args w = some reply ∧
          (query reply).everyRow g = .ok results) ↔
      ∀ reply, procedureReply g procName args w = some reply →
        Unbroken (query reply).first (query reply).later ∨
          ∃ set ∈ deliveredSets (query reply).first (query reply).later, set.Fails := by
  rcases callProcedureRows_run query procName args w with
    ⟨err, hreply, hrun⟩ | ⟨reply, hreply, hrun⟩
  · rw [hrun, hreply]
    exact iff_of_true (fun _ hresults => by cases hresults) (fun _ hnone => by cases hnone)
  · rw [hrun, hreply]
    simp only [Option.some.injEq, forall_eq', exists_eq_left']
    rw [← readSets_error_iff g]
    constructor
    · intro hcomplete
      by_cases hunbroken : Unbroken (query reply).first (query reply).later
      · exact .inl hunbroken
      · cases hread : readSets g (query reply).rows with
        | error err => exact .inr ⟨err, rfl⟩
        | ok results =>
          exact absurd (hcomplete results hread) (readSets_of_broken _ hunbroken hread)
    · rintro (hunbroken | ⟨err, herr⟩) results hread
      · rw [← hread]
        exact (readSets_of_unbroken _ hunbroken).symm
      · cases herr.symm.trans hread

/-- The connection is lost after the first of two rows. -/
def lostAfterFirstRow : ResultStream Unit Unit :=
  ⟨⟨.ok ["id"], [(none, .ok [()]), (some (), .ok [()])], none⟩, []⟩

/-- The call returns the one row and no error. -/
theorem callProcedure_truncates :
    ∃ results, ((callProcedureRows countingDriver (fun _ => lostAfterFirstRow) "report" []).run
        ⟨0, [], (), []⟩).1 = .ok results ∧
      results.map (·.length) = [1] ∧
      ∃ full, lostAfterFirstRow.everyRow countingDriver = .ok full ∧
        full.map (·.length) = [2] := by
  have hcollect : lostAfterFirstRow.rows.collect (rowMap countingDriver ["id"]) =
      ([rowMap countingDriver ["id"] [()]], none, lostAfterFirstRow.rows.next.2.fail ()) := by
    rw [Rows.collect_of_ok rfl, Rows.collect_of_none rfl]
    rfl
  have hread : readSets countingDriver lostAfterFirstRow.rows =
      .ok [[rowMap countingDriver ["id"] [()]]] := readSets_of_last rfl hcollect rfl
  exact ⟨_, hread, rfl, _, rfl, rfl⟩

end OrmBaseDao

/-- `scanRows` of the ClickHouse client, which appends to its destination: it asks for the error
that has ended its loop. -/
def scanRows (isSlicePtr : Bool) (elem : List String → List V → A) (rs : Rows V X)
    (dest : List A) : Option (DbError X) × List A :=
  if isSlicePtr = false then
    (some (.message "clickhouse: dest must be a pointer to a slice"), dest)
  else
    match rs.columns with
    | .error err => (some err, dest)
    | .ok cols =>
      match rs.collect (elem cols) with
      | (elems, some err, _) => (some err, dest ++ elems)
      | (elems, none, rs') => (rs'.err, dest ++ elems)

/-- So it returns no error only with every row. -/
theorem scanRows_complete {isSlicePtr : Bool} {elem : List String → List V → A}
    {stream : ResultStream V X} {dest dest' : List A}
    (h : scanRows isSlicePtr elem stream.rows dest = (none, dest')) :
    ∃ cols elems, stream.first.columns = .ok cols ∧
      stream.first.rows.mapM (fun row => elem cols <$> row.2) = .ok elems ∧
        dest' = dest ++ elems := by
  obtain ⟨⟨columns, rows, fault⟩, later⟩ := stream
  unfold scanRows at h
  split at h
  · cases h
  · cases columns with
    | error err => cases h
    | ok cols =>
      simp only [ResultStream.rows, Rows.columns, Bool.false_eq_true, if_false] at h
      cases hscan : (rows.takeWhile (·.1.isNone)).mapM (fun row => elem cols <$> row.2) with
      | error err =>
        have herr : (Rows.collect (elem cols)
            ⟨⟨.ok cols, rows, fault⟩, later, false, none⟩).2.1 = some err :=
          Rows.collect_unscanned hscan
        split at h <;> simp_all
      | ok elems =>
        rw [Rows.collect_delivered hscan] at h
        obtain ⟨herr, rfl⟩ := Prod.mk.inj h
        have hrows : rows.dropWhile (·.1.isNone) = [] := by
          cases hdrop : rows.dropWhile (·.1.isNone) with
          | nil => rfl
          | cons row rest =>
            obtain ⟨x, values, rfl⟩ := Rows.struck_of_dropWhile hdrop
            rw [hdrop] at herr
            cases herr
        rw [List.takeWhile_eq_self_iff.mpr (List.dropWhile_eq_nil_iff.mp hrows)] at hscan
        exact ⟨cols, elems, rfl, hscan, rfl⟩

/-- Two rows, and another result set that is never reached. -/
def twoRows : ResultStream Nat Unit :=
  ⟨⟨.ok ["n"], [(none, .ok [7]), (none, .ok [8])], none⟩, [(some (), ⟨.ok [], [], none⟩)]⟩

/-- The rows of which the second is lost. -/
def secondLost : ResultStream Nat Unit :=
  ⟨⟨.ok ["n"], [(none, .ok [7]), (some (), .ok [8])], none⟩, []⟩

/-- Both rows are appended, and the loss of the second one is reported. -/
theorem scanRows_complete_twoRows :
    (∃ cols elems, twoRows.first.columns = .ok cols ∧
      twoRows.first.rows.mapM (fun row => (·.headD 0) <$> row.2) = .ok elems ∧
        [5, 7, 8] = [5] ++ elems) ∧
      scanRows true (fun _ => (·.headD 0)) secondLost.rows [5] = (some (.driver ()), [5, 7]) := by
  have h : scanRows true (fun _ => (·.headD 0)) twoRows.rows [5] = (none, [5, 7, 8]) := by
    simp [twoRows, scanRows, Rows.collect, Rows.next, Rows.columns, Rows.err, ResultStream.rows]
  refine ⟨scanRows_complete h, ?_⟩
  simp [secondLost, scanRows, Rows.collect, Rows.next, Rows.columns, Rows.err, Rows.fail,
    ResultStream.rows]

end Stardust.Databases
