import Stardust.Core.Effects
import Stardust.Databases.Dao

/-!
# Atomicity of a session

What an operation does to the database is what its statements do on the handles they are
issued on. Inside a session that handle is the transaction, except for the one operation
that always takes the base connection.
-/

namespace Stardust.Databases

open Stardust.Core OrmBaseDao

variable {D Ω V X : Type}

/-- The operation sends a statement to the base connection whatever the session. -/
def Op.Bypasses (g : Driver D Ω V X) : Op V → Prop
  | .callProcedure procName _ => validProcName procName = true ∧ g.poolError = none
  | _ => False

section Operations

variable {g : Driver D Ω V X} {m : OrmBaseDao} {R : World D Ω V → World D Ω V → Prop}
  [Std.Refl R] [IsTrans (World D Ω V) R]

/-- A writing operation keeps what its one statement keeps. -/
theorem OrmBaseDao.affected_keeps (h : ∀ stmt, Keeps R (g.issue m.db stmt)) (stmt : Stmt V) :
    Keeps R (m.affected g stmt) := by
  apply Keeps.bind (h stmt)
  intro result
  split <;> exact Keeps.pure _

/-- A reading operation keeps what its one statement keeps. -/
theorem OrmBaseDao.firstFound_keeps (h : ∀ stmt, Keeps R (g.issue m.db stmt)) (bean : V)
    (conditions : List V) : Keeps R (m.firstFound g bean conditions) := by
  apply Keeps.bind (h _)
  intro result
  split <;> exact Keeps.pure _

/-- The loop of upserts keeps what each of them keeps. -/
theorem OrmBaseDao.upsertMany_keeps (h : ∀ stmt, Keeps R (g.issue m.db stmt)) (beans : List V)
    (totalAffected : Int) : Keeps R (m.upsertMany g beans totalAffected) := by
  induction beans generalizing totalAffected with
  | nil => exact Keeps.pure _
  | cons bean beans ih =>
    apply Keeps.bind (affected_keeps h _)
    rintro ⟨affected, err⟩
    cases err with
    | some err => exact Keeps.pure _
    | none => exact ih _

/-- Counting keeps what its one statement keeps. -/
theorem OrmBaseDao.count_keeps (h : ∀ stmt, Keeps R (g.issue m.db stmt)) (bean : V) :
    Keeps R (m.count g bean) :=
  Keeps.bind (h _) fun _ => Keeps.pure _

/-- Finding a page keeps what its two statements keep. -/
theorem OrmBaseDao.findAndCount_keeps (h : ∀ stmt, Keeps R (g.issue m.db stmt)) (rowsSlicePtr : V)
    (pageable : Pageable) (condiBean : List V) :
    Keeps R (m.findAndCount g rowsSlicePtr pageable condiBean) := by
  unfold findAndCount
  split
  · exact Keeps.pure _
  · apply Keeps.bind (h _)
    intro counted
    split
    · exact Keeps.pure _
    · exact Keeps.bind (h _) fun _ => Keeps.pure _

/-- A procedure call keeps what the base connection keeps, if it gets that far. -/
theorem OrmBaseDao.callProcedure_keeps {procName : String} (args : List V)
    (h : Op.Bypasses g (.callProcedure procName args) → ∀ stmt, Keeps R (g.issue .conn stmt)) :
    Keeps R (callProcedure g procName args) := by
  unfold callProcedure
  split
  · exact Keeps.pure _
  · rename_i hvalid
    split
    · exact Keeps.pure _
    · rename_i hpool
      apply Keeps.bind
      · apply h
        exact ⟨eq_true_of_ne_false hvalid, Option.eq_none_iff_forall_ne_some.mpr hpool⟩
      · intro rows
        split <;> exact Keeps.pure _

/-- An operation keeps what the statements on its handles keep. -/
theorem OrmBaseDao.perform_keeps {op : Op V} (hdb : ∀ stmt, Keeps R (g.issue m.db stmt))
    (hconn : op.Bypasses g → ∀ stmt, Keeps R (g.issue .conn stmt)) :
    Keeps R (m.perform g op) := by
  cases op with
  | insertMany entries =>
    apply Keeps.discard
    unfold insertMany
    split
    · exact Keeps.pure _
    · exact affected_keeps hdb _
  | update bean conditions =>
    cases conditions <;> exact (affected_keeps hdb _).discard
  | upsertMany beans => exact (upsertMany_keeps hdb beans 0).discard
  | query | findMany => exact (Keeps.bind (hdb _) fun _ => Keeps.pure _).discard
  | findById | findOne => exact (firstFound_keeps hdb _ _).discard
  | findAndCount => exact (findAndCount_keeps hdb _ _ _).discard
  | count => exact (count_keeps hdb _).discard
  | exists_ bean =>
    apply Keeps.discard
    apply Keeps.bind (count_keeps hdb bean)
    rintro ⟨count, err⟩
    cases err <;> exact Keeps.pure _
  | callProcedure procName args => exact (callProcedure_keeps args hconn).discard
  | _ => exact (affected_keeps hdb _).discard

/-- A sequence of operations keeps what each of them keeps. -/
theorem OrmBaseDao.performAll_keeps {ops : List (Op V)} (h : ∀ op ∈ ops, Keeps R (m.perform g op)) :
    Keeps R (m.performAll g ops) := by
  induction ops with
  | nil => exact Keeps.pure _
  | cons op ops ih =>
    apply Keeps.bind (h op (List.mem_cons_self ..))
    intro _
    exact ih fun op' hop' => h op' (List.mem_cons_of_mem _ hop')

end Operations

/-- Everything between the two states was issued on one handle. -/
def IssuedOn (handle : Handle) (w w' : World D Ω V) : Prop :=
  ∃ stmts, w'.issued = w.issued ++ stmts ∧ ∀ entry ∈ stmts, entry.1 = handle

/-- Everything was issued on the transaction, and nothing was published. -/
def Confined (tx : Nat) (w w' : World D Ω V) : Prop :=
  IssuedOn (.tx tx) w w' ∧ w'.committed = w.committed

instance (tx : Nat) : Std.Refl (Confined tx : World D Ω V → World D Ω V → Prop) where
  refl w := ⟨⟨[], by simp⟩, rfl⟩

instance (tx : Nat) : IsTrans (World D Ω V) (Confined tx) where
  trans := by
    rintro w₁ w₂ w₃ ⟨⟨stmts, hissued, hon⟩, hcommitted⟩ ⟨⟨stmts', hissued', hon'⟩, hcommitted'⟩
    refine ⟨⟨stmts ++ stmts', ?_, ?_⟩, hcommitted'.trans hcommitted⟩
    · rw [hissued', hissued, List.append_assoc]
    · intro entry hmem
      rcases List.mem_append.mp hmem with hmem | hmem
      · exact hon entry hmem
      · exact hon' entry hmem

/-- A statement on the transaction is confined to it. -/
theorem issue_tx_confined (g : Driver D Ω V X) (tx : Nat) (stmt : Stmt V) :
    Keeps (Confined tx) (g.issue (.tx tx) stmt) := by
  intro w
  refine ⟨⟨_, g.issue_issued (.tx tx) stmt w, ?_⟩, g.issue_tx_committed tx stmt w⟩
  intro entry hmem
  rw [List.mem_singleton.mp hmem]

/-- How many statements were issued on the base connection. -/
def World.connIssued (w : World D Ω V) : Nat := w.issued.countP fun entry => entry.1 = .conn

/-- Statements on the base connection are never forgotten. -/
def ConnGrows (w w' : World D Ω V) : Prop := w.connIssued ≤ w'.connIssued

instance : Std.Refl (ConnGrows : World D Ω V → World D Ω V → Prop) where
  refl _ := Nat.le_refl _

instance : IsTrans (World D Ω V) ConnGrows where
  trans _ _ _ := Nat.le_trans

/-- Work on a transaction leaves the base connection alone. -/
theorem IssuedOn.connIssued_eq {tx : Nat} {w w' : World D Ω V} (h : IssuedOn (.tx tx) w w') :
    w'.connIssued = w.connIssued := by
  obtain ⟨stmts, hissued, hon⟩ := h
  have hnone : stmts.countP (fun entry => entry.1 = .conn) = 0 := by
    rw [List.countP_eq_zero]
    intro entry hmem
    simp [hon entry hmem]
  rw [World.connIssued, hissued, List.countP_append, hnone]
  rfl

/-- Every statement keeps the log of the base connection growing. -/
theorem issue_connGrows (g : Driver D Ω V X) (handle : Handle) (stmt : Stmt V) :
    Keeps ConnGrows (g.issue handle stmt) := by
  intro w
  rw [ConnGrows, World.connIssued, World.connIssued, g.issue_issued, List.countP_append]
  exact Nat.le_add_right _ _

/-- A sequence of operations keeps the log of the base connection growing. -/
theorem performAll_connGrows (g : Driver D Ω V X) (m : OrmBaseDao) (ops : List (Op V)) :
    Keeps ConnGrows (m.performAll g ops) :=
  performAll_keeps fun _ _ =>
    perform_keeps (issue_connGrows g _) fun _ => issue_connGrows g _

variable {g : Driver D Ω V X}

/-- A procedure call that gets that far does to the database what its statement does. -/
theorem OrmBaseDao.callProcedure_run {procName : String} (hvalid : validProcName procName = true)
    (hpool : g.poolError = none) (args : List V) (w : World D Ω V) :
    ((callProcedure g procName args).run w).2 =
      ((g.issue .conn (procedureCall procName args)).run w).2 := by
  unfold callProcedure
  rw [hvalid, hpool]
  apply Keeps.run_bind_snd
  intro rows
  split <;> exact fun _ => rfl

/-- A bypassing operation adds a statement on the base connection. -/
theorem Op.Bypasses.connIssued_lt {op : Op V} (h : op.Bypasses g) (m : OrmBaseDao)
    (w : World D Ω V) : w.connIssued < ((m.perform g op).run w).2.connIssued := by
  cases op with
  | callProcedure procName args =>
    change _ < World.connIssued ((OrmBaseDao.callProcedure g procName args).run w).2
    rw [OrmBaseDao.callProcedure_run h.1 h.2, World.connIssued, World.connIssued,
      g.issue_issued, List.countP_append]
    simp
  | _ => exact h.elim

/-- Operations one after the other. -/
theorem OrmBaseDao.performAll_append (g : Driver D Ω V X) (m : OrmBaseDao) (ops ops' : List (Op V))
    (w : World D Ω V) :
    ((m.performAll g (ops ++ ops')).run w).2 =
      ((m.performAll g ops').run ((m.performAll g ops).run w).2).2 := by
  induction ops generalizing w with
  | nil => rfl
  | cons op ops ih => exact ih _

/-- A bypassing operation anywhere in the sequence reaches the base connection. -/
theorem connIssued_lt_of_bypasses {op : Op V} {ops : List (Op V)} (hop : op ∈ ops)
    (h : op.Bypasses g) (m : OrmBaseDao) (w : World D Ω V) :
    w.connIssued < ((m.performAll g ops).run w).2.connIssued := by
  obtain ⟨before, after, rfl⟩ := List.append_of_mem hop
  rw [performAll_append]
  calc w.connIssued ≤ ((m.performAll g before).run w).2.connIssued :=
        performAll_connGrows g m before w
    _ < ((m.perform g op).run ((m.performAll g before).run w).2).2.connIssued :=
        h.connIssued_lt m _
    _ ≤ _ := performAll_connGrows g m after _

/-- A successful begin hands the session its open transaction. -/
theorem OrmBaseDao.begin_ok {m m' : OrmBaseDao} {w w' : World D Ω V}
    (h : (m.begin g).run w = ((none, m'), w')) :
    m' = ⟨some w.txs.length, true⟩ ∧ w'.IsOpen w.txs.length ∧ w'.committed = w.committed := by
  have hid := g.beginTx_id w
  unfold begin at h
  split at h
  · cases h
  · rw [StateT.run_bind] at h
    change StateT.run _ (g.beginTx.run w).2 = _ at h
    cases hbegun : (g.beginTx.run w).1.2 with
    | some err =>
      simp only [hbegun] at h
      cases h
    | none =>
      simp only [hbegun] at h
      cases h
      exact ⟨by rw [hid], g.beginTx_ok hbegun, (g.beginTx_frame w).1⟩

/-- Without bypassing operations a session is confined to its transaction. -/
theorem performAll_confined {tx : Nat} {ops : List (Op V)} (h : ∀ op ∈ ops, ¬ op.Bypasses g) :
    Keeps (Confined tx) (performAll g ⟨some tx, true⟩ ops) := by
  apply performAll_keeps
  intro op hop
  apply perform_keeps
  · exact issue_tx_confined g tx
  · intro hbypass
    exact absurd hbypass (h op hop)

/-- Between a successful begin and the rollback, everything is issued on the open
transaction and undone exactly when no operation bypasses the session. -/
theorem session_atomic_iff_no_bypass {m m' : OrmBaseDao} {w w₁ : World D Ω V}
    (hbegin : (m.begin g).run w = ((none, m'), w₁)) (ops : List (Op V)) :
    ((∃ tx, w₁.IsOpen tx ∧ IssuedOn (.tx tx) w₁ ((m'.performAll g ops).run w₁).2) ∧
        ((m'.rollback g).run ((m'.performAll g ops).run w₁).2).2.committed = w.committed) ↔
      ∀ op ∈ ops, ¬ op.Bypasses g := by
  obtain ⟨rfl, hopen, hcommitted⟩ := begin_ok hbegin
  constructor
  · rintro ⟨⟨tx, -, hissued⟩, -⟩ op hop hbypass
    have hlt := connIssued_lt_of_bypasses hop hbypass ⟨some w.txs.length, true⟩ w₁
    rw [hissued.connIssued_eq] at hlt
    exact Nat.lt_irrefl _ hlt
  · intro hnone
    obtain ⟨hissued, hkept⟩ := performAll_confined hnone w₁
    refine ⟨⟨_, hopen, hissued⟩, ?_⟩
    calc _ = (((performAll g ⟨some w.txs.length, true⟩ ops).run w₁).2).committed :=
          (g.rollbackTx_frame _ _).1
      _ = w.committed := hkept.trans hcommitted

/-- Writes, and a procedure call that is refused for its name. -/
def writesAndRefusedCall : List (Op Unit) :=
  [.insertOne (), .upsertMany [(), ()], .callProcedure "drop table" []]

/-- The writes of a session are undone by its rollback. -/
theorem session_atomic_after_writes :
    ∃ m' w₁, (newSession.begin countingDriver).run ⟨7, [], (), []⟩ = ((none, m'), w₁) ∧
      (∃ tx, w₁.IsOpen tx ∧
        IssuedOn (.tx tx) w₁ ((m'.performAll countingDriver writesAndRefusedCall).run w₁).2) ∧
      ((m'.rollback countingDriver).run
        ((m'.performAll countingDriver writesAndRefusedCall).run w₁).2).2.committed = 7 := by
  refine ⟨⟨some 0, true⟩, ⟨7, [some 7], (), []⟩, rfl, ?_⟩
  apply (session_atomic_iff_no_bypass (m := newSession) (w := ⟨7, [], (), []⟩) rfl _).mpr
  intro op hop hbypass
  simp only [writesAndRefusedCall, List.mem_cons, List.not_mem_nil, or_false] at hop
  rcases hop with rfl | rfl | rfl
  · exact hbypass
  · exact hbypass
  · exact absurd hbypass.1 (by decide)

/-- A procedure called in a session keeps its effect after the rollback. -/
theorem session_not_atomic_after_call :
    ∃ m' w₁, (newSession.begin countingDriver).run ⟨7, [], (), []⟩ = ((none, m'), w₁) ∧
      ((m'.performAll countingDriver [.callProcedure "refill" []]).run w₁).2.issued =
        [(.conn, .call "CALL refill()" [])] ∧
      ((m'.rollback countingDriver).run ((m'.performAll countingDriver
        [.callProcedure "refill" []]).run w₁).2).2.committed = 8 := by
  refine ⟨⟨some 0, true⟩, ⟨7, [some 7], (), []⟩, rfl, ?_, ?_⟩
  · decide
  · decide

end Stardust.Databases
