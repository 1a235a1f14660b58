import Stardust.Databases.SessionWrapper

/-!
# Copies of one wrapper

`Execute` leaves the copy it is called on as it was and returns another one, so a caller who keeps
the old copy has one without the error. The shared session may be out of its transaction by then,
and the functions of that copy work on the base connection. So does a function that has itself ended
the transaction, or that goes past the session.
-/

namespace Stardust.Databases

open Stardust.Core OrmBaseDao

variable {D Ω V X : Type} {g : Driver D Ω V X}

/-- Whether a transaction is open after an operation, by whether one was before and by the error. -/
def FuncOp.leaves (isOpen : Bool) (err : Option (DbError X)) : FuncOp V → Bool
  | .issue _ | .native _ => isOpen
  | .control .begin => isOpen || err.isNone
  | .control _ | .endDB _ => false

/-- Whether a transaction is open after these operations. -/
def stillOpen (isOpen : Bool) (acts : List (FuncOp V × Option (DbError X))) : Bool :=
  acts.foldl (fun isOpen act => act.1.leaves isOpen act.2) isOpen

/-- Every statement among the operations is one on `session.DB()` while a transaction is open. -/
def staysInside : Bool → List (FuncOp V × Option (DbError X)) → Bool
  | _, [] => true
  | isOpen, (op, err) :: acts =>
    (match op with
      | .issue _ => isOpen
      | .native _ => false
      | .control _ | .endDB _ => true) && staysInside (op.leaves isOpen err) acts

/-- A call on the copy with a number. -/
inductive WrapperCall (V X : Type) where
  | execute (i : Nat) (func : ExecuteFunc V X)
  | commit (i : Nat)
  | commitAndClose (i : Nat)
  | close (i : Nat)

/-- The call is meant to end the transaction. -/
def WrapperCall.ends : WrapperCall V X → Bool
  | .execute _ _ => false
  | .commit _ | .commitAndClose _ | .close _ => true

/-- All copies of one wrapper, by the order in which they came about. -/
structure Copies (D Ω V X : Type) where
  copies : List (SessionWrapper X)
  shared : Shared D Ω V X
  calls : List (WrapperCall V X)

namespace Copies

variable {c c' : Copies D Ω V X} {l : WrapperCall V X} {s s' : Shared D Ω V X}

/-- A new wrapper on a session of its own. -/
def start (g : Driver D Ω V X) (s : Shared D Ω V X) : Copies D Ω V X :=
  ⟨[((newSessionWrapper g).run s).1], ((newSessionWrapper g).run s).2, []⟩

/-- Call a method that returns no new copy. -/
def use (c : Copies D Ω V X) (l : WrapperCall V X) (i : Nat)
    (method : SessionWrapper X → StateM (Shared D Ω V X) (Option (DbError X))) :
    Option (Copies D Ω V X) :=
  (c.copies[i]?).map fun sw =>
    { c with shared := ((method sw).run c.shared).2, calls := c.calls ++ [l] }

/-- One call on a copy. -/
def step (g : Driver D Ω V X) (c : Copies D Ω V X) : WrapperCall V X → Option (Copies D Ω V X)
  | .execute i func =>
    (c.copies[i]?).map fun sw =>
      ⟨c.copies ++ [((sw.execute g func).run c.shared).1], ((sw.execute g func).run c.shared).2,
        c.calls ++ [.execute i func]⟩
  | .commit i => c.use (.commit i) i (·.commit g)
  | .commitAndClose i => c.use (.commitAndClose i) i (·.commitAndClose g)
  | .close i => c.use (.close i) i (·.close g)

/-- Some call was meant to end the transaction, some function has failed, or some function has
itself ended the transaction and begun no other. -/
def Over (c : Copies D Ω V X) : Prop :=
  (∃ l ∈ c.calls, l.ends = true) ∨ (∃ sw ∈ c.copies, sw.err.isSome = true) ∨
    ∃ call ∈ c.shared.called, stillOpen true call.acts = false

/-- Every function that was called ran inside an open transaction. -/
def AllInside (c : Copies D Ω V X) : Prop := ∀ call ∈ c.shared.called, call.inside = true

/-- `Execute` is called on a copy without an error only while the transaction is not over, with a
function whose statements go to `session.DB()`, none of them between the end of one transaction and
the begin of the next. -/
def InTime (g : Driver D Ω V X) (c : Copies D Ω V X) : WrapperCall V X → Prop
  | .execute i func => ∀ sw ∈ c.copies[i]?, sw.err.isSome = false →
    ¬c.Over ∧ staysInside true (func.call g c.shared.session c.shared.world).acts = true
  | _ => True

instance (c : Copies D Ω V X) : Decidable c.Over := inferInstanceAs (Decidable (_ ∨ _))

instance (c : Copies D Ω V X) : (l : WrapperCall V X) → Decidable (c.InTime g l)
  | .execute i func => inferInstanceAs (Decidable (∀ sw ∈ c.copies[i]?, sw.err.isSome = false →
    ¬c.Over ∧ staysInside true (func.call g c.shared.session c.shared.world).acts = true))
  | .commit _ | .commitAndClose _ | .close _ => isTrue trivial

/-- All calls on the copies of one wrapper. -/
def wrappers (g : Driver D Ω V X) : System (Copies D Ω V X) (WrapperCall V X) where
  init c := ∃ s, s.called = [] ∧ c = start g s
  step := step g

end Copies

/-- A session in a transaction has one. -/
def OrmBaseDao.Proper (m : OrmBaseDao) : Prop := m.inTrans = true → ∃ tx, m.tx = some tx

section Methods

variable {m : OrmBaseDao}

private theorem OrmBaseDao.proper_of_out (h : m.inTrans = false) : m.Proper := by
  intro hin
  rw [h] at hin
  cases hin

private theorem OrmBaseDao.rollback_out (hproper : m.Proper) (w : World D Ω V) :
    ((m.rollback g).run w).1.2.inTrans = false ∧
      ((m.rollback g).run w).2.issued = w.issued := by
  rcases m with ⟨tx, _ | _⟩
  · exact ⟨rfl, rfl⟩
  · obtain ⟨id, rfl⟩ := hproper rfl
    exact ⟨rfl, (g.rollbackTx_frame id w).2⟩

private theorem OrmBaseDao.commit_out (hproper : m.Proper) (w : World D Ω V) :
    ((m.commit g).run w).1.2.inTrans = false ∧ ((m.commit g).run w).2.issued = w.issued := by
  rcases m with ⟨tx, _ | _⟩
  · exact ⟨rfl, rfl⟩
  · obtain ⟨id, rfl⟩ := hproper rfl
    exact ⟨rfl, g.commitTx_issued id w⟩

private theorem OrmBaseDao.close_out (hproper : m.Proper) (w : World D Ω V) :
    ((m.close g).run w).1.inTrans = false ∧ ((m.close g).run w).2.issued = w.issued := by
  rcases m with ⟨tx, _ | _⟩
  · exact ⟨rfl, rfl⟩
  · obtain ⟨id, rfl⟩ := hproper rfl
    exact ⟨rfl, (g.rollbackTx_frame id w).2⟩

end Methods

/-! ### What the operations of a function do -/

section Operations

variable {m : OrmBaseDao} {w : World D Ω V}

/-- A handle of a transaction is inside exactly when that is open. -/
theorem World.inside_tx_iff {tx : Nat} : w.inside (.tx tx) = true ↔ w.IsOpen tx := by
  rcases h : w.txs[tx]? with _ | _ | d <;> simp [World.inside, World.IsOpen, h]

/-- Outside a transaction the session works on the base connection. -/
theorem OrmBaseDao.db_of_out (h : m.inTrans = false) : m.db = .conn := by
  rw [db, h]

/-- So it is not inside one. -/
theorem World.inside_of_out (h : m.inTrans = false) : w.inside m.db = false := by
  rw [db_of_out h]
  rfl

/-- A statement opens and ends no transaction. -/
theorem Driver.issue_inside (handle : Handle) (stmt : Stmt V) (other : Handle) :
    ((g.issue handle stmt).run w).2.inside other = w.inside other := by
  change (g.issue handle stmt w).2.inside other = _
  unfold Driver.issue
  cases handle with
  | conn => cases other <;> rfl
  | tx id =>
    dsimp only
    split
    · rename_i d hd
      cases other with
      | conn => rfl
      | tx id' =>
        obtain ⟨hlt, -⟩ := List.getElem?_eq_some_iff.mp hd
        by_cases hid : id = id'
        · subst hid
          simp only [World.inside, List.getElem?_set_self hlt, hd]
          rfl
        · simp [World.inside, List.getElem?_set_ne hid]
    · cases other <;> rfl

/-- Ending a transaction past its session leaves the session with one that is over. -/
theorem FuncOp.endDB_inside (commits : Bool) :
    (((FuncOp.endDB commits : FuncOp V).perform g m).run w).2.inside
      (((FuncOp.endDB commits : FuncOp V).perform g m).run w).1.2.db = false := by
  cases hdb : m.db with
  | conn =>
    simp only [FuncOp.perform, hdb]
    change w.inside m.db = false
    rw [hdb]
    rfl
  | tx tx =>
    have hclosed : ¬ ((g.endTx commits tx).run w).2.IsOpen tx := by
      cases commits
      · exact g.rollbackTx_closes tx w
      · exact g.commitTx_closes tx w
    simp only [FuncOp.perform, hdb]
    change ((g.endTx commits tx).run w).2.inside m.db = false
    rw [hdb]
    exact Bool.eq_false_iff.mpr fun hinside => hclosed (World.inside_tx_iff.mp hinside)

/-- `Begin` opens a transaction unless it returns an error. -/
theorem OrmBaseDao.begin_inside (m : OrmBaseDao) (w : World D Ω V) :
    ((m.begin g).run w).2.inside ((m.begin g).run w).1.2.db =
      (w.inside m.db || ((m.begin g).run w).1.1.isNone) := by
  rcases m with ⟨tx, _ | _⟩
  · rcases hbegin : g.begin w.env with ⟨_ | x, env⟩
    · have hrun : (begin g ⟨tx, false⟩).run w = ((none, ⟨some w.txs.length, true⟩),
          { w with txs := w.txs ++ [some w.committed], env := env }) := by
        simp only [begin, Bool.false_eq_true, if_false, StateT.run_bind,
          g.beginTx_run_ok hbegin]
        rfl
      rw [hrun]
      simp [db, World.inside]
    · have hrun : (begin g ⟨tx, false⟩).run w =
          ((some (.driver x), ⟨some w.txs.length, false⟩),
            { w with txs := w.txs ++ [none], env := env }) := by
        simp only [begin, Bool.false_eq_true, if_false, StateT.run_bind,
          g.beginTx_run_failed hbegin]
        rfl
      rw [hrun]
      rfl
  · have hrun : (begin g ⟨tx, true⟩).run w =
        ((some (.message "transaction already started"), ⟨tx, true⟩), w) := rfl
    rw [hrun]
    exact (Bool.or_false _).symm

/-- `Begin` makes a transaction for the session that it puts in one. -/
theorem OrmBaseDao.begin_proper (hproper : m.Proper) : ((m.begin g).run w).1.2.Proper := by
  rcases m with ⟨tx, _ | _⟩
  · rcases hbegin : g.begin w.env with ⟨_ | x, env⟩
    · simp only [begin, Bool.false_eq_true, if_false, StateT.run_bind,
        g.beginTx_run_ok hbegin]
      exact fun _ => ⟨_, rfl⟩
    · simp only [begin, Bool.false_eq_true, if_false, StateT.run_bind,
        g.beginTx_run_failed hbegin]
      exact fun _ => ⟨_, rfl⟩
  · exact hproper

/-- The other calls leave the session without a transaction. -/
theorem OrmBaseDao.call_out (hproper : m.Proper) {c : SessionCall} (hc : c ≠ .begin) :
    ((m.call g c).run w).1.2.inTrans = false := by
  cases c with
  | begin => exact absurd rfl hc
  | commit => exact (commit_out hproper w).1
  | rollback => exact (rollback_out hproper w).1
  | close => exact (close_out hproper w).1

/-- An operation leaves a proper session, in an open transaction exactly if it leaves one open. -/
theorem FuncOp.perform_leaves (hproper : m.Proper) (op : FuncOp V) :
    ((op.perform g m).run w).1.2.Proper ∧
      ((op.perform g m).run w).2.inside ((op.perform g m).run w).1.2.db =
        op.leaves (w.inside m.db) ((op.perform g m).run w).1.1.error := by
  cases op with
  | issue stmt => exact ⟨hproper, Driver.issue_inside m.db stmt m.db⟩
  | native stmt => exact ⟨hproper, Driver.issue_inside .conn stmt m.db⟩
  | control c =>
    by_cases hc : c = .begin
    · subst hc
      exact ⟨begin_proper hproper, begin_inside m w⟩
    · have hout := call_out (g := g) (w := w) hproper hc
      have hleaves : (FuncOp.control c : FuncOp V).leaves (w.inside m.db)
          (((FuncOp.control c).perform g m).run w).1.1.error = false := by
        cases c with
        | begin => exact absurd rfl hc
        | commit | rollback | close => rfl
      rw [hleaves]
      exact ⟨proper_of_out hout, World.inside_of_out hout⟩
  | endDB commits =>
    refine ⟨?_, FuncOp.endDB_inside commits⟩
    have hsame : (((FuncOp.endDB commits).perform g m).run w).1.2 = m := by
      cases hdb : m.db <;> simp only [FuncOp.perform, hdb] <;> rfl
    rw [hsame]
    exact hproper

/-- What a function leaves follows from its operations, and so does whether it stays inside. -/
theorem ExecuteFunc.call_acts (hproper : m.Proper) (func : ExecuteFunc V X) :
    (func.call g m w).session.Proper ∧
      (func.call g m w).world.inside (func.call g m w).session.db =
        stillOpen (w.inside m.db) (func.call g m w).acts ∧
      (func.call g m w).inside = staysInside (w.inside m.db) (func.call g m w).acts := by
  induction func generalizing m w with
  | ret err => exact ⟨hproper, rfl, rfl⟩
  | act op next ih =>
    obtain ⟨hproper', hleaves⟩ := FuncOp.perform_leaves (g := g) (w := w) hproper op
    rcases hperform : (op.perform g m).run w with ⟨⟨reply, m'⟩, w'⟩
    rw [hperform] at hproper' hleaves
    obtain ⟨hend, hopen, hinside⟩ := ih reply hproper' (w := w')
    simp only [ExecuteFunc.call, hperform]
    rw [hleaves] at hopen hinside
    refine ⟨hend, hopen, ?_⟩
    rw [hinside]
    cases op <;> rfl

/-- Nothing was issued on the base connection. -/
def OffConn (w w' : World D Ω V) : Prop :=
  ∃ stmts, w'.issued = w.issued ++ stmts ∧ ∀ entry ∈ stmts, entry.1 ≠ .conn

/-- Where nothing was issued, nothing was issued there. -/
theorem OffConn.of_eq {w w' : World D Ω V} (h : w'.issued = w.issued) : OffConn w w' :=
  ⟨[], h.trans (List.append_nil _).symm, nofun⟩

/-- This holds for one part after another. -/
theorem OffConn.trans {w w₁ w' : World D Ω V} (h : OffConn w w₁) (h' : OffConn w₁ w') :
    OffConn w w' := by
  obtain ⟨stmts, hissued, hoff⟩ := h
  obtain ⟨stmts', hissued', hoff'⟩ := h'
  refine ⟨stmts ++ stmts', ?_, List.forall_mem_append.mpr ⟨hoff, hoff'⟩⟩
  rw [hissued', hissued, List.append_assoc]

/-- A statement that is inside a transaction is not on the base connection. -/
theorem offConn_issue {handle : Handle} (h : w.inside handle = true) (stmt : Stmt V) :
    OffConn w ((g.issue handle stmt).run w).2 := by
  refine ⟨[(handle, stmt)], g.issue_issued handle stmt w, ?_⟩
  rw [List.forall_mem_singleton]
  rintro rfl
  cases h

/-- Beginning and ending transactions issues no statement. -/
theorem OrmBaseDao.call_issued (hproper : m.Proper) (c : SessionCall) :
    ((m.call g c).run w).2.issued = w.issued := by
  cases c with
  | begin =>
    rcases m with ⟨tx, _ | _⟩
    · rcases hbegin : g.begin w.env with ⟨_ | x, env⟩
      · simp only [call, begin, Bool.false_eq_true, if_false,
          StateT.run_bind, g.beginTx_run_ok hbegin]
        rfl
      · simp only [call, begin, Bool.false_eq_true, if_false,
          StateT.run_bind, g.beginTx_run_failed hbegin]
        rfl
    · rfl
  | commit => exact (commit_out hproper w).2
  | rollback => exact (rollback_out hproper w).2
  | close => exact (close_out hproper w).2

/-- An operation inside a transaction issues nothing on the base connection. -/
theorem FuncOp.perform_offConn (hproper : m.Proper) (op : FuncOp V)
    (h : op.inside m w = true) : OffConn w ((op.perform g m).run w).2 := by
  cases op with
  | issue stmt => exact offConn_issue h stmt
  | native stmt => cases h
  | control c => exact .of_eq (call_issued hproper c)
  | endDB commits =>
    refine .of_eq ?_
    cases hdb : m.db with
    | conn => simp only [FuncOp.perform, hdb]; rfl
    | tx tx =>
      simp only [FuncOp.perform, hdb]
      cases commits
      · exact (g.rollbackTx_frame tx w).2
      · exact g.commitTx_issued tx w

/-- Neither does a function that stays inside. -/
theorem ExecuteFunc.call_offConn (hproper : m.Proper) (func : ExecuteFunc V X)
    (h : (func.call g m w).inside = true) : OffConn w (func.call g m w).world := by
  induction func generalizing m w with
  | ret err => exact .of_eq rfl
  | act op next ih =>
    have hproper' := (FuncOp.perform_leaves (g := g) (w := w) hproper op).1
    have hoff := FuncOp.perform_offConn (g := g) (w := w) hproper op
    rcases hperform : (op.perform g m).run w with ⟨⟨reply, m'⟩, w'⟩
    rw [hperform] at hproper' hoff
    simp only [ExecuteFunc.call, hperform, Bool.and_eq_true] at h ⊢
    exact (hoff h.1).trans (ih reply hproper' h.2)

end Operations

/-- A session is left without a transaction, and nothing was called or issued. -/
structure Quits (s s' : Shared D Ω V X) : Prop where
  out : s'.session.inTrans = false
  called : s'.called = s.called
  issued : s'.world.issued = s.world.issued

section Quits

variable {s s' : Shared D Ω V X}

private theorem Quits.trans {s₁ : Shared D Ω V X} (h : Quits s s₁) (h' : Quits s₁ s') :
    Quits s s' :=
  ⟨h'.out, h'.called.trans h.called, h'.issued.trans h.issued⟩

private theorem Quits.proper (h : Quits s s') : s'.session.Proper := proper_of_out h.out

private theorem quits_rollback (hproper : s.session.Proper) :
    Quits s ((Shared.use (X := X) (·.rollback g)).run s).2 :=
  have h := rollback_out (g := g) hproper s.world
  ⟨h.1, rfl, h.2⟩

private theorem quits_commit (hproper : s.session.Proper) :
    Quits s ((Shared.use (X := X) (·.commit g)).run s).2 :=
  have h := commit_out (g := g) hproper s.world
  ⟨h.1, rfl, h.2⟩

private theorem quits_close (hproper : s.session.Proper) : Quits s ((Shared.close g).run s).2 :=
  have h := close_out (g := g) hproper s.world
  ⟨h.1, rfl, h.2⟩

private theorem SessionWrapper.commit_quits (sw : SessionWrapper X) (hproper : s.session.Proper) :
    Quits s ((sw.commit g).run s).2 := by
  rcases sw with ⟨_ | err⟩
  · exact quits_commit hproper
  · exact quits_rollback hproper

private theorem SessionWrapper.commitAndClose_quits (sw : SessionWrapper X)
    (hproper : s.session.Proper) : Quits s ((sw.commitAndClose g).run s).2 := by
  rcases sw with ⟨_ | err⟩
  · have hcommit := quits_commit (g := g) hproper
    exact hcommit.trans (quits_close hcommit.proper)
  · exact quits_close hproper

private theorem SessionWrapper.close_quits (sw : SessionWrapper X) (hproper : s.session.Proper) :
    Quits s ((sw.close g).run s).2 := by
  rcases sw with ⟨_ | err⟩
  · exact quits_close hproper
  · have hrollback := quits_rollback (g := g) hproper
    exact hrollback.trans (quits_close hrollback.proper)

end Quits

namespace Copies

variable {c c' : Copies D Ω V X} {l : WrapperCall V X}

/-- The calls by what they do: they end the transaction, find an error, or call a function. -/
inductive Moves (g : Driver D Ω V X) (c : Copies D Ω V X) : WrapperCall V X → Copies D Ω V X → Prop
  | ended {l : WrapperCall V X} {s : Shared D Ω V X} (hl : l.ends = true)
    (hquits : c.shared.session.Proper → Quits c.shared s) :
    Moves g c l { c with shared := s, calls := c.calls ++ [l] }
  | refused {i : Nat} {func : ExecuteFunc V X} {sw : SessionWrapper X}
    (hsw : c.copies[i]? = some sw) (herr : sw.err.isSome = true) :
    Moves g c (.execute i func) ⟨c.copies ++ [sw], c.shared, c.calls ++ [.execute i func]⟩
  | called {i : Nat} {func : ExecuteFunc V X} {sw : SessionWrapper X}
    (hsw : c.copies[i]? = some sw) (hnone : sw = ⟨none⟩) :
    Moves g c (.execute i func) ⟨c.copies ++ [((sw.execute g func).run c.shared).1],
      ((sw.execute g func).run c.shared).2, c.calls ++ [.execute i func]⟩

private theorem step_moves (h : c.step g l = some c') : c.Moves g l c' := by
  cases l with
  | execute i func =>
    obtain ⟨sw, hsw, rfl⟩ := Option.map_eq_some_iff.mp h
    rcases sw with ⟨_ | err⟩
    · exact .called hsw rfl
    · exact .refused hsw rfl
  | commit i =>
    obtain ⟨sw, -, rfl⟩ := Option.map_eq_some_iff.mp h
    exact .ended rfl sw.commit_quits
  | commitAndClose i =>
    obtain ⟨sw, -, rfl⟩ := Option.map_eq_some_iff.mp h
    exact .ended rfl sw.commitAndClose_quits
  | close i =>
    obtain ⟨sw, -, rfl⟩ := Option.map_eq_some_iff.mp h
    exact .ended rfl sw.close_quits

/-- What the calls so far tell about the session, as long as every function stayed inside. -/
structure Linked (c : Copies D Ω V X) : Prop where
  /-- A session in a transaction has one. -/
  proper : c.shared.session.Proper
  /-- The transaction is open unless it is over. -/
  inside : c.AllInside → (c.shared.world.inside c.shared.session.db = true ↔ ¬c.Over)

/-- A transaction stays over while nothing else is called. -/
theorem Over.mono (h : c.Over) (hcopies : c.copies ⊆ c'.copies) (hcalls : c.calls ⊆ c'.calls)
    (hcalled : c.shared.called ⊆ c'.shared.called) : c'.Over := by
  rcases h with ⟨l, hl, hends⟩ | ⟨sw, hsw, herr⟩ | ⟨call, hcall, hleft⟩
  · exact .inl ⟨l, hcalls hl, hends⟩
  · exact .inr (.inl ⟨sw, hcopies hsw, herr⟩)
  · exact .inr (.inr ⟨call, hcalled hcall, hleft⟩)

/-- What a function that was called leaves behind. -/
structure Executed (g : Driver D Ω V X) (s : Shared D Ω V X) (func : ExecuteFunc V X)
    (sw : SessionWrapper X) (s' : Shared D Ω V X) : Prop where
  /-- A session in a transaction has one. -/
  proper : s'.session.Proper
  /-- It was called, and was inside by its operations. -/
  called : s'.called = s.called ++ [⟨func, (func.call g s.session s.world).acts,
    s.world.inside s.session.db && staysInside (s.world.inside s.session.db)
      (func.call g s.session s.world).acts⟩]
  /-- Without an error the transaction is open as the operations leave it, and with one it is
  over. -/
  inside : s'.world.inside s'.session.db = (sw.err.isNone &&
    stillOpen (s.world.inside s.session.db) (func.call g s.session s.world).acts)
  /-- If it stayed inside, nothing was issued on the base connection. -/
  issued : staysInside (s.world.inside s.session.db)
    (func.call g s.session s.world).acts = true → OffConn s.world s'.world

/-- `Execute` on a copy without an error. -/
theorem executed {s : Shared D Ω V X} (hproper : s.session.Proper) (func : ExecuteFunc V X) :
    Executed g s func ((SessionWrapper.execute g ⟨none⟩ func).run s).1
      ((SessionWrapper.execute g ⟨none⟩ func).run s).2 := by
  obtain ⟨hend, hopen, hinside⟩ := ExecuteFunc.call_acts (g := g) (w := s.world) hproper func
  have hoff := ExecuteFunc.call_offConn (g := g) (w := s.world) hproper func
  rw [hinside] at hoff
  rcases hcall : (Shared.callFunc g func).run s with ⟨err, s₁⟩
  have herr : err = (func.call g s.session s.world).err := (congrArg Prod.fst hcall).symm
  have hs₁ : s₁ = ((Shared.callFunc g func).run s).2 := (congrArg Prod.snd hcall).symm
  have hcalled : s₁.called = s.called ++ [⟨func, (func.call g s.session s.world).acts,
      s.world.inside s.session.db && staysInside (s.world.inside s.session.db)
        (func.call g s.session s.world).acts⟩] := by
    rw [hs₁, ← hinside]
    rfl
  simp only [SessionWrapper.execute, Option.isSome_none, Bool.false_eq_true, if_false,
    StateT.run_bind, hcall]
  cases err with
  | none =>
    subst hs₁
    exact ⟨hend, hcalled, hopen.trans (Bool.true_and _).symm, hoff⟩
  | some err =>
    have hproper₁ : s₁.session.Proper := by
      rw [hs₁]
      exact hend
    have hquits : Quits s₁ ((Shared.use (X := X) (·.rollback g)).run s₁).2 :=
      quits_rollback hproper₁
    refine ⟨hquits.proper, hquits.called.trans hcalled, World.inside_of_out hquits.out, ?_⟩
    intro hstays
    have hoff₁ : OffConn s.world s₁.world := by
      rw [hs₁]
      exact hoff hstays
    exact hoff₁.trans (.of_eq hquits.issued)

/-- The copies after `Execute` on a copy without an error. -/
def afterExecute (g : Driver D Ω V X) (c : Copies D Ω V X) (i : Nat) (func : ExecuteFunc V X) :
    Copies D Ω V X :=
  ⟨c.copies ++ [((SessionWrapper.execute g ⟨none⟩ func).run c.shared).1],
    ((SessionWrapper.execute g ⟨none⟩ func).run c.shared).2, c.calls ++ [.execute i func]⟩

/-- The function stays inside exactly when it is called in time. -/
theorem allInside_afterExecute_iff (h : c.Linked) (hall : c.AllInside) (i : Nat)
    (func : ExecuteFunc V X) :
    (c.afterExecute g i func).AllInside ↔
      ¬c.Over ∧ staysInside true (func.call g c.shared.session c.shared.world).acts = true := by
  have hexecuted := executed (g := g) h.proper func
  have hcalled : (c.afterExecute g i func).shared.called = _ := hexecuted.called
  rw [AllInside, hcalled, List.forall_mem_append, List.forall_mem_singleton,
    ← h.inside hall, Bool.and_eq_true]
  constructor
  · rintro ⟨-, hopen, hstays⟩
    exact ⟨hopen, hopen ▸ hstays⟩
  · rintro ⟨hopen, hstays⟩
    exact ⟨hall, hopen, hopen.symm ▸ hstays⟩

/-- After a function that stayed inside, the transaction is over if the function has failed or has
left it. -/
theorem over_afterExecute_iff (h : ¬c.Over) (hproper : c.shared.session.Proper) (i : Nat)
    (func : ExecuteFunc V X) :
    (c.afterExecute g i func).Over ↔
      ((SessionWrapper.execute g ⟨none⟩ func).run c.shared).1.err.isSome = true ∨
        stillOpen true (func.call g c.shared.session c.shared.world).acts = false := by
  have hcalled : (c.afterExecute g i func).shared.called = _ :=
    (executed (g := g) hproper func).called
  constructor
  · rintro (⟨l, hl, hends⟩ | ⟨sw, hsw, herr⟩ | ⟨call, hcall, hleft⟩)
    · rcases List.mem_append.mp hl with hmem | hmem
      · exact absurd (.inl ⟨l, hmem, hends⟩) h
      · cases List.mem_singleton.mp hmem
        cases hends
    · rcases List.mem_append.mp hsw with hmem | hmem
      · exact absurd (.inr (.inl ⟨sw, hmem, herr⟩)) h
      · rw [List.mem_singleton.mp hmem] at herr
        exact .inl herr
    · rw [hcalled] at hcall
      rcases List.mem_append.mp hcall with hmem | hmem
      · exact absurd (.inr (.inr ⟨call, hmem, hleft⟩)) h
      · rw [List.mem_singleton.mp hmem] at hleft
        exact .inr hleft
  · rintro (herr | hleft)
    · exact .inr (.inl ⟨_, List.mem_append_right _ (List.mem_singleton_self _), herr⟩)
    · obtain ⟨call, hcall, hacts⟩ : ∃ call ∈ (c.afterExecute g i func).shared.called,
          call.acts = (func.call g c.shared.session c.shared.world).acts := by
        rw [hcalled]
        exact ⟨_, List.mem_append_right _ (List.mem_singleton_self _), rfl⟩
      exact .inr (.inr ⟨call, hcall, hacts ▸ hleft⟩)

/-- A function that stays inside leaves a session that the calls tell about. -/
theorem linked_afterExecute (h : c.Linked) (i : Nat) (func : ExecuteFunc V X) :
    (c.afterExecute g i func).Linked := by
  have hexecuted := executed (g := g) h.proper func
  refine ⟨hexecuted.proper, fun hall' => ?_⟩
  have hall : c.AllInside := by
    have hcalled : (c.afterExecute g i func).shared.called = _ := hexecuted.called
    rw [AllInside, hcalled, List.forall_mem_append] at hall'
    exact hall'.1
  obtain ⟨hover, -⟩ := (allInside_afterExecute_iff h hall i func).mp hall'
  have hopen := (h.inside hall).mpr hover
  have hinside := hexecuted.inside
  rw [hopen] at hinside
  rw [over_afterExecute_iff hover h.proper, not_or]
  change ((SessionWrapper.execute g ⟨none⟩ func).run c.shared).2.world.inside
    ((SessionWrapper.execute g ⟨none⟩ func).run c.shared).2.session.db = true ↔ _
  rw [hinside, Bool.and_eq_true, Bool.not_eq_true, Bool.not_eq_false, Option.isSome_eq_false_iff]

/-- Every call leaves a session that the calls tell about. -/
theorem Linked.step (h : c.Linked) (hstep : c.step g l = some c') : c'.Linked := by
  cases step_moves hstep with
  | ended hl hquits =>
    have hquits := hquits h.proper
    refine ⟨hquits.proper, fun _ => iff_of_false ?_ (not_not.mpr (.inl ⟨l, ?_, hl⟩))⟩
    · exact Bool.eq_false_iff.mp (World.inside_of_out hquits.out)
    · exact List.mem_append_right _ (List.mem_singleton_self _)
  | refused hsw herr =>
    have hover : c.Over := .inr (.inl ⟨_, List.mem_of_getElem? hsw, herr⟩)
    refine ⟨h.proper, fun hall => iff_of_false ?_ (not_not.mpr (hover.mono ?_ ?_ ?_))⟩
    · exact fun hopen => (h.inside hall).mp hopen hover
    · exact List.subset_append_left _ _
    · exact List.subset_append_left _ _
    · exact List.Subset.refl _
  | @called i func _ hsw hnone =>
    subst hnone
    exact linked_afterExecute h i func

/-- A call keeps every function inside the transaction exactly when it comes in time. -/
theorem AllInside.step_iff (h : c.Linked) (hall : c.AllInside) (hstep : c.step g l = some c') :
    c'.AllInside ↔ c.InTime g l := by
  cases step_moves hstep with
  | @ended _ s hl hquits =>
    have hsame : AllInside ⟨c.copies, s, c.calls ++ [l]⟩ := by
      rw [AllInside, (hquits h.proper).called]
      exact hall
    refine iff_of_true hsame ?_
    cases l with
    | execute i func => cases hl
    | commit i | commitAndClose i | close i => trivial
  | refused hsw herr =>
    refine iff_of_true hall fun sw hsw' hnone => ?_
    cases hsw.symm.trans hsw'
    rw [herr] at hnone
    cases hnone
  | @called i func _ hsw hnone =>
    subst hnone
    refine (allInside_afterExecute_iff h hall i func).trans ?_
    exact ⟨fun hintime _ _ _ => hintime, fun hguard => hguard _ hsw rfl⟩

/-- A function that was outside is not forgotten. -/
theorem AllInside.of_step (h : c.Linked) (hstep : c.step g l = some c') (hall : c'.AllInside) :
    c.AllInside := by
  cases step_moves hstep with
  | ended hl hquits =>
    rw [AllInside, (hquits h.proper).called] at hall
    exact hall
  | refused hsw herr => exact hall
  | @called i func _ hsw hnone =>
    subst hnone
    rw [AllInside, (executed (g := g) h.proper func).called, List.forall_mem_append] at hall
    exact hall.1

/-- A call in time issues nothing on the base connection. -/
theorem offConn_step (h : c.Linked) (hall : c.AllInside) (hintime : c.InTime g l)
    (hstep : c.step g l = some c') : OffConn c.shared.world c'.shared.world := by
  cases step_moves hstep with
  | ended hl hquits => exact .of_eq (hquits h.proper).issued
  | refused hsw herr => exact .of_eq rfl
  | @called i func _ hsw hnone =>
    subst hnone
    obtain ⟨hover, hstays⟩ := hintime _ hsw rfl
    have hopen := (h.inside hall).mpr hover
    exact (executed h.proper func).issued (hopen.symm ▸ hstays)

/-- A new wrapper is in its transaction, or has the error of `Begin`. -/
theorem linked_start (s : Shared D Ω V X) (hcalled : s.called = []) : (start g s).Linked := by
  rcases hbegin : g.begin s.world.env with ⟨_ | x, env⟩
  · obtain ⟨s', hnew, hrunning, hfuncs⟩ := running_of_begin s hbegin
    have hstart : start g s = ⟨[⟨none⟩], s', []⟩ := by rw [start, hnew]
    have hnone : s'.called = [] := by
      rw [Shared.funcs, Shared.funcs, hcalled] at hfuncs
      exact List.map_eq_nil_iff.mp hfuncs
    rw [hstart]
    refine ⟨fun _ => ⟨_, by rw [hrunning.session]⟩, fun _ => iff_of_true ?_ ?_⟩
    · change s'.world.inside s'.session.db = true
      rw [hrunning.session]
      exact World.inside_tx_iff.mpr ⟨_, hrunning.copy⟩
    · simp [Over, hnone]
  · obtain ⟨s', hnew, hidle, -⟩ := idle_of_begin_failed s hbegin
    have hstart : start g s = ⟨[⟨some (.driver x)⟩], s', []⟩ := by rw [start, hnew]
    rw [hstart]
    refine ⟨proper_of_out hidle.session, fun _ => iff_of_false ?_ ?_⟩
    · exact Bool.eq_false_iff.mp (World.inside_of_out hidle.session)
    · simp [Over]

/-- Making a wrapper calls no function. -/
theorem called_start (s : Shared D Ω V X) (hcalled : s.called = []) :
    (start g s).shared.called = [] := by
  have hfuncs : (start g s).shared.funcs = s.funcs := by
    rcases hbegin : g.begin s.world.env with ⟨_ | x, env⟩
    · obtain ⟨s', hnew, -, hfuncs⟩ := running_of_begin s hbegin
      rw [start, hnew, hfuncs]
    · obtain ⟨s', hnew, -, hfuncs⟩ := idle_of_begin_failed s hbegin
      rw [start, hnew, hfuncs]
  rw [Shared.funcs, Shared.funcs, hcalled] at hfuncs
  exact List.map_eq_nil_iff.mp hfuncs

/-- Over every sequence of calls on copies of one wrapper, the functions run inside an open
transaction exactly when every `Execute` is in time, and then nothing is issued on the base
connection. -/
theorem functions_inside_iff_in_time {c c' : Copies D Ω V X} {ls : List (WrapperCall V X)}
    (hinit : (wrappers g).init c) (hrun : (wrappers g).run c ls = some c') :
    (c'.AllInside ↔ (wrappers g).Guarded (InTime g) c ls) ∧
      ((wrappers g).Guarded (InTime g) c ls → OffConn c.shared.world c'.shared.world) := by
  obtain ⟨s, hcalled, rfl⟩ := hinit
  have hlinked := linked_start (g := g) s hcalled
  have hall : (start g s).AllInside := by
    rw [AllInside, called_start s hcalled]
    nofun
  constructor
  · exact (wrappers g).final_iff_guarded (fun _ _ _ h hstep => Linked.step h hstep)
      (fun _ _ _ h hp hstep => AllInside.step_iff h hp hstep)
      (fun _ _ _ h hp hstep hp' => hp (AllInside.of_step h hstep hp')) hlinked hall hrun
  · intro hguarded
    have hthree : (c'.Linked ∧ c'.AllInside) ∧ OffConn (start g s).shared.world c'.shared.world :=
      (wrappers g).run_guarded
        (P := fun t => (t.Linked ∧ t.AllInside) ∧ OffConn (start g s).shared.world t.shared.world)
        (fun _ _ _ ht hg hstep => ⟨⟨ht.1.1.step hstep, (ht.1.2.step_iff ht.1.1 hstep).mpr hg⟩,
          ht.2.trans (offConn_step ht.1.1 ht.1.2 hg hstep)⟩)
        ⟨⟨hlinked, hall⟩, .of_eq rfl⟩ hguarded hrun
    exact hthree.2

/-- A function that writes one record and returns what it is given. -/
def writing (err : Option (DbError Unit)) : ExecuteFunc Unit Unit :=
  .act (.issue (.create none ())) fun _ => .ret err

/-- A wrapper on an empty database. -/
def fresh : Copies Nat Unit Unit Unit := start countingDriver ⟨⟨0, [], (), []⟩, ⟨none, false⟩, []⟩

/-- It is a new one. -/
theorem fresh_init : (wrappers countingDriver).init fresh := ⟨_, rfl, rfl⟩

/-- Two writes, the second on the copy that the first returned, and a commit. -/
def keepingCopies : List (WrapperCall Unit Unit) :=
  [.execute 0 (writing none), .execute 1 (writing none), .commitAndClose 2]

/-- Both functions write inside the transaction. -/
theorem functions_inside_when_copies_kept :
    ∃ c', (wrappers countingDriver).run fresh keepingCopies = some c' ∧ c'.AllInside ∧
      OffConn fresh.shared.world c'.shared.world ∧ c'.shared.world.committed = 2 := by
  have hintime : (wrappers countingDriver).Guarded (InTime countingDriver) fresh
      keepingCopies := by decide
  refine ⟨_, rfl, ?_, ?_, rfl⟩
  · exact (functions_inside_iff_in_time fresh_init rfl).1.mpr hintime
  · exact (functions_inside_iff_in_time fresh_init rfl).2 hintime

/-- A function that commits and then writes one record. -/
def committing : ExecuteFunc Unit Unit :=
  .act (.control .commit) fun _ => .act (.issue (.create none ())) fun _ => .ret none

/-- The value that a failed `Execute` returns is dropped: the next function on the old copy writes
to the base connection, and its write stays. The same happens to a function that commits before it
writes. -/
theorem function_outside_when_copy_dropped :
    (∃ c', (wrappers countingDriver).run fresh
        [.execute 0 (writing (some (.message "failed"))), .execute 0 (writing none)] = some c' ∧
      c'.shared.world.issued = [(.tx 0, .create none ()), (.conn, .create none ())] ∧
      c'.shared.world.committed = 1 ∧ ¬c'.AllInside) ∧
    ∃ c', (wrappers countingDriver).run fresh [.execute 0 committing] = some c' ∧
      c'.shared.world.issued = [(.conn, .create none ())] ∧ c'.shared.world.committed = 1 ∧
      ¬c'.AllInside := by
  refine ⟨⟨_, rfl, rfl, rfl, fun hall => ?_⟩, ⟨_, rfl, rfl, rfl, fun hall => ?_⟩⟩
  · cases hall _ (List.mem_cons_of_mem _ (List.mem_cons_self ..))
  · cases hall _ (List.mem_cons_self ..)

end Copies

end Stardust.Databases
