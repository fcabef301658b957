import Xtemplate.DotDB

/-!
The transactions of a request's database field (`dot_db.go`,
`dot_db_config.go`), as the database sees them.

Every statement method (`Exec`, `QueryRows`, `QueryRow`, `QueryVal`) first
calls `makeTx`, which begins a transaction when none is open
(`DotDB.queryRows_snd` and its siblings); the template methods `Commit` and
`Rollback` end the open one, if any, and forget it whatever the database
answers; the provider's `Cleanup` is `rollback` when it is handed an error
and `commit` otherwise (`dbCleanup_fst`). A template's calls on the field run
until the first that fails (`runDBCalls`).

`txAccept` is the life cycle the database expects of a session: a
transaction is begun, takes statements, and is ended once before the next one
begins. Each call moves the automaton as the field's transaction moves
(`txAccept_events`), so every run does (`txAccept_runDBCalls`), and
`request_transactions` follows: for every sequence of calls and every error
the cleanup is handed, the session keeps the life cycle to its end, with no
statement outside a transaction, none ended twice and none left open.
-/

namespace Xtemplate

open Go

/-! ### Ending a transaction -/

/-- `DotDB.commit`: commit the open transaction, if any, and forget it
whatever `Commit` returns. -/
def DotDB.commit (d : DotDB) : Option Err × DotDB :=
  match d.tx with
  | some tx => (tx.commitResult, ⟨none⟩)
  | none => (none, d)

/-- `DotDB.rollback`. -/
def DotDB.rollback (d : DotDB) : Option Err × DotDB :=
  match d.tx with
  | some tx => (tx.rollbackResult, ⟨none⟩)
  | none => (none, d)

@[simp] theorem DotDB.commit_tx (d : DotDB) : (d.commit).2.tx = none := by
  unfold DotDB.commit
  split
  · rfl
  · assumption

@[simp] theorem DotDB.rollback_tx (d : DotDB) : (d.rollback).2.tx = none := by
  unfold DotDB.rollback
  split
  · rfl
  · assumption

/-- `DotDBConfig.Cleanup` returns the error it is handed joined with that of
`rollback`, when it is handed one, or of `commit`. -/
theorem dbCleanup_fst (i : Nat) (d : DotDB) (err : Option Err) :
    (dbCleanup i d err).1 = errorsJoin [err, (if err.isSome then d.rollback else d.commit).1] := by
  unfold dbCleanup DotDB.rollback DotDB.commit
  cases htx : d.tx <;> cases err <;> rfl

/-! ### The statement methods begin a transaction -/

section Statements

variable {α : Type} (d : DotDB) (begin : Except Err Tx) (answer : Except Err (ResultSet α))

/-- `QueryRows` leaves the field as `makeTx` does. -/
theorem DotDB.queryRows_snd : (d.queryRows begin answer).2 = (d.makeTx begin).2 := by
  unfold DotDB.queryRows
  cases hm : d.makeTx begin with
  | mk err d' =>
    cases err with
    | some e => rfl
    | none =>
      cases answer <;> rfl

theorem DotDB.queryRow_snd : (d.queryRow begin answer).2 = (d.makeTx begin).2 := by
  unfold DotDB.queryRow
  rw [← DotDB.queryRows_snd d begin answer]
  generalize d.queryRows begin answer = q
  obtain ⟨⟨rows, e⟩, d'⟩ := q
  cases e with
  | some e => rfl
  | none =>
    dsimp only
    split <;> rfl

theorem DotDB.queryVal_snd : (d.queryVal begin answer).2 = (d.makeTx begin).2 := by
  unfold DotDB.queryVal
  rw [← DotDB.queryRow_snd d begin answer]
  generalize d.queryRow begin answer = q
  obtain ⟨row, d'⟩ := q
  cases row with
  | error e => rfl
  | ok row =>
    dsimp only
    split
    · rfl
    · split <;> rfl

end Statements

/-! ### A template's calls on the field -/

/-- A call a template makes on a database field. -/
inductive DBCall where
  /-- `Exec`, `QueryRows`, `QueryRow` or `QueryVal`, with what `BeginTx`
  answers and the error the statement returns. -/
  | statement (begin : Except Err Tx) (err : Option Err)
  /-- `Commit`. -/
  | commit
  /-- `Rollback`. -/
  | rollback

/-- A call on the field `d`: the error it returns and the field after it. -/
def DBCall.run (d : DotDB) : DBCall → Option Err × DotDB
  | .statement begin err =>
    match d.makeTx begin with
    | (some e, d') => (some e, d')
    | (none, d') => (err, d')
  | .commit => d.commit
  | .rollback => d.rollback

/-- `QueryRows` is a statement call that returns the error `QueryRows`
returns; `QueryRow` and `QueryVal` leave the field as it does
(`DotDB.queryVal_snd`). -/
theorem DBCall.run_queryRows {α : Type} (d : DotDB) (begin : Except Err Tx)
    (answer : Except Err (ResultSet α)) :
    DBCall.run d (.statement begin (d.queryRows begin answer).1.2) =
      ((d.queryRows begin answer).1.2, (d.queryRows begin answer).2) := by
  rw [DotDB.queryRows_snd]
  unfold DBCall.run
  cases hm : d.makeTx begin with
  | mk e d' =>
    cases e with
    | some e => simp [DotDB.queryRows, hm]
    | none => simp only [hm]

/-- What the database is asked. -/
inductive TxEvent where
  | begin
  | statement
  | commit
  | rollback
  deriving DecidableEq, Repr

/-- What a call asks the database: `BeginTx` when no transaction is open (a
transaction only when it succeeds), then the statement in the open one; or
`Commit` or `Rollback` of the open one. -/
def DBCall.events (d : DotDB) : DBCall → List TxEvent
  | .statement begin _ =>
    match d.tx, begin with
    | some _, _ => [.statement]
    | none, .ok _ => [.begin, .statement]
    | none, .error _ => []
  | .commit => if d.tx.isSome then [.commit] else []
  | .rollback => if d.tx.isSome then [.rollback] else []

/-- The calls of a template, until the first that fails: its error, the field
after them, and what the database was asked. -/
def runDBCalls (d : DotDB) : List DBCall → Option Err × DotDB × List TxEvent
  | [] => (none, d, [])
  | c :: cs =>
    match c.run d with
    | (some e, d') => (some e, d', c.events d)
    | (none, d') =>
      let r := runDBCalls d' cs
      (r.1, r.2.1, c.events d ++ r.2.2)

/-- What the cleanup's effects ask the database. -/
def Effect.txEvents : List Effect → List TxEvent
  | [] => []
  | .commit _ :: effs => .commit :: Effect.txEvents effs
  | .rollback _ :: effs => .rollback :: Effect.txEvents effs
  | _ :: effs => Effect.txEvents effs

/-! ### The life cycle of a session -/

/-- The life cycle the database expects: `false` between transactions, `true`
inside one, and `none` once an event is out of place. -/
def txAccept : Bool → List TxEvent → Option Bool
  | s, [] => some s
  | false, .begin :: es => txAccept true es
  | true, .statement :: es => txAccept true es
  | true, .commit :: es => txAccept false es
  | true, .rollback :: es => txAccept false es
  | _, _ :: _ => none

theorem txAccept_append (s : Bool) (es es' : List TxEvent) :
    txAccept s (es ++ es') = (txAccept s es).bind (txAccept · es') := by
  fun_induction txAccept s es <;> simp_all [txAccept]

/-- **One call.** From the state of the field's transaction, what a call asks
the database leads to the state of the transaction after it. -/
theorem txAccept_events (d : DotDB) (c : DBCall) (rest : List TxEvent) :
    txAccept d.tx.isSome (c.events d ++ rest) = txAccept (c.run d).2.tx.isSome rest := by
  cases c with
  | statement begin err =>
    cases htx : d.tx with
    | some tx => simp [DBCall.events, DBCall.run, DotDB.makeTx, htx, txAccept]
    | none =>
      cases begin <;> simp [DBCall.events, DBCall.run, DotDB.makeTx, htx, txAccept]
  | commit =>
    cases htx : d.tx <;> simp [DBCall.events, DBCall.run, DotDB.commit, htx, txAccept]
  | rollback =>
    cases htx : d.tx <;> simp [DBCall.events, DBCall.run, DotDB.rollback, htx, txAccept]

/-- **A run of calls**, by induction on them with one call at a time. -/
theorem txAccept_runDBCalls (cs : List DBCall) :
    ∀ (d : DotDB) (rest : List TxEvent), txAccept d.tx.isSome ((runDBCalls d cs).2.2 ++ rest) =
      txAccept (runDBCalls d cs).2.1.tx.isSome rest := by
  induction cs with
  | nil => intro d rest; rfl
  | cons c cs ih =>
    intro d rest
    have hstep := txAccept_events d c
    unfold runDBCalls
    cases hrun : c.run d with
    | mk err d' =>
      rw [hrun] at hstep
      cases err with
      | some e => exact hstep rest
      | none =>
        dsimp only
        rw [List.append_assoc, hstep, ih]

/-- The cleanup ends the open transaction, if any. -/
theorem txAccept_dbCleanup (i : Nat) (d : DotDB) (err : Option Err) :
    txAccept d.tx.isSome (Effect.txEvents (dbCleanup i d err).2) = some false := by
  unfold dbCleanup
  cases htx : d.tx <;> cases err <;> rfl

/-- A session the automaton accepts back between transactions ended every
transaction it began, once. -/
theorem count_begin_of_txAccept :
    ∀ (s : Bool) (es : List TxEvent), txAccept s es = some false →
      es.count .begin + (if s then 1 else 0) = es.count .commit + es.count .rollback := by
  intro s es
  induction es generalizing s with
  | nil =>
    intro h
    cases s
    · rfl
    · cases h
  | cons e es ih =>
    intro h
    -- the automaton's state after `e` is the one `ih` is used at
    cases s with
    | false =>
      cases e with
      | begin =>
        have hes := ih true h
        simp at hes ⊢
        omega
      | statement | commit | rollback => cases h
    | true =>
      cases e with
      | begin => cases h
      | statement =>
        have hes := ih true h
        simp at hes ⊢
        omega
      | commit | rollback =>
        have hes := ih false h
        simp at hes ⊢
        omega

/-- What the database is asked in a request: the template's calls on the
field, which `Value` makes with no transaction, then the cleanup's. -/
def requestTxEvents (calls : List DBCall) (i : Nat) (err : Option Err) : List TxEvent :=
  (runDBCalls ⟨none⟩ calls).2.2 ++ Effect.txEvents (dbCleanup i (runDBCalls ⟨none⟩ calls).2.1 err).2

/-- **The transactions of a request.** For every sequence of calls a template
makes on a database field and every error the field's cleanup is then handed:
the database is asked for no statement outside a transaction, no transaction
is begun inside another or ended twice, and after the cleanup none is left
open; so every transaction begun is ended exactly once, by `Commit`,
`Rollback` or the cleanup. -/
theorem request_transactions (calls : List DBCall) (i : Nat) (err : Option Err) :
    txAccept false (requestTxEvents calls i err) = some false ∧
      (requestTxEvents calls i err).count .begin =
        (requestTxEvents calls i err).count .commit +
          (requestTxEvents calls i err).count .rollback := by
  have haccept : txAccept false (requestTxEvents calls i err) = some false := by
    -- the run leaves the field as the cleanup finds it; `⟨none⟩.tx.isSome` is `false`
    have hrun := txAccept_runDBCalls calls ⟨none⟩
      (Effect.txEvents (dbCleanup i (runDBCalls ⟨none⟩ calls).2.1 err).2)
    rw [txAccept_dbCleanup] at hrun
    exact hrun
  exact ⟨haccept, count_begin_of_txAccept false _ haccept⟩

/-- A statement, `Commit`, and a second statement in a request that fails:
the second transaction is rolled back by the cleanup. -/
example :
    requestTxEvents [.statement (.ok ⟨none, none⟩) none, .commit,
        .statement (.ok ⟨none, none⟩) none] 0 (some (errorf "boom")) =
      [.begin, .statement, .commit, .begin, .statement, .rollback] := by
  rfl

end Xtemplate
