import Bdblib.Handles

/-!
# The database object

`bdb::database` owns the environment, the sequences database, a stack of nested transactions
`m_txns` whose bottom is a top-level transaction begun by the constructor, and the sequences
and tables added to it. Every other object runs its engine calls under `m_txns.top()`.
The destructor aborts the nested transactions, deletes the sequences and the tables (a table
deletes its indexes), closes the sequences database, commits the top-level transaction and
closes the environment.
-/

namespace Bdb

/-- A `bdb::sequence`: its `DB_SEQUENCE` handle. -/
structure Sequence where
  /-- `m_seq`. -/
  seq : Option Nat

/-- A `bdb::index`: the `table` part it inherits, which has no indexes of its own. -/
structure Index where
  /-- `m_name`. -/
  name : String
  /-- `m_db`. -/
  db : Option Nat

/-- A `bdb::table`. -/
structure Table where
  /-- `m_name`. -/
  name : String
  /-- `m_db`. -/
  db : Option Nat
  /-- `m_callback`, the key comparator (`NULL` for the engine's default). -/
  callback : Option Comparator
  /-- `m_indexes`. -/
  indexes : List Index

/-- A `bdb::database`. -/
structure Database where
  /-- `m_env`. -/
  env : Option Nat
  /-- `m_seq`, the sequences database. -/
  seq : Option Nat
  /-- `m_txns`, top first. -/
  txns : List Nat
  /-- `m_sequences`. -/
  sequences : List Sequence
  /-- `m_tables`. -/
  tables : List Table

/-- A database object with the engine it runs on. -/
structure System (σ : Type) where
  /-- The library's object. -/
  database : Database
  /-- The engine. -/
  engine : Engine σ

/-- `sequence::~sequence`. -/
def Sequence.destroy (sequence : Sequence) (handles : Handles) : Handles :=
  if sequence.seq.isSome then handles.close sequence.seq else handles

/-- `table::~table` on the `table` part of an index: no indexes, then `m_db->close`. -/
def Index.destroy (index : Index) (handles : Handles) : Handles :=
  handles.close index.db

/-- `table::~table`: delete every index, then `m_db->close`. -/
def Table.destroy (table : Table) (handles : Handles) : Handles :=
  (table.indexes.foldl (fun current index => index.destroy current) handles).close table.db

namespace Database

variable {σ : Type}

/-- The failure branch of `database::database`: close `m_seq`, abort `txn`, close `m_env`. -/
def release (seq txn env : Option Nat) (engine : Engine σ) : Engine σ :=
  let handles := if seq.isSome then engine.handles.close seq else engine.handles
  let txnTable := if txn.isSome then (engine.txn.abort txn none).2 else engine.txn
  ⟨txnTable, if env.isSome then handles.close env else handles⟩

/-- The answer of `txn_begin` when it is the engine call `index` of a function. -/
def beginAnswer (faults : Faults) (index : Nat) : BeginAnswer :=
  match faults index with
  | some code => .fail code
  | none => .ok

/-- `database::database`: its engine calls 0 to 5, from `db_env_create` to opening `__seq.db`. -/
def new (faults : Faults) (engine : Engine σ) : Except Exception Database × Engine σ :=
  match faults 0 with
  | some code => (.error (openError code), engine)
  | none =>
    let (env, handles) := engine.handles.alloc .env
    let engine := { engine with handles }
    match (faults 1).or (faults 2) with
    | some code => (.error (openError code), release none none (some env) engine)
    | none =>
      match engine.txn.txnBegin none (beginAnswer faults 3) with
      | (.error (code, txn), txnTable) =>
        (.error (openError code), release none txn (some env) { engine with txn := txnTable })
      | (.ok txn, txnTable) =>
        let engine := { engine with txn := txnTable }
        match faults 4 with
        | some code => (.error (openError code), release none (some txn) (some env) engine)
        | none =>
          let (seq, handles) := engine.handles.alloc (.db { file := some "__seq.db" })
          let engine := { engine with handles }
          match faults 5 with
          | some code =>
            (.error (openError code), release (some seq) (some txn) (some env) engine)
          | none => (.ok ⟨some env, some seq, [txn], [], []⟩, engine)

/-- A constructor that returns has begun one top-level transaction, the bottom of `m_txns`. -/
theorem new_ok {faults : Faults} {engine engine' : Engine σ} {database : Database}
    (opened : new faults engine = (.ok database, engine')) :
    database.txns = [engine.txn.fresh] ∧ engine'.txn = (engine.txn.create none).2 := by
  unfold new at opened
  cases answer : faults 3 <;> simp only [beginAnswer, answer, TxnTable.txnBegin] at opened <;>
    repeat' split at opened
  all_goals first
    | simp at opened; done
    | simp only [Prod.mk.injEq, Except.ok.injEq] at opened
      obtain ⟨rfl, rfl⟩ := opened
      exact ⟨rfl, rfl⟩

/-- The loop of `database::~database`: abort the top transaction while more than one is left. -/
def abortNested : List Nat → TxnTable σ → List Nat × TxnTable σ
  | txn :: next :: rest, table => abortNested (next :: rest) (table.abort (some txn) none).2
  | txns, table => (txns, table)

/-- `database::~database`; `fault` is the answer to the commit of the top-level transaction. -/
def destroy (fault : Option DbError) (sys : System σ) : Engine σ :=
  let (txns, txnTable) := abortNested sys.database.txns sys.engine.txn
  let handles :=
    sys.database.sequences.foldl (fun current sequence => sequence.destroy current)
      sys.engine.handles
  let handles := sys.database.tables.foldl (fun current table => table.destroy current) handles
  let handles := if sys.database.seq.isSome then handles.close sys.database.seq else handles
  let txnTable := (txnTable.commit txns.head? fault).2
  ⟨txnTable, if sys.database.env.isSome then handles.close sys.database.env else handles⟩

@[simp]
theorem destroy_txn (fault : Option DbError) (sys : System σ) :
    (destroy fault sys).txn =
      ((abortNested sys.database.txns sys.engine.txn).2.commit
        (abortNested sys.database.txns sys.engine.txn).1.head? fault).2 := rfl

theorem abortNested_abortNested (txns : List Nat) (table : TxnTable σ) :
    abortNested (abortNested txns table).1 (abortNested txns table).2 = abortNested txns table := by
  induction txns, table using abortNested.induct with
  | case1 txn next rest table ih => simpa [abortNested] using ih
  | case2 txns table short =>
    rw [abortNested.eq_2 _ _ short]
    exact abortNested.eq_2 _ _ short

theorem destroy_after_loop (fault : Option DbError) (sys : System σ) :
    destroy fault ⟨{ sys.database with txns := (abortNested sys.database.txns sys.engine.txn).1 },
      { sys.engine with txn := (abortNested sys.database.txns sys.engine.txn).2 }⟩ =
      destroy fault sys := by
  simp only [destroy, abortNested_abortNested]

end Database

namespace System

variable {σ : Type} (sys : System σ)

/-- `database::begin_transaction`. -/
def beginTransaction (answer : BeginAnswer) : Except Exception Unit × System σ :=
  match sys.engine.txn.txnBegin sys.database.txns.head? answer with
  | (.ok txn, txnTable) =>
    (.ok (), ⟨{ sys.database with txns := txn :: sys.database.txns },
      { sys.engine with txn := txnTable }⟩)
  | (.error (_, txn), txnTable) =>
    let txnTable := if txn.isSome then (txnTable.abort txn none).2 else txnTable
    (.error .unknown, { sys with engine := { sys.engine with txn := txnTable } })

/-- `commit_transaction` and `rollback_transaction`: refuse at the bottom, else pop and `finish`. -/
def popTransaction (finish : TxnTable σ → Option DbError × TxnTable σ) :
    Except Exception Unit × System σ :=
  if sys.database.txns.length = 1 then (.error .notFound, sys)
  else
    let database := { sys.database with txns := sys.database.txns.tail }
    match finish sys.engine.txn with
    | (none, txnTable) => (.ok (), ⟨database, { sys.engine with txn := txnTable }⟩)
    | (some _, txnTable) => (.error .unknown, ⟨database, { sys.engine with txn := txnTable }⟩)

@[simp]
theorem beginTransaction_ok :
    sys.beginTransaction .ok =
      (.ok (), ⟨{ sys.database with txns := sys.engine.txn.fresh :: sys.database.txns },
        { sys.engine with txn := (sys.engine.txn.create sys.database.txns.head?).2 }⟩) := rfl

@[simp]
theorem beginTransaction_fail (code : DbError) :
    sys.beginTransaction (.fail code) = (.error .unknown, sys) := rfl

@[simp]
theorem beginTransaction_failAfterCreate (code : DbError) :
    sys.beginTransaction (.failAfterCreate code) =
      (.error .unknown, { sys with engine := { sys.engine with
        txn := ((sys.engine.txn.create sys.database.txns.head?).2.abort
          (some sys.engine.txn.fresh) none).2 } }) := rfl

theorem popTransaction_single (finish : TxnTable σ → Option DbError × TxnTable σ)
    (single : sys.database.txns.length = 1) :
    sys.popTransaction finish = (.error .notFound, sys) := by
  simp [popTransaction, single]

theorem popTransaction_pop (finish : TxnTable σ → Option DbError × TxnTable σ)
    (nested : sys.database.txns.length ≠ 1) :
    sys.popTransaction finish =
      (if (finish sys.engine.txn).1.isNone then .ok () else .error .unknown,
        ⟨{ sys.database with txns := sys.database.txns.tail },
          { sys.engine with txn := (finish sys.engine.txn).2 }⟩) := by
  unfold popTransaction
  rw [if_neg nested]
  split <;> simp_all

@[simp]
theorem popTransaction_handles (finish : TxnTable σ → Option DbError × TxnTable σ) :
    (sys.popTransaction finish).2.engine.handles = sys.engine.handles := by
  unfold popTransaction
  split
  · rfl
  · split <;> rfl

theorem popTransaction_notFound (finish : TxnTable σ → Option DbError × TxnTable σ) :
    (sys.popTransaction finish).1 = .error .notFound ↔ sys.database.txns.length = 1 := by
  by_cases single : sys.database.txns.length = 1
  · simp [popTransaction_single _ _ single, single]
  · rw [popTransaction_pop _ _ single]
    split <;> simp [single]

/-- `database::commit_transaction`. -/
def commitTransaction (fault : Option DbError) : Except Exception Unit × System σ :=
  sys.popTransaction fun table => table.commit sys.database.txns.head? fault

/-- `database::rollback_transaction`. -/
def rollbackTransaction (fault : Option DbError) : Except Exception Unit × System σ :=
  sys.popTransaction fun table => table.abort sys.database.txns.head? fault

/-- An engine operation of a table, index, sequence or recordset, run under `m_txns.top()`. -/
def performTop {α : Type} (operation : σ → α × σ) : α × System σ :=
  ((sys.engine.txn.perform sys.database.txns.head? operation).1,
    { sys with engine :=
      { sys.engine with txn := (sys.engine.txn.perform sys.database.txns.head? operation).2 } })

@[simp]
theorem performTop_database {α : Type} (operation : σ → α × σ) :
    (sys.performTop operation).2.database = sys.database := rfl

@[simp]
theorem performTop_handles {α : Type} (operation : σ → α × σ) :
    (sys.performTop operation).2.engine.handles = sys.engine.handles := rfl

@[simp]
theorem performTop_txn {α : Type} (operation : σ → α × σ) :
    (sys.performTop operation).2.engine.txn =
      (sys.engine.txn.perform sys.database.txns.head? operation).2 := rfl

end System

end Bdb
