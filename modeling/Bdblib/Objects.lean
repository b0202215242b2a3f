import Bdblib.Access
import Bdblib.Stack

/-!
# Sequences, tables and indexes

The constructors of `sequence`, `table` and `index`, the functions of `database` and `table`
that add them, and `index::add_foreign`. Each constructor makes its engine calls in order,
each only when every call before it succeeded (`if (res == 0) res = ...`). The one that fails
makes it close the handle it created, if any, and throw. `index` is derived from `table`: its
constructor starts from the base `table(name)` with `m_db` set to `NULL`. When the constructor
throws, C++ runs `~table` on that base, which closes `m_db` whatever it holds.
-/

namespace Bdb

/-- The first failing call among `calls`. -/
def firstFault (faults : Faults) (calls : List Nat) : Option DbError := calls.findSome? faults

namespace System

variable (sys : System Store)

/-- `sys` with new handles. -/
def withHandles (handles : Handles) : System Store :=
  { sys with engine := { sys.engine with handles } }

/-- An engine call under `m_txns.top()` that returns only a code. -/
def call (operation : Store → Option DbError × Store) : Option DbError × System Store :=
  sys.performTop operation

@[simp]
theorem withHandles_handles (handles : Handles) : (sys.withHandles handles).engine.handles = handles :=
  rfl

@[simp]
theorem withHandles_txn (handles : Handles) : (sys.withHandles handles).engine.txn = sys.engine.txn :=
  rfl

@[simp]
theorem withHandles_withHandles (handles handles' : Handles) :
    (sys.withHandles handles).withHandles handles' = sys.withHandles handles' := rfl

@[simp]
theorem call_handles (operation : Store → Option DbError × Store) :
    (sys.call operation).2.engine.handles = sys.engine.handles := rfl

end System

/-- `DB_SEQUENCE->open` of the record `name`, exclusive when `create`; new records start at `1`. -/
def Sequence.openRecord (name : Bytes) (create : Bool) (store : Store) : Option DbError × Store :=
  match store.sequences name, create with
  | some _, true => (some .eexist, store)
  | some _, false => (none, store)
  | none, true => (none, { store with sequences := Function.update store.sequences name (some 1) })
  | none, false => (some .notFound, store)

/-- `sequence::sequence` after `db_sequence_create`: three settings, then `DB_SEQUENCE->open`. -/
def Sequence.openCalls (faults : Faults) (name : Bytes) (create : Bool) (sys : System Store) :
    Option DbError × System Store :=
  match firstFault faults [1, 2, 3, 4] with
  | some code => (some code, sys)
  | none => sys.call (Sequence.openRecord name create)

/-- `sequence::sequence`: `db_sequence_create` (0), then `Sequence.openCalls`. -/
def Sequence.new (faults : Faults) (name : Bytes) (create : Bool) (sys : System Store) :
    Except Exception Sequence × System Store :=
  match faults 0 with
  | some code => (.error (openError code), sys)
  | none =>
    let created := sys.engine.handles.alloc (.sequence name)
    match Sequence.openCalls faults name create (sys.withHandles created.2) with
    | (some code, sys) =>
      (.error (openError code), sys.withHandles (sys.engine.handles.close (some created.1)))
    | (none, sys) => (.ok ⟨some created.1⟩, sys)

/-- `DB->open` of a B-tree file: `DB_CREATE` creates it empty, `DB_EXCL` refuses it if there. -/
def openFile (file : String) (create exclusive : Bool) (store : Store) : Option DbError × Store :=
  match store.files file with
  | some _ => (if create && exclusive then some .eexist else none, store)
  | none =>
    if create then (none, { store with files := Function.update store.files file (some []) })
    else (some .enoent, store)

/-- `table::table` after `db_create`: `set_bt_compare` (1), then `DB->open` (2). -/
def Table.setupCalls (callback : Option Comparator) : List Nat :=
  (if callback.isSome then [1] else []) ++ [2]

/-- `Table.setupCalls`, opening `name.db` with `DB_CREATE | DB_EXCL` when `create`. -/
def Table.openCalls (faults : Faults) (name : String) (callback : Option Comparator) (create : Bool)
    (sys : System Store) : Option DbError × System Store :=
  match firstFault faults (Table.setupCalls callback) with
  | some code => (some code, sys)
  | none => sys.call (openFile (name ++ ".db") create create)

/-- `table::table`: `db_create` (0), then `Table.openCalls`. -/
def Table.new (faults : Faults) (name : String) (callback : Option Comparator) (create : Bool)
    (sys : System Store) : Except Exception Table × System Store :=
  match faults 0 with
  | some code => (.error (openError code), sys)
  | none =>
    let created := sys.engine.handles.alloc (.db { compare := callback })
    match Table.openCalls faults name callback create (sys.withHandles created.2) with
    | (some code, sys) =>
      (.error (openError code), sys.withHandles (sys.engine.handles.close (some created.1)))
    | (none, sys) =>
      (.ok ⟨name, some created.1, callback, []⟩,
        sys.withHandles (sys.engine.handles.set created.1
          (.db { compare := callback, file := some (name ++ ".db") })))

/-- The entries `DB->associate` with `DB_CREATE` builds, put as `DB_KEYLAST` puts them. -/
def buildSecondary (index : DbHandle) (callback : IndexCallback) : Records → Records → Records
  | [], entries => entries
  | (key, data) :: rest, entries =>
    let entries := match callback key data with
      | none => entries
      | some indexKey =>
        if index.dupSort then
          (Records.putDup index.keyOrder index.dupOrder indexKey key entries).getD entries
        else Records.put index.keyOrder indexKey key entries
    buildSecondary index callback rest entries

/-- The data side of `DB->associate` with `DB_CREATE`: an empty secondary is built. -/
def associateRecords (table index : DbHandle) (callback : IndexCallback) (store : Store) :
    Option DbError × Store :=
  if store.records index = [] then
    (none, store.setRecords index (buildSecondary index callback (store.records table) []))
  else (none, store)

/-- The handle side of `DB->associate`: the primary lists the secondary, which knows it. -/
def associateHandles (handles : Handles) (db index : Nat) (callback : IndexCallback) : Handles :=
  match handles.dbHandle db, handles.dbHandle index with
  | some table, some secondary =>
    (handles.set db (.db { table with secondaries := index :: table.secondaries })).set index
      (.db { secondary with primary := some (db, callback) })
  | _, _ => handles

@[simp]
theorem associateHandles_closes (handles : Handles) (db index : Nat) (callback : IndexCallback) :
    (associateHandles handles db index callback).closes = handles.closes := by
  unfold associateHandles
  split <;> simp

/-- The `DB` handle an index opens on `name.ix`. -/
def indexHandle (name : String) (compare dupCompare : Option Comparator) (unique : Bool) :
    DbHandle :=
  { compare, dupCompare := if unique then none else dupCompare, dupSort := !unique,
    file := some (name ++ ".ix") }

/-- `index::index` before its open: comparators and `DB_DUPSORT` (1 to 3), `DB->open` (4). -/
def Index.setupCalls (table : Table) (compare : Option Comparator) (unique : Bool) : List Nat :=
  (if compare.isSome then [1] else []) ++
    (if unique then [] else (if table.callback.isSome then [2] else []) ++ [3]) ++ [4]

/-- The calls of `Index.setupCalls`, the last one `DB->open` of `name.ix` with `DB_CREATE`. -/
def Index.openCalls (faults : Faults) (table : Table) (name : String)
    (compare : Option Comparator) (unique : Bool) (sys : System Store) :
    Option DbError × System Store :=
  match firstFault faults (Index.setupCalls table compare unique) with
  | some code => (some code, sys)
  | none => sys.call (openFile (name ++ ".ix") true false)

/-- `DB->associate` with `DB_CREATE` of the table's handle with the index handle `db`. -/
def Index.associate (fault : Option DbError) (table : Table) (name : String)
    (callback : IndexCallback) (compare : Option Comparator) (unique : Bool) (db : Nat)
    (sys : System Store) : Option DbError × System Store :=
  match fault, table.db.bind sys.engine.handles.dbHandle with
  | some code, _ => (some code, sys)
  | none, none => (some .einval, sys)
  | none, some primary =>
    let (code, sys) :=
      sys.call (associateRecords primary (indexHandle name compare table.callback unique) callback)
    (code, sys.withHandles (associateHandles sys.engine.handles (table.db.getD db) db callback))

/-- `index::index` after `db_create`, to the first failure: `Index.openCalls`, `DB->associate`. -/
def Index.configure (faults : Faults) (table : Table) (name : String) (callback : IndexCallback)
    (compare : Option Comparator) (unique : Bool) (db : Nat) (sys : System Store) :
    Option DbError × System Store :=
  match Index.openCalls faults table name compare unique sys with
  | (some code, sys) => (some code, sys)
  | (none, sys) => Index.associate (faults 5) table name callback compare unique db sys

theorem Index.configure_closes (faults : Faults) (table : Table) (name : String)
    (callback : IndexCallback) (compare : Option Comparator) (unique : Bool) (db : Nat)
    (sys : System Store) :
    (Index.configure faults table name callback compare unique db sys).2.engine.handles.closes =
      sys.engine.handles.closes := by
  have opened : (Index.openCalls faults table name compare unique sys).2.engine.handles =
      sys.engine.handles := by
    unfold Index.openCalls; split <;> rfl
  unfold Index.configure
  split
  · next sys' _ => simp_all
  · next sys' configured =>
    rw [← opened, configured]
    unfold Index.associate
    split <;> simp

/-- `index::index`: on a failure it closes `m_db`, and `~table` of the base closes it again. -/
def Index.new (faults : Faults) (table : Table) (name : String) (callback : IndexCallback)
    (compare : Option Comparator) (unique : Bool) (sys : System Store) :
    Except Exception Index × System Store :=
  match faults 0 with
  | some _ => (.error .unknown, sys.withHandles (sys.engine.handles.close none))
  | none =>
    let created := sys.engine.handles.alloc (.db (indexHandle name compare table.callback unique))
    match Index.configure faults table name callback compare unique created.1
        (sys.withHandles created.2) with
    | (some _, sys) =>
      (.error .unknown,
        sys.withHandles ((sys.engine.handles.close (some created.1)).close (some created.1)))
    | (none, sys) => (.ok ⟨name, some created.1⟩, sys)

/-- `DB->associate_foreign` on the master `db` for the secondary `index`. -/
def associateForeign (handles : Handles) (db index : Nat) (mode : ForeignMode) : Handles :=
  match handles.dbHandle db, handles.dbHandle index with
  | some master, some secondary =>
    (handles.set db (.db { master with foreign := (index, mode) :: master.foreign })).set index
      (.db { secondary with master := some db })
  | _, _ => handles

/-- `index::add_foreign` in one of the modes of `ForeignMode`: one engine call. -/
def Index.addForeign (fault : Option DbError) (index : Index) (foreign : Table) (mode : ForeignMode)
    (sys : System Store) : Except Exception Unit × System Store :=
  match fault, foreign.db, index.db with
  | none, some db, some secondary =>
    (.ok (), sys.withHandles (associateForeign sys.engine.handles db secondary mode))
  | _, _, _ => (.error .unknown, sys)

namespace System

variable (sys : System Store)

/-- `database::add_sequence`: the sequence joins `m_sequences` only when its constructor returns. -/
def addSequence (faults : Faults) (name : Bytes) (create : Bool) :
    Except Exception Unit × System Store :=
  match Sequence.new faults name create sys with
  | (.ok sequence, sys) =>
    (.ok (), { sys with database :=
      { sys.database with sequences := sys.database.sequences ++ [sequence] } })
  | (.error error, sys) => (.error error, sys)

/-- `database::add_table`. -/
def addTable (faults : Faults) (name : String) (callback : Option Comparator) (create : Bool) :
    Except Exception Unit × System Store :=
  match Table.new faults name callback create sys with
  | (.ok table, sys) =>
    (.ok (), { sys with database := { sys.database with tables := sys.database.tables ++ [table] } })
  | (.error error, sys) => (.error error, sys)

/-- `table::add_index` on the table at `position`, its `m_callback` the duplicate comparator. -/
def addIndex (faults : Faults) (position : Nat) (owner : Table) (name : String)
    (callback : IndexCallback) (compare : Option Comparator) (unique : Bool) :
    Except Exception Unit × System Store :=
  match Index.new faults owner name callback compare unique sys with
  | (.ok index, sys) =>
    (.ok (), { sys with database := { sys.database with
      tables := sys.database.tables.set position { owner with indexes := owner.indexes ++ [index] } } })
  | (.error error, sys) => (.error error, sys)

end System

/-! ## Objects leave the transaction stack alone -/

theorem System.withHandles_transparent (handles : System Store → Handles) :
    Transparent fun sys => sys.withHandles (handles sys) :=
  fun _ => ⟨rfl, rfl, rfl, rfl⟩

theorem Sequence.openCalls_transparent (faults : Faults) (name : Bytes) (create : Bool) :
    Transparent fun sys => (Sequence.openCalls faults name create sys).2 := by
  intro sys
  unfold Sequence.openCalls
  split
  · exact ⟨rfl, rfl, rfl, rfl⟩
  · exact performTop_transparent _ sys

theorem Sequence.new_transparent (faults : Faults) (name : Bytes) (create : Bool) :
    Transparent fun sys => (Sequence.new faults name create sys).2 := by
  intro sys
  have ⟨txns, parents, fresh, finalized⟩ := Sequence.openCalls_transparent faults name create
    (sys.withHandles (sys.engine.handles.alloc (.sequence name)).2)
  dsimp only at txns parents fresh finalized ⊢
  unfold Sequence.new
  split
  · exact ⟨rfl, rfl, rfl, rfl⟩
  · dsimp only
    split <;>
    · next opened =>
      rw [opened] at txns parents fresh finalized
      exact ⟨txns, parents, fresh, finalized⟩

theorem System.addSequence_transparent (faults : Faults) (name : Bytes) (create : Bool) :
    Transparent fun sys => (sys.addSequence faults name create).2 := by
  intro sys
  have ⟨txns, parents, fresh, finalized⟩ := Sequence.new_transparent faults name create sys
  dsimp only at txns parents fresh finalized ⊢
  unfold System.addSequence
  split <;>
  · next opened =>
    rw [opened] at txns parents fresh finalized
    exact ⟨txns, parents, fresh, finalized⟩

theorem Table.openCalls_transparent (faults : Faults) (name : String) (callback : Option Comparator)
    (create : Bool) : Transparent fun sys => (Table.openCalls faults name callback create sys).2 := by
  intro sys
  unfold Table.openCalls
  split
  · exact ⟨rfl, rfl, rfl, rfl⟩
  · exact performTop_transparent _ sys

theorem Table.new_transparent (faults : Faults) (name : String) (callback : Option Comparator)
    (create : Bool) : Transparent fun sys => (Table.new faults name callback create sys).2 := by
  intro sys
  have ⟨txns, parents, fresh, finalized⟩ := Table.openCalls_transparent faults name callback create
    (sys.withHandles (sys.engine.handles.alloc (.db { compare := callback })).2)
  dsimp only at txns parents fresh finalized ⊢
  unfold Table.new
  split
  · exact ⟨rfl, rfl, rfl, rfl⟩
  · dsimp only
    split <;>
    · next opened =>
      rw [opened] at txns parents fresh finalized
      exact ⟨txns, parents, fresh, finalized⟩

theorem System.addTable_transparent (faults : Faults) (name : String) (callback : Option Comparator)
    (create : Bool) : Transparent fun sys => (sys.addTable faults name callback create).2 := by
  intro sys
  have ⟨txns, parents, fresh, finalized⟩ := Table.new_transparent faults name callback create sys
  dsimp only at txns parents fresh finalized ⊢
  unfold System.addTable
  split <;>
  · next opened =>
    rw [opened] at txns parents fresh finalized
    exact ⟨txns, parents, fresh, finalized⟩

/-- The database object the constructor opens on an empty home, the engine answering every call. -/
def System.fresh : System Store :=
  ⟨⟨some 0, some 1, [0], [], []⟩, (Database.new (fun _ => none) (Engine.initial Store.empty)).2⟩

theorem System.fresh_stackInv : StackInv 0 System.fresh :=
  @StackInv.new Store (fun _ => none) (Engine.initial Store.empty) _ _
    (TxnTable.accounted_empty Store.empty) (fun _ => rfl) rfl

end Bdb
