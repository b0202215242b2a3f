import Bdblib.Recordset

/-!
# Handle lifecycle

A run opens a database object, adds sequences, tables, indexes and foreign keys, opens and
closes recordsets, and ends with the destructor. Every engine handle created should be closed
exactly once. The constructor of `index` breaks this. When one of its calls after `db_create`
fails, it closes its `m_db` and throws, and then `~table` of its base subobject closes the
same handle again. When `db_create` itself fails, `~table` closes the `NULL` handle. No real run
goes on from there, so a run here ends at an `add_index` that throws.
-/

namespace Bdb

/-- What a run does between constructor and destructor; objects named by their positions. -/
inductive Action where
  /-- `database::add_sequence`. -/
  | addSequence (faults : Faults) (name : Bytes) (create : Bool)
  /-- `database::add_table`. -/
  | addTable (faults : Faults) (name : String) (callback : Option Comparator) (create : Bool)
  /-- `table::add_index`. -/
  | addIndex (faults : Faults) (table : Nat) (name : String) (callback : IndexCallback)
      (compare : Option Comparator) (unique : Bool)
  /-- `index::add_foreign` on the index `index` of table `table`, to table `foreign`. -/
  | addForeign (fault : Option DbError) (table index foreign : Nat) (mode : ForeignMode)
  /-- `recordset(table)`, `recordset(index)` or `recordset(index, key)`. -/
  | openRecordset (fault : Option DbError) (table : Nat) (index : Option Nat) (key : Option Bytes)
  /-- `recordset(table, list)`. -/
  | openJoin (faults : Faults) (table : Nat) (list : List Nat)
  /-- `delete` of a recordset. -/
  | closeRecordset (recordset : Nat)

/-- A database object and the recordsets its user holds. -/
structure Session where
  /-- The database object and the engine. -/
  sys : System Store
  /-- The user's recordsets. -/
  recordsets : List Recordset

namespace Session

variable (session : Session)

/-- The session with a new database object and engine. -/
def withSys (sys : System Store) : Session := { session with sys }

/-- The index at `index` of the table at `table`. -/
def index? (table index : Nat) : Option Index :=
  session.sys.database.tables[table]? >>= fun owner => owner.indexes[index]?

/-- Open a recordset and hand it to the user when its constructor returns. -/
def keep (opened : Except Exception Recordset × System Store) : Session :=
  match opened with
  | (.ok recordset, sys) => ⟨sys, session.recordsets ++ [recordset]⟩
  | (.error _, sys) => session.withSys sys

/-- One action; an action on a position that holds nothing is no call and changes nothing. -/
def apply : Action → Session
  | .addSequence faults name create =>
    session.withSys (session.sys.addSequence faults name create).2
  | .addTable faults name callback create =>
    session.withSys (session.sys.addTable faults name callback create).2
  | .addIndex faults table name callback compare unique =>
    match session.sys.database.tables[table]? with
    | some owner =>
      session.withSys (session.sys.addIndex faults table owner name callback compare unique).2
    | none => session
  | .addForeign fault table index foreign mode =>
    match session.index? table index, session.sys.database.tables[foreign]? with
    | some target, some master =>
      session.withSys (Index.addForeign fault target master mode session.sys).2
    | _, _ => session
  | .openRecordset fault table index key =>
    let source := match index with
      | none => session.sys.database.tables[table]?.bind Table.db
      | some index => (session.index? table index).bind Index.db
    let kind : RecordsetKind := match index, key with
      | none, _ => .table
      | some _, none => .duplicates
      | some _, some _ => .unique
    match source with
    | some db => session.keep (Recordset.new fault db kind key session.sys)
    | none => session
  | .openJoin faults table list =>
    match session.sys.database.tables[table]?, list.mapM fun position => session.recordsets[position]? with
    | some owner, some members =>
      let (joined, members, sys) := Recordset.join faults owner members session.sys
      let recordsets := (list.zip members).foldl
        (fun recordsets placed => recordsets.set placed.1 placed.2) session.recordsets
      Session.keep ⟨sys, recordsets⟩ (joined, sys)
    | _, _ => session
  | .closeRecordset position =>
    match session.recordsets[position]? with
    | some recordset =>
      ⟨session.sys.withHandles (recordset.destroy session.sys.engine.handles),
        session.recordsets.eraseIdx position⟩
    | none => session

/-- Whether the action is an `add_index` whose `index::index` throws: no real run goes on. -/
def stops : Action → Bool
  | .addIndex faults table name callback compare unique =>
    match session.sys.database.tables[table]? with
    | some owner => !(session.sys.addIndex faults table owner name callback compare unique).1.isOk
    | none => false
  | _ => false

end Session

/-- A run of actions, which ends at an `add_index` that throws. -/
def Session.run (session : Session) : List Action → Session
  | [] => session
  | action :: rest =>
    if session.stops action then session.apply action else (session.apply action).run rest

/-! ## The index constructor -/

section IndexNew

variable {faults : Faults} {table : Table} {name : String} {callback : IndexCallback}
  {compare : Option Comparator} {unique : Bool} {sys : System Store}

/-- When `db_create` fails, `m_db` is still `NULL`, and `~table` of the base closes it. -/
theorem Index.new_create_fails {code : DbError} (failed : faults 0 = some code) :
    (Index.new faults table name callback compare unique sys).2.engine.handles.closes =
      none :: sys.engine.handles.closes := by
  simp [Index.new, failed]

/-- When a later call fails, the constructor and `~table` both close the handle it made. -/
theorem Index.new_closes_twice (created : faults 0 = none) {error : Exception}
    (failed : (Index.new faults table name callback compare unique sys).1 = .error error) :
    (Index.new faults table name callback compare unique sys).2.engine.handles.closes =
      some sys.engine.handles.fresh :: some sys.engine.handles.fresh :: sys.engine.handles.closes := by
  unfold Index.new at failed ⊢
  simp only [created] at failed ⊢
  split at failed
  · next code after configured =>
    have kept := Index.configure_closes faults table name callback compare unique
      sys.engine.handles.fresh
      (sys.withHandles (sys.engine.handles.alloc (.db (indexHandle name compare table.callback unique))).2)
    rw [Handles.alloc_fst] at configured
    rw [configured] at kept
    simp only [Handles.alloc_fst, configured]
    simpa using kept
  · cases failed

end IndexNew

/-! ## A run that closes a handle twice -/

/-- The database object opened on an empty home, the engine answering, with no recordset. -/
def freshSession : Session := ⟨System.fresh, []⟩

/-- Add a table `t`, then an index `i` on it whose `DB->open` fails. -/
def failedIndexRun : List Action :=
  [.addTable (fun _ => none) "t" none true,
    .addIndex (fun call => if call = 4 then some (.other 5) else none) 0 "i" (fun key _ => some key)
      none false]

/-- The run leaves no index, but the index handle `3` is closed twice; every other handle once. -/
theorem add_index_double_close :
    Database.new (fun _ => none) (Engine.initial Store.empty) =
        (.ok freshSession.sys.database, freshSession.sys.engine) ∧
      ((freshSession.run failedIndexRun).sys.database.tables.map fun table => table.indexes.length) =
        [0] ∧
      (Database.destroy none (freshSession.run failedIndexRun).sys).handles.closes =
        [some 0, some 1, some 2, some 3, some 3] ∧
      (Database.destroy none (freshSession.run failedIndexRun).sys).handles.closeCount 3 = 2 :=
  ⟨rfl, rfl, rfl, rfl⟩

end Bdb
