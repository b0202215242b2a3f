import Mathlib.Logic.Function.Basic
import Bdblib.Txn

/-!
# Engine handles

Every `DB_ENV`, `DB`, `DB_SEQUENCE` and `DBC` the library creates is a handle of the engine,
numbered in creation order. A `DB` handle carries its configuration (comparators, duplicate
sorting), the file it was opened on, and the associations made through it: secondary indexes
(`associate`) and foreign keys (`associate_foreign`). Closing a handle frees it; the engine
logs every close call, including calls made through a `NULL` pointer or on a freed handle.
-/

namespace Bdb

/-- The mode given to `associate_foreign`. -/
inductive ForeignMode where
  /-- `DB_FOREIGN_ABORT`: a delete of a referenced key fails. -/
  | abort
  /-- `DB_FOREIGN_CASCADE`: a delete removes the referencing records. -/
  | cascade
  /-- `DB_FOREIGN_NULLIFY`: a delete rewrites the referencing records through the callback. -/
  | nullify (callback : NullifyCallback)

/-- The engine side of a `DB` handle. -/
structure DbHandle where
  /-- The key comparator (`set_bt_compare`), or the engine's default. -/
  compare : Option Comparator := none
  /-- The duplicate comparator (`set_dup_compare`), or the engine's default. -/
  dupCompare : Option Comparator := none
  /-- Whether `DB_DUPSORT` is set. -/
  dupSort : Bool := false
  /-- The file the handle was opened on (`DB->open`). -/
  file : Option String := none
  /-- Secondary indexes of this primary (`s_secondaries`), most recently associated first. -/
  secondaries : List Nat := []
  /-- For a secondary: its primary and its index callback. -/
  primary : Option (Nat × IndexCallback) := none
  /-- Foreign keys on this master (`f_primaries`): secondary and mode, most recent first. -/
  foreign : List (Nat × ForeignMode) := []
  /-- For a secondary: the foreign master its keys must exist in (`s_foreign`). -/
  master : Option Nat := none

/-- A cursor (`DBC`): the database it reads, its transaction, and the entry it is on. -/
structure Cursor where
  /-- The `DB` handle of the cursor. -/
  db : Nat
  /-- The transaction of `DB->cursor`. -/
  txn : Option Nat
  /-- The current entry, `none` before the cursor is positioned. -/
  position : Option Nat

/-- A join cursor (`DB->join`): its primary, its constituents, and the entry it examines next. -/
structure JoinCursor where
  /-- The primary `DB` handle. -/
  db : Nat
  /-- The transaction of the first constituent. -/
  txn : Option Nat
  /-- The constituents' index handles and keys, the one it walks first. -/
  cursors : List (Nat × Bytes)
  /-- The next candidate entry of the first constituent. -/
  next : Nat

/-- What an open handle is. -/
inductive HandleState where
  /-- A `DB_ENV`. -/
  | env
  /-- A `DB`. -/
  | db (handle : DbHandle)
  /-- A `DB_SEQUENCE` on the record with this key. -/
  | sequence (key : Bytes)
  /-- A `DBC`. -/
  | cursor (cursor : Cursor)
  /-- A join cursor. -/
  | join (cursor : JoinCursor)

/-- The engine's handles. -/
structure Handles where
  /-- The number of handles created so far, and the number of the next one. -/
  fresh : Nat
  /-- Open handles. -/
  heap : Nat → Option HandleState
  /-- Every close call, most recent first; `none` is a close through a `NULL` pointer. -/
  closes : List (Option Nat)

namespace Handles

variable (handles : Handles)

/-- No handle created yet. -/
def empty : Handles := ⟨0, fun _ => none, []⟩

/-- Create a handle (`db_env_create`, `db_create`, `db_sequence_create`, `DB->cursor`). -/
def alloc (state : HandleState) : Nat × Handles :=
  (handles.fresh,
    { handles with
      fresh := handles.fresh + 1
      heap := Function.update handles.heap handles.fresh (some state) })

/-- Replace the state of an open handle. -/
def set (handle : Nat) (state : HandleState) : Handles :=
  { handles with heap := Function.update handles.heap handle (some state) }

/-- A close call through a pointer, `NULL` included: the handle is freed and the call logged. -/
def close (handle : Option Nat) : Handles :=
  { handles with
    heap := match handle with
      | some target => Function.update handles.heap target none
      | none => handles.heap
    closes := handle :: handles.closes }

/-- The `DB` handle behind a number, if it is an open `DB`. -/
def dbHandle (handle : Nat) : Option DbHandle :=
  match handles.heap handle with
  | some (.db state) => some state
  | _ => none

/-- How many times a handle has been closed. -/
def closeCount (handle : Nat) : Nat := handles.closes.count (some handle)

@[simp]
theorem alloc_fst : (handles.alloc state).1 = handles.fresh := rfl

@[simp]
theorem close_closes (handle : Option Nat) :
    (handles.close handle).closes = handle :: handles.closes := rfl

@[simp]
theorem close_fresh (handle : Option Nat) : (handles.close handle).fresh = handles.fresh := rfl

@[simp]
theorem alloc_closes (state : HandleState) : (handles.alloc state).2.closes = handles.closes := rfl

@[simp]
theorem alloc_fresh (state : HandleState) :
    (handles.alloc state).2.fresh = handles.fresh + 1 := rfl

@[simp]
theorem set_closes (handle : Nat) (state : HandleState) :
    (handles.set handle state).closes = handles.closes := rfl

@[simp]
theorem set_fresh (handle : Nat) (state : HandleState) :
    (handles.set handle state).fresh = handles.fresh := rfl

@[simp]
theorem dbHandle_set_db (handle : Nat) (state : DbHandle) :
    (handles.set handle (.db state)).dbHandle handle = some state := by
  simp [set, dbHandle]

theorem dbHandle_set_of_ne {handle other : Nat} (different : other ≠ handle) (state : HandleState) :
    (handles.set handle state).dbHandle other = handles.dbHandle other := by
  simp [set, dbHandle, Function.update_noteq different]

@[simp]
theorem dbHandle_alloc_db (state : DbHandle) :
    (handles.alloc (.db state)).2.dbHandle handles.fresh = some state := by
  simp [alloc, dbHandle]

theorem dbHandle_alloc_of_ne {other : Nat} (different : other ≠ handles.fresh) (state : HandleState) :
    (handles.alloc state).2.dbHandle other = handles.dbHandle other := by
  simp [alloc, dbHandle, Function.update_noteq different]

theorem dbHandle_close_of_ne {handle other : Nat} (different : other ≠ handle) :
    (handles.close (some handle)).dbHandle other = handles.dbHandle other := by
  simp [close, dbHandle, Function.update_noteq different]

@[simp]
theorem close_none_dbHandle : (handles.close none).dbHandle = handles.dbHandle := rfl

end Handles

/-- The engine: its transaction subsystem over a store `σ`, and its handles. -/
structure Engine (σ : Type) where
  /-- Transactions and the store. -/
  txn : TxnTable σ
  /-- Handles. -/
  handles : Handles

/-- An engine that has handed out no transaction and no handle, over a committed store. -/
def Engine.initial {σ : Type} (store : σ) : Engine σ := ⟨TxnTable.empty store, Handles.empty⟩

end Bdb
